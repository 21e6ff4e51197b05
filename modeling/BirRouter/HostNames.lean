import BirRouter.Dns
import BirRouter.Lib.Loop

/-!
# Host names (`dns_convert_groos_dns_to_db_entry`)

`splitHostname` is the loop of the source with its positions and the buffers it allocates for the
labels; `splitHostname_eq` says that the strings in them are the labels that `convertNames` of
`BirRouter.Dns` gives.

* `hostName_split_iff` — exactly the names without an empty label are accepted, and their labels are
  the split of the name if there are fewer than 256.  The buffer of the last label is too small by the
  NUL behind it, so that only a name that is rejected keeps to its buffers.
* `dnsCommands_malformed_iff` — `dns add` of a malformed name does nothing, but `dns del` removes an
  entry whose labels are those in front of the flaw.
-/

set_option autoImplicit false

namespace BirRouter

open ByteLayout

/-! ## The loop -/

/-- The buffer of a label: what `malloc` was asked for, what was copied to it, and the index that
the NUL is written to. -/
structure LabelBuffer where
  size : Nat
  copied : List Byte
  nul : Nat
  deriving DecidableEq, Repr

def LabelBuffer.Inside (sub : LabelBuffer) : Prop :=
  sub.copied.length ≤ sub.size ∧ sub.nul < sub.size

def LabelBuffer.string (sub : LabelBuffer) : List Byte := sub.copied.takeWhile (· ≠ 0)

/-- `names` has the `count` labels of the entry, `subs` all buffers allocated so far. -/
structure SplitState where
  names : List LabelBuffer
  subs : List LabelBuffer
  start : Nat
  i : Nat
  deriving DecidableEq, Repr

/-- `count` has eight bits, see `addLabel`. -/
def SplitState.addSub (s : SplitState) (sub : LabelBuffer) : SplitState :=
  let names := s.names ++ [sub]
  { s with names := if names.length = 256 then [] else names, subs := s.subs ++ [sub] }

/-- One round, on the memory that `hostname` points to; TRUE is the exception. -/
def splitRound (hostname : List Byte) (s : SplitState) :
    Option (SplitState ⊕ (SplitState × Bool)) := do
  let c ← hostname[s.i]?
  let next ← hostname[s.i + 1]?
  let lastchar := next = 0
  let charisdot := c = dot
  if charisdot ∧ lastchar then some (.inr (s, true))
  else if charisdot ∨ lastchar then
    if s.i = s.start ∧ ¬ lastchar then some (.inr (s, true))
    else
      let len := if lastchar then s.i - s.start + 1 else s.i - s.start
      let s := s.addSub ⟨s.i - s.start + 1, (hostname.drop s.start).take len, len⟩
      let s := { s with start := s.i + 1, i := s.i + 1 }
      if lastchar then some (.inr (s, false)) else some (.inl s)
  else some (.inl { s with i := s.i + 1 })

def splitHostname (hostname : List Byte) : Option (SplitState × Bool) :=
  Loop.run (splitRound hostname) hostname.length ⟨[], [], 0, 0⟩

/-! ## Labels -/

variable {cur l : List Byte} {names : List (List Byte)} {b : Byte}

theorem convertNames_last_dot : convertNames cur names [dot] = (names, true) := by
  simp [convertNames]

theorem convertNames_last (hb : b ≠ dot) :
    convertNames cur names [b] = (addLabel names (cur ++ [b]), false) := by
  simp [convertNames, hb]

theorem convertNames_dot_nil (hl : l ≠ []) : convertNames [] names (dot :: l) = (names, true) := by
  simp [convertNames, hl]

theorem convertNames_dot (hcur : cur ≠ []) (hl : l ≠ []) :
    convertNames cur names (dot :: l) = convertNames [] (addLabel names cur) l := by
  simp [convertNames, hcur, hl]

theorem convertNames_byte (hb : b ≠ dot) (hl : l ≠ []) :
    convertNames cur names (b :: l) = convertNames (cur ++ [b]) names l := by
  simp [convertNames, hb, hl]

/-- Induction over the bytes of a name that are left, beside those of the label it is in. -/
@[elab_as_elim]
theorem name_induction {P : List Byte → List Byte → Prop}
    (last_dot : ∀ cur, P cur [dot])
    (last : ∀ cur b, b ≠ dot → P cur [b])
    (dot_nil : ∀ l, l ≠ [] → P [] (dot :: l))
    (label : ∀ cur l, cur ≠ [] → l ≠ [] → P [] l → P cur (dot :: l))
    (byte : ∀ cur b l, b ≠ dot → l ≠ [] → P (cur ++ [b]) l → P cur (b :: l))
    (cur l : List Byte) (hl : l ≠ []) : P cur l := by
  induction l generalizing cur with
  | nil => exact absurd rfl hl
  | cons b l ih =>
    by_cases hl : l = []
    · subst hl
      by_cases hb : b = dot
      · rw [hb]
        exact last_dot cur
      · exact last cur b hb
    · by_cases hb : b = dot
      · rw [hb]
        by_cases hcur : cur = []
        · rw [hcur]
          exact dot_nil l hl
        · exact label cur l hcur hl (ih [] hl)
      · exact byte cur b l hb hl (ih (cur ++ [b]) hl)

/-- The labels that are complete when a name turns out to be malformed. -/
def completeLabels (name : List Byte) : List (List Byte) :=
  (name.dropLast.splitOn dot).dropLast.takeWhile (· ≠ [])

theorem completeLabels_last (hcur : dot ∉ cur) (b : Byte) : completeLabels (cur ++ [b]) = [] := by
  simp [completeLabels, List.splitOn_eq_singleton hcur]

theorem completeLabels_dot (hcur : dot ∉ cur) (hl : l ≠ []) :
    completeLabels (cur ++ dot :: l) = if cur = [] then [] else cur :: completeLabels l := by
  have hdrop : (cur ++ dot :: l).dropLast = cur ++ dot :: l.dropLast := by
    rw [List.dropLast_append_of_ne_nil (List.cons_ne_nil _ _), List.dropLast_cons_of_ne_nil hl]
  rw [completeLabels, hdrop, List.splitOn_append_cons_self_of_not_mem hcur,
    List.dropLast_cons_of_ne_nil (List.splitOn_ne_nil _ _)]
  split
  · simp [*]
  · rw [List.takeWhile_cons_of_pos (by simpa using ‹_›)]
    rfl

/-- The loop stops at an empty label, and has put the labels before it into the array. -/
theorem convertNames_eq (cur l : List Byte) (hl : l ≠ []) : dot ∉ cur → ∀ names,
    convertNames cur names l =
      if [] ∈ (cur ++ l).splitOn dot then ((completeLabels (cur ++ l)).foldl addLabel names, true)
      else (((cur ++ l).splitOn dot).foldl addLabel names, false) := by
  refine name_induction ?last_dot ?last ?dot_nil ?label ?byte cur l hl
  case last_dot =>
    intro cur hcur names
    rw [convertNames_last_dot, List.splitOn_append_cons_self_of_not_mem hcur,
      completeLabels_last hcur]
    simp
  case last =>
    intro cur b hb hcur names
    have hnot : dot ∉ cur ++ [b] := by simp [hcur, Ne.symm hb]
    rw [convertNames_last hb, List.splitOn_eq_singleton hnot]
    simp
  case dot_nil =>
    intro l hl hcur names
    rw [convertNames_dot_nil hl, List.splitOn_append_cons_self_of_not_mem hcur,
      completeLabels_dot hcur hl]
    simp
  case label =>
    intro cur l hne hl ih hcur names
    rw [convertNames_dot hne hl, ih List.not_mem_nil,
      List.splitOn_append_cons_self_of_not_mem hcur, completeLabels_dot hcur hl]
    simp [hne, Ne.symm hne]
  case byte =>
    intro cur b l hb hl ih hcur names
    have hnot : dot ∉ cur ++ [b] := by simp [hcur, Ne.symm hb]
    rw [convertNames_byte hb hl, ih hnot, List.append_assoc]
    rfl

/-- What is left of the labels when `count` has eight bits. -/
def lastLabels (labels : List (List Byte)) : List (List Byte) :=
  labels.drop (256 * (labels.length / 256))

theorem length_lastLabels (labels : List (List Byte)) :
    (lastLabels labels).length = labels.length % 256 := by
  rw [lastLabels, List.length_drop]
  omega

theorem lastLabels_of_lt {labels : List (List Byte)} (h : labels.length < 256) :
    lastLabels labels = labels := by
  rw [lastLabels, Nat.div_eq_of_lt h]
  rfl

theorem lastLabels_concat (labels : List (List Byte)) (label : List Byte) :
    lastLabels (labels ++ [label]) =
      if (lastLabels labels ++ [label]).length = 256 then [] else lastLabels labels ++ [label] := by
  have hlen := length_lastLabels labels
  rw [List.length_append, List.length_singleton, hlen]
  split
  · refine List.eq_nil_of_length_eq_zero ?_
    rw [length_lastLabels, List.length_append, List.length_singleton]
    omega
  · have hdiv : (labels ++ [label]).length / 256 = labels.length / 256 := by
      rw [List.length_append, List.length_singleton]
      omega
    rw [lastLabels, hdiv, List.drop_append_of_le_length (Nat.mul_div_le _ _)]
    rfl

theorem foldl_addLabel (labels : List (List Byte)) :
    labels.foldl addLabel [] = lastLabels (labels.map (·.takeWhile (· ≠ 0))) := by
  induction labels using List.reverseRecOn with
  | nil => rfl
  | append_singleton labels label ih =>
    rw [List.foldl_append, List.foldl_cons, List.foldl_nil, ih, List.map_append, List.map_singleton,
      lastLabels_concat]
    rfl

/-! ## Positions -/

theorem SplitState.string_addSub (s : SplitState) (sub : LabelBuffer) :
    (s.addSub sub).names.map LabelBuffer.string =
      addLabel (s.names.map LabelBuffer.string) sub.copied := by
  by_cases h : s.names.length + 1 = 256
  · simp [addSub, addLabel, h]
  · simp [addSub, addLabel, h, LabelBuffer.string]

theorem SplitState.subs_addSub_inside (s : SplitState) (sub : LabelBuffer) :
    (∀ a ∈ (s.addSub sub).subs, a.Inside) ↔ (∀ a ∈ s.subs, a.Inside) ∧ sub.Inside := by
  simp [addSub, or_imp, forall_and]

/-- What the rounds from a state on give: the result, the labels, and whether the buffers are
kept to. -/
def SplitsTo (hostname : List Byte) (s : SplitState) (result : List (List Byte) × Bool) (n : Nat) :
    Prop :=
  ∃ t, Loop.run (splitRound hostname) n s = some (t, result.2) ∧
    t.names.map LabelBuffer.string = result.1 ∧
    ((∀ sub ∈ t.subs, sub.Inside) ↔ (∀ sub ∈ s.subs, sub.Inside) ∧ result.2 = true)

theorem SplitsTo.of_stop {hostname : List Byte} {s t : SplitState} {exception : Bool}
    {labels : List (List Byte)} {n : Nat}
    (hround : splitRound hostname s = some (.inr (t, exception)))
    (hnames : t.names.map LabelBuffer.string = labels)
    (hsubs : (∀ sub ∈ t.subs, sub.Inside) ↔ (∀ sub ∈ s.subs, sub.Inside) ∧ exception = true) :
    SplitsTo hostname s (labels, exception) (n + 1) :=
  ⟨t, Loop.run_done hround, hnames, hsubs⟩

theorem SplitsTo.of_next {hostname : List Byte} {s t : SplitState}
    {result : List (List Byte) × Bool} {n : Nat} (h : SplitsTo hostname t result n)
    (hround : splitRound hostname s = some (.inl t))
    (hsubs : (∀ sub ∈ t.subs, sub.Inside) ↔ ∀ sub ∈ s.subs, sub.Inside) :
    SplitsTo hostname s result (n + 1) := by
  obtain ⟨u, hrun, hnames, hinside⟩ := h
  exact ⟨u, (Loop.run_next hround).trans hrun, hnames, hinside.trans (by rw [hsubs])⟩

theorem getElem?_behind (pre cur m : List Byte) (k : Nat) :
    (pre ++ (cur ++ m))[pre.length + cur.length + k]? = m[k]? := by
  rw [← List.append_assoc, List.getElem?_append_right (by rw [List.length_append]; omega),
    List.length_append, Nat.add_sub_cancel_left]

theorem take_drop_label (pre cur m : List Byte) (k : Nat) :
    ((pre ++ (cur ++ m)).drop pre.length).take (cur.length + k) = cur ++ m.take k := by
  rw [List.drop_left, List.take_length_add_append]

/-- A round in terms of the label it is in, `cur`, instead of positions. -/
theorem splitRound_at {s : SplitState} {pre cur : List Byte} (hstart : s.start = pre.length)
    (hi : s.i = pre.length + cur.length) (b next : Byte) (m : List Byte) :
    splitRound (pre ++ (cur ++ b :: next :: m)) s =
      if b = dot ∧ next = 0 then some (.inr (s, true))
      else if b = dot ∨ next = 0 then
        if cur = [] ∧ next ≠ 0 then some (.inr (s, true))
        else if next = 0 then
          some (.inr ({ s.addSub ⟨cur.length + 1, cur ++ [b], cur.length + 1⟩ with
            start := s.i + 1, i := s.i + 1 }, false))
        else
          some (.inl { s.addSub ⟨cur.length + 1, cur, cur.length⟩ with
            start := s.i + 1, i := s.i + 1 })
      else some (.inl { s with i := s.i + 1 }) := by
  have hc : (pre ++ (cur ++ b :: next :: m))[s.i]? = some b := hi ▸ getElem?_behind pre cur _ 0
  have hnext : (pre ++ (cur ++ b :: next :: m))[s.i + 1]? = some next :=
    hi ▸ getElem?_behind pre cur _ 1
  have hlen : s.i - s.start = cur.length := by omega
  have hempty : s.i = s.start ↔ cur = [] := by
    rw [← List.length_eq_zero_iff]
    omega
  have hlabel := take_drop_label pre cur (b :: next :: m) 0
  have hlast := take_drop_label pre cur (b :: next :: m) 1
  rw [Nat.add_zero, List.take_zero, List.append_nil, ← hstart] at hlabel
  rw [List.take_succ_cons, List.take_zero, ← hstart] at hlast
  simp only [splitRound, hc, hnext, Option.bind_eq_bind, Option.bind_some, hlen, hempty]
  by_cases hz : next = 0
  · subst hz
    simp only [if_true, ne_eq, hlast]
    rfl
  · simp only [hz, if_false, ne_eq, hlabel]
    rfl

/-- The rounds from the label `cur` on, which `l` and a NUL follow, do what `convertNames` does. -/
def SplitsAsConverted (rest cur l : List Byte) : Prop :=
  ∀ (pre : List Byte) (s : SplitState) (n : Nat), s.start = pre.length →
    s.i = pre.length + cur.length → l.length ≤ n → 0 ∉ l →
    SplitsTo (pre ++ (cur ++ (l ++ 0 :: rest))) s
      (convertNames cur (s.names.map LabelBuffer.string) l) n

variable {rest : List Byte}

theorem splits_last_dot : SplitsAsConverted rest cur [dot] := by
  intro pre s n hstart hi hn _
  obtain ⟨n, rfl⟩ := Nat.exists_eq_add_of_le' hn
  have hround := splitRound_at hstart hi dot 0 rest
  rw [if_pos ⟨rfl, rfl⟩] at hround
  rw [convertNames_last_dot]
  exact SplitsTo.of_stop hround rfl (by simp)

theorem splits_last (hb : b ≠ dot) : SplitsAsConverted rest cur [b] := by
  intro pre s n hstart hi hn _
  obtain ⟨n, rfl⟩ := Nat.exists_eq_add_of_le' hn
  have hround := splitRound_at hstart hi b 0 rest
  rw [if_neg (by simp [hb]), if_pos (.inr rfl), if_neg (by simp), if_pos rfl] at hround
  rw [convertNames_last hb]
  refine SplitsTo.of_stop hround (s.string_addSub _) ((s.subs_addSub_inside _).trans ?_)
  -- The NUL is written behind the buffer.
  simp [LabelBuffer.Inside]

theorem splits_dot_nil {c : Byte} {m : List Byte} :
    SplitsAsConverted rest [] (dot :: c :: m) := by
  intro pre s n hstart hi hn hnul
  obtain ⟨n, rfl⟩ := Nat.exists_eq_add_of_le' hn
  have hc : c ≠ 0 := fun hc => hnul (by simp [hc])
  have hround := splitRound_at hstart hi dot c (m ++ 0 :: rest)
  rw [if_neg fun h => hc h.2, if_pos (.inl rfl), if_pos ⟨rfl, hc⟩] at hround
  rw [convertNames_dot_nil (List.cons_ne_nil c m)]
  exact SplitsTo.of_stop hround rfl (by simp)

theorem splits_label {c : Byte} {m : List Byte} (hne : cur ≠ [])
    (ih : SplitsAsConverted rest [] (c :: m)) : SplitsAsConverted rest cur (dot :: c :: m) := by
  intro pre s n hstart hi hn hnul
  obtain ⟨n, rfl⟩ := Nat.exists_eq_add_of_le' hn
  have hc : c ≠ 0 := fun hc => hnul (by simp [hc])
  have hround := splitRound_at hstart hi dot c (m ++ 0 :: rest)
  rw [if_neg fun h => hc h.2, if_pos (.inl rfl), if_neg fun h => hne h.1, if_neg hc] at hround
  -- The next label is read from behind this one and its dot.
  have hpos : s.i + 1 = (pre ++ (cur ++ [dot])).length := by
    simp only [List.length_append, List.length_singleton]
    omega
  have hnext := ih (pre ++ (cur ++ [dot]))
    { s.addSub ⟨cur.length + 1, cur, cur.length⟩ with start := s.i + 1, i := s.i + 1 }
    (n + (c :: m).length) hpos hpos (Nat.le_add_left _ _) (fun h => hnul (List.mem_cons_of_mem _ h))
  simp only [s.string_addSub, List.append_assoc, List.nil_append, List.singleton_append] at hnext
  rw [convertNames_dot hne (List.cons_ne_nil c m)]
  refine SplitsTo.of_next hnext hround ((s.subs_addSub_inside _).trans ?_)
  simp [LabelBuffer.Inside]

theorem splits_byte {c : Byte} {m : List Byte} (hb : b ≠ dot)
    (ih : SplitsAsConverted rest (cur ++ [b]) (c :: m)) :
    SplitsAsConverted rest cur (b :: c :: m) := by
  intro pre s n hstart hi hn hnul
  obtain ⟨n, rfl⟩ := Nat.exists_eq_add_of_le' hn
  have hc : c ≠ 0 := fun hc => hnul (by simp [hc])
  have hround := splitRound_at hstart hi b c (m ++ 0 :: rest)
  rw [if_neg fun h => hc h.2, if_neg (not_or.2 ⟨hb, hc⟩)] at hround
  have hpos : s.i + 1 = pre.length + (cur ++ [b]).length := by
    simp only [List.length_append, List.length_singleton]
    omega
  have hnext := ih pre { s with i := s.i + 1 } (n + (c :: m).length) hstart hpos
    (Nat.le_add_left _ _) (fun h => hnul (List.mem_cons_of_mem _ h))
  simp only [List.append_assoc, List.singleton_append] at hnext
  rw [convertNames_byte hb (List.cons_ne_nil c m)]
  exact SplitsTo.of_next hnext hround Iff.rfl

theorem splits_asConverted (rest cur l : List Byte) (hl : l ≠ []) :
    SplitsAsConverted rest cur l := by
  refine name_induction ?last_dot ?last ?dot_nil ?label ?byte cur l hl
  case last_dot =>
    intro cur
    exact splits_last_dot
  case last =>
    intro cur b hb
    exact splits_last hb
  case dot_nil =>
    intro l hl
    obtain ⟨c, m, rfl⟩ := List.exists_cons_of_ne_nil hl
    exact splits_dot_nil
  case label =>
    intro cur l hne hl ih
    obtain ⟨c, m, rfl⟩ := List.exists_cons_of_ne_nil hl
    exact splits_label hne ih
  case byte =>
    intro cur b l hb hl ih
    obtain ⟨c, m, rfl⟩ := List.exists_cons_of_ne_nil hl
    exact splits_byte hb ih

/-- The source's loop and `convertNames` on a name that is terminated by a NUL. -/
theorem splitHostname_eq {name : List Byte} (hne : name ≠ []) (hnul : 0 ∉ name)
    (rest : List Byte) :
    ∃ t, splitHostname (name ++ 0 :: rest) = some (t, (convertNames [] [] name).2) ∧
      t.names.map LabelBuffer.string = (convertNames [] [] name).1 ∧
      ((∀ sub ∈ t.subs, sub.Inside) ↔ (convertNames [] [] name).2 = true) := by
  obtain ⟨t, hrun, hnames, hinside⟩ := splits_asConverted rest [] name hne [] ⟨[], [], 0, 0⟩
    (name ++ 0 :: rest).length rfl rfl (by simp) hnul
  exact ⟨t, hrun, hnames, hinside.trans (by simp)⟩

/-! ## Names -/

/-- What splitting a name is to do. -/
def SplitsRight (name rest : List Byte) : Prop :=
  ∃ t exception, splitHostname (name ++ 0 :: rest) = some (t, exception) ∧
    (exception = false ↔ [] ∉ name.splitOn dot) ∧
    (exception = false → t.names.map LabelBuffer.string = name.splitOn dot ∧
      [dot].intercalate (t.names.map LabelBuffer.string) = name) ∧
    ∀ sub ∈ t.subs, sub.Inside

theorem map_takeWhile_splitOn {name : List Byte} (hnul : 0 ∉ name) :
    (name.splitOn dot).map (·.takeWhile (· ≠ 0)) = name.splitOn dot := by
  refine (List.map_congr_left fun label hlabel => ?_).trans (List.map_id _)
  have hpart := CString.infix_intercalate dot hlabel
  rw [List.intercalate_splitOn] at hpart
  refine List.takeWhile_eq_self_iff.2 fun b hb => ?_
  have hbne : b ≠ 0 := fun hb0 => hnul (hb0 ▸ hpart.subset hb)
  simpa using hbne

/-- Whatever stands behind its NUL, a name is accepted exactly if it has no empty label.  The labels
of an accepted name are then its split if `count` can hold their number.  All label buffers are kept
to exactly if the name is rejected; so the whole is right exactly for names with an empty label. -/
theorem hostName_split_iff {name : List Byte} (hne : name ≠ []) (hnul : 0 ∉ name)
    (rest : List Byte) :
    (∃ t exception, splitHostname (name ++ 0 :: rest) = some (t, exception) ∧
      (exception = false ↔ [] ∉ name.splitOn dot) ∧
      (exception = false → (t.names.map LabelBuffer.string = name.splitOn dot ∧
        [dot].intercalate (t.names.map LabelBuffer.string) = name ↔
          (name.splitOn dot).length < 256)) ∧
      ((∀ sub ∈ t.subs, sub.Inside) ↔ exception = true)) ∧
    (SplitsRight name rest ↔ [] ∈ name.splitOn dot) := by
  obtain ⟨t, hsplit, hnames, hinside⟩ := splitHostname_eq hne hnul rest
  have hconvert := convertNames_eq [] name hne List.not_mem_nil []
  rw [List.nil_append] at hconvert
  by_cases hempty : [] ∈ name.splitOn dot
  · rw [if_pos hempty] at hconvert
    rw [hconvert] at hsplit hnames hinside
    refine ⟨⟨t, true, hsplit, by simp [hempty], by simp, hinside⟩, fun _ => hempty, fun _ => ?_⟩
    exact ⟨t, true, hsplit, by simp [hempty], by simp, hinside.2 rfl⟩
  · rw [if_neg hempty, foldl_addLabel, map_takeWhile_splitOn hnul] at hconvert
    rw [hconvert] at hsplit hnames hinside
    refine ⟨⟨t, false, hsplit, by simp [hempty], fun _ => ?_, hinside⟩, ?_, fun h => absurd h hempty⟩
    · rw [hnames]
      constructor
      · rintro ⟨hlabels, -⟩
        have hlen := congrArg List.length hlabels
        rw [length_lastLabels] at hlen
        omega
      · intro hlt
        rw [lastLabels_of_lt hlt]
        exact ⟨rfl, List.intercalate_splitOn ..⟩
    · rintro ⟨u, exception, heq, -, -, hsubs⟩
      cases hsplit.symm.trans heq
      exact absurd (hinside.1 hsubs) (by simp)

/-- `a..b` is rejected and does no harm. -/
theorem hostName_split_double_dot : [] ∈ List.splitOn dot [97, 46, 46, 98] ∧
    SplitsRight [97, 46, 46, 98] [] := by
  have hempty : [] ∈ List.splitOn dot [97, 46, 46, 98] := by decide
  exact ⟨hempty, (hostName_split_iff (by decide) (by decide) []).2.2 hempty⟩

/-- The label of the name `a` has a buffer of one byte, and its NUL is written behind it. -/
theorem hostName_split_single :
    splitHostname [97, 0] = some (⟨[⟨1, [97], 1⟩], [⟨1, [97], 1⟩], 1, 1⟩, false) ∧
      ¬ LabelBuffer.Inside ⟨1, [97], 1⟩ := by
  exact ⟨by decide, fun h => absurd h.2 (by decide)⟩

/-! ## Commands -/

/-- The bytes that the conversion looks at: the first one in any case. -/
def GrossDns.name (data : GrossDns) : List Byte :=
  data.hostname.take 1 ++ (data.hostname.drop 1).takeWhile (· ≠ 0)

/-- An entry that `dns del` takes for the one to be deleted, although the name is malformed: it has
the address, type and class, and the labels in front of the flaw. -/
def DnsDbEntry.MatchesFlawed (e : DnsDbEntry) (data : GrossDns) : Prop :=
  e.rdata = data.ip ∧ e.type = data.type.setWidth 16 ∧ e.class_ = data.class_.setWidth 16 ∧
    e.names = lastLabels ((completeLabels data.name).map (·.takeWhile (· ≠ 0)))

theorem eq_dnsConvert_iff {data : GrossDns} (h : (dnsConvertGroosDnsToDbEntry data).2 = true)
    (e : DnsDbEntry) : e = (dnsConvertGroosDnsToDbEntry data).1 ↔ e.MatchesFlawed data := by
  have hexception : (convertNames [] [] data.name).2 = true := h
  have hne : data.name ≠ [] := by
    intro hnil
    rw [hnil] at hexception
    exact absurd hexception (by simp [convertNames])
  have hconvert := convertNames_eq [] data.name hne List.not_mem_nil []
  rw [List.nil_append] at hconvert
  have hnames : (dnsConvertGroosDnsToDbEntry data).1.names =
      lastLabels ((completeLabels data.name).map (·.takeWhile (· ≠ 0))) := by
    show (convertNames [] [] data.name).1 = _
    split at hconvert
    · rw [hconvert, foldl_addLabel]
    · rw [hconvert] at hexception
      exact absurd hexception (by simp)
  rw [DnsDbEntry.MatchesFlawed, ← hnames]
  constructor
  · rintro rfl
    exact ⟨rfl, rfl, rfl, rfl⟩
  · rintro ⟨hip, htype, hclass, hlabels⟩
    cases e
    simp only at hip htype hclass hlabels
    subst hip htype hclass hlabels
    rfl

/-- A command with a name that the conversion rejects leaves the database as it is, if it is
`dns add`; if it is `dns del`, exactly if no entry has the address, type and class of the command and
the labels in front of the flaw. -/
theorem dnsCommands_malformed_iff {data : GrossDns}
    (h : (dnsConvertGroosDnsToDbEntry data).2 = true) (db : List DnsDbEntry) :
    cliManipDnsAdd data db = db ∧
      (cliManipDnsDel data db = db ↔ ∀ e ∈ db, ¬ e.MatchesFlawed data) := by
  refine ⟨?_, ?_⟩
  · simp only [cliManipDnsAdd, h, if_true]
  · rw [cliManipDnsDel, List.erase_eq_self_iff]
    constructor
    · rintro hmem e he hmatch
      rw [(eq_dnsConvert_iff h e).2 hmatch] at he
      exact hmem he
    · intro hnone hmem
      exact hnone _ hmem ((eq_dnsConvert_iff h _).1 rfl)

/-- `dns del 10.0.0.1 1 1 "a..b"`, as the scanner passes it on. -/
def delDoubleDot : DnsArguments where
  ip := 0x0100000a
  type := 1
  class_ := 1
  text := [97, 46, 46, 98]
  stale := [0]

theorem dnsCommands_malformed_other :
    let data : GrossDns := ⟨0x0100000a, [97, 46, 46, 98, 0], 1, 1⟩
    let other : DnsDbEntry := ⟨[[98]], 1, 1, 0x0100000a⟩
    delDoubleDot.scan = some data ∧ cliManipDnsDel data [other] = [other] := by
  intro data other
  have hscan : delDoubleDot.scan = some data := rfl
  refine ⟨hscan, (dnsCommands_malformed_iff (by decide) [other]).2.2 ?_⟩
  intro e he hmatch
  rw [List.mem_singleton.1 he] at hmatch
  exact absurd hmatch.2.2.2 (by decide)

/-- The name is rejected, and the entry of the host `a` is gone. -/
theorem dnsCommands_malformed_deletes :
    let data : GrossDns := ⟨0x0100000a, [97, 46, 46, 98, 0], 1, 1⟩
    ScannerText delDoubleDot.text ∧ delDoubleDot.scan = some data ∧
      (dnsConvertGroosDnsToDbEntry data).2 = true ∧
      cliManipDnsDel data [⟨[[97]], 1, 1, 0x0100000a⟩] = [] := by
  refine ⟨.inr ?_, rfl, ?_, ?_⟩ <;> decide

end BirRouter
