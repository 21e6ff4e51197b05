import BirRouter.CliFraming
import BirRouter.Lib.Loop
import BirRouter.Lib.Occurrences

/-!
# Incremental search (`read_search`)

`read_search` for every needle and every limit on the reads.  A limit of 0 is none; neither is a
negative one.  The server only calls it with a newline and a limit of one read, for which it is the
`readSearch` of `BirRouter.Cli` (`readSearchFor_newline`).

* `Searches` — what holds of the state and the input between two rounds: the buffer and what is still
  to come are the stream, and everything in front of `search_offset` has been reported;
* `readSearchFor_spec` — one call reports the next occurrence, or passes over none;
* `readSearch_scan` — repeated calls report what a scan of the whole stream finds.
-/

set_option autoImplicit false

namespace BirRouter

open ByteLayout Occurrences

/-! ## The search loop -/

/-- The loop over the offsets at which the needle fits: where it was found, and the new
`search_offset`.  The loop over `j` compares the bytes one by one. -/
def searchLoop (needle chbuf : List Byte) (search_offset : Nat) : Option Nat × Nat :=
  if search_offset + needle.length ≤ chbuf.length then
    if needle <+: chbuf.drop search_offset then (some search_offset, search_offset + 1)
    else searchLoop needle chbuf (search_offset + 1)
  else (none, search_offset)
termination_by chbuf.length + 1 - search_offset

/-- What a round of `read_search` starts from. -/
structure SearchRound where
  first_loop : Bool
  max_reads : Int
  s : SearchState
  input : List ReadResult

/-- The rest of a round, after `nread` bytes have been put into the buffer.  In the source `used`
grows behind the search, which looks at the new bytes as well. -/
def checkNeedle (needle : List Byte) (max_reads : Int) (nread : Nat) (s : SearchState)
    (input : List ReadResult) : SearchRound ⊕ (Int × SearchState × List ReadResult) :=
  match searchLoop needle s.chbuf s.search_offset with
  | (some offset, search_offset) =>
    .inr (0, { s with needle_offset := offset, search_offset := search_offset }, input)
  | (none, search_offset) =>
    let s := { s with search_offset := search_offset }
    if max_reads ≠ 0 then
      let max_reads := if nread ≠ 0 then max_reads - 1 else max_reads
      if max_reads = 0 then .inr (-3, s, input) else .inl ⟨false, max_reads, s, input⟩
    else .inl ⟨false, max_reads, s, input⟩

/-- One round of `read_search`; there is no result as long as `read` blocks. -/
def readRound (needle : List Byte) (r : SearchRound) :
    Option (SearchRound ⊕ (Int × SearchState × List ReadResult)) :=
  if r.first_loop then some (checkNeedle needle r.max_reads 0 r.s r.input)
  else
    let grown := (searchStateGrowIfFull r.s).1
    let s := (searchStateGrowIfFull r.s).2
    if grown = 2 then some (.inr (-2, s, r.input))
    else
      match r.input with
      | [] => none
      | .interrupted :: input => some (.inl { r with s := s, input := input })
      | .error :: input => some (.inr (-1, s, input))
      | .eof :: input => some (.inr (1, s, input))
      | .data bytes :: input =>
        let amount := s.amount
        let input := if amount < bytes.length then .data (bytes.drop amount) :: input else input
        let nread := (bytes.take amount).length
        if nread = 0 then some (.inr (1, s, input))
        else some (checkNeedle needle r.max_reads nread
          { s with chbuf := s.chbuf ++ bytes.take amount } input)

/-- Each read takes one of these. -/
def inputSize : List ReadResult → Nat
  | [] => 0
  | .data bytes :: input => bytes.length + 1 + inputSize input
  | _ :: input => 1 + inputSize input

/-- `read_search` -/
def readSearchFor (needle : List Byte) (max_reads : Int) (s : SearchState)
    (input : List ReadResult) : Option (Int × SearchState × List ReadResult) :=
  Loop.run (readRound needle) (inputSize input + 2) ⟨true, max_reads, s, input⟩

/-! ## The call of the server -/

theorem searchLoop_newline (chbuf : List Byte) (o : Nat) :
    searchLoop [newline] chbuf o = searchNeedle (chbuf.drop o) o := by
  fun_induction searchLoop [newline] chbuf o with
  | case1 o hfit hpre =>
    have ho : o < chbuf.length := hfit
    rw [List.drop_eq_getElem_cons ho] at hpre ⊢
    have hb : newline = chbuf[o] := (List.cons_prefix_cons.1 hpre).1
    rw [searchNeedle, if_pos hb.symm]
  | case2 o hfit hpre ih =>
    have ho : o < chbuf.length := hfit
    rw [List.drop_eq_getElem_cons ho] at hpre ⊢
    have hb : chbuf[o] ≠ newline := fun hb =>
      hpre (List.cons_prefix_cons.2 ⟨hb.symm, List.nil_prefix⟩)
    rw [ih, searchNeedle, if_neg hb]
  | case3 o hfit =>
    have ho : chbuf.length ≤ o := Nat.le_of_not_lt hfit
    rw [List.drop_eq_nil_of_le ho]
    rfl

theorem checkNeedle_newline_first (s : SearchState) (input : List ReadResult) :
    checkNeedle [newline] 1 0 s input =
      match s.search with
      | (true, s) => .inr (0, s, input)
      | (false, s) => .inl ⟨false, 1, s, input⟩ := by
  rw [checkNeedle, searchLoop_newline, SearchState.search]
  rcases searchNeedle (s.chbuf.drop s.search_offset) s.search_offset with ⟨_ | o, p⟩ <;> rfl

theorem checkNeedle_newline_read {nread : Nat} (hread : nread ≠ 0) (s : SearchState)
    (input : List ReadResult) :
    checkNeedle [newline] 1 nread s input =
      match s.search with
      | (true, s) => .inr (0, s, input)
      | (false, s) => .inr (-3, s, input) := by
  rw [checkNeedle, searchLoop_newline, SearchState.search]
  rcases searchNeedle (s.chbuf.drop s.search_offset) s.search_offset with ⟨_ | o, p⟩
  · simp [hread]
  · rfl

theorem run_readRound_newline (s : SearchState) (input : List ReadResult) {n : Nat}
    (hn : inputSize input < n) :
    Loop.run (readRound [newline]) n ⟨false, 1, s, input⟩ = readRounds s input := by
  induction input generalizing s n with
  | nil =>
    obtain ⟨n, rfl⟩ := Nat.exists_eq_succ_of_ne_zero (Nat.ne_zero_of_lt hn)
    rw [Loop.run, readRounds, readRound]
    by_cases hgrown : (searchStateGrowIfFull s).1 = 2 <;> simp [hgrown]
  | cons x input ih =>
    obtain ⟨n, rfl⟩ := Nat.exists_eq_succ_of_ne_zero (Nat.ne_zero_of_lt hn)
    rw [Loop.run, readRounds.eq_def, readRound]
    by_cases hgrown : (searchStateGrowIfFull s).1 = 2
    · simp [hgrown]
    cases x with
    | interrupted =>
      simp only [Bool.false_eq_true, if_false, hgrown]
      exact ih _ (by simp only [inputSize] at hn; omega)
    | error => simp [hgrown]
    | eof => simp [hgrown]
    | data bytes =>
      simp only [Bool.false_eq_true, if_false, hgrown]
      by_cases hread : (bytes.take (searchStateGrowIfFull s).2.amount).length = 0
      · simp only [hread, if_true]
      · simp only [hread, if_false, checkNeedle_newline_read hread]
        generalize SearchState.search _ = found
        rcases found with ⟨_ | _, t⟩ <;> rfl

/-- `cli_client_handle_request` calls `read_search` with these arguments. -/
theorem readSearchFor_newline (s : SearchState) (input : List ReadResult) :
    readSearchFor [newline] 1 s input = readSearch s input := by
  rw [readSearchFor, Loop.run, readRound, if_pos rfl, checkNeedle_newline_first, readSearch]
  rcases s.search with ⟨_ | _, t⟩
  · exact run_readRound_newline t input (Nat.lt_succ_self _)
  · rfl

/-! ## One search -/

/-- What is still to come. -/
def inputBytes : List ReadResult → List Byte
  | [] => []
  | .data bytes :: input => bytes ++ inputBytes input
  | _ :: input => inputBytes input

variable {needle stream : List Byte} {s : SearchState} {input : List ReadResult}

/-- Between two rounds: the buffer and what is to come are the stream, which fits. -/
structure Searches (needle stream : List Byte) (s : SearchState) (input : List ReadResult) :
    Prop where
  whole : s.chbuf ++ inputBytes input = stream
  offset : s.search_offset = 0 ∨ s.search_offset + needle.length ≤ s.used + 1
  used : s.used ≤ s.capacity
  positive : 0 < s.capacity
  bounded : s.capacity ≤ s.max_capacity
  fits : stream.length ≤ s.max_capacity

/-- Nothing is left to be found in the buffer. -/
def SearchState.Exhausted (needle : List Byte) (s : SearchState) : Prop :=
  s.used < s.search_offset + needle.length

theorem searchLoop_cases (needle chbuf : List Byte) (o : Nat) :
    (∃ q, searchLoop needle chbuf o = (some q, q + 1) ∧ o ≤ q ∧ q + needle.length ≤ chbuf.length ∧
      needle <+: chbuf.drop q ∧ ∀ i, o ≤ i → i < q → ¬ needle <+: chbuf.drop i) ∨
    (∃ p, searchLoop needle chbuf o = (none, p) ∧ o ≤ p ∧ chbuf.length < p + needle.length ∧
      (p = o ∨ p + needle.length ≤ chbuf.length + 1) ∧
      ∀ i, o ≤ i → i < p → ¬ needle <+: chbuf.drop i) := by
  fun_induction searchLoop needle chbuf o with
  | case1 o hfit hpre => exact .inl ⟨o, rfl, Nat.le_refl o, hfit, hpre, fun i _ _ => by omega⟩
  | case2 o hfit hpre ih =>
    -- The offset the loop passes over joins those of the rounds to come.
    have hskip : ∀ p, (∀ i, o + 1 ≤ i → i < p → ¬ needle <+: chbuf.drop i) →
        ∀ i, o ≤ i → i < p → ¬ needle <+: chbuf.drop i := by
      intro p hp i hoi hip
      rcases Nat.eq_or_lt_of_le hoi with rfl | hoi
      · exact hpre
      · exact hp i hoi hip
    rcases ih with ⟨q, heq, hoq, hq, hfound, hnone⟩ | ⟨p, heq, hop, hp, hlast, hnone⟩
    · exact .inl ⟨q, heq, by omega, hq, hfound, hskip q hnone⟩
    · refine .inr ⟨p, heq, by omega, hp, .inr ?_, hskip p hnone⟩
      rcases hlast with rfl | hlast
      · omega
      · exact hlast
  | case3 o hfit => exact .inr ⟨o, rfl, Nat.le_refl o, by omega, .inl rfl, fun i _ _ => by omega⟩

/-- If the search ends without a find and nothing more is to come, there is nothing left. -/
theorem Searches.scanFrom_nil (h : Searches needle stream s input) (hneedle : needle ≠ [])
    (hend : inputBytes input = []) (hs : s.Exhausted needle) :
    scanFrom needle stream s.search_offset = [] := by
  refine scanFrom_of_lt hneedle ?_
  rw [← h.whole, hend, List.append_nil]
  exact hs

theorem Searches.found (h : Searches needle stream s input) (hneedle : needle ≠ []) {q : Nat}
    (hoq : s.search_offset ≤ q) (hq : q + needle.length ≤ s.used)
    (hfound : needle <+: s.chbuf.drop q)
    (hnone : ∀ i, s.search_offset ≤ i → i < q → ¬ needle <+: s.chbuf.drop i) :
    Searches needle stream { s with needle_offset := q, search_offset := q + 1 } input ∧
      scanFrom needle stream s.search_offset = q :: scanFrom needle stream (q + 1) := by
  have hstream : ∀ i, i ≤ q → (needle <+: stream.drop i ↔ needle <+: s.chbuf.drop i) := by
    intro i hi
    rw [← h.whole]
    exact isPrefix_drop_append (by rw [← SearchState.used]; omega)
  refine ⟨⟨h.whole, .inr ?_, h.used, h.positive, h.bounded, h.fits⟩, ?_⟩
  · show q + 1 + needle.length ≤ s.used + 1
    omega
  · rw [scanFrom_skip hoq fun i hoi hiq => mt (hstream i hiq.le).1 (hnone i hoi hiq)]
    exact scanFrom_of_isPrefix hneedle ((hstream q (Nat.le_refl q)).2 hfound)

theorem Searches.passed (h : Searches needle stream s input) {p : Nat}
    (hop : s.search_offset ≤ p) (hlast : p = s.search_offset ∨ p + needle.length ≤ s.used + 1)
    (hnone : ∀ i, s.search_offset ≤ i → i < p → ¬ needle <+: s.chbuf.drop i) :
    Searches needle stream { s with search_offset := p } input ∧
      scanFrom needle stream s.search_offset = scanFrom needle stream p := by
  rcases hlast with rfl | hlast
  · exact ⟨⟨h.whole, h.offset, h.used, h.positive, h.bounded, h.fits⟩, rfl⟩
  refine ⟨⟨h.whole, .inr hlast, h.used, h.positive, h.bounded, h.fits⟩, ?_⟩
  refine scanFrom_skip hop fun i hoi hip hpre => hnone i hoi hip ?_
  rw [← h.whole] at hpre
  exact (isPrefix_drop_append (by rw [← SearchState.used]; omega)).1 hpre

/-! ## One call -/

/-- What a call does from `search_offset` `o` on, with `n` reads at most: it reports the next
occurrence; or it passes over none, and has used up some of the input or there are no more.  There
are no more either if it blocks. -/
def CallSpec (needle stream : List Byte) (o n : Nat) :
    Option (Int × SearchState × List ReadResult) → Prop
  | none => scanFrom needle stream o = []
  | some (ret, t, rest) => Searches needle stream t rest ∧
    (ret = 0 ∧ t.needle_offset + needle.length ≤ t.used ∧ inputSize rest ≤ n ∧
        scanFrom needle stream o = t.needle_offset :: scanFrom needle stream t.search_offset ∨
      ret ≠ 0 ∧ scanFrom needle stream o = scanFrom needle stream t.search_offset ∧
        (inputSize rest < n ∨ scanFrom needle stream o = []))

theorem CallSpec.mono {o o' n n' : Nat} {result : Option (Int × SearchState × List ReadResult)}
    (h : CallSpec needle stream o n result) (hn : n ≤ n')
    (ho : scanFrom needle stream o' = scanFrom needle stream o) :
    CallSpec needle stream o' n' result := by
  cases result with
  | none => exact ho.trans h
  | some result =>
    obtain ⟨ret, t, rest⟩ := result
    obtain ⟨ht, ⟨h0, hfit, hle, hscan⟩ | ⟨h0, hscan, hrest⟩⟩ := h
    · exact ⟨ht, .inl ⟨h0, hfit, hle.trans hn, ho.trans hscan⟩⟩
    · refine ⟨ht, .inr ⟨h0, ho.trans hscan, ?_⟩⟩
      rcases hrest with hlt | hnil
      · exact .inl (by omega)
      · exact .inr (ho.trans hnil)

/-- What a round starts from: after the first, nothing is left to be found in the buffer. -/
structure SearchRound.Inv (needle stream : List Byte) (r : SearchRound) : Prop where
  searches : Searches needle stream r.s r.input
  exhausted : r.first_loop = false → r.s.Exhausted needle

def SearchRound.size (r : SearchRound) : Nat := inputSize r.input + if r.first_loop then 1 else 0

/-- What a round does: it ends the call, or leads to another round with a size below `m`. -/
def RoundSpec (needle stream : List Byte) (o n m : Nat) :
    Option (SearchRound ⊕ (Int × SearchState × List ReadResult)) → Prop
  | none => CallSpec needle stream o n none
  | some (.inr result) => CallSpec needle stream o n (some result)
  | some (.inl r) => r.Inv needle stream ∧ r.size < m ∧ inputSize r.input ≤ n ∧
    scanFrom needle stream o = scanFrom needle stream r.s.search_offset

theorem checkNeedle_spec (h : Searches needle stream s input) (hneedle : needle ≠ [])
    (max_reads : Int) {nread n m : Nat} (hn : inputSize input ≤ n) (hm : inputSize input < m)
    (hread : nread ≠ 0 → inputSize input < n) :
    RoundSpec needle stream s.search_offset n m
      (some (checkNeedle needle max_reads nread s input)) := by
  rcases searchLoop_cases needle s.chbuf s.search_offset with
    ⟨q, heq, hoq, hq, hfound, hnone⟩ | ⟨p, heq, hop, hp, hlast, hnone⟩
  · obtain ⟨ht, hscan⟩ := h.found hneedle hoq hq hfound hnone
    simp only [checkNeedle, heq]
    exact ⟨ht, .inl ⟨rfl, hq, hn, hscan⟩⟩
  · obtain ⟨ht, hscan⟩ := h.passed hop hlast hnone
    have hnext : ∀ left, RoundSpec needle stream s.search_offset n m
        (some (.inl ⟨false, left, { s with search_offset := p }, input⟩)) :=
      fun left => ⟨⟨ht, fun _ => hp⟩, hm, hn, hscan⟩
    simp only [checkNeedle, heq]
    by_cases hmax : max_reads ≠ 0
    · rw [if_pos hmax]
      by_cases hlast : (if nread ≠ 0 then max_reads - 1 else max_reads) = 0
      · rw [if_pos hlast]
        -- Only a read can use up the limit.
        have hnread : nread ≠ 0 := by
          intro h0
          simp [h0, hmax] at hlast
        exact ⟨ht, .inr ⟨by decide, hscan, .inl (hread hnread)⟩⟩
      · rw [if_neg hlast]
        exact hnext _
    · rw [if_neg hmax]
      exact hnext _

theorem inputBytes_rest (bytes : List Byte) (amount : Nat) (input : List ReadResult) :
    inputBytes (if amount < bytes.length then .data (bytes.drop amount) :: input else input) =
      bytes.drop amount ++ inputBytes input := by
  split
  · rfl
  · rw [List.drop_eq_nil_of_le (by omega), List.nil_append]

theorem inputSize_rest {amount : Nat} (hamount : 0 < amount) (bytes : List Byte)
    (input : List ReadResult) :
    inputSize (if amount < bytes.length then .data (bytes.drop amount) :: input else input) <
      inputSize (.data bytes :: input) := by
  split <;> simp only [inputSize, List.length_drop] <;> omega

theorem Searches.grown (h : Searches needle stream s input) {c : Nat} (hc : s.used < c)
    (hcm : c ≤ s.max_capacity) : Searches needle stream { s with capacity := c } input :=
  ⟨h.whole, h.offset, hc.le, Nat.zero_lt_of_lt hc, hcm, h.fits⟩

/-- What a read does to the state. -/
theorem Searches.read {bytes : List Byte}
    (h : Searches needle stream s (.data bytes :: input)) :
    Searches needle stream { s with chbuf := s.chbuf ++ bytes.take s.amount }
      (if s.amount < bytes.length then .data (bytes.drop s.amount) :: input else input) where
  whole := by
    rw [inputBytes_rest, List.append_assoc, ← List.append_assoc (bytes.take _),
      List.take_append_drop]
    exact h.whole
  offset := by
    have hle : s.used ≤ (s.chbuf ++ bytes.take s.amount).length := by
      rw [List.length_append]
      exact Nat.le_add_right _ _
    rcases h.offset with h0 | hlast
    · exact .inl h0
    · exact .inr (hlast.trans (Nat.succ_le_succ hle))
  used := by
    have hle : (bytes.take s.amount).length ≤ s.capacity - s.used := List.length_take_le ..
    have hused := h.used
    show (s.chbuf ++ bytes.take s.amount).length ≤ s.capacity
    rw [List.length_append, ← SearchState.used]
    omega
  positive := h.positive
  bounded := h.bounded
  fits := h.fits

/-- A read that comes back with no bytes leaves the stream as it is. -/
theorem Searches.skip {rest : List ReadResult} (h : Searches needle stream s input)
    (hrest : inputBytes rest = inputBytes input) : Searches needle stream s rest :=
  ⟨by rw [hrest]; exact h.whole, h.offset, h.used, h.positive, h.bounded, h.fits⟩

/-- A full buffer holds the whole stream. -/
theorem Searches.full (h : Searches needle stream s input) (hmax : s.used = s.max_capacity) :
    inputBytes input = [] := by
  have hfits := h.fits
  rw [← h.whole, List.length_append, ← SearchState.used] at hfits
  exact List.eq_nil_of_length_eq_zero (by omega)

/-- A read that ends the call without any bytes. -/
theorem CallSpec.ended {rest : List ReadResult} {ret : Int} {n : Nat}
    (h : Searches needle stream s rest) (hret : ret ≠ 0) (hsize : inputSize rest < n) :
    CallSpec needle stream s.search_offset n (some (ret, s, rest)) :=
  ⟨h, .inr ⟨hret, rfl, .inl hsize⟩⟩

/-- The rounds that read. -/
theorem readRound_later (h : Searches needle stream s input) (hneedle : needle ≠ [])
    (hs : s.Exhausted needle) (max_reads : Int) :
    RoundSpec needle stream s.search_offset (inputSize input) (inputSize input)
      (readRound needle ⟨false, max_reads, s, input⟩) := by
  simp only [readRound, Bool.false_eq_true, if_false]
  rcases grow_cases h.used h.positive h.bounded with
    ⟨hmax, hg⟩ | ⟨-, code, c, hcode, -, hc, hcm, hg⟩
  · simp only [hg, if_true]
    exact ⟨h, .inr ⟨by decide, rfl, .inr (h.scanFrom_nil hneedle (h.full hmax) hs)⟩⟩
  have hgrown := h.grown hc hcm
  simp only [hg, hcode, if_false]
  cases input with
  | nil => exact h.scanFrom_nil hneedle rfl hs
  | cons x input =>
    cases x with
    | interrupted =>
      have hsize : inputSize input < inputSize (.interrupted :: input) := by
        simp only [inputSize]
        omega
      exact ⟨⟨hgrown.skip rfl, fun _ => hs⟩, hsize, hsize.le, rfl⟩
    | error =>
      exact CallSpec.ended (hgrown.skip rfl) (by decide) (by simp only [inputSize]; omega)
    | eof =>
      exact CallSpec.ended (hgrown.skip rfl) (by decide) (by simp only [inputSize]; omega)
    | data bytes =>
      have hamount : 0 < SearchState.amount { s with capacity := c } := Nat.sub_pos_of_lt hc
      have hsize := inputSize_rest hamount bytes input
      by_cases hread : (bytes.take (SearchState.amount { s with capacity := c })).length = 0
      · -- No bytes have arrived, which `read` reports like the end of the file.
        have hnil : bytes = [] := by
          rw [List.length_take] at hread
          exact List.eq_nil_of_length_eq_zero (by omega)
        simp only [hread, if_true]
        refine CallSpec.ended (hgrown.skip ?_) (by decide) hsize
        rw [inputBytes_rest, hnil]
        simp [inputBytes]
      · simp only [hread, if_false]
        exact checkNeedle_spec hgrown.read hneedle max_reads hsize.le hsize (fun _ => hsize)

/-- **Step lemma.** -/
theorem readRound_spec {r : SearchRound} (h : r.Inv needle stream) (hneedle : needle ≠ []) :
    RoundSpec needle stream r.s.search_offset (inputSize r.input) r.size (readRound needle r) := by
  obtain ⟨first_loop, max_reads, s, input⟩ := r
  cases first_loop with
  | true =>
    exact checkNeedle_spec h.searches hneedle max_reads (Nat.le_refl _) (Nat.lt_succ_self _)
      (fun h0 => absurd rfl h0)
  | false => exact readRound_later h.searches hneedle (h.exhausted rfl) max_reads

/-- **Run lemma.** -/
theorem readSearchFor_spec (h : Searches needle stream s input) (hneedle : needle ≠ [])
    (max_reads : Int) :
    CallSpec needle stream s.search_offset (inputSize input)
      (readSearchFor needle max_reads s input) := by
  refine Loop.run_total (f := SearchRound.size) (I := fun r => r.Inv needle stream ∧
    inputSize r.input ≤ inputSize input ∧
    scanFrom needle stream s.search_offset = scanFrom needle stream r.s.search_offset)
    ?_ ?_ ?_ ⟨⟨h, fun h0 => absurd h0 (by simp)⟩, Nat.le_refl _, rfl⟩ (Nat.lt_succ_self _)
  · rintro r t ⟨hr, hle, hscan⟩ hround
    have hspec := readRound_spec hr hneedle
    rw [hround] at hspec
    obtain ⟨ht, hsize, hle', hscan'⟩ := hspec
    exact ⟨⟨ht, hle'.trans hle, hscan.trans hscan'⟩, hsize⟩
  · rintro r result ⟨hr, hle, hscan⟩ hround
    have hspec := readRound_spec hr hneedle
    rw [hround] at hspec
    exact CallSpec.mono hspec hle hscan
  · rintro r ⟨hr, hle, hscan⟩ hround
    have hspec := readRound_spec hr hneedle
    rw [hround] at hspec
    exact CallSpec.mono hspec hle hscan

/-! ## Repeated calls -/

/-- The states in which calls with these limits report a find, up to the first that blocks. -/
def reported (needle : List Byte) : List Int → SearchState → List ReadResult → List SearchState
  | [], _, _ => []
  | max_reads :: calls, s, input =>
    match readSearchFor needle max_reads s input with
    | none => []
    | some (ret, s, input) =>
      if ret = 0 then s :: reported needle calls s input else reported needle calls s input

/-- The states at the heads of all rounds of these calls, and the last one. -/
def visited (needle : List Byte) : List Int → SearchState → List ReadResult → List SearchState
  | [], s, _ => [s]
  | max_reads :: calls, s, input =>
    (Loop.visits (readRound needle) (inputSize input + 2) ⟨true, max_reads, s, input⟩).map
        SearchRound.s ++
      match readSearchFor needle max_reads s input with
      | none => []
      | some (_, s, input) => visited needle calls s input

theorem reported_scan (h : Searches needle stream s input) (hneedle : needle ≠ [])
    (calls : List Int) :
    (reported needle calls s input).map SearchState.needle_offset <+:
        scanFrom needle stream s.search_offset ∧
      ((scanFrom needle stream s.search_offset).length + inputSize input ≤ calls.length →
        (reported needle calls s input).map SearchState.needle_offset =
          scanFrom needle stream s.search_offset) := by
  induction calls generalizing s input with
  | nil =>
    refine ⟨List.nil_prefix, fun hlen => ?_⟩
    have hnil : (scanFrom needle stream s.search_offset).length = 0 := by
      simp only [List.length_nil] at hlen
      omega
    rw [List.eq_nil_of_length_eq_zero hnil]
    rfl
  | cons max_reads calls ih =>
    have hcall := readSearchFor_spec h hneedle max_reads
    rw [reported]
    cases hresult : readSearchFor needle max_reads s input with
    | none =>
      rw [hresult] at hcall
      have hnil : scanFrom needle stream s.search_offset = [] := hcall
      rw [hnil]
      exact ⟨List.nil_prefix, fun _ => rfl⟩
    | some result =>
      obtain ⟨ret, t, rest⟩ := result
      rw [hresult] at hcall
      obtain ⟨ht, ⟨rfl, -, hsize, hscan⟩ | ⟨hret, hscan, hrest⟩⟩ := hcall
      · obtain ⟨hpre, hall⟩ := ih ht
        simp only [if_true, List.map_cons, List.length_cons, hscan]
        refine ⟨List.cons_prefix_cons.2 ⟨rfl, hpre⟩, fun hlen => ?_⟩
        rw [hall (by omega)]
      · obtain ⟨hpre, hall⟩ := ih ht
        simp only [hret, if_false, List.length_cons]
        rw [hscan]
        refine ⟨hpre, fun hlen => ?_⟩
        rcases hrest with hlt | hnil
        · exact hall (by omega)
        · rw [← hscan, hnil] at hpre ⊢
          exact List.prefix_nil.1 hpre

theorem reported_complete (h : Searches needle stream s input) (hneedle : needle ≠ [])
    (calls : List Int) :
    ∀ t ∈ reported needle calls s input,
      t.chbuf <+: stream ∧ t.needle_offset + needle.length ≤ t.used := by
  induction calls generalizing s input with
  | nil => simp [reported]
  | cons max_reads calls ih =>
    have hcall := readSearchFor_spec h hneedle max_reads
    rw [reported]
    cases hresult : readSearchFor needle max_reads s input with
    | none => simp
    | some result =>
      obtain ⟨ret, t, rest⟩ := result
      rw [hresult] at hcall
      obtain ⟨ht, ⟨rfl, hfit, -, -⟩ | ⟨hret, -, -⟩⟩ := hcall
      · simp only [if_true, List.forall_mem_cons]
        exact ⟨⟨⟨_, ht.whole⟩, hfit⟩, ih ht⟩
      · simp only [hret, if_false]
        exact ih ht

theorem Searches.bounds (h : Searches needle stream s input) (hneedle : needle ≠ []) :
    s.search_offset ≤ s.used + 1 ∧ s.used ≤ s.capacity ∧ s.capacity ≤ s.max_capacity := by
  refine ⟨?_, h.used, h.bounded⟩
  have hpos := List.length_pos_iff.2 hneedle
  rcases h.offset with h0 | hle
  · omega
  · omega

theorem visited_bounds (h : Searches needle stream s input) (hneedle : needle ≠ [])
    (calls : List Int) :
    ∀ t ∈ visited needle calls s input,
      t.search_offset ≤ t.used + 1 ∧ t.used ≤ t.capacity ∧ t.capacity ≤ t.max_capacity := by
  induction calls generalizing s input with
  | nil =>
    simp only [visited, List.mem_singleton, forall_eq]
    exact h.bounds hneedle
  | cons max_reads calls ih =>
    have hcall := readSearchFor_spec h hneedle max_reads
    intro t ht
    rcases List.mem_append.1 ht with hround | hlater
    · obtain ⟨r, hr, rfl⟩ := List.mem_map.1 hround
      have hinv : r.Inv needle stream := by
        refine Loop.visits_spec (I := SearchRound.Inv needle stream) ?_
          ⟨h, fun h0 => absurd h0 (by simp)⟩ r hr
        intro r t hr hnext
        have hspec := readRound_spec hr hneedle
        rw [hnext] at hspec
        exact hspec.1
      exact hinv.searches.bounds hneedle
    · cases hresult : readSearchFor needle max_reads s input with
      | none =>
        rw [hresult] at hlater
        exact absurd hlater List.not_mem_nil
      | some result =>
        rw [hresult] at hlater hcall
        exact ih hcall.1 t hlater

/-- **Repeated calls find what one scan of the stream finds.**  For every needle, every way in which
the bytes of the stream come in, with interrupted and failing reads and ends of file in between, and
every limit on the reads of each call, the finds are the first occurrences that a scan of the whole
stream finds; with enough calls they are all of them.  Each is reported when all of it has been
read, and the offsets and sizes keep their bounds in all rounds. -/
theorem readSearch_scan {init_size max_size : Nat} (hneedle : needle ≠ [])
    (hinit : searchStateInit init_size max_size = some s)
    (hfits : (inputBytes input).length ≤ max_size) (calls : List Int) :
    (reported needle calls s input).map SearchState.needle_offset <+:
        scanFrom needle (inputBytes input) 0 ∧
      ((scanFrom needle (inputBytes input) 0).length + inputSize input ≤ calls.length →
        (reported needle calls s input).map SearchState.needle_offset =
          scanFrom needle (inputBytes input) 0) ∧
      (∀ t ∈ reported needle calls s input,
        t.chbuf <+: inputBytes input ∧ t.needle_offset + needle.length ≤ t.used) ∧
      ∀ t ∈ visited needle calls s input,
        t.search_offset ≤ t.used + 1 ∧ t.used ≤ t.capacity ∧ t.capacity ≤ t.max_capacity := by
  obtain ⟨hready, hnil, hmax⟩ := searchStateInit_spec hinit
  have hoffset : s.search_offset = 0 := by
    have hle := hready.offset
    rw [SearchState.used, hnil] at hle
    exact Nat.le_zero.1 hle
  have h : Searches needle (inputBytes input) s input :=
    { whole := by rw [hnil, List.nil_append]
      offset := .inl hoffset
      used := hready.room.le
      positive := Nat.zero_lt_of_lt hready.room
      bounded := hready.bounded
      fits := hmax ▸ hfits }
  have hscan := reported_scan h hneedle calls
  rw [hoffset] at hscan
  exact ⟨hscan.1, hscan.2, reported_complete h hneedle calls, visited_bounds h hneedle calls⟩

/-- The needle `aa` in `aaa`, whose bytes come in with an interruption between them. -/
theorem readSearch_scan_overlapping : ∃ s, searchStateInit 1 4 = some s ∧
    (reported [97, 97] [1, 1, 1, 1, 1, 1, 1, 1, 1]
      s [.data [97], .interrupted, .data [97, 97]]).map SearchState.needle_offset = [0, 1] := by
  have hinit : searchStateInit 1 4 = some ⟨[], 1, 4, 0, 0⟩ := rfl
  refine ⟨_, hinit, ?_⟩
  refine ((readSearch_scan (by decide) hinit (by decide) [1, 1, 1, 1, 1, 1, 1, 1, 1]).2.1 ?_).trans ?_
  · decide
  · decide

end BirRouter
