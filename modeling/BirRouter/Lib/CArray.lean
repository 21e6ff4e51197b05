import Mathlib.Data.List.Basic
import Mathlib.Tactic.Common

/-!
# Heap arrays that grow and shrink

An array obtained from `malloc` and resized with `realloc` is the list of its slots.  A slot that
nobody wrote yet holds `junk`.

* `malloc`, `realloc` — a fresh array, and an array cut or extended to `n` slots;
* `shiftDown` — the loop `a[i] = a[i+1]` that closes the gap at `i`;
* `memcpy`, `memcpys` — a copy to the slots from `i` on, and several one behind the other.

`realloc_set` says that growing by one slot and writing it appends; `realloc_shiftDown` that the
shift loop followed by shrinking by one slot deletes.  `foldl_range_slots` is the rule for a loop
that visits the slots in turn and writes only the one it is at.  `memcpys_append` says that copies one
behind the other into an array of their total size leave what was copied.
-/

set_option autoImplicit false

namespace CArray

variable {α β σ : Type}

def malloc (junk : α) (n : Nat) : List α := List.replicate n junk

/-- The slots that exist before and after survive, new ones hold `junk`. -/
def realloc (junk : α) (n : Nat) (a : List α) : List α :=
  a.take n ++ List.replicate (n - a.length) junk

/-- `n` rounds of `a[i] = a[i+1]; i++`. -/
def shiftDown : Nat → Nat → List α → List α
  | _, 0, a => a
  | i, n + 1, a =>
    match a[i + 1]? with
    | some x => shiftDown (i + 1) n (a.set i x)
    | none => shiftDown (i + 1) n a

/-- A copy of `src` to the slots from `i` on, if the array has them. -/
def memcpy (i : Nat) (src a : List α) : Option (List α) :=
  if i + src.length ≤ a.length then some (a.take i ++ (src ++ a.drop (i + src.length))) else none

/-- Copies one behind the other. -/
def memcpys : Nat → List (List α) → List α → Option (List α)
  | _, [], a => some a
  | i, src :: srcs, a => (memcpy i src a).bind (memcpys (i + src.length) srcs)

theorem realloc_length (junk : α) (n : Nat) (a : List α) : (realloc junk n a).length = n := by
  unfold realloc
  rw [List.length_append, List.length_take, List.length_replicate]
  omega

theorem realloc_set (junk x : α) (a : List α) :
    (realloc junk (a.length + 1) a).set a.length x = a ++ [x] := by
  have hone : a.length + 1 - a.length = 1 := by omega
  unfold realloc
  rw [List.take_of_length_le (by omega), hone, List.set_append_right _ _ (Nat.le_refl _),
    Nat.sub_self]
  rfl

theorem realloc_shrink (junk : α) {n : Nat} {a : List α} (h : n ≤ a.length) :
    realloc junk n a = a.take n := by
  unfold realloc
  rw [Nat.sub_eq_zero_of_le h, List.replicate_zero, List.append_nil]

theorem shiftDown_length : ∀ (i n : Nat) (a : List α), (shiftDown i n a).length = a.length
  | _, 0, _ => rfl
  | i, n + 1, a => by
    unfold shiftDown
    split
    · rw [shiftDown_length, List.length_set]
    · exact shiftDown_length (i + 1) n a

/-- The slots `i … i+n-1` take their successors' values, the others keep theirs. -/
theorem getElem?_shiftDown : ∀ (i n : Nat) (a : List α) (j : Nat), i + n < a.length →
    (shiftDown i n a)[j]? = if i ≤ j ∧ j < i + n then a[j + 1]? else a[j]?
  | i, 0, a, j, _ => by
    rw [if_neg (by omega)]
    rfl
  | i, n + 1, a, j, h => by
    have hx : a[i + 1]? = some (a.get ⟨i + 1, by omega⟩) := List.getElem?_eq_getElem _
    unfold shiftDown
    rw [hx]
    simp only
    rw [getElem?_shiftDown (i + 1) n _ j (by rw [List.length_set]; omega)]
    by_cases hj : j = i
    · -- the slot this round writes; the later rounds leave it alone
      subst hj
      rw [if_neg (by omega), if_pos (by omega), List.getElem?_set_self (by omega), hx]
    · by_cases hr : i + 1 ≤ j ∧ j < i + 1 + n
      · rw [if_pos hr, if_pos (by omega), List.getElem?_set_ne (by omega)]
      · rw [if_neg hr, if_neg (by omega), List.getElem?_set_ne (by omega)]

/-- **Closing the gap and shrinking deletes the slot.** -/
theorem realloc_shiftDown (junk : α) {i : Nat} {a : List α} (h : i < a.length) :
    realloc junk (a.length - 1) (shiftDown i (a.length - 1 - i) a) = a.eraseIdx i := by
  rw [realloc_shrink junk (by rw [shiftDown_length]; omega)]
  apply List.ext_getElem?
  intro j
  rw [List.getElem?_take, List.getElem?_eraseIdx, getElem?_shiftDown _ _ _ _ (by omega)]
  by_cases hj : j < a.length - 1
  · rw [if_pos hj]
    by_cases hij : j < i
    · rw [if_neg (by omega), if_pos hij]
    · rw [if_pos (by omega), if_neg hij]
  · rw [if_neg hj, if_neg (by omega), List.getElem?_eq_none (by omega)]

/-! ## Loops over the slots -/

theorem getD_set_self {a : List α} {i : Nat} (h : i < a.length) (x d : α) :
    (a.set i x).getD i d = x := by
  rw [List.getD_eq_getElem?_getD, List.getElem?_set_self h, Option.getD_some]

theorem getD_set_ne (a : List α) {i j : Nat} (h : i ≠ j) (x d : α) :
    (a.set i x).getD j d = a.getD j d := by
  rw [List.getD_eq_getElem?_getD, List.getElem?_set_ne h, ← List.getD_eq_getElem?_getD]

/-- A loop whose round `v` turns the contents of slot `v` by `g v` and leaves the other slots alone;
`ok` is what the rounds need and keep. -/
theorem foldl_range_slots (ok : σ → Prop) (read : σ → Nat → β) (g : Nat → β → β)
    {step : σ → Nat → σ} {n : Nat} (hok : ∀ s, ∀ v < n, ok s → ok (step s v))
    (hself : ∀ s, ∀ v < n, ok s → read (step s v) v = g v (read s v))
    (hother : ∀ s, ∀ v < n, ok s → ∀ w ≠ v, read (step s v) w = read s w) {s : σ} (hs : ok s) :
    ∀ m ≤ n, ok ((List.range m).foldl step s) ∧ ∀ w,
      read ((List.range m).foldl step s) w = if w < m then g w (read s w) else read s w := by
  intro m
  induction m with
  | zero =>
    intro _
    exact ⟨hs, fun w => (if_neg (Nat.not_lt_zero w)).symm⟩
  | succ m ih =>
    intro hm
    obtain ⟨iok, iread⟩ := ih (by omega)
    rw [List.range_succ, List.foldl_append, List.foldl_cons, List.foldl_nil]
    refine ⟨hok _ m (by omega) iok, fun w => ?_⟩
    by_cases hw : w = m
    · subst hw
      rw [hself _ w (by omega) iok, iread, if_neg (Nat.lt_irrefl w), if_pos (Nat.lt_succ_self w)]
    · rw [hother _ m (by omega) iok w hw, iread]
      by_cases hlt : w < m
      · rw [if_pos hlt, if_pos (by omega)]
      · rw [if_neg hlt, if_neg (by omega)]

/-! ## Copies -/

theorem memcpy_append (pre src old post : List α) (h : old.length = src.length) :
    memcpy pre.length src (pre ++ (old ++ post)) = some (pre ++ (src ++ post)) := by
  have hfits : pre.length + src.length ≤ (pre ++ (old ++ post)).length := by
    rw [List.length_append, List.length_append]
    omega
  rw [memcpy, if_pos hfits, List.take_left, ← List.drop_drop, List.drop_left, List.drop_left' h]

/-- **The slots are filled**: the array ends with what was copied. -/
theorem memcpys_append : ∀ (srcs : List (List α)) (pre a : List α),
    a.length = srcs.flatten.length → memcpys pre.length srcs (pre ++ a) = some (pre ++ srcs.flatten)
  | [], pre, a, h => by
    rw [List.length_eq_zero_iff.1 h]
    rfl
  | src :: srcs, pre, a, h => by
    rw [List.flatten_cons, List.length_append] at h
    have hold : (a.take src.length).length = src.length := by
      rw [List.length_take]
      omega
    -- what is copied so far is the new prefix
    have hcopy := memcpy_append pre src (a.take src.length) (a.drop src.length) hold
    rw [List.take_append_drop, ← List.append_assoc] at hcopy
    have ih := memcpys_append srcs (pre ++ src) (a.drop src.length) (by rw [List.length_drop]; omega)
    rw [List.length_append] at ih
    rw [memcpys, hcopy, Option.bind_some, ih, List.flatten_cons, List.append_assoc]

end CArray
