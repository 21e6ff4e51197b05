import Mathlib.Data.List.Basic
import Mathlib.Data.List.Chain
import Mathlib.Tactic.Common

/-!
# Removing from the array one iterates over

`sweep p l` is what `for (i = 0; i < size; i++)` leaves of `l` when the body removes element `i` if
it satisfies `p`: the counter moves on after a removal too, so the element that moved to position `i`
is never looked at.

* `sweep_eq_filter_iff` — the loop removes all elements it should exactly if no two of them stand
  next to each other;
* `filter_sweep`, `sweep_sublist` — all others stay, in their order;
* `mem_sweep_of_neg` — membership of an element the loop is not after;
* `taken` — the elements it removes, in their order and with the positions they are found at;
* `Round` — how far the loop is after a number of rounds, for loops whose body does more than that.
-/

set_option autoImplicit false

namespace Sweep

variable {α : Type} {p : α → Bool}

def sweep (p : α → Bool) : List α → List α
  | [] => []
  | a :: l =>
    if p a then
      match l with
      | [] => []
      | b :: l => b :: sweep p l
    else a :: sweep p l

/-- Nowhere two neighbours that both satisfy `p`. -/
def Apart (p : α → Bool) (l : List α) : Prop := l.IsChain fun a b => ¬ (p a = true ∧ p b = true)

instance (p : α → Bool) (l : List α) : Decidable (Apart p l) :=
  inferInstanceAs (Decidable (List.IsChain _ _))

@[simp] theorem sweep_nil : sweep p [] = [] := by rw [sweep]

theorem sweep_of_neg {a : α} {l : List α} (h : ¬ p a = true) :
    sweep p (a :: l) = a :: sweep p l := by
  cases l with
  | nil => simp [sweep, h]
  | cons b l => simp [sweep, h]

theorem sweep_singleton {a : α} (h : p a = true) : sweep p [a] = [] := by rw [sweep, if_pos h]

/-- The element behind a removed one stays, whatever it is. -/
theorem sweep_of_pos {a b : α} {l : List α} (h : p a = true) :
    sweep p (a :: b :: l) = b :: sweep p l := by rw [sweep, if_pos h]

theorem sweep_sublist (l : List α) : (sweep p l).Sublist l := by
  fun_induction sweep p l with
  | case1 => exact List.Sublist.refl []
  | case2 a h => exact List.nil_sublist _
  | case3 a h b l ih => exact (ih.cons_cons b).cons a
  | case4 a l h ih => exact ih.cons_cons a

/-- The elements the loop is not after are as before. -/
theorem filter_sweep (l : List α) :
    (sweep p l).filter (fun a => !p a) = l.filter fun a => !p a := by
  fun_induction sweep p l with
  | case1 => rfl
  | case2 a h => simp [h]
  | case3 a h b l ih =>
    rw [List.filter_cons, List.filter_cons, List.filter_cons, ih]
    simp [h]
  | case4 a l h ih =>
    rw [List.filter_cons, List.filter_cons, ih]

/-- The loop on the images of the elements. -/
theorem sweep_map {β : Type} (f : β → α) (l : List β) :
    sweep p (l.map f) = (sweep (fun b => p (f b)) l).map f := by
  fun_induction sweep (fun b => p (f b)) l with
  | case1 => exact sweep_nil
  | case2 b h => exact sweep_singleton h
  | case3 b h c l ih => rw [List.map_cons, List.map_cons, sweep_of_pos h, ih, List.map_cons]
  | case4 b l h ih => rw [List.map_cons, sweep_of_neg h, ih, List.map_cons]

theorem mem_sweep_of_neg {l : List α} {a : α} (h : ¬ p a = true) : a ∈ sweep p l ↔ a ∈ l := by
  constructor
  · intro ha
    exact (sweep_sublist l).subset ha
  · intro ha
    have hf : a ∈ l.filter fun a => !p a := List.mem_filter.2 ⟨ha, by simpa using h⟩
    rw [← filter_sweep] at hf
    exact (List.mem_filter.1 hf).1

theorem apart_cons_of_neg {a : α} {l : List α} (h : ¬ p a = true) :
    Apart p (a :: l) ↔ Apart p l := by
  unfold Apart
  rw [List.isChain_cons]
  constructor
  · intro hl
    exact hl.2
  · intro hl
    exact ⟨fun b _ hab => h hab.1, hl⟩

/-- **When the loop is a filter.** -/
theorem sweep_eq_filter_iff (l : List α) :
    sweep p l = l.filter (fun a => !p a) ↔ Apart p l := by
  fun_induction sweep p l with
  | case1 => simp [Apart]
  | case2 a h => simp [Apart, h]
  | case3 a h b l ih =>
    by_cases hb : p b = true
    · -- `b` stays although it satisfies `p`
      have hne : b :: sweep p l ≠ (a :: b :: l).filter fun a => !p a := by
        intro heq
        have hmem : b ∈ (a :: b :: l).filter fun a => !p a := heq ▸ List.mem_cons_self
        have hnot := (List.mem_filter.1 hmem).2
        simp [hb] at hnot
      have hadj : ¬ Apart p (a :: b :: l) := by
        intro hch
        exact (List.isChain_cons_cons.1 hch).1 ⟨h, hb⟩
      exact ⟨fun heq => absurd heq hne, fun hch => absurd hch hadj⟩
    · have hfilter : (a :: b :: l).filter (fun a => !p a) = b :: l.filter fun a => !p a := by
        simp [h, hb]
      have happ : Apart p (a :: b :: l) ↔ Apart p (b :: l) := by
        unfold Apart
        rw [List.isChain_cons_cons]
        exact and_iff_right fun hab => hb hab.2
      rw [hfilter, happ, apart_cons_of_neg hb, ← ih]
      simp
  | case4 a l h ih =>
    rw [apart_cons_of_neg h, ← ih, List.filter_cons]
    simp [h]

/-! ## What is removed -/

/-- The elements that the loop removes from `l`, which begins at position `i`. -/
def taken (p : α → Bool) : Nat → List α → List (Nat × α)
  | _, [] => []
  | i, a :: l =>
    if p a then
      match l with
      | [] => [(i, a)]
      | _ :: l => (i, a) :: taken p (i + 1) l
    else taken p (i + 1) l

@[simp] theorem taken_nil (i : Nat) : taken p i [] = [] := by rw [taken]

theorem taken_of_neg {a : α} {l : List α} (i : Nat) (h : ¬ p a = true) :
    taken p i (a :: l) = taken p (i + 1) l := by
  cases l with
  | nil => simp [taken, h]
  | cons b l => simp [taken, h]

theorem taken_singleton {a : α} (i : Nat) (h : p a = true) : taken p i [a] = [(i, a)] := by
  rw [taken, if_pos h]

theorem taken_of_pos {a b : α} {l : List α} (i : Nat) (h : p a = true) :
    taken p i (a :: b :: l) = (i, a) :: taken p (i + 1) l := by rw [taken, if_pos h]

theorem taken_cons_of_pos {a : α} (l : List α) (i : Nat) (h : p a = true) :
    taken p i (a :: l) = (i, a) :: taken p (i + 1) (l.drop 1) := by
  cases l with
  | nil => rw [taken_singleton i h, List.drop_nil, taken_nil]
  | cons b l =>
    rw [taken_of_pos i h]
    rfl

theorem taken_eq_nil {l : List α} (i : Nat) (h : ∀ a ∈ l, ¬ p a = true) : taken p i l = [] := by
  induction l generalizing i with
  | nil => exact taken_nil i
  | cons a l ih =>
    rw [taken_of_neg i (h a List.mem_cons_self)]
    exact ih (i + 1) fun b hb => h b (List.mem_cons_of_mem a hb)

/-- What is appended meanwhile does not matter if the loop is not after it. -/
theorem taken_append {l m : List α} (i : Nat) (h : ∀ a ∈ m, ¬ p a = true) :
    taken p i (l ++ m) = taken p i l := by
  fun_induction taken p i l with
  | case1 i => exact taken_eq_nil i h
  | case2 i a ha =>
    rw [List.singleton_append, taken_cons_of_pos m i ha,
      taken_eq_nil (i + 1) fun b hb => h b (List.mem_of_mem_drop hb)]
  | case3 i a ha b l ih =>
    rw [List.cons_append, List.cons_append, taken_of_pos i ha, ih]
  | case4 i a l ha ih =>
    rw [List.cons_append, taken_of_neg i ha, ih]

/-- **A loop that is a filter takes all it is after.** -/
theorem taken_of_apart (i : Nat) {l : List α} (h : Apart p l) :
    (taken p i l).map Prod.snd = l.filter p := by
  fun_induction taken p i l with
  | case1 => rfl
  | case2 i a ha => simp [ha]
  | case3 i a ha b l ih =>
    obtain ⟨hab, hl⟩ := List.isChain_cons_cons.1 h
    have hb : ¬ p b = true := fun hb => hab ⟨ha, hb⟩
    rw [List.map_cons, ih ((apart_cons_of_neg hb).1 hl), List.filter_cons_of_pos ha,
      List.filter_cons_of_neg hb]
  | case4 i a l ha ih =>
    rw [ih ((apart_cons_of_neg ha).1 h), List.filter_cons_of_neg ha]

/-! ## The loop round by round -/

/-- After `n` rounds on `l`: the elements passed, those still to come and those removed. -/
structure Round (p : α → Bool) (l : List α) (n : Nat) (passed coming : List α)
    (removed : List (Nat × α)) : Prop where
  place : passed.length ≤ n ∧ (coming = [] ∨ passed.length = n)
  length_le : passed.length + coming.length ≤ l.length
  sweep_eq : passed ++ sweep p coming = sweep p l
  taken_eq : removed ++ taken p n coming = taken p 0 l

namespace Round

variable {l passed coming : List α} {removed : List (Nat × α)} {n : Nat}

theorem start (p : α → Bool) (l : List α) : Round p l 0 [] l [] :=
  ⟨⟨Nat.le_refl 0, .inr rfl⟩, Nat.le_of_eq (Nat.zero_add _), rfl, rfl⟩

/-- Behind the end of the array. -/
theorem ended (h : Round p l n passed [] removed) : Round p l (n + 1) passed [] removed :=
  ⟨⟨Nat.le_succ_of_le h.place.1, .inl rfl⟩, h.length_le, h.sweep_eq, by
    rw [taken_nil, ← h.taken_eq, taken_nil]⟩

theorem length_eq {a : α} (h : Round p l n passed (a :: coming) removed) : passed.length = n :=
  h.place.2.resolve_left (List.cons_ne_nil a coming)

theorem skip {a : α} (h : Round p l n passed (a :: coming) removed) (ha : ¬ p a = true) :
    Round p l (n + 1) (passed ++ [a]) coming removed := by
  have hlen := h.length_eq
  have hle := h.length_le
  rw [List.length_cons] at hle
  refine ⟨?_, ?_, ?_, ?_⟩
  · rw [List.length_append, hlen]
    exact ⟨Nat.le_refl _, .inr rfl⟩
  · rw [List.length_append, List.length_singleton]
    omega
  · rw [List.append_assoc, ← h.sweep_eq, sweep_of_neg ha]
    rfl
  · rw [← h.taken_eq, taken_of_neg n ha]

/-- A removal; the next element moves to the position that was looked at. -/
theorem remove {a : α} (h : Round p l n passed (a :: coming) removed) (ha : p a = true) :
    Round p l (n + 1) (passed ++ coming.take 1) (coming.drop 1) (removed ++ [(n, a)]) := by
  have hlen := h.length_eq
  have hle := h.length_le
  rw [List.length_cons] at hle
  cases coming with
  | nil =>
    refine ⟨⟨by simp [hlen], .inl rfl⟩, ?_, ?_, ?_⟩
    · simp only [List.length_nil] at hle
      simp only [List.take_nil, List.drop_nil, List.append_nil, List.length_nil]
      omega
    · rw [← h.sweep_eq, sweep_singleton ha]
      simp
    · rw [← h.taken_eq, taken_singleton n ha]
      simp
  | cons b coming =>
    refine ⟨⟨by simp [hlen], .inr (by simp [hlen])⟩, ?_, ?_, ?_⟩
    · simp only [List.length_cons] at hle
      simp only [List.take_succ_cons, List.take_zero, List.drop_succ_cons, List.drop_zero,
        List.length_append, List.length_singleton]
      omega
    · rw [← h.sweep_eq, sweep_of_pos ha]
      simp
    · rw [← h.taken_eq, taken_of_pos n ha]
      simp

/-- **The end**, which is reached when no element is left at position `n`. -/
theorem finish (h : Round p l n passed coming removed) (hend : (passed ++ coming).length ≤ n) :
    coming = [] ∧ passed = sweep p l ∧ removed = taken p 0 l := by
  obtain rfl : coming = [] := by
    refine h.place.2.elim id fun hlen => ?_
    rw [List.length_append, hlen] at hend
    exact List.length_eq_zero_iff.1 (by omega)
  refine ⟨rfl, ?_, ?_⟩
  · rw [← h.sweep_eq, sweep_nil, List.append_nil]
  · rw [← h.taken_eq, taken_nil, List.append_nil]

end Round

end Sweep
