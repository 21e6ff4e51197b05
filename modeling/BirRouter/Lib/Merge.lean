import Mathlib.Data.List.Chain
import Mathlib.Data.List.Flatten
import Mathlib.Logic.Function.Basic

/-!
# Streams merged from several sources

A merged stream is a list of items, each with the source it comes from.  Some items end a group
(`ends`): the last word of a packet, the last byte of a message.

* `part i` — what a merged stream has from source `i`, in order;
* `Unmixed` — the source changes only behind an item that ends a group;
* `Unmixed.groups` — if every source delivers whole groups, an unmixed stream is a sequence of these
  groups, those of each source in their order.
-/

set_option autoImplicit false

namespace Merge

variable {ι β : Type} [DecidableEq ι] {ends : β → Bool} {i j : ι}

def part (i : ι) (l : List (ι × β)) : List β := (l.filter fun x => decide (x.1 = i)).map Prod.snd

@[simp]
theorem part_nil : part i ([] : List (ι × β)) = [] := rfl

@[simp]
theorem part_append (l m : List (ι × β)) : part i (l ++ m) = part i l ++ part i m := by
  simp [part]

theorem part_cons_self (b : β) (l : List (ι × β)) : part i ((i, b) :: l) = b :: part i l := by
  simp [part]

theorem part_cons_of_ne (h : j ≠ i) (b : β) (l : List (ι × β)) :
    part i ((j, b) :: l) = part i l := by
  simp [part, h]

/-- A group with its source on every item. -/
def tag (g : ι × List β) : List (ι × β) := g.2.map (g.1, ·)

theorem part_tag_self (g : List β) : part i (tag (i, g)) = g := by
  induction g with
  | nil => rfl
  | cons b g ih => exact (part_cons_self b _).trans (congrArg _ ih)

theorem part_tag_of_ne (h : j ≠ i) (g : List β) : part i (tag (j, g)) = [] := by
  induction g with
  | nil => rfl
  | cons b g ih => exact (part_cons_of_ne h b _).trans ih

/-- The source changes only behind an item that ends a group. -/
def Unmixed (ends : β → Bool) (l : List (ι × β)) : Prop :=
  l.IsChain fun a b => ends a.2 = false → b.1 = a.1

/-- Only the last item of a group ends it. -/
def Whole (ends : β → Bool) (g : List β) : Prop :=
  ∃ l b, g = l ++ [b] ∧ (∀ x ∈ l, ends x = false) ∧ ends b = true

theorem Whole.ne_nil {g : List β} (h : Whole ends g) : g ≠ [] := by
  obtain ⟨l, b, rfl, -⟩ := h
  simp

/-- A group that has begun is finished before another source is heard. -/
theorem Unmixed.starts_with {l : List (ι × β)} (h : Unmixed ends l) {g : List β} {b : β}
    (hg : ∀ x ∈ g, ends x = false) {rest : List β} (hpart : part i l = g ++ b :: rest)
    (hhead : ∀ x ∈ l.head?, x.1 = i) : ∃ m, l = tag (i, g ++ [b]) ++ m := by
  induction g generalizing l with
  | nil =>
    cases l with
    | nil => simp at hpart
    | cons x l =>
      obtain ⟨j, y⟩ := x
      obtain rfl : j = i := hhead (j, y) rfl
      rw [part_cons_self, List.nil_append] at hpart
      obtain ⟨rfl, -⟩ := List.cons.inj hpart
      exact ⟨l, rfl⟩
  | cons a g ih =>
    cases l with
    | nil => simp at hpart
    | cons x l =>
      obtain ⟨j, y⟩ := x
      obtain rfl : j = i := hhead (j, y) rfl
      rw [part_cons_self, List.cons_append] at hpart
      obtain ⟨rfl, htail⟩ := List.cons.inj hpart
      obtain ⟨hnext, hl⟩ := List.isChain_cons.1 h
      obtain ⟨m, hm⟩ := ih hl (fun x hx => hg x (List.mem_cons_of_mem _ hx)) htail
        fun x hx => hnext x hx (hg y List.mem_cons_self)
      exact ⟨m, by rw [hm]; rfl⟩

/-- **Whole groups stay whole.** -/
theorem Unmixed.groups {l : List (ι × β)} (h : Unmixed ends l) {gs : ι → List (List β)}
    (hw : ∀ i, ∀ g ∈ gs i, Whole ends g) (hpart : ∀ i, part i l = (gs i).flatten) :
    ∃ out : List (ι × List β), l = out.flatMap tag ∧ ∀ i, part i out = gs i := by
  induction hn : l.length using Nat.strong_induction_on generalizing l gs with
  | _ n ih =>
    cases l with
    | nil =>
      refine ⟨[], rfl, fun i => ?_⟩
      cases hgs : gs i with
      | nil => rfl
      | cons g rest =>
        have hflat := hpart i
        rw [hgs, part_nil, List.flatten_cons] at hflat
        exact absurd (List.append_eq_nil_iff.1 hflat.symm).1 (hw i g (by simp [hgs])).ne_nil
    | cons x l =>
      obtain ⟨i, b⟩ := x
      -- the first group of the source of the first item
      obtain ⟨g, rest, hgs⟩ : ∃ g rest, gs i = g :: rest := by
        have hflat := hpart i
        rw [part_cons_self] at hflat
        cases hgs : gs i with
        | nil => rw [hgs] at hflat; cases hflat
        | cons g rest => exact ⟨g, rest, rfl⟩
      obtain ⟨init, last, rfl, hinit, hlast⟩ := hw i g (by simp [hgs])
      have hi : part i ((i, b) :: l) = init ++ last :: rest.flatten := by
        rw [hpart i, hgs, List.flatten_cons, List.append_assoc]
        rfl
      obtain ⟨m, hm⟩ := h.starts_with hinit hi fun x hx => by
        obtain rfl := Option.some.inj hx
        rfl
      have hlen : m.length < n := by
        rw [← hn, hm, List.length_append]
        simp [tag]
      have hrest : ∀ j, part j m = (Function.update gs i rest j).flatten := by
        intro j
        have hj := hpart j
        rw [hm, part_append] at hj
        by_cases hji : j = i
        · subst hji
          rw [part_tag_self, hgs, List.flatten_cons] at hj
          rw [Function.update_self]
          exact List.append_cancel_left hj
        · rw [part_tag_of_ne (Ne.symm hji), List.nil_append] at hj
          rwa [Function.update_of_ne hji]
      have hwm : ∀ j, ∀ g ∈ Function.update gs i rest j, Whole ends g := by
        intro j g hg
        by_cases hji : j = i
        · subst hji
          rw [Function.update_self] at hg
          exact hw j g (by rw [hgs]; exact List.mem_cons_of_mem _ hg)
        · rw [Function.update_of_ne hji] at hg
          exact hw j g hg
      have hum : Unmixed ends m := by
        unfold Unmixed at h
        rw [hm] at h
        exact h.right_of_append
      obtain ⟨out, hout, hparts⟩ := ih m.length hlen hum hwm hrest rfl
      refine ⟨(i, init ++ [last]) :: out, by rw [hm, List.flatMap_cons, ← hout], fun j => ?_⟩
      by_cases hji : j = i
      · subst hji
        rw [part_cons_self, hparts, Function.update_self, hgs]
      · rw [part_cons_of_ne (Ne.symm hji), hparts, Function.update_of_ne hji]

end Merge
