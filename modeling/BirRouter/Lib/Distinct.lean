import Mathlib.Data.List.Basic
import Mathlib.Data.List.Chain
import Mathlib.Data.List.MinMax
import Mathlib.Data.List.Nodup
import Mathlib.Data.List.Sort
import Mathlib.Tactic.Common

/-!
# Lists grown without repetition, and their least elements

* `addNew` — append an element unless it is there; folded over a list it keeps the first
  occurrence of each element (`foldl_addNew`), in order (`foldl_addNew_sublist`), and no element
  twice (`nodup_foldl_addNew`).
* `nodup_of_isChain_ne` — an ascending list without the same element twice in a row is one.
* `argmin_of_pairwise` — in an ascending list the first element is the first least one, and
  `find?_eq_argmin` the same for the elements that satisfy a test.
* `pairwise_orderedInsert` — insertion in front of the first larger element keeps a list ascending.
* `dropWhile_eq_filter`, `takeWhile_eq_filter` — if a test is passed by a front part of the list only,
  cutting that part off is filtering.
-/

set_option autoImplicit false

namespace Distinct

variable {α β : Type}

section AddNew

variable [DecidableEq α]

def addNew (q : List α) (x : α) : List α := if x ∈ q then q else q ++ [x]

theorem foldl_addNew (l : List α) : l.foldl addNew [] = l.eraseDups := by
  induction l using List.reverseRecOn with
  | nil => rfl
  | append_singleton l x ih =>
    rw [List.foldl_append, ih, List.foldl_cons, List.foldl_nil, List.eraseDups_append, addNew]
    by_cases hx : x ∈ l
    · have hrem : [x].removeAll l = [] := by simp [List.removeAll, hx]
      rw [if_pos (List.mem_eraseDups.2 hx), hrem, List.eraseDups_nil, List.append_nil]
    · have hrem : [x].removeAll l = [x] := by simp [List.removeAll, hx]
      rw [if_neg (fun h => hx (List.mem_eraseDups.1 h)), hrem]
      rfl

theorem mem_foldl_addNew {l : List α} {x : α} : x ∈ l.foldl addNew [] ↔ x ∈ l := by
  rw [foldl_addNew, List.mem_eraseDups]

theorem nodup_foldl_addNew (l : List α) : (l.foldl addNew []).Nodup := by
  refine List.foldlRecOn l addNew List.nodup_nil fun q hq x _ => ?_
  unfold addNew
  split
  · exact hq
  · rename_i hx
    rw [← List.concat_eq_append]
    exact hq.concat hx

theorem foldl_addNew_sublist : ∀ (l acc : List α),
    ∃ s, l.foldl addNew acc = acc ++ s ∧ s.Sublist l
  | [], acc => ⟨[], (List.append_nil acc).symm, List.Sublist.refl []⟩
  | x :: l, acc => by
    obtain ⟨s, hs, hsub⟩ := foldl_addNew_sublist l (addNew acc x)
    rw [List.foldl_cons, hs]
    unfold addNew
    split
    · exact ⟨s, rfl, hsub.cons x⟩
    · exact ⟨x :: s, by rw [List.append_assoc]; rfl, hsub.cons_cons x⟩

end AddNew

section Least

variable [LinearOrder β] {f : α → β}

/-- Ascending, and no element the same as the next: then none comes twice. -/
theorem nodup_of_isChain_ne (hf : Function.Injective f) : ∀ {l : List α}, l.IsChain (· ≠ ·) →
    l.Pairwise (fun a b => f a ≤ f b) → l.Nodup
  | [], _, _ => List.nodup_nil
  | [a], _, _ => List.nodup_singleton a
  | a :: b :: l, hc, ho => by
    rw [List.isChain_cons_cons] at hc
    rw [List.pairwise_cons] at ho
    refine List.nodup_cons.2 ⟨fun ha => ?_, nodup_of_isChain_ne hf hc.2 ho.2⟩
    rcases List.mem_cons.1 ha with rfl | ha
    · exact hc.1 rfl
    · have hle := ho.1 b List.mem_cons_self
      have hge := (List.pairwise_cons.1 ho.2).1 a ha
      exact hc.1 (hf (le_antisymm hle hge))

theorem argmin_of_pairwise : ∀ {l : List α}, l.Pairwise (fun a b => f a ≤ f b) →
    l.argmin f = l.head?
  | [], _ => rfl
  | a :: l, h => by
    rw [List.argmin_cons, List.head?_cons]
    cases hm : l.argmin f with
    | none => rfl
    | some c =>
      have hle : f a ≤ f c := List.rel_of_pairwise_cons h (List.argmin_mem hm)
      show (if f c < f a then some c else some a) = some a
      rw [if_neg (not_lt.2 hle)]

theorem find?_eq_argmin {l : List α} (p : α → Bool) (h : l.Pairwise (fun a b => f a ≤ f b)) :
    l.find? p = (l.filter p).argmin f := by
  rw [argmin_of_pairwise (h.sublist List.filter_sublist), List.head?_filter]

/-- Elements that are as large as the new one stay in front of it. -/
theorem pairwise_orderedInsert {r : α → α → Prop} [DecidableRel r] {a : α} {l : List α}
    (hr : ∀ b, r a b ↔ f a < f b) (h : l.Pairwise fun b c => f b ≤ f c) :
    (l.orderedInsert r a).Pairwise fun b c => f b ≤ f c := by
  induction l with
  | nil => simp
  | cons b l ih =>
    obtain ⟨hb, hl⟩ := List.pairwise_cons.1 h
    rw [List.orderedInsert_cons]
    by_cases hab : r a b
    · have hlt : f a < f b := (hr b).1 hab
      rw [if_pos hab, List.pairwise_cons]
      refine ⟨fun c hc => ?_, h⟩
      rcases List.mem_cons.1 hc with rfl | hc
      · exact hlt.le
      · exact hlt.le.trans (hb c hc)
    · have hle : f b ≤ f a := not_lt.1 (mt (hr b).2 hab)
      rw [if_neg hab, List.pairwise_cons]
      refine ⟨fun c hc => ?_, ih hl⟩
      rcases (List.mem_orderedInsert r).1 hc with rfl | hc
      · exact hle
      · exact hb c hc

end Least

section Front

variable {p : α → Bool} {l : List α}

theorem dropWhile_eq_filter (h : l.Pairwise fun a b => p b = true → p a = true) :
    l.dropWhile p = l.filter fun a => !p a := by
  induction l with
  | nil => rfl
  | cons a l ih =>
    obtain ⟨ha, hl⟩ := List.pairwise_cons.1 h
    by_cases hp : p a = true
    · simp [hp, ih hl]
    · have hall : l.filter (fun b => !p b) = l := by
        apply List.filter_eq_self.2
        intro b hb
        simpa using mt (ha b hb) hp
      simp [hp, hall]

theorem takeWhile_eq_filter (h : l.Pairwise fun a b => p b = true → p a = true) :
    l.takeWhile p = l.filter p := by
  induction l with
  | nil => rfl
  | cons a l ih =>
    obtain ⟨ha, hl⟩ := List.pairwise_cons.1 h
    by_cases hp : p a = true
    · simp [hp, ih hl]
    · have hnone : l.filter p = [] := by
        apply List.filter_eq_nil_iff.2
        exact fun b hb => mt (ha b hb) hp
      simp [hp, hnone]

end Front

end Distinct
