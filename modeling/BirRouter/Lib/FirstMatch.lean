import Mathlib.Data.List.Basic
import Mathlib.Data.List.Nodup
import Mathlib.Tactic.Common

/-!
# Updating the first match

`upsert p f new l` updates the first element of `l` that satisfies `p` with `f`, and appends `new`
if there is none: what a scan for the index of the first match, followed by a write at that index
or behind the end, does to a table (`set_eq_upsert`, `append_eq_upsert`).

* `find?_upsert` — the first match afterwards;
* `find?_upsert_of_disjoint` — searches for something else do not notice;
* `mem_upsert`, `map_upsert` — the elements, and their keys when `p` compares a key;
* `eraseP_eq_filter_iff` — when removing the first match removes all of a wider kind.
-/

set_option autoImplicit false

namespace FirstMatch

variable {α κ : Type}

def upsert (p : α → Bool) (f : α → α) (new : α) : List α → List α
  | [] => [new]
  | a :: l => if p a then f a :: l else a :: upsert p f new l

section

variable {p q : α → Bool} {f : α → α} {new : α}

theorem upsert_of_pos {a : α} {l : List α} (h : p a = true) :
    upsert p f new (a :: l) = f a :: l := by rw [upsert, if_pos h]

theorem upsert_of_neg {a : α} {l : List α} (h : ¬ p a = true) :
    upsert p f new (a :: l) = a :: upsert p f new l := by rw [upsert, if_neg h]

theorem length_le_upsert : ∀ l : List α, l.length ≤ (upsert p f new l).length
  | [] => Nat.zero_le _
  | a :: l => by
    by_cases ha : p a = true
    · rw [upsert_of_pos ha]
      exact Nat.le_refl _
    · rw [upsert_of_neg ha]
      exact Nat.succ_le_succ (length_le_upsert l)

theorem upsert_congr {g : α → α} (h : ∀ a, p a = true → f a = g a) (l : List α) :
    upsert p f new l = upsert p g new l := by
  induction l with
  | nil => rfl
  | cons a l ih =>
    by_cases ha : p a = true
    · rw [upsert_of_pos ha, upsert_of_pos ha, h a ha]
    · rw [upsert_of_neg ha, upsert_of_neg ha, ih]

theorem append_eq_upsert (f : α → α) (new : α) : ∀ {l : List α}, l.findIdx? p = none →
    l ++ [new] = upsert p f new l
  | [], _ => rfl
  | a :: l, h => by
    rw [List.findIdx?_cons] at h
    split at h
    · cases h
    · rename_i ha
      rw [upsert_of_neg ha, List.cons_append, append_eq_upsert f new (Option.map_eq_none_iff.1 h)]

theorem upsert_of_find?_none {l : List α} (h : l.find? p = none) :
    upsert p f new l = l ++ [new] := by
  refine (append_eq_upsert f new (List.findIdx?_eq_none_iff.2 fun a ha => ?_)).symm
  simpa using List.find?_eq_none.1 h a ha

theorem set_eq_upsert (f : α → α) (new d : α) : ∀ {l : List α} {n : Nat}, l.findIdx? p = some n →
    l.set n (f (l.getD n d)) = upsert p f new l
  | [], n, h => by cases h
  | a :: l, n, h => by
    rw [List.findIdx?_cons] at h
    split at h
    · rename_i ha
      cases h
      rw [upsert_of_pos ha]
      rfl
    · rename_i ha
      obtain ⟨m, hm, rfl⟩ := Option.map_eq_some_iff.1 h
      rw [upsert_of_neg ha, ← set_eq_upsert f new d hm]
      rfl

theorem getD_findIdx? (d : α) : ∀ {l : List α} {n : Nat}, l.findIdx? p = some n →
    l.find? p = some (l.getD n d)
  | [], n, h => by cases h
  | a :: l, n, h => by
    rw [List.findIdx?_cons] at h
    split at h
    · rename_i ha
      cases h
      rw [List.find?_cons_of_pos ha]
      rfl
    · rename_i ha
      obtain ⟨m, hm, rfl⟩ := Option.map_eq_some_iff.1 h
      rw [List.find?_cons_of_neg ha, getD_findIdx? d hm]
      rfl

theorem getElem?_of_findIdx? (d : α) {l : List α} {n : Nat} (h : l.findIdx? p = some n) :
    l[n]? = some (l.getD n d) := by
  obtain ⟨hlt, -, -⟩ := List.findIdx?_eq_some_iff_getElem.1 h
  rw [List.getD_eq_getElem?_getD, List.getElem?_eq_getElem hlt, Option.getD_some]

theorem find?_eq_none_of_findIdx? {l : List α} (h : l.findIdx? p = none) : l.find? p = none := by
  refine List.find?_eq_none.2 fun a ha => ?_
  rw [List.findIdx?_eq_none_iff.1 h a ha]
  decide

/-- The element found afterwards. -/
theorem find?_upsert (hf : ∀ a, p a = true → p (f a) = true) (hnew : p new = true) :
    ∀ l : List α, (upsert p f new l).find? p = some ((l.find? p).elim new f)
  | [] => by
    show [new].find? p = some new
    rw [List.find?_cons_of_pos hnew]
  | a :: l => by
    by_cases ha : p a = true
    · rw [upsert_of_pos ha, List.find?_cons_of_pos (hf a ha), List.find?_cons_of_pos ha]
      rfl
    · rw [upsert_of_neg ha, List.find?_cons_of_neg ha, List.find?_cons_of_neg ha,
        find?_upsert hf hnew l]

theorem find?_upsert_of_disjoint (hf : ∀ a, p a = true → ¬ q a = true ∧ ¬ q (f a) = true)
    (hnew : ¬ q new = true) : ∀ l : List α, (upsert p f new l).find? q = l.find? q
  | [] => by
    show [new].find? q = none
    rw [List.find?_cons_of_neg hnew]
    rfl
  | a :: l => by
    by_cases ha : p a = true
    · rw [upsert_of_pos ha, List.find?_cons_of_neg (hf a ha).2, List.find?_cons_of_neg (hf a ha).1]
    · rw [upsert_of_neg ha, List.find?_cons, List.find?_cons,
        find?_upsert_of_disjoint hf hnew l]

theorem mem_upsert : ∀ {l : List α} {a : α}, a ∈ upsert p f new l →
    a ∈ l ∨ (∃ b, l.find? p = some b ∧ a = f b) ∨ l.find? p = none ∧ a = new
  | [], a, h => .inr (.inr ⟨rfl, List.mem_singleton.1 h⟩)
  | b :: l, a, h => by
    by_cases hb : p b = true
    · rw [upsert_of_pos hb] at h
      rcases List.mem_cons.1 h with rfl | h
      · exact .inr (.inl ⟨b, List.find?_cons_of_pos hb, rfl⟩)
      · exact .inl (List.mem_cons_of_mem b h)
    · rw [upsert_of_neg hb] at h
      rw [List.find?_cons_of_neg hb]
      rcases List.mem_cons.1 h with rfl | h
      · exact .inl List.mem_cons_self
      · exact (mem_upsert h).imp_left (List.mem_cons_of_mem b)

/-- A constant update leaves its value. -/
theorem mem_upsert_const (l : List α) : new ∈ upsert p (fun _ => new) new l := by
  induction l with
  | nil => exact List.mem_singleton.2 rfl
  | cons a l ih =>
    by_cases ha : p a = true
    · rw [upsert_of_pos ha]
      exact List.mem_cons_self
    · rw [upsert_of_neg ha]
      exact List.mem_cons_of_mem a ih

/-- Elements the update is not after stay. -/
theorem mem_upsert_of_neg {l : List α} {a : α} (h : ¬ p a = true) (ha : a ∈ l) :
    a ∈ upsert p f new l := by
  induction l with
  | nil => cases ha
  | cons b l ih =>
    by_cases hb : p b = true
    · rw [upsert_of_pos hb]
      rcases List.mem_cons.1 ha with rfl | ha
      · exact absurd hb h
      · exact List.mem_cons_of_mem _ ha
    · rw [upsert_of_neg hb]
      rcases List.mem_cons.1 ha with rfl | ha
      · exact List.mem_cons_self
      · exact List.mem_cons_of_mem _ (ih ha)

/-- The first match in its place. -/
theorem upsert_of_find?_some (f : α → α) (new : α) : ∀ {l : List α} {b : α}, l.find? p = some b →
    ∃ l₁ l₂, l = l₁ ++ b :: l₂ ∧ upsert p f new l = l₁ ++ f b :: l₂
  | [], b, h => by cases h
  | a :: l, b, h => by
    by_cases ha : p a = true
    · rw [List.find?_cons_of_pos ha] at h
      cases h
      exact ⟨[], l, rfl, upsert_of_pos ha⟩
    · rw [List.find?_cons_of_neg ha] at h
      obtain ⟨l₁, l₂, rfl, hu⟩ := upsert_of_find?_some f new h
      exact ⟨a :: l₁, l₂, rfl, by rw [upsert_of_neg ha, hu]; rfl⟩

/-- An element is overwritten only if it is the one that is found. -/
theorem mem_upsert_const_iff {l : List α} {a : α} (h : l.Nodup) (ha : a ∈ l) (hne : a ≠ new) :
    a ∈ upsert p (fun _ => new) new l ↔ l.find? p ≠ some a := by
  cases hb : l.find? p with
  | none =>
    rw [upsert_of_find?_none hb]
    simp [ha]
  | some b =>
    obtain ⟨l₁, l₂, rfl, hu⟩ := upsert_of_find?_some (fun _ => new) new hb
    rw [hu]
    rw [List.nodup_middle, List.nodup_cons] at h
    constructor
    · rintro hmem heq
      cases heq
      rw [List.mem_append, List.mem_cons] at hmem
      rcases hmem with hmem | hmem | hmem
      · exact h.1 (List.mem_append_left _ hmem)
      · exact hne hmem
      · exact h.1 (List.mem_append_right _ hmem)
    · intro hdiff
      rw [List.mem_append, List.mem_cons] at ha ⊢
      rcases ha with ha | rfl | ha
      · exact .inl ha
      · exact absurd rfl hdiff
      · exact .inr (.inr ha)

end

section Keys

variable [DecidableEq κ] {key : α → κ} {x : κ} {f : α → α} {new : α}

/-- The keys, when the update keeps them: at most the key looked for is new. -/
theorem map_upsert (hf : ∀ a, key a = x → key (f a) = x) (hnew : key new = x) :
    ∀ l : List α, (upsert (fun a => key a = x) f new l).map key =
      if x ∈ l.map key then l.map key else l.map key ++ [x]
  | [] => by
    rw [if_neg (by simp)]
    show [key new] = [x]
    rw [hnew]
  | a :: l => by
    by_cases ha : key a = x
    · rw [upsert_of_pos (by simpa using ha), List.map_cons, hf a ha, if_pos (by simp [ha]),
        List.map_cons, ha]
    · have hm : (x ∈ (a :: l).map key) = (x ∈ l.map key) := by
        simp only [List.map_cons, List.mem_cons, Ne.symm ha, false_or]
      rw [upsert_of_neg (by simpa using ha), List.map_cons, map_upsert hf hnew l]
      simp only [hm]
      split <;> simp

/-- No key comes twice if none did before. -/
theorem nodup_upsert (hf : ∀ a, key a = x → key (f a) = x) (hnew : key new = x) {l : List α}
    (h : (l.map key).Nodup) : ((upsert (fun a => key a = x) f new l).map key).Nodup := by
  rw [map_upsert hf hnew]
  split
  · exact h
  · rename_i hx
    rw [List.nodup_append]
    exact ⟨h, List.nodup_singleton x, fun a ha b hb => by
      rw [List.mem_singleton.1 hb]; rintro rfl; exact hx ha⟩

/-- With distinct keys, an element is found by its key. -/
theorem find?_key_of_mem {l : List α} {a : α} (h : (l.map key).Nodup) (ha : a ∈ l) :
    l.find? (fun b => key b = key a) = some a := by
  cases hfind : l.find? fun b => key b = key a with
  | none =>
    have := List.find?_eq_none.1 hfind a ha
    simp at this
  | some b =>
    have hkey : key b = key a := by simpa using List.find?_some hfind
    rw [List.inj_on_of_nodup_map h (List.mem_of_find?_eq_some hfind) ha hkey]

end Keys

section NewKey

variable {p : α → Bool} {key : α → κ} {x : κ} {f : α → α} {new : α}

/-- What an update does not change is unchanged in the whole list. -/
theorem map_upsert_of_find? {l : List α} {b : α} (hb : l.find? p = some b) (hf : key (f b) = key b) :
    (upsert p f new l).map key = l.map key := by
  obtain ⟨l₁, l₂, rfl, hu⟩ := upsert_of_find?_some f new hb
  rw [hu, List.map_append, List.map_append, List.map_cons, List.map_cons, hf]

/-- A key nobody has comes in the place of another one or behind the others. -/
theorem nodup_upsert_of_not_mem {l : List α} (hf : ∀ a ∈ l, p a = true → key (f a) = x)
    (hnew : key new = x) (hx : x ∉ l.map key) (h : (l.map key).Nodup) :
    ((upsert p f new l).map key).Nodup := by
  cases hb : l.find? p with
  | none =>
    rw [upsert_of_find?_none hb, List.map_append, List.nodup_append]
    refine ⟨h, List.nodup_singleton _, ?_⟩
    intro a ha b hb
    rw [List.mem_singleton.1 hb, hnew]
    rintro rfl
    exact hx ha
  | some b =>
    have hfb := hf b (List.mem_of_find?_eq_some hb) (List.find?_some hb)
    obtain ⟨l₁, l₂, rfl, hu⟩ := upsert_of_find?_some f new hb
    rw [hu]
    rw [List.map_append, List.map_cons, List.nodup_middle, List.nodup_cons] at h ⊢
    refine ⟨?_, h.2⟩
    rw [hfb]
    intro hmem
    apply hx
    rw [List.map_append, List.map_cons]
    exact List.mem_append.2 ((List.mem_append.1 hmem).imp_right (List.mem_cons_of_mem _))

end NewKey

section Remove

/-- Removing the first element that meets `p` removes all that meet `q`, exactly if there is at most
one of them and it meets `p`. -/
theorem eraseP_eq_filter_iff {p q : α → Bool} (hpq : ∀ a, p a = true → q a = true) (l : List α) :
    l.eraseP p = l.filter (fun a => !q a) ↔
      l.countP q ≤ 1 ∧ ∀ a ∈ l, q a = true → p a = true := by
  induction l with
  | nil => simp
  | cons a l ih =>
    by_cases hp : p a = true
    · have hq := hpq a hp
      rw [List.eraseP_cons_of_pos hp, List.filter_cons_of_neg (by simp [hq]),
        List.countP_cons_of_pos hq, eq_comm, List.filter_eq_self]
      constructor
      · intro hnone
        have hzero : l.countP q = 0 := List.countP_eq_zero.2 fun b hb => by simpa using hnone b hb
        refine ⟨by omega, List.forall_mem_cons.2 ⟨fun _ => hp, fun b hb hqb => ?_⟩⟩
        have hnot := hnone b hb
        simp [hqb] at hnot
      · rintro ⟨hcount, -⟩ b hb
        have hzero := List.countP_eq_zero.1 (show l.countP q = 0 by omega) b hb
        simpa using hzero
    · rw [List.eraseP_cons_of_neg hp]
      by_cases hq : q a = true
      · rw [List.filter_cons_of_neg (by simp [hq])]
        constructor
        · intro heq
          have hmem : a ∈ l.filter fun a => !q a := heq ▸ List.mem_cons_self
          have hnot := (List.mem_filter.1 hmem).2
          simp [hq] at hnot
        · rintro ⟨-, hall⟩
          exact absurd (hall a List.mem_cons_self hq) hp
      · rw [List.filter_cons_of_pos (by simp [hq]), List.countP_cons_of_neg hq, List.cons_inj_right,
          ih, List.forall_mem_cons]
        exact and_congr_right fun _ => ⟨fun h => ⟨fun h' => absurd h' hq, h⟩, And.right⟩

end Remove

end FirstMatch
