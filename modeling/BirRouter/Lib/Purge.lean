import BirRouter.Lib.Sweep
import Mathlib.Data.List.Flatten
import Mathlib.Data.List.Nodup
import Mathlib.Logic.Function.Basic

/-!
# Removing by key while iterating over several queues

`purge n q` goes through the queues `q 0`, …, `q (n - 1)` by position.  Whenever the element at hand
satisfies `p`, it is overwritten with `touch` of it, and then all elements with its key are swept out
of all `n` queues, the one being iterated over included; the position moves on all the same.

* `filter_purge` — elements with another key than those that satisfy `p` always stay;
* `purge_eq_keep` — nothing else stays if nothing is skipped (`Clean`): neither an element that
  satisfies `p` behind a removed one, nor one of two neighbours with the same key;
* `purge_eq_keep_iff` — exactly then, if no two elements that satisfy `p` have the same key.  (What
  is skipped may otherwise be swept out for the sake of another element later on.)
-/

set_option autoImplicit false

namespace Purge

open Sweep

variable {α κ : Type} [DecidableEq κ]

section Defs

variable (key : α → κ) (p : α → Bool) (touch : α → α) (n : Nat)

/-- The elements with a key are swept out of all queues. -/
def dropKey (x : κ) (q : Nat → List α) : Nat → List α :=
  fun k => if k < n then sweep (fun a => key a = x) (q k) else q k

/-- Position `i` of queue `j`. -/
def visit (j i : Nat) (q : Nat → List α) : Nat → List α :=
  match (q j)[i]? with
  | some a =>
    if p a then dropKey key n (key a) (Function.update q j ((q j).set i (touch a))) else q
  | none => q

/-- One queue; the positions are those there were at the beginning. -/
def scan (j : Nat) (q : Nat → List α) : Nat → List α :=
  (List.range (q j).length).foldl (fun q i => visit key p touch n j i q) q

def purge (q : Nat → List α) : Nat → List α :=
  (List.range n).foldl (fun q j => scan key p touch n j q) q

/-- The keys of the elements that satisfy `p`. -/
def doomed (l : List α) : List κ := (l.filter p).map key

/-- The elements with other keys than those in `H`. -/
def keep (H : List κ) (l : List α) : List α := l.filter fun a => key a ∉ H

/-- All elements of the first `j` queues. -/
def upTo (q : Nat → List α) (j : Nat) : List α := (List.range j).flatMap q

end Defs

variable {key : α → κ} {p : α → Bool} {touch : α → α} {n : Nat}

omit [DecidableEq κ] in
theorem mem_doomed {l : List α} {x : κ} :
    x ∈ doomed key p l ↔ ∃ a ∈ l, p a = true ∧ key a = x := by
  unfold doomed
  simp only [List.mem_map, List.mem_filter, and_assoc]

omit [DecidableEq κ] in
theorem doomed_append (l l' : List α) :
    doomed key p (l ++ l') = doomed key p l ++ doomed key p l' := by
  unfold doomed
  rw [List.filter_append, List.map_append]

theorem mem_keep {H : List κ} {l : List α} {a : α} : a ∈ keep key H l ↔ a ∈ l ∧ key a ∉ H := by
  unfold keep
  rw [List.mem_filter, decide_eq_true_iff]

theorem keep_append (H : List κ) (l l' : List α) :
    keep key H (l ++ l') = keep key H l ++ keep key H l' := List.filter_append ..

theorem keep_cons_of_mem {H : List κ} {a : α} (h : key a ∈ H) (l : List α) :
    keep key H (a :: l) = keep key H l := List.filter_cons_of_neg (by simpa using h)

theorem keep_cons_of_not_mem {H : List κ} {a : α} (h : key a ∉ H) (l : List α) :
    keep key H (a :: l) = a :: keep key H l := List.filter_cons_of_pos (by simpa using h)

theorem keep_congr {H H' : List κ} (h : ∀ x, x ∈ H ↔ x ∈ H') (l : List α) :
    keep key H l = keep key H' l := by
  unfold keep
  simp only [h]

theorem keep_eq_nil {H : List κ} {l : List α} : keep key H l = [] ↔ ∀ a ∈ l, key a ∈ H := by
  unfold keep
  rw [List.filter_eq_nil_iff]
  simp only [decide_eq_true_eq, not_not]

/-- One key more. -/
theorem filter_keep (x : κ) (H : List κ) (l : List α) :
    (keep key H l).filter (fun a => !decide (key a = x)) = keep key (x :: H) l := by
  unfold keep
  rw [List.filter_filter]
  refine List.filter_congr fun a _ => ?_
  simp [not_or]

/-! ## One position -/

section Visit

variable {q : Nat → List α} {j : Nat}

theorem visit_none {i : Nat} (h : (q j).length ≤ i) : visit key p touch n j i q = q := by
  unfold visit
  rw [List.getElem?_eq_none h]

theorem visit_split {pre post : List α} {a : α} (h : q j = pre ++ a :: post) :
    visit key p touch n j pre.length q =
      if p a then dropKey key n (key a) (Function.update q j (pre ++ touch a :: post)) else q := by
  have hget : (pre ++ a :: post)[pre.length]? = some a := by simp
  have hset : (pre ++ a :: post).set pre.length (touch a) = pre ++ touch a :: post := by simp
  unfold visit
  rw [h, hget]
  simp only [hset]

/-- A position is behind the end, or splits the queue. -/
theorem position_cases (l : List α) (i : Nat) :
    l.length ≤ i ∨ ∃ pre a post, l = pre ++ a :: post ∧ pre.length = i := by
  by_cases h : i < l.length
  · refine .inr ⟨l.take i, l[i], l.drop (i + 1), ?_, ?_⟩
    · rw [← List.drop_eq_getElem_cons h, List.take_append_drop]
    · rw [List.length_take]
      omega
  · exact .inl (Nat.not_lt.1 h)

end Visit

/-! ## What always stays -/

/-- What the queues have in common with those at the beginning: the elements with other keys, and no
element that satisfies `p` has a new one. -/
structure Stays (key : α → κ) (p : α → Bool) (n : Nat) (D : List κ) (q₀ q : Nat → List α) : Prop where
  keep : ∀ k, keep key D (q k) = keep key D (q₀ k)
  doomed : ∀ k < n, ∀ a ∈ q k, p a = true → key a ∈ D

theorem keep_sweep {D : List κ} {x : κ} (hx : x ∈ D) (l : List α) :
    keep key D (sweep (fun a => key a = x) l) = keep key D l := by
  have hfilter : ∀ m : List α,
      keep key D (m.filter fun a => !decide (key a = x)) = keep key D m := by
    intro m
    unfold keep
    rw [List.filter_filter]
    refine List.filter_congr fun a _ => ?_
    by_cases ha : key a = x
    · simp [ha, hx]
    · simp [ha]
  rw [← hfilter, filter_sweep, hfilter]

section Stays

variable {D : List κ} {q₀ q : Nat → List α} (h : Stays key p n D q₀ q)

include h

theorem Stays.dropKey {x : κ} (hx : x ∈ D) : Stays key p n D q₀ (dropKey key n x q) := by
  refine ⟨?_, ?_⟩
  · intro k
    unfold Purge.dropKey
    split
    · rw [keep_sweep hx, h.keep]
    · exact h.keep k
  · intro k hk a ha
    unfold Purge.dropKey at ha
    rw [if_pos hk] at ha
    exact h.doomed k hk a ((sweep_sublist _).subset ha)

/-- An element with a key in `D` may be replaced by another one with that key. -/
theorem Stays.update {j : Nat} {pre post : List α} {a b : α} (hq : q j = pre ++ a :: post)
    (ha : key a ∈ D) (hb : key b = key a) :
    Stays key p n D q₀ (Function.update q j (pre ++ b :: post)) := by
  refine ⟨fun k => ?_, fun k hk c hc hpc => ?_⟩
  · by_cases hkj : k = j
    · subst hkj
      rw [Function.update_self, ← h.keep k, hq, keep_append, keep_append, keep_cons_of_mem ha,
        keep_cons_of_mem (by rw [hb]; exact ha)]
    · rw [Function.update_of_ne hkj, h.keep]
  · by_cases hkj : k = j
    · subst hkj
      rw [Function.update_self, List.mem_append, List.mem_cons] at hc
      rcases hc with hc | rfl | hc
      · exact h.doomed k hk c (by rw [hq]; exact List.mem_append_left _ hc) hpc
      · rw [hb]
        exact ha
      · refine h.doomed k hk c ?_ hpc
        rw [hq]
        exact List.mem_append_right _ (List.mem_cons_of_mem _ hc)
    · rw [Function.update_of_ne hkj] at hc
      exact h.doomed k hk c hc hpc

variable (hkey : ∀ a, key (touch a) = key a)

include hkey

theorem Stays.visit {j : Nat} (hj : j < n) (i : Nat) :
    Stays key p n D q₀ (visit key p touch n j i q) := by
  rcases position_cases (q j) i with hend | ⟨pre, a, post, hq, rfl⟩
  · rw [visit_none hend]
    exact h
  · rw [visit_split hq]
    split
    · rename_i hpa
      have ha : key a ∈ D := h.doomed j hj a (by rw [hq]; simp) hpa
      exact (h.update hq ha (hkey a)).dropKey ha
    · exact h

theorem Stays.scan {j : Nat} (hj : j < n) : Stays key p n D q₀ (scan key p touch n j q) := by
  unfold Purge.scan
  refine List.foldlRecOn _ _ h ?_
  intro q' hq' i _
  exact hq'.visit hkey hj i

end Stays

/-- **The elements with other keys stay**, in every queue and in their order. -/
theorem filter_purge (hkey : ∀ a, key (touch a) = key a) (q : Nat → List α) (k : Nat) :
    keep key (doomed key p (upTo q n)) (purge key p touch n q k) =
      keep key (doomed key p (upTo q n)) (q k) := by
  have hstart : Stays key p n (doomed key p (upTo q n)) q q := by
    refine ⟨fun _ => rfl, fun k hk a ha hpa => mem_doomed.2 ⟨a, ?_, hpa, rfl⟩⟩
    exact List.mem_flatMap.2 ⟨k, List.mem_range.2 hk, ha⟩
  have hall : Stays key p n (doomed key p (upTo q n)) q (purge key p touch n q) := by
    unfold purge
    refine List.foldlRecOn _ _ hstart ?_
    intro q' hq' j hj
    exact hq'.scan hkey (List.mem_range.1 hj)
  exact hall.keep k

/-! ## What is skipped -/

/-- The keys swept out so far if nothing was skipped; `done` is what is behind us in queue `j`. -/
def seen (key : α → κ) (p : α → Bool) (q : Nat → List α) (j : Nat) (done : List α) : List κ :=
  doomed key p (upTo q j ++ done)

/-- The first element with its key that satisfies `p`. -/
structure First (key : α → κ) (p : α → Bool) (q : Nat → List α) (j : Nat) (pre : List α) (a : α)
    (post : List α) : Prop where
  split : q j = pre ++ a :: post
  sat : p a = true
  new : key a ∉ seen key p q j pre

/-- The elements that move over the position when it is swept out do not satisfy `p`, and nowhere
are two neighbours with its key. -/
structure CleanAt (key : α → κ) (p : α → Bool) (n : Nat) (q : Nat → List α) (j : Nat)
    (pre : List α) (a : α) (post : List α) : Prop where
  next : ∀ b ∈ (keep key (key a :: seen key p q j pre) post).take
    (pre.countP (fun b => key b = key a) + 1), ¬ p b = true
  apart : ∀ k < n, Apart (fun b => key b = key a) (keep key (seen key p q j pre) (q k))

def Clean (key : α → κ) (p : α → Bool) (n : Nat) (q : Nat → List α) : Prop :=
  ∀ j < n, ∀ pre a post, First key p q j pre a post → CleanAt key p n q j pre a post

omit [DecidableEq κ] in
/-- Elements that are no news. -/
theorem mem_seen_append {q : Nat → List α} {j : Nat} {done u : List α}
    (hu : ∀ b ∈ u, p b = true → key b ∈ seen key p q j done) (x : κ) :
    x ∈ seen key p q j (done ++ u) ↔ x ∈ seen key p q j done := by
  unfold seen at hu ⊢
  rw [← List.append_assoc, doomed_append _ u, List.mem_append]
  constructor
  · rintro (hx | hx)
    · exact hx
    · obtain ⟨b, hb, hpb, rfl⟩ := mem_doomed.1 hx
      exact hu b hb hpb
  · exact .inl

omit [DecidableEq κ] in
/-- One element more. -/
theorem mem_seen_snoc {q : Nat → List α} {j : Nat} {done : List α} {a : α} (hp : p a = true)
    (x : κ) : x ∈ seen key p q j (done ++ [a]) ↔ x ∈ key a :: seen key p q j done := by
  unfold seen
  rw [← List.append_assoc, doomed_append _ [a], List.mem_append, List.mem_cons, or_comm]
  simp [doomed, hp]

/-- In the middle of queue `j`, before position `i`: `done` is behind us. -/
structure Scanning (key : α → κ) (p : α → Bool) (n : Nat) (q : Nat → List α) (j i : Nat)
    (cur : Nat → List α) (done todo : List α) : Prop where
  split : q j = done ++ todo
  queues : ∀ k < n, cur k = keep key (seen key p q j done) (q k)
  rest : (cur j).drop i = keep key (seen key p q j done) todo
  clean : ∀ pre a post, First key p q j pre a post → pre.length < done.length →
    CleanAt key p n q j pre a post

/-- Where a list is cut when its filtered part is cut. -/
theorem keep_split (key : α → κ) (H : List κ) (m : Nat) (l : List α) :
    ∃ u v, l = u ++ v ∧ keep key H u = (keep key H l).take m ∧
      keep key H v = (keep key H l).drop m := by
  induction l generalizing m with
  | nil => exact ⟨[], [], rfl, by simp [keep], by simp [keep]⟩
  | cons a l ih =>
    by_cases ha : key a ∈ H
    · obtain ⟨u, v, rfl, hu, hv⟩ := ih m
      exact ⟨a :: u, v, rfl, by rw [keep_cons_of_mem ha, keep_cons_of_mem ha, hu],
        by rw [keep_cons_of_mem ha, hv]⟩
    · cases m with
      | zero => exact ⟨[], a :: l, rfl, by simp [keep], by simp⟩
      | succ m =>
        obtain ⟨u, v, rfl, hu, hv⟩ := ih m
        refine ⟨a :: u, v, rfl, ?_, ?_⟩
        · rw [keep_cons_of_not_mem ha, keep_cons_of_not_mem ha, hu, List.take_succ_cons]
        · rw [keep_cons_of_not_mem ha, hv, List.drop_succ_cons]

theorem length_keep_cons {x : κ} {H : List κ} (hx : x ∉ H) (l : List α) :
    (keep key (x :: H) l).length + l.countP (fun b => key b = x) = (keep key H l).length := by
  induction l with
  | nil => rfl
  | cons a l ih =>
    by_cases hax : key a = x
    · have ha : key a ∉ H := hax ▸ hx
      have hmem : key a ∈ x :: H := hax ▸ List.mem_cons_self
      rw [keep_cons_of_mem hmem, keep_cons_of_not_mem ha, List.countP_cons_of_pos (by simpa using hax),
        List.length_cons]
      omega
    · rw [List.countP_cons_of_neg (by simpa using hax)]
      by_cases ha : key a ∈ H
      · rw [keep_cons_of_mem (List.mem_cons_of_mem _ ha), keep_cons_of_mem ha, ih]
      · have hnot : key a ∉ x :: H := by
          rw [List.mem_cons]
          rintro (hx' | hH)
          · exact hax hx'
          · exact ha hH
        rw [keep_cons_of_not_mem hnot, keep_cons_of_not_mem ha, List.length_cons, List.length_cons]
        omega

theorem apart_replace {pre post : List α} {a b : α} {x : κ} (hb : key b = key a) :
    Apart (fun c => key c = x) (pre ++ b :: post) ↔ Apart (fun c => key c = x) (pre ++ a :: post) := by
  have hmap : ∀ c : α, Apart (fun c => key c = x) (pre ++ c :: post) ↔
      Apart (fun y => decide (y = x)) (pre.map key ++ key c :: post.map key) := by
    intro c
    unfold Apart
    rw [← List.map_cons, ← List.map_append, List.isChain_map]
  rw [hmap, hb, ← hmap]

section Scan

variable {q cur : Nat → List α} {j i : Nat} {done todo : List α}

omit [DecidableEq κ] in
/-- No element that is no news is the first one with its key. -/
theorem First.le_length {pre post u : List α} {a : α} (h : First key p q j pre a post)
    (hsplit : q j = done ++ (u ++ todo))
    (hu : ∀ b ∈ u, p b = true → key b ∈ seen key p q j done) (hle : done.length ≤ pre.length) :
    (done ++ u).length ≤ pre.length := by
  have hsplit' := h.split.symm.trans hsplit
  have hprefix : done <+: pre := by
    refine List.prefix_of_prefix_length_le (List.prefix_append done (u ++ todo)) ?_ hle
    rw [← hsplit']
    exact List.prefix_append pre _
  obtain ⟨u₁, rfl⟩ := hprefix
  rw [List.append_assoc, List.append_cancel_left_eq] at hsplit'
  rw [List.length_append, List.length_append, Nat.add_le_add_iff_left]
  by_contra hlt
  have ha : a ∈ u := by
    have hget : (u ++ todo)[u₁.length]? = some a := by
      rw [← hsplit']
      simp
    rw [List.getElem?_append_left (by omega)] at hget
    exact List.mem_of_getElem? hget
  apply h.new
  unfold seen
  rw [← List.append_assoc, doomed_append _ u₁]
  exact List.mem_append_left _ (hu a ha h.sat)

/-- Moving on over elements that are no news. -/
theorem Scanning.extend {u : List α} (hsplit : q j = done ++ (u ++ todo))
    (hqueues : ∀ k < n, cur k = keep key (seen key p q j done) (q k))
    (hclean : ∀ pre a post, First key p q j pre a post → pre.length < done.length →
      CleanAt key p n q j pre a post)
    (hu : ∀ b ∈ u, p b = true → key b ∈ seen key p q j done)
    (hrest : (cur j).drop i = keep key (seen key p q j done) todo) :
    Scanning key p n q j i cur (done ++ u) todo := by
  have hsame := mem_seen_append hu
  refine ⟨by rw [hsplit, List.append_assoc], fun k hk => ?_, ?_, ?_⟩
  · rw [hqueues k hk, keep_congr hsame]
  · rw [hrest, keep_congr hsame]
  · intro pre a post hfirst hlen
    apply hclean pre a post hfirst
    by_contra hbehind
    have := hfirst.le_length hsplit hu (Nat.not_lt.1 hbehind)
    omega

/-- The element at the position is the next one of the queue with a new key. -/
theorem Scanning.next (h : Scanning key p n q j i cur done todo) {pre post : List α} {a : α}
    (hq : cur j = pre ++ a :: post) (hi : pre.length = i) :
    ∃ done' todo', Scanning key p n q j i cur done' (a :: todo') ∧ key a ∉ seen key p q j done' := by
  have hrest : keep key (seen key p q j done) todo = a :: post := by
    rw [← h.rest, hq, ← hi, List.drop_left]
  obtain ⟨skip, todo', rfl, hskip, ha, -⟩ := List.filter_eq_cons_iff.1 hrest
  have hu : ∀ b ∈ skip, key b ∈ seen key p q j done := by
    intro b hb
    simpa using hskip b hb
  refine ⟨done ++ skip, todo', ?_, ?_⟩
  · refine Scanning.extend h.split h.queues h.clean (fun b hb _ => hu b hb) ?_
    rw [h.rest, keep_append, keep_eq_nil.2 hu, List.nil_append]
  · rw [mem_seen_append fun b hb _ => hu b hb]
    simpa using ha

variable {a : α} (h : Scanning key p n q j i cur done (a :: todo))

include h

/-- An element that does not satisfy `p` is passed by. -/
theorem Scanning.pass (hp : ¬ p a = true) (ha : key a ∉ seen key p q j done) :
    Scanning key p n q j (i + 1) cur (done ++ [a]) todo := by
  refine Scanning.extend h.split h.queues h.clean ?_ ?_
  · intro b hb hpb
    rw [List.mem_singleton.1 hb] at hpb
    exact absurd hpb hp
  · rw [← List.drop_drop, h.rest, keep_cons_of_not_mem ha, List.drop_succ_cons, List.drop_zero]

variable (hkey : ∀ a, key (touch a) = key a) (hj : j < n) (ha : First key p q j done a todo)
  {pre post : List α} (hq : cur j = pre ++ a :: post) (hi : pre.length = i)

include hkey hq in
/-- The queues once the key of an element that satisfies `p` is swept out. -/
theorem Scanning.swept {k : Nat} (hk : k < n)
    (hap : Apart (fun b => key b = key a) (keep key (seen key p q j done) (q k))) :
    dropKey key n (key a) (Function.update cur j (pre ++ touch a :: post)) k =
      keep key (key a :: seen key p q j done) (q k) := by
  rw [← h.queues k hk] at hap
  unfold dropKey
  rw [if_pos hk]
  by_cases hkj : k = j
  · subst hkj
    rw [hq, ← apart_replace (hkey a)] at hap
    rw [Function.update_self, (sweep_eq_filter_iff _).2 hap, ← filter_keep, ← h.queues k hk, hq,
      List.filter_append, List.filter_append, List.filter_cons_of_neg (by simp [hkey]),
      List.filter_cons_of_neg (by simp)]
  · rw [Function.update_of_ne hkj, (sweep_eq_filter_iff _).2 hap, h.queues k hk, filter_keep]

include hkey hj ha hq hi

/-- What is behind the position then: as many elements as were swept out of the part in front moved
over it. -/
theorem Scanning.rest_swept
    (hap : Apart (fun b => key b = key a) (keep key (seen key p q j done) (q j))) :
    (dropKey key n (key a) (Function.update cur j (pre ++ touch a :: post)) j).drop (i + 1) =
      (keep key (key a :: seen key p q j done) todo).drop
        (done.countP (fun b => key b = key a) + 1) := by
  have hcur := h.queues j hj
  rw [h.split, keep_append, ← h.rest, hq, ← hi, List.drop_left] at hcur
  have hpre : pre = keep key (seen key p q j done) done := List.append_cancel_right hcur
  have hlen : (keep key (key a :: seen key p q j done) done).length +
      done.countP (fun b => key b = key a) = i := by
    rw [length_keep_cons ha.new, ← hpre, hi]
  rw [h.swept hkey hq hj hap, h.split, keep_append, keep_cons_of_mem List.mem_cons_self,
    List.drop_append, List.drop_eq_nil_of_le (by omega), List.nil_append]
  congr 1
  omega

/-- **An element that satisfies `p`.**  What moves over the position is no news. -/
theorem Scanning.hit (hclean : CleanAt key p n q j done a todo) :
    ∃ done' todo', Scanning key p n q j (i + 1)
      (dropKey key n (key a) (Function.update cur j (pre ++ touch a :: post))) done' todo' := by
  have hseen : ∀ x, x ∈ seen key p q j (done ++ [a]) ↔ x ∈ key a :: seen key p q j done :=
    mem_seen_snoc ha.sat
  obtain ⟨u, v, htodo, hu, hv⟩ := keep_split key (key a :: seen key p q j done)
    (done.countP (fun b => key b = key a) + 1) todo
  refine ⟨done ++ [a] ++ u, v, Scanning.extend ?_ ?_ ?_ ?_ ?_⟩
  · rw [h.split, htodo, List.append_assoc]
    rfl
  · intro k hk
    rw [h.swept hkey hq hk (hclean.apart k hk), keep_congr hseen]
  · intro pre' a' post' hfirst hlen
    by_cases hbefore : pre'.length < done.length
    · exact h.clean pre' a' post' hfirst hbefore
    · rw [List.length_append, List.length_singleton] at hlen
      obtain ⟨rfl, heq⟩ := List.append_inj (hfirst.split.symm.trans ha.split) (by omega)
      obtain ⟨rfl, rfl⟩ := List.cons_eq_cons.1 heq
      exact hclean
  · intro b hb hpb
    by_contra hnew
    have hmem : b ∈ keep key (key a :: seen key p q j done) u := by
      rw [mem_keep, ← hseen]
      exact ⟨hb, hnew⟩
    rw [hu] at hmem
    exact hclean.next b hmem hpb
  · rw [h.rest_swept hkey hj ha hq hi (hclean.apart j hj), keep_congr hseen, hv]

end Scan

/-! ## What is lost -/

/-- An element with key `x` that nothing ahead of the position can sweep out. -/
structure Lost (key : α → κ) (p : α → Bool) (n : Nat) (x : κ) (j i : Nat) (cur : Nat → List α) :
    Prop where
  there : ∃ k < n, ∃ b ∈ cur k, key b = x
  behind : ∀ b ∈ (cur j).drop i, p b = true → key b ≠ x
  ahead : ∀ k < n, j < k → ∀ b ∈ cur k, p b = true → key b ≠ x

theorem dropKey_sublist (x : κ) (q : Nat → List α) (k : Nat) :
    (dropKey key n x q k).Sublist (q k) := by
  unfold dropKey
  split
  · exact sweep_sublist _
  · exact List.Sublist.refl _

theorem mem_dropKey_of_ne {x : κ} {q : Nat → List α} {k : Nat} {b : α} (hb : b ∈ q k)
    (hx : key b ≠ x) : b ∈ dropKey key n x q k := by
  unfold dropKey
  split
  · exact (mem_sweep_of_neg (by simpa using hx)).2 hb
  · exact hb

section Lost

variable {cur : Nat → List α} {j i : Nat} {x : κ} {pre post : List α} {a : α}

/-- The elements behind the position after a sweep. -/
theorem mem_post_of_mem_drop {y : κ} {b c : α}
    (hb : b ∈ (dropKey key n y (Function.update cur j (pre ++ c :: post)) j).drop
      (pre.length + 1)) : b ∈ post := by
  have hmem := ((dropKey_sublist y _ j).drop (pre.length + 1)).subset hb
  rwa [Function.update_self, List.drop_length_add_append, List.drop_succ_cons, List.drop_zero]
    at hmem

theorem mem_of_mem_dropKey {y : κ} {k : Nat} (hkj : k ≠ j) {b : α} {l : List α}
    (hb : b ∈ dropKey key n y (Function.update cur j l) k) : b ∈ cur k := by
  have hmem := (dropKey_sublist y _ k).subset hb
  rwa [Function.update_of_ne hkj] at hmem

theorem Lost.visit (h : Lost key p n x j i cur) :
    Lost key p n x j (i + 1) (visit key p touch n j i cur) := by
  have hlater : ∀ b ∈ (cur j).drop (i + 1), p b = true → key b ≠ x := by
    intro b hb
    rw [← List.drop_drop] at hb
    exact h.behind b (List.mem_of_mem_drop hb)
  rcases position_cases (cur j) i with hend | ⟨pre, a, post, hq, rfl⟩
  · rw [visit_none hend]
    exact ⟨h.there, hlater, h.ahead⟩
  · rw [visit_split hq]
    split
    · rename_i hp
      have hax : key a ≠ x := by
        refine h.behind a ?_ hp
        rw [hq, List.drop_left]
        exact List.mem_cons_self
      refine ⟨?_, ?_, ?_⟩
      · obtain ⟨k, hk, b, hb, rfl⟩ := h.there
        refine ⟨k, hk, b, mem_dropKey_of_ne ?_ hax.symm, rfl⟩
        by_cases hkj : k = j
        · subst hkj
          rw [hq, List.mem_append, List.mem_cons] at hb
          rw [Function.update_self, List.mem_append, List.mem_cons]
          rcases hb with hb | rfl | hb
          · exact .inl hb
          · exact absurd rfl hax
          · exact .inr (.inr hb)
        · rw [Function.update_of_ne hkj]
          exact hb
      · intro b hb
        refine hlater b ?_
        rw [hq, List.drop_length_add_append]
        exact mem_post_of_mem_drop hb
      · intro k hk hjk b hb
        exact h.ahead k hk hjk b (mem_of_mem_dropKey (by omega) hb)
    · exact ⟨h.there, hlater, h.ahead⟩

end Lost

omit [DecidableEq κ] in
/-- Distinct keys among the elements that satisfy `p`: within a queue, and in different ones. -/
theorem distinct_of_nodup {q : Nat → List α} (hd : (doomed key p (upTo q n)).Nodup) {j : Nat}
    (hj : j < n) :
    (doomed key p (q j)).Nodup ∧
      ∀ k < n, j < k → ∀ a ∈ q j, p a = true → ∀ b ∈ q k, p b = true → key b ≠ key a := by
  have hflat : doomed key p (upTo q n) = (List.range n).flatMap fun k => doomed key p (q k) := by
    unfold doomed upTo
    rw [List.filter_flatMap, List.map_flatMap]
  rw [hflat, List.nodup_flatMap] at hd
  refine ⟨hd.1 j (List.mem_range.2 hj), ?_⟩
  intro k hk hjk a ha hpa b hb hpb heq
  have hdisj := List.pairwise_iff_getElem.1 hd.2 j k (by simpa using hj) (by simpa using hk) hjk
  rw [List.getElem_range, List.getElem_range] at hdisj
  exact hdisj (mem_doomed.2 ⟨a, ha, hpa, rfl⟩) (mem_doomed.2 ⟨b, hb, hpb, heq⟩)

/-- One of two neighbours stays. -/
theorem exists_mem_sweep {l : List α} {f : α → Bool} (h : ¬ Apart f l) :
    ∃ b ∈ sweep f l, f b = true := by
  by_contra hnone
  refine h ((sweep_eq_filter_iff l).1 ?_)
  rw [← filter_sweep]
  refine (List.filter_eq_self.2 fun b hb => ?_).symm
  simpa using fun hfb => hnone ⟨b, hb, hfb⟩

section Missed

variable {q cur : Nat → List α} {j i : Nat} {done todo : List α} {a : α}
  (h : Scanning key p n q j i cur done (a :: todo)) (hkey : ∀ a, key (touch a) = key a) (hj : j < n)
  (ha : First key p q j done a todo) {pre post : List α} (hq : cur j = pre ++ a :: post)
  (hi : pre.length = i) (hd : (doomed key p (upTo q n)).Nodup)

omit [DecidableEq κ] in
include hj ha in
theorem mem_doomed_of_first {b : α} (hb : b ∈ a :: todo) (hp : p b = true) :
    key b ∈ doomed key p (upTo q n) := by
  refine mem_doomed.2 ⟨b, List.mem_flatMap.2 ⟨j, List.mem_range.2 hj, ?_⟩, hp, rfl⟩
  rw [ha.split]
  exact List.mem_append_right _ hb

include h ha hj hd in
/-- Nothing ahead of queue `j` has the key of an element of it that satisfies `p`. -/
theorem Scanning.ahead {b : α} (hb : b ∈ a :: todo) (hp : p b = true) :
    ∀ k < n, j < k → ∀ c ∈ cur k, p c = true → key c ≠ key b := by
  intro k hk hjk c hc
  rw [h.queues k hk] at hc
  refine (distinct_of_nodup hd hj).2 k hk hjk b ?_ hp c (mem_keep.1 hc).1
  rw [ha.split]
  exact List.mem_append_right _ hb

include hj ha hd in
omit [DecidableEq κ] in
theorem nodup_todo : (doomed key p (a :: todo)).Nodup := by
  have hnodup := (distinct_of_nodup hd hj).1
  rw [ha.split, doomed_append] at hnodup
  exact (List.nodup_append.1 hnodup).2.1

include h hkey hj ha hq hi hd

/-- Two neighbours with its key: one of them is lost. -/
theorem Scanning.lost_neighbour {k : Nat} (hk : k < n)
    (hap : ¬ Apart (fun b => key b = key a) (keep key (seen key p q j done) (q k))) :
    Lost key p n (key a) j (i + 1)
      (dropKey key n (key a) (Function.update cur j (pre ++ touch a :: post))) := by
  refine ⟨⟨k, hk, ?_⟩, ?_, ?_⟩
  · rw [← h.queues k hk] at hap
    have hap' : ¬ Apart (fun b => key b = key a)
        (Function.update cur j (pre ++ touch a :: post) k) := by
      by_cases hkj : k = j
      · subst hkj
        rwa [Function.update_self, apart_replace (hkey a), ← hq]
      · rwa [Function.update_of_ne hkj]
    obtain ⟨b, hb, hba⟩ := exists_mem_sweep hap'
    refine ⟨b, ?_, of_decide_eq_true hba⟩
    unfold dropKey
    rwa [if_pos hk]
  · intro b hb hpb heq
    have hpost : post = keep key (seen key p q j done) todo := by
      have hrest := h.rest
      rw [hq, ← hi, List.drop_left, keep_cons_of_not_mem ha.new] at hrest
      exact (List.cons_eq_cons.1 hrest).2
    rw [← hi] at hb
    have hmem := mem_post_of_mem_drop hb
    rw [hpost] at hmem
    have hnodup := nodup_todo hj ha hd
    unfold doomed at hnodup
    rw [List.filter_cons_of_pos ha.sat, List.map_cons, List.nodup_cons] at hnodup
    exact hnodup.1 (mem_doomed.2 ⟨b, (mem_keep.1 hmem).1, hpb, heq⟩)
  · intro k hk hjk b hb
    exact h.ahead hj ha hd List.mem_cons_self ha.sat k hk hjk b (mem_of_mem_dropKey (by omega) hb)

/-- An element that satisfies `p` and moves over the position is lost. -/
theorem Scanning.lost_next
    (hap : ∀ k < n, Apart (fun b => key b = key a) (keep key (seen key p q j done) (q k))) {b : α}
    (hb : b ∈ (keep key (key a :: seen key p q j done) todo).take
      (done.countP (fun b => key b = key a) + 1)) (hp : p b = true) :
    Lost key p n (key b) j (i + 1)
      (dropKey key n (key a) (Function.update cur j (pre ++ touch a :: post))) := by
  have hkeep := mem_keep.1 (List.mem_of_mem_take hb)
  have hbtodo : b ∈ a :: todo := List.mem_cons_of_mem a hkeep.1
  refine ⟨⟨j, hj, b, ?_, rfl⟩, ?_, ?_⟩
  · rw [h.swept hkey hq hj (hap j hj), ha.split]
    exact mem_keep.2 ⟨List.mem_append_right _ hbtodo, hkeep.2⟩
  · -- behind the cut there is no other element with its key
    intro c hc hpc heq
    rw [h.rest_swept hkey hj ha hq hi (hap j hj)] at hc
    have hsub : (keep key (key a :: seen key p q j done) todo).Sublist (a :: todo) :=
      List.filter_sublist.trans (List.sublist_cons_self a todo)
    have hnodup : (doomed key p (keep key (key a :: seen key p q j done) todo)).Nodup :=
      ((hsub.filter p).map key).nodup (nodup_todo hj ha hd)
    rw [← List.take_append_drop (done.countP (fun b => key b = key a) + 1)
      (keep key (key a :: seen key p q j done) todo), doomed_append] at hnodup
    exact (List.nodup_append.1 hnodup).2.2 _ (mem_doomed.2 ⟨b, hb, hp, rfl⟩) _
      (mem_doomed.2 ⟨c, hc, hpc, heq⟩) rfl
  · intro k hk hjk c hc
    exact h.ahead hj ha hd hbtodo hp k hk hjk c (mem_of_mem_dropKey (by omega) hc)

/-- **An element that is not clean** loses one. -/
theorem Scanning.miss (hclean : ¬ CleanAt key p n q j done a todo) :
    ∃ x ∈ doomed key p (upTo q n), Lost key p n x j (i + 1)
      (dropKey key n (key a) (Function.update cur j (pre ++ touch a :: post))) := by
  by_cases hap : ∀ k < n, Apart (fun b => key b = key a) (keep key (seen key p q j done) (q k))
  · have hnext : ∃ b ∈ (keep key (key a :: seen key p q j done) todo).take
        (done.countP (fun b => key b = key a) + 1), p b = true := by
      by_contra hnone
      exact hclean ⟨fun b hb hp => hnone ⟨b, hb, hp⟩, hap⟩
    obtain ⟨b, hb, hp⟩ := hnext
    have hbtodo : b ∈ a :: todo := List.mem_cons_of_mem a (mem_keep.1 (List.mem_of_mem_take hb)).1
    exact ⟨key b, mem_doomed_of_first hj ha hbtodo hp, h.lost_next hkey hj ha hq hi hd hap hb hp⟩
  · push Not at hap
    obtain ⟨k, hk, hap⟩ := hap
    exact ⟨key a, mem_doomed_of_first hj ha List.mem_cons_self ha.sat,
      h.lost_neighbour hkey hj ha hq hi hd hk hap⟩

end Missed

/-! ## A whole run -/

section Run

variable {q : Nat → List α}

/-- Where a run can be in queue `j`: nothing was skipped so far, or something was. -/
def Outcome (key : α → κ) (p : α → Bool) (n : Nat) (q : Nat → List α) (j i : Nat)
    (cur : Nat → List α) : Prop :=
  (∃ done todo, Scanning key p n q j i cur done todo) ∨
    ¬ Clean key p n q ∧ ((doomed key p (upTo q n)).Nodup →
      ∃ x ∈ doomed key p (upTo q n), Lost key p n x j i cur)

/-- An element with key `x` that nothing from queue `j` on can sweep out. -/
structure LostFrom (key : α → κ) (p : α → Bool) (n : Nat) (x : κ) (j : Nat) (cur : Nat → List α) :
    Prop where
  there : ∃ k < n, ∃ b ∈ cur k, key b = x
  ahead : ∀ k < n, j ≤ k → ∀ b ∈ cur k, p b = true → key b ≠ x

/-- The same between two queues. -/
def Between (key : α → κ) (p : α → Bool) (n : Nat) (q : Nat → List α) (j : Nat)
    (cur : Nat → List α) : Prop :=
  ((∀ k < n, cur k = keep key (doomed key p (upTo q j)) (q k)) ∧
      ∀ j' < j, ∀ pre a post, First key p q j' pre a post → CleanAt key p n q j' pre a post) ∨
    ¬ Clean key p n q ∧ ((doomed key p (upTo q n)).Nodup →
      ∃ x ∈ doomed key p (upTo q n), LostFrom key p n x j cur)

variable (hkey : ∀ a, key (touch a) = key a) {cur : Nat → List α} {j i : Nat} (hj : j < n)

include hkey hj

theorem Scanning.step {done todo : List α} (h : Scanning key p n q j i cur done todo) :
    Outcome key p n q j (i + 1) (visit key p touch n j i cur) := by
  rcases position_cases (cur j) i with hend | ⟨pre, a, post, hq, hi⟩
  · have hnil : (cur j).drop (i + 1) = (cur j).drop i := by
      rw [List.drop_eq_nil_of_le hend, List.drop_eq_nil_of_le (by omega)]
    rw [visit_none hend]
    exact .inl ⟨done, todo, h.split, h.queues, hnil.trans h.rest, h.clean⟩
  · obtain ⟨done', todo', hnext, hnew⟩ := h.next hq hi
    rw [← hi, visit_split hq, hi]
    by_cases hp : p a = true
    · rw [if_pos hp]
      have ha : First key p q j done' a todo' := ⟨hnext.split, hp, hnew⟩
      by_cases hclean : CleanAt key p n q j done' a todo'
      · exact .inl (hnext.hit hkey hj ha hq hi hclean)
      · refine .inr ⟨fun hall => hclean (hall j hj _ _ _ ha), fun hd => ?_⟩
        exact hnext.miss hkey hj ha hq hi hd hclean
    · rw [if_neg hp]
      exact .inl ⟨_, _, hnext.pass hp hnew⟩

theorem Outcome.step (h : Outcome key p n q j i cur) :
    Outcome key p n q j (i + 1) (visit key p touch n j i cur) := by
  rcases h with ⟨done, todo, h⟩ | ⟨hclean, hlost⟩
  · exact h.step hkey hj
  · refine .inr ⟨hclean, fun hd => ?_⟩
    obtain ⟨x, hx, hlost⟩ := hlost hd
    exact ⟨x, hx, hlost.visit⟩

theorem Outcome.steps (h : Outcome key p n q j 0 cur) (m : Nat) :
    Outcome key p n q j m ((List.range m).foldl (fun q i => visit key p touch n j i q) cur) := by
  induction m with
  | zero => exact h
  | succ m ih =>
    rw [List.range_succ, List.foldl_append]
    exact ih.step hkey hj

omit hkey in
/-- Nothing is left behind the last position: the queue only became shorter. -/
theorem Scanning.end {cur₀ : Nat → List α} {done todo : List α}
    (h₀ : ∀ k < n, cur₀ k = keep key (doomed key p (upTo q j)) (q k))
    (hclean : ∀ j' < j, ∀ pre a post, First key p q j' pre a post →
      CleanAt key p n q j' pre a post)
    (h : Scanning key p n q j (cur₀ j).length cur done todo) : Between key p n q (j + 1) cur := by
  have hshorter : (keep key (seen key p q j done) (q j)).length ≤ (cur₀ j).length := by
    rw [h₀ j hj]
    refine (List.monotone_filter_right _ fun a ha => ?_).length_le
    rw [decide_eq_true_iff] at ha ⊢
    intro hmem
    exact ha (by unfold seen; rw [doomed_append]; exact List.mem_append_left _ hmem)
  have hnil : keep key (seen key p q j done) todo = [] := by
    rw [← h.rest, h.queues j hj]
    exact List.drop_eq_nil_of_le hshorter
  have hall : Scanning key p n q j (cur₀ j).length cur (done ++ todo) [] :=
    Scanning.extend (by rw [h.split, List.append_nil]) h.queues h.clean
      (fun b hb _ => keep_eq_nil.1 hnil b hb) (h.rest.trans hnil)
  rw [← h.split] at hall
  have hupTo : upTo q (j + 1) = upTo q j ++ q j := by
    simp [upTo, List.range_succ]
  refine .inl ⟨?_, ?_⟩
  · rw [hupTo]
    exact hall.queues
  · intro j' hj' pre a post hfirst
    rcases Nat.lt_succ_iff_lt_or_eq.1 hj' with hlt | rfl
    · exact hclean j' hlt pre a post hfirst
    · refine hall.clean pre a post hfirst ?_
      rw [hfirst.split, List.length_append, List.length_cons]
      omega

omit hkey in
theorem LostFrom.scan {x : κ} (h : LostFrom key p n x j cur) :
    LostFrom key p n x (j + 1) (scan key p touch n j cur) := by
  have hsteps : ∀ m, Lost key p n x j m
      ((List.range m).foldl (fun q i => visit key p touch n j i q) cur) := by
    intro m
    induction m with
    | zero =>
      exact ⟨h.there, h.ahead j hj (Nat.le_refl j), fun k hk hjk => h.ahead k hk (Nat.le_of_lt hjk)⟩
    | succ m ih =>
      rw [List.range_succ, List.foldl_append]
      exact ih.visit
  exact ⟨(hsteps _).there, (hsteps _).ahead⟩

theorem Between.scan (h : Between key p n q j cur) :
    Between key p n q (j + 1) (Purge.scan key p touch n j cur) := by
  rcases h with ⟨hqueues, hclean⟩ | ⟨hclean, hlost⟩
  · have hstart : Outcome key p n q j 0 cur := by
      refine .inl ⟨[], q j, rfl, ?_, ?_, ?_⟩
      · unfold seen
        rw [List.append_nil]
        exact hqueues
      · unfold seen
        rw [List.append_nil]
        exact hqueues j hj
      · intro pre a post _ hlen
        exact absurd hlen (Nat.not_lt_zero _)
    have hend : Outcome key p n q j (cur j).length (Purge.scan key p touch n j cur) :=
      hstart.steps hkey hj (cur j).length
    rcases hend with ⟨done, todo, hend⟩ | ⟨hclean, hlost⟩
    · exact hend.end hj hqueues hclean
    · refine .inr ⟨hclean, fun hd => ?_⟩
      obtain ⟨x, hx, hlost⟩ := hlost hd
      exact ⟨x, hx, hlost.there, hlost.ahead⟩
  · refine .inr ⟨hclean, fun hd => ?_⟩
    obtain ⟨x, hx, hlost⟩ := hlost hd
    exact ⟨x, hx, hlost.scan hj⟩

omit hj

theorem between_purge : Between key p n q n (purge key p touch n q) := by
  have hall : ∀ m ≤ n, Between key p n q m
      ((List.range m).foldl (fun q j => scan key p touch n j q) q) := by
    intro m
    induction m with
    | zero =>
      intro _
      refine .inl ⟨fun k _ => ?_, fun j' hj' => absurd hj' (Nat.not_lt_zero j')⟩
      simp [keep, upTo, doomed]
    | succ m ih =>
      intro hm
      rw [List.range_succ, List.foldl_append]
      exact (ih (Nat.le_of_lt hm)).scan hkey hm
  exact hall n (Nat.le_refl n)

/-- **Nothing else stays** if nothing is skipped. -/
theorem purge_eq_keep (h : Clean key p n q) :
    ∀ k < n, purge key p touch n q k = keep key (doomed key p (upTo q n)) (q k) := by
  rcases between_purge hkey with ⟨hqueues, -⟩ | ⟨hclean, -⟩
  · exact hqueues
  · exact absurd h hclean

/-- **Exactly then**, if no two elements that satisfy `p` have the same key. -/
theorem purge_eq_keep_iff (hd : (doomed key p (upTo q n)).Nodup) :
    (∀ k < n, purge key p touch n q k = keep key (doomed key p (upTo q n)) (q k)) ↔
      Clean key p n q := by
  refine ⟨fun h => ?_, purge_eq_keep hkey⟩
  rcases between_purge hkey with ⟨-, hclean⟩ | ⟨-, hlost⟩
  · exact hclean
  · obtain ⟨x, hx, hlost⟩ := hlost hd
    obtain ⟨k, hk, b, hb, rfl⟩ := hlost.there
    rw [h k hk] at hb
    exact absurd hx (mem_keep.1 hb).2

end Run

end Purge
