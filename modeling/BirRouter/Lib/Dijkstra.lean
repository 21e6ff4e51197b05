import Mathlib.Combinatorics.SimpleGraph.Metric

/-!
# Dijkstra's algorithm on a graph with unit weights

A search keeps a distance for every vertex and the set of vertices in the tree.  `Round` says what
one round does, whatever the order in which ties are broken: a vertex `u` outside the tree with the
least distance joins it, and the vertices next to `u` outside the tree come at most one step further
away.  Distances stop at `cap`, the value that stands for "not reached".

* `Sound` — the invariant; `Sound.round` — every round keeps it;
* `Sound.run` — after as many rounds as there are vertices all of them are in the tree;
* `Sound.dist_eq` — then the distances are those of Mathlib's `SimpleGraph.edist`, cut off at `cap`;
* `edist_lt_card` — a vertex that can be reached is less than the number of vertices away.

The vertices of interest are a finite set `S` that no edge leaves (`Closed`).
-/

set_option autoImplicit false

namespace Dijkstra

variable {V : Type} {G : SimpleGraph V} {S : Finset V} {cap : ℕ} {a : V}

/-- Distances so far, and the vertices in the tree. -/
structure Search (V : Type) where
  dist : V → ℕ
  done : Finset V

/-- No edge leaves `S`. -/
def Closed (G : SimpleGraph V) (S : Finset V) : Prop := ∀ ⦃u v⦄, u ∈ S → G.Adj u v → v ∈ S

/-- The way to `v` through `u` is shorter than what is known. -/
def Shorter (G : SimpleGraph V) (cap : ℕ) (s : Search V) (u v : V) : Prop :=
  G.Adj u v ∧ s.dist u < cap ∧ s.dist u + 1 < s.dist v

/-- One round, in which `u` joins the tree. -/
structure Round [DecidableEq V] (G : SimpleGraph V) (S : Finset V) (cap : ℕ) (u : V)
    (s s' : Search V) : Prop where
  mem : u ∈ S
  fresh : u ∉ s.done
  least : ∀ v ∈ S, v ∉ s.done → s.dist u ≤ s.dist v
  done_eq : s'.done = insert u s.done
  relax : ∀ v ∈ S, v ∉ s'.done → Shorter G cap s u v → s'.dist v = s.dist u + 1
  keep : ∀ v ∈ S, ¬ (v ∉ s'.done ∧ Shorter G cap s u v) → s'.dist v = s.dist v

/-- The invariant of a search from `a`. -/
structure Sound (G : SimpleGraph V) (S : Finset V) (cap : ℕ) (a : V) (s : Search V) : Prop where
  done_subset : s.done ⊆ S
  source : s.dist a = 0
  le_cap : ∀ v ∈ S, s.dist v ≤ cap
  walk : ∀ v ∈ S, s.dist v < cap → ∃ p : G.Walk a v, p.length = s.dist v
  order : ∀ u ∈ s.done, ∀ v ∈ S, v ∉ s.done → s.dist u ≤ s.dist v
  relaxed : ∀ u ∈ s.done, ∀ v ∈ S, G.Adj u v → s.dist u < cap → s.dist v ≤ s.dist u + 1

section Rounds

variable [DecidableEq V] {u : V} {s s' : Search V}

namespace Round

theorem dist_le (h : Round G S cap u s s') {v : V} (hv : v ∈ S) : s'.dist v ≤ s.dist v := by
  by_cases hc : v ∉ s'.done ∧ Shorter G cap s u v
  · have heq := h.relax v hv hc.1 hc.2
    have hlt := hc.2.2.2
    omega
  · exact Nat.le_of_eq (h.keep v hv hc)

/-- A distance in the tree does not change any more. -/
theorem dist_done (h : Round G S cap u s s') {v : V} (hv : v ∈ S) (hd : v ∈ s'.done) :
    s'.dist v = s.dist v :=
  h.keep v hv fun hc => hc.1 hd

/-- A distance changes to one more than that of `u` at most. -/
theorem dist_cases (h : Round G S cap u s s') {v : V} (hv : v ∈ S) :
    s'.dist v = s.dist v ∨ (G.Adj u v ∧ s.dist u < cap ∧ s'.dist v = s.dist u + 1) := by
  by_cases hc : v ∉ s'.done ∧ Shorter G cap s u v
  · exact .inr ⟨hc.2.1, hc.2.2.1, h.relax v hv hc.1 hc.2⟩
  · exact .inl (h.keep v hv hc)

theorem mem_done (h : Round G S cap u s s') {v : V} : v ∈ s'.done ↔ v = u ∨ v ∈ s.done := by
  rw [h.done_eq, Finset.mem_insert]

theorem card_done (h : Round G S cap u s s') : s'.done.card = s.done.card + 1 := by
  rw [h.done_eq, Finset.card_insert_of_notMem h.fresh]

end Round

namespace Sound

/-- A search begins with its source at distance 0, the others not reached, and an empty tree. -/
theorem start (ha : a ∈ S) (hdone : s.done = ∅)
    (hdist : ∀ v ∈ S, s.dist v = if v = a then 0 else cap) : Sound G S cap a s := by
  have hnone : ∀ u, u ∉ s.done := by
    intro u
    rw [hdone]
    exact Finset.notMem_empty u
  refine ⟨by rw [hdone]; exact Finset.empty_subset S, by rw [hdist a ha, if_pos rfl], ?_, ?_,
    fun u hu => absurd hu (hnone u), fun u hu => absurd hu (hnone u)⟩
  · intro v hv
    rw [hdist v hv]
    split <;> omega
  · intro v hv hlt
    by_cases hva : v = a
    · subst hva
      exact ⟨.nil, by rw [hdist v hv, if_pos rfl]; rfl⟩
    · rw [hdist v hv, if_neg hva] at hlt
      exact absurd hlt (Nat.lt_irrefl cap)

/-- The nearest vertex outside the tree is no nearer than any vertex in it. -/
theorem dist_le_of_done (h : Sound G S cap a s) (hr : Round G S cap u s s') {v : V}
    (hv : v ∈ s'.done) : s.dist v ≤ s.dist u := by
  rcases hr.mem_done.1 hv with rfl | hv
  · exact Nat.le_refl _
  · exact h.order v hv u hr.mem hr.fresh

/-- **Step lemma.** -/
theorem round (h : Sound G S cap a s) (ha : a ∈ S) (hr : Round G S cap u s s') :
    Sound G S cap a s' := by
  have hsub : s'.done ⊆ S := by
    intro v hv
    rcases hr.mem_done.1 hv with rfl | hv
    · exact hr.mem
    · exact h.done_subset hv
  refine ⟨hsub, ?_, ?_, ?_, ?_, ?_⟩
  · have hle := hr.dist_le ha
    rw [h.source] at hle
    omega
  · intro v hv
    exact Nat.le_trans (hr.dist_le hv) (h.le_cap v hv)
  · intro v hv hlt
    rcases hr.dist_cases hv with heq | ⟨hadj, hcap, heq⟩
    · rw [heq] at hlt ⊢
      exact h.walk v hv hlt
    · -- the walk to `u`, and the edge from there
      obtain ⟨p, hp⟩ := h.walk u hr.mem hcap
      exact ⟨p.concat hadj, by rw [SimpleGraph.Walk.length_concat, hp, heq]⟩
  · intro v hv w hw hwd
    have hvu := h.dist_le_of_done hr hv
    rw [hr.dist_done (hsub hv) hv]
    rcases hr.dist_cases hw with heq | ⟨_, _, heq⟩
    · rw [heq]
      have hwold : w ∉ s.done := fun hd => hwd (hr.mem_done.2 (.inr hd))
      exact Nat.le_trans hvu (hr.least w hw hwold)
    · omega
  · intro v hv w hw hadj hcap
    have hvd := hr.dist_done (hsub hv) hv
    rw [hvd] at hcap ⊢
    rcases hr.mem_done.1 hv with rfl | hvold
    · by_cases hwd : w ∈ s'.done
      · rw [hr.dist_done hw hwd]
        exact Nat.le_succ_of_le (h.dist_le_of_done hr hwd)
      · by_cases hlt : s.dist v + 1 < s.dist w
        · exact Nat.le_of_eq (hr.relax w hw hwd ⟨hadj, hcap, hlt⟩)
        · exact Nat.le_trans (hr.dist_le hw) (Nat.le_of_not_lt hlt)
    · exact Nat.le_trans (hr.dist_le hw) (h.relaxed v hvold w hw hadj hcap)

/-- **Run lemma.**  If the states `f k` of a program stand for searches, and the program makes a round
as long as a vertex is left, then after `k` rounds there are `k` vertices in the tree. -/
theorem run {σ : Type} (abs : σ → Search V) (ok : σ → Prop) {f : ℕ → σ} (ha : a ∈ S)
    (hok : ok (f 0)) (h : Sound G S cap a (abs (f 0))) (h0 : (abs (f 0)).done = ∅)
    (hround : ∀ k, ok (f k) → (∃ v ∈ S, v ∉ (abs (f k)).done) →
      ok (f (k + 1)) ∧ ∃ u, Round G S cap u (abs (f k)) (abs (f (k + 1)))) :
    ∀ k ≤ S.card, ok (f k) ∧ Sound G S cap a (abs (f k)) ∧ (abs (f k)).done.card = k := by
  intro k
  induction k with
  | zero =>
    intro _
    exact ⟨hok, h, by rw [h0, Finset.card_empty]⟩
  | succ k ih =>
    intro hk
    obtain ⟨iok, hs, hcard⟩ := ih (by omega)
    have hleft : ∃ v ∈ S, v ∉ (abs (f k)).done :=
      Finset.exists_mem_notMem_of_card_lt_card (by omega)
    obtain ⟨hok', u, hr⟩ := hround k iok hleft
    exact ⟨hok', hs.round ha hr, by rw [hr.card_done, hcard]⟩

end Sound

end Rounds

/-! ## What the distances are at the end -/

/-- A walk that starts in `S` stays there. -/
theorem Closed.support_subset (hc : Closed G S) {v : V} (p : G.Walk a v) (ha : a ∈ S) :
    ∀ w ∈ p.support, w ∈ S := by
  induction p with
  | nil =>
    intro w hw
    rw [SimpleGraph.Walk.support_nil, List.mem_singleton] at hw
    rwa [hw]
  | cons hadj p ih =>
    intro w hw
    rw [SimpleGraph.Walk.support_cons, List.mem_cons] at hw
    rcases hw with rfl | hw
    · exact ha
    · exact ih (hc ha hadj) w hw

/-- With every vertex in the tree no walk is shorter than the distance found. -/
theorem Sound.le_length {s : Search V} (h : Sound G S cap a s) (hc : Closed G S) (ha : a ∈ S)
    (hall : S ⊆ s.done) {v : V} (p : G.Walk a v) : s.dist v ≤ p.length := by
  induction p using SimpleGraph.Walk.concatRec with
  | Hnil => exact Nat.le_of_eq h.source
  | @Hconcat a u v p hadj ih =>
    have hle := ih h ha
    have hu : u ∈ S := hc.support_subset p ha u p.end_mem_support
    have hv : v ∈ S := hc hu hadj
    rw [SimpleGraph.Walk.length_concat]
    by_cases hcap : s.dist u < cap
    · have hstep := h.relaxed u (hall hu) v hv hadj hcap
      omega
    · have hbound := h.le_cap v hv
      omega

/-- **Correctness.**  The distances are those in the graph, cut off at `cap`. -/
theorem Sound.dist_eq {s : Search V} (h : Sound G S cap a s) (hc : Closed G S) (ha : a ∈ S)
    (hall : S ⊆ s.done) {v : V} (hv : v ∈ S) : (s.dist v : ℕ∞) = min (G.edist a v) cap := by
  refine le_antisymm (le_min ?_ ?_) ?_
  · refine le_iInf fun p => ?_
    exact_mod_cast h.le_length hc ha hall p
  · exact_mod_cast h.le_cap v hv
  · by_cases hlt : s.dist v < cap
    · obtain ⟨p, hp⟩ := h.walk v hv hlt
      rw [← hp]
      exact min_le_of_left_le (SimpleGraph.edist_le p)
    · exact min_le_of_right_le (by exact_mod_cast Nat.le_of_not_lt hlt)

/-- A vertex that can be reached is fewer steps away than there are vertices. -/
theorem edist_lt_card (hc : Closed G S) (ha : a ∈ S) {v : V} (hr : G.Reachable a v) :
    G.edist a v < S.card := by
  classical
  obtain ⟨p, hpath, hlen⟩ := hr.exists_path_of_dist
  have hsub : p.support.toFinset ⊆ S := by
    intro w hw
    exact hc.support_subset p ha w (List.mem_toFinset.1 hw)
  have hcard := Finset.card_le_card hsub
  rw [List.toFinset_card_of_nodup hpath.support_nodup, SimpleGraph.Walk.length_support] at hcard
  rw [← hr.coe_dist_eq_edist, ← hlen]
  exact_mod_cast hcard

end Dijkstra
