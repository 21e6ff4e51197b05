import BirRouter.Djikstra
import BirRouter.Lib.CArray
import BirRouter.Lib.Dijkstra

/-!
# The subnet graph and the distances in it (`djikstra.c`)

What the first half of `djikstra_recompute` computes, in terms of the neighbour databases alone.

* `Attached`, `subnetGraph` — which router is attached to which subnet, and the graph on subnets
  with an edge between two of them that have a router in common and different addresses.
* `gather_topology`, `gather_subnets` — the collected queues as functions of the databases;
  `graph_iff_adj` — the matrix is the graph.
* `minDistance_spec` — the vertex a round takes is in range, outside the tree and nearest;
  `djikstraRound_round` — a round on the arrays is a round of the abstract search.
* `shortest_eq` — the array of distances holds the distances in the graph, cut off at `INT_MAX`.
-/

set_option autoImplicit false

namespace BirRouter

open ByteLayout Distinct

/-! ## What the databases say -/

/-- An LSA in one of the neighbour databases. -/
def Advertised (r : Router) (lsa : PwospfLsa) : Prop :=
  ∃ i < r.num_interfaces, ∃ entry ∈ (r.interface i).neighbours, lsa ∈ entry.lsu_lastcontents.lsas

/-- One of the router's own subnets. -/
def Router.Connected (r : Router) (link : DLink) : Prop :=
  ∃ i < r.num_interfaces, (r.interface i).link = link

/-- Router `id` is attached to a subnet: it is this router, or it is said to be. -/
def Attached (r : Router) (id : BitVec 32) (link : DLink) : Prop :=
  (id = r.pw_router.router_id ∧ r.Connected link) ∨
    ∃ lsa, Advertised r lsa ∧ lsa.router_id = id ∧ lsa.link = link

/-- Two subnets are next to each other if they have a router in common and different addresses. -/
def subnetGraph (r : Router) : SimpleGraph DLink where
  Adj a b := a.subnet ≠ b.subnet ∧ ∃ id, Attached r id a ∧ Attached r id b
  symm := ⟨fun _ _ ⟨hne, id, ha, hb⟩ => ⟨hne.symm, id, hb, ha⟩⟩
  loopless := ⟨fun _ h => h.1 rfl⟩

/-! ## The collected queues -/

/-- The topology entries a neighbour entry gives. -/
def PwospfListEntry.lsas (entry : PwospfListEntry) : List PwospfLsaDj :=
  entry.lsu_lastcontents.lsas.map fun lsa => ⟨lsa, entry.neighbour_ip⟩

/-- The topology entries of one interface: its own link, and what its neighbours say. -/
def interfaceLsas (r : Router) (i : Nat) : List PwospfLsaDj :=
  let f := r.interface i
  ⟨⟨f.subnet, f.subnet_mask, r.pw_router.router_id⟩, 0⟩ ::
    f.neighbours.flatMap PwospfListEntry.lsas

/-- Everything that is collected, in that order. -/
def collectedLsas (r : Router) : List PwospfLsaDj :=
  (List.range r.num_interfaces).flatMap (interfaceLsas r)

theorem gatherEntry_topology (i : Nat) (g : Gathered) (entry : PwospfListEntry) :
    (gatherEntry i g entry).topology = entry.lsas.foldl addNew g.topology := by
  unfold gatherEntry PwospfListEntry.lsas
  rw [List.foldl_map]
  exact (List.foldl_hom Gathered.topology fun _ _ => rfl).symm

theorem gatherEntry_subnets (i : Nat) (g : Gathered) (entry : PwospfListEntry) :
    (gatherEntry i g entry).subnets =
      (entry.lsas.map fun e => e.lsa.link).foldl addNew g.subnets := by
  unfold gatherEntry PwospfListEntry.lsas
  rw [List.map_map, List.foldl_map]
  exact (List.foldl_hom Gathered.subnets fun _ _ => rfl).symm

theorem gatherInterface_topology (r : Router) (g : Gathered) (i : Nat) :
    (gatherInterface r g i).topology = (interfaceLsas r i).foldl addNew g.topology := by
  unfold gatherInterface interfaceLsas
  rw [List.foldl_cons, List.foldl_flatMap]
  exact (List.foldl_hom Gathered.topology fun g entry => (gatherEntry_topology i g entry).symm).symm

theorem gatherInterface_subnets (r : Router) (g : Gathered) (i : Nat) :
    (gatherInterface r g i).subnets =
      ((interfaceLsas r i).map fun e => e.lsa.link).foldl addNew g.subnets := by
  unfold gatherInterface interfaceLsas
  rw [List.map_cons, List.foldl_cons, List.map_flatMap, List.foldl_flatMap]
  exact (List.foldl_hom Gathered.subnets fun g entry => (gatherEntry_subnets i g entry).symm).symm

/-- **The topology queue.** -/
theorem gather_topology (r : Router) :
    (gather r).topology = (collectedLsas r).foldl addNew [] := by
  unfold gather collectedLsas
  rw [List.foldl_flatMap]
  exact (List.foldl_hom Gathered.topology fun g i => (gatherInterface_topology r g i).symm).symm

/-- **The subnets queue.** -/
theorem gather_subnets (r : Router) :
    (gather r).subnets = ((collectedLsas r).map fun e => e.lsa.link).foldl addNew [] := by
  unfold gather collectedLsas
  rw [List.map_flatMap, List.foldl_flatMap]
  exact (List.foldl_hom Gathered.subnets fun g i => (gatherInterface_subnets r g i).symm).symm

theorem subnets_nodup (r : Router) : (gather r).subnets.Nodup := by
  rw [gather_subnets]
  exact nodup_foldl_addNew _

theorem mem_topology {r : Router} {e : PwospfLsaDj} :
    e ∈ (gather r).topology ↔ e ∈ collectedLsas r := by
  rw [gather_topology, mem_foldl_addNew]

/-- What is collected is what the routers are attached to. -/
theorem attached_iff {r : Router} {id : BitVec 32} {link : DLink} :
    Attached r id link ↔
      ∃ e ∈ (gather r).topology, e.lsa.router_id = id ∧ e.lsa.link = link := by
  simp only [mem_topology, collectedLsas, List.mem_flatMap, List.mem_range]
  constructor
  · rintro (⟨rfl, i, hi, rfl⟩ | ⟨lsa, ⟨i, hi, entry, hentry, hlsa⟩, rfl, rfl⟩)
    · exact ⟨_, ⟨i, hi, List.mem_cons_self⟩, rfl, rfl⟩
    · refine ⟨⟨lsa, entry.neighbour_ip⟩, ⟨i, hi, List.mem_cons_of_mem _ ?_⟩, rfl, rfl⟩
      exact List.mem_flatMap.2 ⟨entry, hentry, List.mem_map.2 ⟨lsa, hlsa, rfl⟩⟩
  · rintro ⟨e, ⟨i, hi, he⟩, rfl, rfl⟩
    rcases List.mem_cons.1 he with rfl | he
    · exact .inl ⟨rfl, i, hi, rfl⟩
    · obtain ⟨entry, hentry, he⟩ := List.mem_flatMap.1 he
      obtain ⟨lsa, hlsa, rfl⟩ := List.mem_map.1 he
      exact .inr ⟨lsa, ⟨i, hi, entry, hentry, hlsa⟩, rfl, rfl⟩

theorem mem_subnets_of_topology {r : Router} {e : PwospfLsaDj} (he : e ∈ (gather r).topology) :
    e.lsa.link ∈ (gather r).subnets := by
  rw [gather_subnets, mem_foldl_addNew]
  exact List.mem_map.2 ⟨e, mem_topology.1 he, rfl⟩

/-- A subnet is a vertex if some router is attached to it. -/
theorem mem_subnets {r : Router} {link : DLink} :
    link ∈ (gather r).subnets ↔ ∃ id, Attached r id link := by
  constructor
  · intro h
    rw [gather_subnets, mem_foldl_addNew] at h
    obtain ⟨e, he, rfl⟩ := List.mem_map.1 h
    exact ⟨e.lsa.router_id, attached_iff.2 ⟨e, mem_topology.2 he, rfl, rfl⟩⟩
  · rintro ⟨id, h⟩
    obtain ⟨e, he, -, rfl⟩ := attached_iff.1 h
    exact mem_subnets_of_topology he

theorem Router.Connected.attached {r : Router} {link : DLink} (h : r.Connected link) :
    Attached r r.pw_router.router_id link :=
  .inl ⟨rfl, h⟩

theorem Router.Connected.mem_subnets {r : Router} {link : DLink} (h : r.Connected link) :
    link ∈ (gather r).subnets :=
  BirRouter.mem_subnets.2 ⟨_, h.attached⟩

theorem subnetGraph_closed (r : Router) :
    Dijkstra.Closed (subnetGraph r) (gather r).subnets.toFinset := by
  rintro a b - ⟨-, id, -, hb⟩
  exact List.mem_toFinset.2 (mem_subnets.2 ⟨id, hb⟩)

/-! ## The matrix -/

theorem mem_graphEdges_or (subnets : List DLink) (u v : Nat) : ∀ topology : List PwospfLsaDj,
    ((u, v) ∈ graphEdges subnets topology ∨ (v, u) ∈ graphEdges subnets topology) ↔
      ∃ e ∈ topology, ∃ e' ∈ topology, e.lsa.router_id = e'.lsa.router_id ∧
        e.lsa.subnet ≠ e'.lsa.subnet ∧ u = subnets.idxOf e.lsa.link ∧ v = subnets.idxOf e'.lsa.link
  | [] => by simp [graphEdges]
  | entry :: rest => by
    have ih := mem_graphEdges_or subnets u v rest
    simp only [graphEdges, List.mem_append, List.mem_map, List.mem_filter, decide_eq_true_eq,
      Prod.mk.injEq]
    constructor
    · rintro ((⟨e, ⟨he, hid, hne⟩, rfl, rfl⟩ | h) | (⟨e, ⟨he, hid, hne⟩, rfl, rfl⟩ | h))
      · exact ⟨entry, List.mem_cons_self, e, List.mem_cons_of_mem _ he, hid, hne, rfl, rfl⟩
      · obtain ⟨e, he, e', he', h⟩ := ih.1 (.inl h)
        exact ⟨e, List.mem_cons_of_mem _ he, e', List.mem_cons_of_mem _ he', h⟩
      · exact ⟨e, List.mem_cons_of_mem _ he, entry, List.mem_cons_self, hid.symm, hne.symm, rfl, rfl⟩
      · obtain ⟨e, he, e', he', h⟩ := ih.1 (.inr h)
        exact ⟨e, List.mem_cons_of_mem _ he, e', List.mem_cons_of_mem _ he', h⟩
    · rintro ⟨e, he, e', he', hid, hne, rfl, rfl⟩
      rcases List.mem_cons.1 he with rfl | hr
      · rcases List.mem_cons.1 he' with rfl | hr'
        · exact absurd rfl hne
        · exact .inl (.inl ⟨e', ⟨hr', hid, hne⟩, rfl, rfl⟩)
      · rcases List.mem_cons.1 he' with rfl | hr'
        · exact .inr (.inl ⟨e, ⟨hr, hid.symm, hne.symm⟩, rfl, rfl⟩)
        · exact (ih.2 ⟨e, hr, e', hr', hid, hne, rfl, rfl⟩).imp .inr .inr

/-- The matrix of `djikstra_recompute`. -/
def Router.edges (r : Router) : List (Nat × Nat) :=
  graphEdges (gather r).subnets (gather r).topology

/-- **The matrix is the subnet graph.** -/
theorem graph_iff_adj (r : Router) {a b : DLink} (ha : a ∈ (gather r).subnets)
    (hb : b ∈ (gather r).subnets) :
    graph r.edges ((gather r).subnets.idxOf a) ((gather r).subnets.idxOf b) = true ↔
      (subnetGraph r).Adj a b := by
  unfold graph Router.edges
  rw [decide_eq_true_eq, mem_graphEdges_or]
  constructor
  · rintro ⟨e, he, e', he', hid, hne, hae, hbe⟩
    obtain rfl := (List.idxOf_inj ha).1 hae
    obtain rfl := (List.idxOf_inj hb).1 hbe
    exact ⟨hne, e.lsa.router_id, attached_iff.2 ⟨e, he, rfl, rfl⟩,
      attached_iff.2 ⟨e', he', hid.symm, rfl⟩⟩
  · rintro ⟨hne, id, hida, hidb⟩
    obtain ⟨e, he, hid, rfl⟩ := attached_iff.1 hida
    obtain ⟨e', he', hid', rfl⟩ := attached_iff.1 hidb
    exact ⟨e, he, e', he', hid.trans hid'.symm, hne, rfl, rfl⟩

/-! ## The nearest vertex -/

/-- One step of `minDistance`. -/
def nearer (dist : List Nat) (sptSet : List Bool) (best : Nat × Nat) (v : Nat) : Nat × Nat :=
  if sptSet.getD v false = false ∧ dist.getD v intMax ≤ best.1 then (dist.getD v intMax, v)
  else best

theorem minDistance_eq (dist : List Nat) (sptSet : List Bool) (V : Nat) :
    minDistance dist sptSet V = ((List.range V).foldl (nearer dist sptSet) (intMax, 0)).2 := rfl

/-- Before the first vertex outside the tree nothing is found; from there on the nearest one so
far. -/
theorem foldl_nearer {dist : List Nat} (sptSet : List Bool)
    (hle : ∀ v, dist.getD v intMax ≤ intMax) (n : Nat) :
    let best := (List.range n).foldl (nearer dist sptSet) (intMax, 0)
    (best.1 = intMax ∧ ∀ v < n, sptSet.getD v false ≠ false) ∨
      (best.2 < n ∧ sptSet.getD best.2 false = false ∧ best.1 = dist.getD best.2 intMax ∧
        ∀ v < n, sptSet.getD v false = false → best.1 ≤ dist.getD v intMax) := by
  induction n with
  | zero => exact .inl ⟨rfl, fun v hv => absurd hv (Nat.not_lt_zero v)⟩
  | succ n ih =>
    simp only at ih ⊢
    rw [List.range_succ, List.foldl_append, List.foldl_cons, List.foldl_nil]
    generalize (List.range n).foldl (nearer dist sptSet) (intMax, 0) = best at ih ⊢
    have hbest : best.1 ≤ intMax := by
      rcases ih with ⟨h, -⟩ | ⟨-, -, h, -⟩
      · exact Nat.le_of_eq h
      · exact h ▸ hle _
    unfold nearer
    split
    · rename_i hv
      refine .inr ⟨Nat.lt_succ_self n, hv.1, rfl, ?_⟩
      intro v hvn hfree
      rcases Nat.lt_succ_iff_lt_or_eq.1 hvn with hvn | rfl
      · rcases ih with ⟨-, hnone⟩ | ⟨-, -, -, hleast⟩
        · exact absurd hfree (hnone v hvn)
        · exact Nat.le_trans hv.2 (hleast v hvn hfree)
      · exact Nat.le_refl _
    · rename_i hv
      rcases ih with ⟨hmax, hnone⟩ | ⟨hlt, hfree, heq, hleast⟩
      · refine .inl ⟨hmax, fun v hvn => ?_⟩
        rcases Nat.lt_succ_iff_lt_or_eq.1 hvn with hvn | rfl
        · exact hnone v hvn
        · exact fun hfree => hv ⟨hfree, hmax ▸ hle v⟩
      · refine .inr ⟨Nat.lt_succ_of_lt hlt, hfree, heq, fun v hvn hf => ?_⟩
        rcases Nat.lt_succ_iff_lt_or_eq.1 hvn with hvn | rfl
        · exact hleast v hvn hf
        · exact Nat.le_of_not_le fun hvle => hv ⟨hf, hvle⟩

/-- **`minDistance`** finds a vertex in range outside the tree, and none there is nearer. -/
theorem minDistance_spec {dist : List Nat} {sptSet : List Bool} {V : Nat}
    (hle : ∀ v, dist.getD v intMax ≤ intMax) (hleft : ∃ v < V, sptSet.getD v false = false) :
    minDistance dist sptSet V < V ∧ sptSet.getD (minDistance dist sptSet V) false = false ∧
      ∀ v < V, sptSet.getD v false = false →
        dist.getD (minDistance dist sptSet V) intMax ≤ dist.getD v intMax := by
  rw [minDistance_eq]
  rcases foldl_nearer sptSet hle V with ⟨-, hnone⟩ | ⟨hlt, hfree, heq, hleast⟩
  · obtain ⟨v, hv, hfree⟩ := hleft
    exact absurd hfree (hnone v hv)
  · exact ⟨hlt, hfree, fun v hv hf => heq ▸ hleast v hv hf⟩

/-! ## Rounds -/

/-- The way to `v` through `u` is shorter. -/
def Relaxes (edges : List (Nat × Nat)) (u : Nat) (sptSet : List Bool) (dist : List Nat) (v : Nat) :
    Prop :=
  sptSet.getD v false = false ∧ graph edges u v ∧ dist.getD u intMax ≠ intMax ∧
    dist.getD u intMax + 1 < dist.getD v intMax

instance (edges : List (Nat × Nat)) (u : Nat) (sptSet : List Bool) (dist : List Nat) (v : Nat) :
    Decidable (Relaxes edges u sptSet dist v) :=
  inferInstanceAs (Decidable (_ ∧ _ ∧ _ ∧ _))

/-- Relaxing the edge from `u` to `v`. -/
def relaxOne (edges : List (Nat × Nat)) (u : Nat) (sptSet : List Bool) (dist : List Nat) (v : Nat) :
    List Nat :=
  if Relaxes edges u sptSet dist v then dist.set v (dist.getD u intMax + 1) else dist

/-- The state after `k` rounds from subnet `id`. -/
def rounds (edges : List (Nat × Nat)) (V id k : Nat) : List Nat × List Bool :=
  (List.range k).foldl (fun s _ => djikstraRound edges V s)
    ((List.replicate V intMax).set id 0, List.replicate V false)

theorem djikstraRound_eq (edges : List (Nat × Nat)) (V : Nat) (s : List Nat × List Bool) :
    djikstraRound edges V s =
      ((List.range V).foldl (relaxOne edges (minDistance s.1 s.2 V)
          (s.2.set (minDistance s.1 s.2 V) true)) s.1,
        s.2.set (minDistance s.1 s.2 V) true) := rfl

theorem shortest_eq_rounds (edges : List (Nat × Nat)) (V id : Nat) :
    shortest edges V id = (rounds edges V id V).1 := rfl

theorem rounds_succ (edges : List (Nat × Nat)) (V id k : Nat) :
    rounds edges V id (k + 1) = djikstraRound edges V (rounds edges V id k) := by
  unfold rounds
  rw [List.range_succ, List.foldl_append, List.foldl_cons, List.foldl_nil]

/-- `dist` and `sptSet` have a slot for every subnet, and no distance is above `INT_MAX`. -/
structure Arrays (V : Nat) (s : List Nat × List Bool) : Prop where
  dist_length : s.1.length = V
  spt_length : s.2.length = V
  le_max : ∀ v, s.1.getD v intMax ≤ intMax

section Relax

variable (edges : List (Nat × Nat)) {u : Nat} {sptSet : List Bool}

theorem length_relaxOne (a : List Nat) (v : Nat) :
    (relaxOne edges u sptSet a v).length = a.length := by
  unfold relaxOne
  split
  · exact List.length_set
  · rfl

theorem getD_relaxOne_ne (a : List Nat) {v w : Nat} (hw : w ≠ v) :
    (relaxOne edges u sptSet a v).getD w intMax = a.getD w intMax := by
  unfold relaxOne
  split
  · exact CArray.getD_set_ne a (Ne.symm hw) _ _
  · rfl

/-- `u` itself is in the tree and is not written. -/
theorem getD_relaxOne_tree (hu : sptSet.getD u false = true) (a : List Nat) (v : Nat) :
    (relaxOne edges u sptSet a v).getD u intMax = a.getD u intMax := by
  by_cases huv : u = v
  · subst huv
    unfold relaxOne
    rw [if_neg fun hc => absurd (hu.symm.trans hc.1) (by decide)]
  · exact getD_relaxOne_ne edges a huv

/-- The distances after relaxing the first `m` edges of `u`, which is in the tree. -/
theorem relaxOne_foldl {V : Nat} {dist : List Nat} (hu : sptSet.getD u false = true)
    (hlen : dist.length = V) {m : Nat} (hm : m ≤ V) :
    let dist' := (List.range m).foldl (relaxOne edges u sptSet) dist
    (dist'.length = V ∧ dist'.getD u intMax = dist.getD u intMax) ∧
      ∀ v, dist'.getD v intMax =
        if v < m then
          if Relaxes edges u sptSet dist v then dist.getD u intMax + 1 else dist.getD v intMax
        else dist.getD v intMax := by
  refine CArray.foldl_range_slots
    (fun a => a.length = V ∧ a.getD u intMax = dist.getD u intMax)
    (fun a v => a.getD v intMax)
    (fun v old => if sptSet.getD v false = false ∧ graph edges u v ∧
      dist.getD u intMax ≠ intMax ∧ dist.getD u intMax + 1 < old
      then dist.getD u intMax + 1 else old) ?_ ?_ (fun a v _ _ w hw => getD_relaxOne_ne edges a hw)
    ⟨hlen, rfl⟩ m hm
  · rintro a v - ⟨ha, hau⟩
    exact ⟨by rw [length_relaxOne, ha], by rw [getD_relaxOne_tree edges hu, hau]⟩
  · rintro a v hv ⟨ha, hau⟩
    have hiff : Relaxes edges u sptSet a v ↔ sptSet.getD v false = false ∧ graph edges u v ∧
        dist.getD u intMax ≠ intMax ∧ dist.getD u intMax + 1 < a.getD v intMax := by
      unfold Relaxes
      rw [hau]
    unfold relaxOne
    by_cases hr : Relaxes edges u sptSet a v
    · rw [if_pos hr, if_pos (hiff.1 hr), hau]
      exact CArray.getD_set_self (by omega) _ _
    · rw [if_neg hr, if_neg (mt hiff.2 hr)]

end Relax

/-! ## The arrays as a search -/

/-- What the arrays say about the subnets. -/
def searchOf (subnets : List DLink) (s : List Nat × List Bool) : Dijkstra.Search DLink where
  dist link := s.1.getD (subnets.idxOf link) intMax
  done := subnets.toFinset.filter fun link => s.2.getD (subnets.idxOf link) false = true

section Search

variable {subnets : List DLink} {s : List Nat × List Bool} {G : SimpleGraph DLink}
  {edges : List (Nat × Nat)}

theorem mem_done_searchOf {link : DLink} (h : link ∈ subnets) :
    link ∈ (searchOf subnets s).done ↔ s.2.getD (subnets.idxOf link) false = true := by
  unfold searchOf
  rw [Finset.mem_filter, List.mem_toFinset]
  exact and_iff_right h

/-- Marking a subnet adds it to the tree. -/
theorem done_searchOf_set (hn : subnets.Nodup) (hs : s.2.length = subnets.length) {u : Nat}
    (hu : u < subnets.length) (dist : List Nat) :
    (searchOf subnets (dist, s.2.set u true)).done =
      insert subnets[u] (searchOf subnets s).done := by
  have hidx : subnets.idxOf subnets[u] = u := hn.idxOf_getElem u hu
  ext link
  rw [Finset.mem_insert]
  by_cases hlink : link ∈ subnets
  · rw [mem_done_searchOf hlink, mem_done_searchOf hlink]
    by_cases hlu : subnets.idxOf link = u
    · have heq : link = subnets[u] := (List.idxOf_inj hlink).1 (hlu.trans hidx.symm)
      rw [hlu, CArray.getD_set_self (by omega)]
      exact iff_of_true rfl (.inl heq)
    · have hne : link ≠ subnets[u] := fun h => hlu (by rw [h, hidx])
      rw [CArray.getD_set_ne _ (Ne.symm hlu)]
      exact ⟨.inr, fun h => h.resolve_left hne⟩
  · have hne : link ≠ subnets[u] := fun h => hlink (h ▸ List.getElem_mem hu)
    simp [searchOf, hlink, hne]

/-- The test of the inner loop, in terms of the graph. -/
theorem relaxes_iff (hn : subnets.Nodup)
    (hG : ∀ a ∈ subnets, ∀ b ∈ subnets,
      (graph edges (subnets.idxOf a) (subnets.idxOf b) = true ↔ G.Adj a b))
    (hmax : ∀ v, s.1.getD v intMax ≤ intMax) {u : Nat} (hu : u < subnets.length) {v : DLink}
    (hv : v ∈ subnets) {sptSet : List Bool} (dist : List Nat) :
    Relaxes edges u sptSet s.1 (subnets.idxOf v) ↔
      v ∉ (searchOf subnets (dist, sptSet)).done ∧
        Dijkstra.Shorter G intMax (searchOf subnets s) subnets[u] v := by
  have hidx : subnets.idxOf subnets[u] = u := hn.idxOf_getElem u hu
  have hlt : s.1.getD u intMax ≠ intMax ↔ s.1.getD u intMax < intMax :=
    ⟨fun h => Nat.lt_of_le_of_ne (hmax u) h, Nat.ne_of_lt⟩
  have hadj := hG _ (List.getElem_mem hu) v hv
  rw [hidx] at hadj
  unfold Relaxes Dijkstra.Shorter
  rw [mem_done_searchOf hv, Bool.not_eq_true, hadj, hlt]
  simp only [searchOf, hidx]

/-- **A round on the arrays is a round of the search.** -/
theorem djikstraRound_round (hn : subnets.Nodup)
    (hG : ∀ a ∈ subnets, ∀ b ∈ subnets,
      (graph edges (subnets.idxOf a) (subnets.idxOf b) = true ↔ G.Adj a b))
    (hs : Arrays subnets.length s)
    (hleft : ∃ v ∈ subnets.toFinset, v ∉ (searchOf subnets s).done) :
    Arrays subnets.length (djikstraRound edges subnets.length s) ∧
      ∃ u, Dijkstra.Round G subnets.toFinset intMax u (searchOf subnets s)
        (searchOf subnets (djikstraRound edges subnets.length s)) := by
  have hleft' : ∃ v < subnets.length, s.2.getD v false = false := by
    obtain ⟨link, hlink, hd⟩ := hleft
    have hmem := List.mem_toFinset.1 hlink
    refine ⟨subnets.idxOf link, List.idxOf_lt_length_iff.2 hmem, ?_⟩
    exact Bool.eq_false_iff.2 fun h => hd ((mem_done_searchOf hmem).2 h)
  obtain ⟨hu, hfree, hleast⟩ := minDistance_spec hs.le_max hleft'
  rw [djikstraRound_eq]
  generalize minDistance s.1 s.2 subnets.length = u at hu hfree hleast ⊢
  have hset : (s.2.set u true).getD u false = true :=
    CArray.getD_set_self (by rw [hs.spt_length]; exact hu) _ _
  obtain ⟨⟨hlen, -⟩, hrelax⟩ := relaxOne_foldl edges hset hs.dist_length (Nat.le_refl _)
  generalize (List.range subnets.length).foldl (relaxOne edges u (s.2.set u true)) s.1 = dist
    at hlen hrelax ⊢
  have hidx : subnets.idxOf subnets[u] = u := hn.idxOf_getElem u hu
  have hmemu : subnets[u] ∈ subnets := List.getElem_mem hu
  refine ⟨⟨hlen, by rw [List.length_set, hs.spt_length], fun v => ?_⟩, subnets[u],
    List.mem_toFinset.2 hmemu, ?_, ?_, done_searchOf_set hn hs.spt_length hu dist, ?_, ?_⟩
  · rw [hrelax]
    have hv := hs.le_max v
    split
    · split
      · rename_i hr
        exact Nat.le_trans (Nat.le_of_lt hr.2.2.2) hv
      · exact hv
    · exact hv
  · rw [mem_done_searchOf hmemu, hidx, hfree]
    decide
  · intro v hv hd
    have hmem := List.mem_toFinset.1 hv
    rw [mem_done_searchOf hmem, Bool.not_eq_true] at hd
    have hle := hleast _ (List.idxOf_lt_length_iff.2 hmem) hd
    simpa only [searchOf, hidx] using hle
  · intro v hv hd hsh
    have hmem := List.mem_toFinset.1 hv
    have hr := (relaxes_iff hn hG hs.le_max hu hmem dist).2 ⟨hd, hsh⟩
    have heq := hrelax (subnets.idxOf v)
    rw [if_pos (List.idxOf_lt_length_iff.2 hmem), if_pos hr] at heq
    simpa only [searchOf, hidx] using heq
  · intro v hv hc
    have hmem := List.mem_toFinset.1 hv
    have hr := mt (relaxes_iff hn hG hs.le_max hu hmem dist).1 hc
    have heq := hrelax (subnets.idxOf v)
    rwa [if_pos (List.idxOf_lt_length_iff.2 hmem), if_neg hr] at heq

theorem getD_start {V id : Nat} (hid : id < V) (v : Nat) :
    ((List.replicate V intMax).set id 0).getD v intMax = if v = id then 0 else intMax := by
  by_cases hv : v = id
  · rw [if_pos hv, hv]
    exact CArray.getD_set_self (by rw [List.length_replicate]; exact hid) _ _
  · rw [if_neg hv, CArray.getD_set_ne _ (Ne.symm hv), List.getD_eq_getElem?_getD,
      List.getElem?_replicate]
    split <;> rfl

/-- The arrays a search begins with. -/
theorem rounds_zero (edges : List (Nat × Nat)) {a : DLink} (ha : a ∈ subnets) :
    let s := rounds edges subnets.length (subnets.idxOf a) 0
    Arrays subnets.length s ∧ (searchOf subnets s).done = ∅ ∧
      ∀ v ∈ subnets, (searchOf subnets s).dist v = if v = a then 0 else intMax := by
  have hdist := getD_start (List.idxOf_lt_length_iff.2 ha)
  refine ⟨⟨by simp [rounds], by simp [rounds], fun v => ?_⟩, ?_, ?_⟩
  · refine Nat.le_trans (Nat.le_of_eq (hdist v)) ?_
    split <;> omega
  · refine Finset.filter_eq_empty_iff.2 fun v _ => ?_
    rw [Bool.not_eq_true]
    show (List.replicate subnets.length false).getD _ false = false
    rw [List.getD_eq_getElem?_getD, List.getElem?_replicate]
    split <;> rfl
  · intro v hv
    refine (hdist _).trans ?_
    simp only [List.idxOf_inj hv]

end Search

/-! ## The distances -/

section Distances

variable (r : Router) {a : DLink}

/-- **Every round** finds the arrays in order, and one more subnet is in the tree. -/
theorem rounds_sound (ha : a ∈ (gather r).subnets) {k : Nat} (hk : k ≤ (gather r).subnets.length) :
    let s := rounds r.edges (gather r).subnets.length ((gather r).subnets.idxOf a) k
    Arrays (gather r).subnets.length s ∧
      Dijkstra.Sound (subnetGraph r) (gather r).subnets.toFinset intMax a
        (searchOf (gather r).subnets s) ∧
      (searchOf (gather r).subnets s).done.card = k := by
  have hn := subnets_nodup r
  generalize hsub : (gather r).subnets = subnets at ha hk hn ⊢
  have hG : ∀ a ∈ subnets, ∀ b ∈ subnets,
      (graph r.edges (subnets.idxOf a) (subnets.idxOf b) = true ↔ (subnetGraph r).Adj a b) := by
    intro a ha b hb
    subst hsub
    exact graph_iff_adj r ha hb
  obtain ⟨hok, hempty, hdist⟩ := rounds_zero r.edges ha
  have hmem := List.mem_toFinset.2 ha
  refine Dijkstra.Sound.run (searchOf subnets) (Arrays subnets.length) hmem hok
    (.start hmem hempty fun v hv => hdist v (List.mem_toFinset.1 hv)) hempty (fun k hok hleft => ?_) k
    (by rw [List.toFinset_card_of_nodup hn]; exact hk)
  rw [rounds_succ]
  exact djikstraRound_round hn hG hok hleft

/-- **The distances found** are those in the subnet graph, cut off at `INT_MAX`. -/
theorem shortest_eq (ha : a ∈ (gather r).subnets) {b : DLink} (hb : b ∈ (gather r).subnets) :
    (((shortest r.edges (gather r).subnets.length ((gather r).subnets.idxOf a)).getD
        ((gather r).subnets.idxOf b) intMax : ℕ) : ℕ∞) =
      min ((subnetGraph r).edist a b) intMax := by
  obtain ⟨-, hs, hcard⟩ := rounds_sound r ha (Nat.le_refl _)
  have hall := Finset.eq_of_subset_of_card_le hs.done_subset
    (by rw [hcard, List.toFinset_card_of_nodup (subnets_nodup r)])
  rw [shortest_eq_rounds]
  exact hs.dist_eq (subnetGraph_closed r) (List.mem_toFinset.2 ha) hall.ge (List.mem_toFinset.2 hb)

end Distances

end BirRouter
