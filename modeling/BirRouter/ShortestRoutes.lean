import BirRouter.Routes
import Mathlib.Logic.Relation

/-!
# What the routes are worth

Four properties of `djikstra_recompute` over every set of interfaces and neighbour databases.

* `djikstraRecompute_distances` — its distances are those of the subnet graph, its lookups and
  `minDistance` never fail, and each route has the least distance as its metric.
* `djikstraRecompute_complete_iff` — which tables have a route to everything that is advertised.
  Edges and the last filter compare subnet addresses, vertices compare addresses and masks, so a
  subnet with the address of its neighbour or of its nearest interface can be left out
  (`sameAddress_incomplete`).
* `djikstraRecompute_next_hops_iff` — which tables send every packet to a router on a shortest
  path.  The router is chosen per interface, so two of them on one subnet are enough to go wrong
  (`twoNeighbours_wrong_hop`).
* `djikstraRecompute_rearranged` — the order in the databases does not matter.
-/

set_option autoImplicit false

namespace BirRouter

open ByteLayout

/-! ## Distances -/

/-- Distances, lookups and metrics of one call. -/
structure ShortestDistances (env : Env) (r : Router) : Prop where
  /-- The lookups of both ends of an edge succeed. -/
  edge_lookups : ∀ e ∈ (gather r).topology,
    (gather r).subnets.idxOf e.lsa.link < (gather r).subnets.length
  /-- The lookup of an own subnet succeeds. -/
  own_lookups : ∀ i < r.num_interfaces,
    (gather r).subnets.idxOf (r.interface i).link < (gather r).subnets.length
  /-- In every round `minDistance` returns an index in range that is not yet visited. -/
  min_distance : ∀ i < r.num_interfaces, ∀ k < (gather r).subnets.length,
    let V := (gather r).subnets.length
    let s := rounds r.edges V ((gather r).subnets.idxOf (r.interface i).link) k
    minDistance s.1 s.2 V < V ∧ s.2.getD (minDistance s.1 s.2 V) true = false
  /-- The sum for the edge to `m` is an `int`. -/
  no_overflow : ∀ i < r.num_interfaces, ∀ k < (gather r).subnets.length,
    ∀ m < (gather r).subnets.length,
    let V := (gather r).subnets.length
    let s := rounds r.edges V ((gather r).subnets.idxOf (r.interface i).link) k
    let u := minDistance s.1 s.2 V
    let dist := (List.range m).foldl (relaxOne r.edges u (s.2.set u true)) s.1
    dist.getD u intMax ≠ intMax → dist.getD u intMax + 1 ≤ intMax
  /-- The distances are those in the graph, cut off at `INT_MAX`. -/
  distances : ∀ i < r.num_interfaces, ∀ w, ∀ hw : w < (gather r).subnets.length,
    (r.distFrom i w : ℕ∞) =
      min ((subnetGraph r).edist (r.interface i).link (gather r).subnets[w]) intMax
  /-- The number of subnets is an `int`, and with that nothing is cut off: `INT_MAX` stands exactly
  for the subnets that cannot be reached. -/
  unreachable : (gather r).subnets.length ≤ intMax →
    ∀ i < r.num_interfaces, ∀ w, ∀ hw : w < (gather r).subnets.length,
      (r.distFrom i w = intMax ↔
        ¬ (subnetGraph r).Reachable (r.interface i).link (gather r).subnets[w]) ∧
      ((subnetGraph r).Reachable (r.interface i).link (gather r).subnets[w] →
        r.distFrom i w = (subnetGraph r).dist (r.interface i).link (gather r).subnets[w])
  /-- A dynamic route has the least distance over the interfaces as its metric, and the
  lowest-numbered of the nearest ones as its interface. -/
  metrics : ∀ e ∈ (djikstraRecompute env r).ip_table, e.dynamic = true →
    ∃ d : Nat, e.metric = d ∧ Nearest r e.link e.interface d

/-- What a round of `djikstra_recompute` finds: a vertex is left, and `minDistance` takes one. -/
theorem rounds_minDistance (r : Router) {a : DLink} (ha : a ∈ (gather r).subnets) {k : Nat}
    (hk : k < (gather r).subnets.length) :
    let V := (gather r).subnets.length
    let s := rounds r.edges V ((gather r).subnets.idxOf a) k
    Arrays V s ∧ minDistance s.1 s.2 V < V ∧ s.2.getD (minDistance s.1 s.2 V) false = false := by
  obtain ⟨harr, hs, hcard⟩ := rounds_sound r ha (Nat.le_of_lt hk)
  obtain ⟨link, hlink, hleft⟩ := Finset.exists_mem_notMem_of_card_lt_card
    (show (searchOf (gather r).subnets (rounds r.edges (gather r).subnets.length
      ((gather r).subnets.idxOf a) k)).done.card < (gather r).subnets.toFinset.card by
      rw [hcard, List.toFinset_card_of_nodup (subnets_nodup r)]
      exact hk)
  have hmem := List.mem_toFinset.1 hlink
  rw [mem_done_searchOf hmem, Bool.not_eq_true] at hleft
  obtain ⟨hu, hfree, -⟩ := minDistance_spec harr.le_max
    ⟨_, List.idxOf_lt_length_iff.2 hmem, hleft⟩
  exact ⟨harr, hu, hfree⟩

theorem distFrom_reachable (r : Router) (hV : (gather r).subnets.length ≤ intMax) {i w : Nat}
    (hi : i < r.num_interfaces) (hw : w < (gather r).subnets.length)
    (h : (subnetGraph r).Reachable (r.interface i).link (gather r).subnets[w]) :
    r.distFrom i w < intMax ∧
      r.distFrom i w = (subnetGraph r).dist (r.interface i).link (gather r).subnets[w] := by
  have hown : r.Connected (r.interface i).link := ⟨i, hi, rfl⟩
  have hlt := Dijkstra.edist_lt_card (subnetGraph_closed r)
    (List.mem_toFinset.2 hown.mem_subnets) h
  rw [List.toFinset_card_of_nodup (subnets_nodup r), ← h.coe_dist_eq_edist, Nat.cast_lt] at hlt
  have heq := (distFrom_eq_iff r hi hw (Nat.lt_of_lt_of_le hlt hV)).2 h.coe_dist_eq_edist.symm
  exact ⟨by omega, heq⟩

/-- **Shortest distances.** -/
theorem djikstraRecompute_distances (env : Env) (r : Router) : ShortestDistances env r := by
  have hown : ∀ i < r.num_interfaces, (r.interface i).link ∈ (gather r).subnets := fun i hi =>
    Router.Connected.mem_subnets ⟨i, hi, rfl⟩
  refine ⟨?_, ?_, ?_, ?_, fun i hi w hw => distFrom_eq r hi hw, ?_, ?_⟩
  · intro e he
    exact List.idxOf_lt_length_iff.2 (mem_subnets_of_topology he)
  · intro i hi
    exact List.idxOf_lt_length_iff.2 (hown i hi)
  · intro i hi k hk
    obtain ⟨harr, hu, hfree⟩ := rounds_minDistance r (hown i hi) hk
    refine ⟨hu, ?_⟩
    rw [List.getD_eq_getElem _ _ (by rw [harr.spt_length]; exact hu)] at hfree ⊢
    exact hfree
  · intro i hi k hk m hm V s u dist hne
    obtain ⟨harr, hu, -⟩ := rounds_minDistance r (hown i hi) hk
    -- the edges relaxed before do not touch the distance of `u`
    have hset : (s.2.set u true).getD u false = true :=
      CArray.getD_set_self (by rw [harr.spt_length]; exact hu) _ _
    have hkeep : dist.getD u intMax = s.1.getD u intMax :=
      (relaxOne_foldl r.edges hset harr.dist_length (Nat.le_of_lt hm)).1.2
    have hle : s.1.getD u intMax ≤ intMax := harr.le_max u
    omega
  · intro hV i hi w hw
    refine ⟨⟨fun hmax hreach => ?_, fun hun => ?_⟩, fun h => (distFrom_reachable r hV hi hw h).2⟩
    · have := (distFrom_reachable r hV hi hw hreach).1
      omega
    · have heq := distFrom_eq r hi hw
      rw [SimpleGraph.edist_eq_top_of_not_reachable hun, min_eq_right le_top] at heq
      exact_mod_cast heq
  · intro e he hdyn
    obtain ⟨d, hmetric, -, hnear⟩ := (isRoute_of_mem ((mem_newTable_dynamic hdyn).1 he)).nearest
    exact ⟨d, hmetric, hnear⟩

/-! ## Which subnets have a route -/

/-- **The routes as tuples.** -/
theorem exists_route_iff (env : Env) (r : Router) (link : DLink) (f : Nat) (metric : Int) :
    (∃ e ∈ (djikstraRecompute env r).ip_table, e.dynamic = true ∧ e.link = link ∧
        e.interface = f ∧ e.metric = metric) ↔
      ∃ d : Nat, metric = d ∧ d < intMax ∧ Nearest r link f d ∧
        (r.interface f).subnet ≠ link.subnet := by
  constructor
  · rintro ⟨e, he, hdyn, rfl, rfl, rfl⟩
    have hroute := isRoute_of_mem ((mem_newTable_dynamic hdyn).1 he)
    obtain ⟨d, hmetric, hd, hnear⟩ := hroute.nearest
    exact ⟨d, hmetric, hd, hnear, hroute.other⟩
  · rintro ⟨d, rfl, hd, hnear, hne⟩
    let e : RtableEntry :=
      ⟨lastSpeaker 0 (r.interface f).neighbours, link.subnet, link.netmask, f, d, true, 0⟩
    have hroute : IsRoute r e := ⟨rfl, ⟨d, rfl, hd, hnear⟩, hne, rfl⟩
    obtain ⟨e', he', hbare⟩ := List.mem_map.1 ((mem_routes_bare_iff env r e).2 hroute)
    have hdyn : e'.dynamic = true := (isRoute_of_mem he').dynamic
    refine ⟨e', (mem_newTable_dynamic hdyn).2 he', hdyn, ?_, ?_, ?_⟩
    · exact congrArg RtableEntry.link hbare
    · exact congrArg RtableEntry.interface hbare
    · exact congrArg RtableEntry.metric hbare

/-- Two subnets have a router in common. -/
def SharesRouter (r : Router) (a b : DLink) : Prop := ∃ id, Attached r id a ∧ Attached r id b

/-- A subnet the router should know a way to: it is advertised, not its own, and connected to an
own one through subnets with routers in common. -/
structure Remote (r : Router) (link : DLink) : Prop where
  advertised : ∃ lsa, Advertised r lsa ∧ lsa.link = link
  not_connected : ¬ r.Connected link
  chain : ∃ own, r.Connected own ∧ Relation.ReflTransGen (SharesRouter r) own link

/-- The dynamic entries of a table for a subnet. -/
def dynamicCount (table : List RtableEntry) (link : DLink) : Nat :=
  ((table.filter fun e => e.dynamic).map RtableEntry.link).count link

/-- One dynamic entry for each remote subnet, and none for an own one. -/
def RoutesComplete (r : Router) (table : List RtableEntry) : Prop :=
  (∀ link, Remote r link → dynamicCount table link = 1) ∧
    ∀ link, r.Connected link → dynamicCount table link = 0

/-- Own subnets never get a dynamic entry. -/
theorem dynamicCount_connected (env : Env) (r : Router) {link : DLink} (h : r.Connected link) :
    dynamicCount (djikstraRecompute env r).ip_table link = 0 := by
  refine List.count_eq_zero.2 fun hmem => ?_
  obtain ⟨e, he, rfl⟩ := List.mem_map.1 hmem
  obtain ⟨he, hdyn⟩ := List.mem_filter.1 he
  have hroute := isRoute_of_mem ((mem_newTable_dynamic hdyn).1 he)
  obtain ⟨d, -, -, hnear⟩ := hroute.nearest
  obtain ⟨i, hi, hlink⟩ := h
  -- the distance from that interface is 0, so it is 0 from the nearest one as well
  have hle := hnear.le i hi
  rw [hlink, SimpleGraph.edist_self] at hle
  have hd : (d : ℕ∞) = 0 := le_antisymm hle bot_le
  have hzero := hnear.edist_eq
  rw [hd, SimpleGraph.edist_eq_zero_iff] at hzero
  exact hroute.other (congrArg DLink.subnet hzero)

/-- **Completeness**, exactly where it holds: every remote subnet is reached over subnets with
different addresses, and the nearest interface has another address than it. -/
theorem djikstraRecompute_complete_iff (env : Env) (r : Router) :
    RoutesComplete r (djikstraRecompute env r).ip_table ↔
      ∀ link, Remote r link →
        ∃ f d, d < intMax ∧ Nearest r link f d ∧ (r.interface f).subnet ≠ link.subnet := by
  have hcount : ∀ link, dynamicCount (djikstraRecompute env r).ip_table link = 1 ↔
      ∃ f d, d < intMax ∧ Nearest r link f d ∧ (r.interface f).subnet ≠ link.subnet := by
    intro link
    refine (newTable_count_link env r link).trans ⟨?_, ?_⟩
    · rintro ⟨e, he, rfl⟩
      obtain ⟨d, -, hd, hnear⟩ := (isRoute_of_mem he).nearest
      exact ⟨e.interface, d, hd, hnear, (isRoute_of_mem he).other⟩
    · rintro ⟨f, d, hd, hnear, hne⟩
      obtain ⟨e, he, hdyn, hlink, -, -⟩ :=
        (exists_route_iff env r link f d).2 ⟨d, rfl, hd, hnear, hne⟩
      exact ⟨e, (mem_newTable_dynamic hdyn).1 he, hlink⟩
  constructor
  · rintro ⟨hremote, -⟩ link hlink
    exact (hcount link).1 (hremote link hlink)
  · intro h
    exact ⟨fun link hlink => (hcount link).2 (h link hlink), fun link => dynamicCount_connected env r⟩

/-- The small router with a neighbour that advertises a part of the subnet they share, under the
same address. -/
def sameAddressRouter : Router :=
  smallRouter.setNeighbours 1 [{ smallNeighbour with
    lsu_lastcontents := .valid
      [⟨ipConvert 192 168 1 0, ipConvert 255 255 255 0, ipConvert 192 168 1 2⟩,
        ⟨ipConvert 192 168 1 0, ipConvert 255 255 255 240, ipConvert 192 168 1 2⟩] }]

def sameAddressPart : DLink := ⟨ipConvert 192 168 1 0, ipConvert 255 255 255 240⟩

theorem sameAddress_incomplete :
    ¬ RoutesComplete sameAddressRouter
      (djikstraRecompute smallEnv sameAddressRouter).ip_table := by
  intro h
  have hremote : Remote sameAddressRouter sameAddressPart := by
    have hentry : ∀ lsa ∈ [(⟨ipConvert 192 168 1 0, ipConvert 255 255 255 0,
        ipConvert 192 168 1 2⟩ : PwospfLsa), ⟨ipConvert 192 168 1 0, ipConvert 255 255 255 240,
        ipConvert 192 168 1 2⟩], Advertised sameAddressRouter lsa := by
      intro lsa hlsa
      exact ⟨1, by decide, _, List.mem_cons_self, hlsa⟩
    have hfirst := hentry _ List.mem_cons_self
    have hsecond := hentry _ (List.mem_cons_of_mem _ List.mem_cons_self)
    refine ⟨⟨_, hsecond, rfl⟩, ?_, ⟨_, ⟨1, by decide, rfl⟩, .single ⟨ipConvert 192 168 1 2, ?_, ?_⟩⟩⟩
    · rintro ⟨i, hi, hlink⟩
      have hall : ∀ i : Fin 2, (sameAddressRouter.interface i.val).link ≠ sameAddressPart := by decide
      exact hall ⟨i, hi⟩ hlink
    · exact .inr ⟨_, hfirst, rfl, by decide⟩
    · exact .inr ⟨_, hsecond, rfl, rfl⟩
  have hone := h.1 _ hremote
  have hzero : dynamicCount (djikstraRecompute smallEnv sameAddressRouter).ip_table
      sameAddressPart = 0 := by decide +kernel
  rw [hzero] at hone
  cases hone

/-! ## Next hops -/

/-- On interface `f` the address `ip` is that of an immediate neighbour through which a shortest
path to a subnet `d` steps away goes: it is attached to the interface's subnet and to one that is a
step nearer. -/
def HopOnShortestPath (r : Router) (link : DLink) (f d : Nat) (ip : AddrIp) : Prop :=
  ∃ entry ∈ (r.interface f).neighbours, entry.immediate_neighbour = 1 ∧ entry.neighbour_ip = ip ∧
    Attached r entry.neighbour_id (r.interface f).link ∧
    ∃ next, Attached r entry.neighbour_id next ∧
      (subnetGraph r).edist next link = (d - 1 : Nat)

/-- Every dynamic route goes to such a neighbour. -/
def NextHopsOnShortestPaths (r : Router) (table : List RtableEntry) : Prop :=
  ∀ e ∈ table, e.dynamic = true → ∀ d : Nat, 1 ≤ d → e.metric = d →
    HopOnShortestPath r e.link e.interface d e.router_ip

/-- **Next hops**, exactly where they are right: for every routed subnet the last immediate neighbour
with a non-empty database on its interface is on a shortest path. -/
theorem djikstraRecompute_next_hops_iff (env : Env) (r : Router) :
    NextHopsOnShortestPaths r (djikstraRecompute env r).ip_table ↔
      ∀ link f d, d < intMax → Nearest r link f d → (r.interface f).subnet ≠ link.subnet →
        HopOnShortestPath r link f d (lastSpeaker 0 (r.interface f).neighbours) := by
  constructor
  · intro h link f d hd hnear hne
    have hpos : 1 ≤ d := by
      refine Nat.one_le_iff_ne_zero.2 fun h0 => hne ?_
      have hzero := hnear.edist_eq
      rw [h0, Nat.cast_zero, SimpleGraph.edist_eq_zero_iff] at hzero
      exact congrArg DLink.subnet hzero
    obtain ⟨e, he, hdyn, rfl, rfl, hmetric⟩ :=
      (exists_route_iff env r link f d).2 ⟨d, rfl, hd, hnear, hne⟩
    have hhop := (isRoute_of_mem ((mem_newTable_dynamic hdyn).1 he)).hop
    exact hhop ▸ h e he hdyn d hpos hmetric
  · intro h e he hdyn d _ hmetric
    have hroute := isRoute_of_mem ((mem_newTable_dynamic hdyn).1 he)
    obtain ⟨d', hmetric', hd, hnear⟩ := hroute.nearest
    have hdd : d' = d := by
      rw [hmetric] at hmetric'
      exact_mod_cast hmetric'.symm
    rw [hdd] at hd hnear
    exact hroute.hop ▸ h e.link e.interface d hd hnear hroute.other

/-- A second router on the subnet of the small router's neighbour. -/
def secondNeighbour : PwospfListEntry :=
  { smallNeighbour with
    neighbour_id := ipConvert 192 168 1 3
    neighbour_ip := ipConvert 192 168 1 3
    lsu_lastcontents := .valid
      [⟨ipConvert 192 168 1 0, ipConvert 255 255 255 0, ipConvert 192 168 1 3⟩,
        ⟨ipConvert 10 2 0 0, ipConvert 255 255 0 0, ipConvert 192 168 1 3⟩] }

def twoNeighboursRouter : Router :=
  smallRouter.setNeighbours 1 [smallNeighbour, secondNeighbour]

/-- The subnet behind the first of them is routed through the second. -/
theorem twoNeighbours_wrong_hop :
    ¬ NextHopsOnShortestPaths twoNeighboursRouter
      (djikstraRecompute smallEnv twoNeighboursRouter).ip_table := by
  intro h
  have hroute : ∃ e ∈ (djikstraRecompute smallEnv twoNeighboursRouter).ip_table,
      e.dynamic = true ∧ e.link = ⟨ipConvert 10 1 0 0, ipConvert 255 255 0 0⟩ ∧ e.interface = 1 ∧
        e.metric = ((1 : Nat) : Int) ∧ e.router_ip = ipConvert 192 168 1 3 := by decide +kernel
  obtain ⟨e, he, hdyn, hlink, hf, hmetric, hip⟩ := hroute
  obtain ⟨entry, hentry, -, hentryip, -, next, hattached, hdist⟩ :=
    h e he hdyn 1 (Nat.le_refl 1) hmetric
  rw [hf] at hentry
  rw [hip] at hentryip
  have hnext : next = e.link := SimpleGraph.edist_eq_zero_iff.1 hdist
  obtain rfl : entry = secondNeighbour := by
    have hall : ∀ entry ∈ (twoNeighboursRouter.interface 1).neighbours,
        entry.neighbour_ip = ipConvert 192 168 1 3 → entry = secondNeighbour := by decide
    exact hall entry hentry hentryip
  rw [hnext, hlink] at hattached
  have hnot : ¬ ∃ e ∈ (gather twoNeighboursRouter).topology,
      e.lsa.router_id = secondNeighbour.neighbour_id ∧
        e.lsa.link = ⟨ipConvert 10 1 0 0, ipConvert 255 255 0 0⟩ := by decide +kernel
  exact hnot (attached_iff.1 hattached)

/-! ## The order in the databases -/

/-- The same LSAs in another order. -/
inductive LsuContents.Rearranged : LsuContents → LsuContents → Prop
  | null : Rearranged .null .null
  | valid {l l' : List PwospfLsa} (h : l.Perm l') : Rearranged (.valid l) (.valid l')
  | dangling {l l' : List PwospfLsa} (h : l.Perm l') : Rearranged (.dangling l) (.dangling l')

/-- The same entry but for the order of its LSAs. -/
def PwospfListEntry.Rearranged (entry entry' : PwospfListEntry) : Prop :=
  ∃ c, entry.lsu_lastcontents.Rearranged c ∧ entry' = { entry with lsu_lastcontents := c }

/-- The same neighbours in another order, with their LSAs in another order. -/
def NeighboursRearranged (l l' : List PwospfListEntry) : Prop :=
  ∃ m, l.Perm m ∧ List.Forall₂ PwospfListEntry.Rearranged m l'

/-- The same interfaces but for the order in their neighbour queues. -/
structure Router.Rearranged (r r' : Router) : Prop where
  num_interfaces : r'.num_interfaces = r.num_interfaces
  router_id : r'.pw_router.router_id = r.pw_router.router_id
  interface : ∀ i < r.num_interfaces, ∃ l,
    r'.interface i = { r.interface i with neighbours := l } ∧
      NeighboursRearranged (r.interface i).neighbours l

theorem LsuContents.Rearranged.mem_lsas {c c' : LsuContents} (h : c.Rearranged c')
    {lsa : PwospfLsa} : lsa ∈ c'.lsas ↔ lsa ∈ c.lsas := by
  cases h with
  | null => exact Iff.rfl
  | valid h => exact h.symm.mem_iff
  | dangling h => exact h.symm.mem_iff

theorem NeighboursRearranged.exists_lsa {l l' : List PwospfListEntry}
    (h : NeighboursRearranged l l') {lsa : PwospfLsa} :
    (∃ entry ∈ l', lsa ∈ entry.lsu_lastcontents.lsas) ↔
      ∃ entry ∈ l, lsa ∈ entry.lsu_lastcontents.lsas := by
  obtain ⟨m, hperm, hall⟩ := h
  have hm : (∃ entry ∈ l', lsa ∈ entry.lsu_lastcontents.lsas) ↔
      ∃ entry ∈ m, lsa ∈ entry.lsu_lastcontents.lsas := by
    clear hperm
    induction hall with
    | nil => exact Iff.rfl
    | cons hentry _ ih =>
      obtain ⟨c, hc, rfl⟩ := hentry
      simp only [List.mem_cons, exists_eq_or_imp, ih, hc.mem_lsas]
  rw [hm]
  simp only [hperm.mem_iff]

/-- Rearranging leaves the topology as it is. -/
theorem Router.Rearranged.sameTopology {r r' : Router} (h : r.Rearranged r') :
    r.SameTopology r' := by
  refine ⟨h.num_interfaces, h.router_id, fun i hi => ?_, fun lsa => ?_⟩
  · obtain ⟨l, heq, -⟩ := h.interface i hi
    rw [heq]
    rfl
  · unfold Advertised
    rw [h.num_interfaces]
    refine exists_congr fun i => and_congr_right fun hi => ?_
    obtain ⟨l, heq, hl⟩ := h.interface i hi
    rw [heq]
    exact hl.exists_lsa

/-- The dynamic routes of a table as (subnet, netmask, metric, interface). -/
def dynamicTuples (table : List RtableEntry) : Set (AddrIp × AddrIp × Int × Nat) :=
  { t | ∃ e ∈ table, e.dynamic = true ∧ t = (e.subnet, e.netmask, e.metric, e.interface) }

theorem mem_dynamicTuples_iff (env : Env) (r : Router) (subnet netmask : AddrIp) (metric : Int)
    (f : Nat) :
    (subnet, netmask, metric, f) ∈ dynamicTuples (djikstraRecompute env r).ip_table ↔
      ∃ d : Nat, metric = d ∧ d < intMax ∧ Nearest r ⟨subnet, netmask⟩ f d ∧
        (r.interface f).subnet ≠ subnet := by
  refine Iff.trans ⟨?_, ?_⟩ (exists_route_iff env r ⟨subnet, netmask⟩ f metric)
  · rintro ⟨e, he, hdyn, heq⟩
    simp only [Prod.mk.injEq] at heq
    obtain ⟨rfl, rfl, rfl, rfl⟩ := heq
    exact ⟨e, he, hdyn, rfl, rfl, rfl⟩
  · rintro ⟨e, he, hdyn, hlink, rfl, rfl⟩
    refine ⟨e, he, hdyn, ?_⟩
    rw [show subnet = e.subnet from (congrArg DLink.subnet hlink).symm,
      show netmask = e.netmask from (congrArg DLink.netmask hlink).symm]

/-- **The order does not matter.** -/
theorem djikstraRecompute_rearranged (env env' : Env) {r r' : Router} (h : r.Rearranged r') :
    dynamicTuples (djikstraRecompute env' r').ip_table =
      dynamicTuples (djikstraRecompute env r).ip_table := by
  ext ⟨subnet, netmask, metric, f⟩
  rw [mem_dynamicTuples_iff, mem_dynamicTuples_iff]
  refine exists_congr fun d => and_congr_right fun _ => and_congr_right fun _ => ?_
  rw [h.sameTopology.nearest]
  exact and_congr_right fun hnear => by rw [h.sameTopology.subnet hnear.lt]

/-- The router with two neighbours, with both queues and LSAs turned around. -/
def turnedNeighboursRouter : Router :=
  smallRouter.setNeighbours 1 [secondNeighbour, { smallNeighbour with
    lsu_lastcontents := .valid
      [⟨ipConvert 10 1 0 0, ipConvert 255 255 0 0, ipConvert 192 168 1 2⟩,
        ⟨ipConvert 192 168 1 0, ipConvert 255 255 255 0, ipConvert 192 168 1 2⟩] }]

theorem djikstraRecompute_rearranged_two :
    twoNeighboursRouter.Rearranged turnedNeighboursRouter ∧
      dynamicTuples (djikstraRecompute smallEnv turnedNeighboursRouter).ip_table =
        dynamicTuples (djikstraRecompute smallEnv twoNeighboursRouter).ip_table := by
  have h : twoNeighboursRouter.Rearranged turnedNeighboursRouter := by
    refine ⟨rfl, rfl, fun i hi => ?_⟩
    rcases (show i = 0 ∨ i = 1 by have : i < 2 := hi; omega) with rfl | rfl
    · exact ⟨[], rfl, [], .refl _, .nil⟩
    · refine ⟨_, rfl, _, .swap secondNeighbour smallNeighbour [], ?_⟩
      exact .cons ⟨_, .valid (.refl _), rfl⟩ (.cons ⟨_, .valid (.swap _ _ _), rfl⟩ .nil)
  exact ⟨h, djikstraRecompute_rearranged smallEnv smallEnv h⟩

end BirRouter
