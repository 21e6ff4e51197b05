import BirRouter.SubnetGraph
import Mathlib.Data.List.GetD

/-!
# The routes that `djikstra_recompute` finds (`djikstra.c`)

The second half of `djikstra_recompute`, from the distances to the routing table.

* `gather_routers` — the router address noted for an interface is that of the last immediate
  neighbour there with a non-empty database, for all destinations alike.
* `bestRoutes_at` — `final` and `intf` are the least distance and the lowest-numbered interface
  with it.
* `IsRoute`, `mem_routes_bare_iff` — the dynamic routes are those of the subnets that some
  interface reaches and whose address is not that of the nearest one.
* `newTable_dynamic` — the table holds each of them once.
-/

set_option autoImplicit false

namespace BirRouter

open ByteLayout Distinct

/-! ## The router of an interface -/

/-- An immediate neighbour that said something about its links. -/
def PwospfListEntry.Speaks (entry : PwospfListEntry) : Prop :=
  entry.immediate_neighbour = 1 ∧ entry.lsu_lastcontents.lsas ≠ []

instance (entry : PwospfListEntry) : Decidable entry.Speaks :=
  inferInstanceAs (Decidable (_ ∧ _))

/-- The address of the last neighbour that speaks; `ip` if there is none. -/
def lastSpeaker (ip : AddrIp) (neighbours : List PwospfListEntry) : AddrIp :=
  ((neighbours.filter fun entry => entry.Speaks).getLast?.map PwospfListEntry.neighbour_ip).getD ip

theorem lastSpeaker_concat (ip : AddrIp) (neighbours : List PwospfListEntry)
    (entry : PwospfListEntry) :
    lastSpeaker ip (neighbours ++ [entry]) =
      if entry.Speaks then entry.neighbour_ip else lastSpeaker ip neighbours := by
  unfold lastSpeaker
  rw [List.filter_append, List.filter_singleton]
  by_cases h : entry.Speaks
  · rw [decide_eq_true h, cond_true, if_pos h, List.getLast?_concat]
    rfl
  · rw [decide_eq_false h, cond_false, if_neg h, List.append_nil]

theorem gatherLsas_routers (i : Nat) (entry : PwospfListEntry) (g : Gathered)
    (lsas : List PwospfLsa) :
    (lsas.foldl (gatherLsa i entry) g).routers =
      if entry.immediate_neighbour = 1 ∧ lsas ≠ [] then
        Function.update g.routers i entry.neighbour_ip
      else g.routers := by
  induction lsas generalizing g with
  | nil =>
    rw [if_neg (fun h => h.2 rfl)]
    rfl
  | cons lsa lsas ih =>
    rw [List.foldl_cons, ih]
    by_cases himm : entry.immediate_neighbour = 1
    · by_cases hnil : lsas = []
      · simp [gatherLsa, himm, hnil]
      · simp [gatherLsa, himm, hnil]
    · simp [gatherLsa, himm]

theorem gatherEntry_routers (i : Nat) (g : Gathered) (entry : PwospfListEntry) :
    (gatherEntry i g entry).routers =
      if entry.Speaks then Function.update g.routers i entry.neighbour_ip else g.routers :=
  gatherLsas_routers i entry g _

theorem gatherEntries_routers (i : Nat) (g : Gathered) (neighbours : List PwospfListEntry) :
    (neighbours.foldl (gatherEntry i) g).routers =
      Function.update g.routers i (lastSpeaker (g.routers i) neighbours) := by
  induction neighbours using List.reverseRecOn with
  | nil => exact (Function.update_eq_self i g.routers).symm
  | append_singleton neighbours entry ih =>
    rw [List.foldl_append, List.foldl_cons, List.foldl_nil, gatherEntry_routers, ih,
      lastSpeaker_concat]
    split
    · rw [Function.update_idem]
    · rfl

theorem gatherInterfaces_routers (r : Router) (n i : Nat) :
    ((List.range n).foldl (gatherInterface r) ⟨[], [], fun _ => 0⟩).routers i =
      if i < n then lastSpeaker 0 (r.interface i).neighbours else 0 := by
  induction n with
  | zero => rw [if_neg (Nat.not_lt_zero i)]; rfl
  | succ n ih =>
    rw [List.range_succ, List.foldl_append, List.foldl_cons, List.foldl_nil, gatherInterface,
      gatherEntries_routers]
    by_cases hi : i = n
    · subst hi
      rw [if_neg (Nat.lt_irrefl i)] at ih
      rw [Function.update_self, if_pos (Nat.lt_succ_self i), ih]
    · rw [Function.update_of_ne hi, ih]
      by_cases hlt : i < n
      · rw [if_pos hlt, if_pos (by omega)]
      · rw [if_neg hlt, if_neg (by omega)]

/-- **One router for each interface**: the last immediate neighbour with a non-empty database. -/
theorem gather_routers (r : Router) {i : Nat} (hi : i < r.num_interfaces) :
    (gather r).routers i = lastSpeaker 0 (r.interface i).neighbours := by
  unfold gather
  rw [gatherInterfaces_routers, if_pos hi]

/-! ## The best interface for a subnet -/

/-- The distance array of interface `i` at subnet `w`. -/
def Router.distFrom (r : Router) (i w : Nat) : Nat :=
  (shortest r.edges (gather r).subnets.length ((gather r).subnets.idxOf (r.interface i).link)).getD w
    intMax

/-- What `rips` gets when interface `i` is the best for subnet `w`. -/
def Router.hopFrom (r : Router) (i w : Nat) : AddrIp :=
  if ((gather r).subnets.getD w ⟨0, 0⟩).subnet = (r.interface i).subnet then 0
  else (gather r).routers i

/-- The slots of the three arrays for subnet `w`. -/
def Best.at (b : Best) (w : Nat) : Nat × Nat × AddrIp :=
  (b.final.getD w intMax, b.intf.getD w intMax, b.rips.getD w 0)

/-- The arrays have a slot for every subnet. -/
def Best.Sized (V : Nat) (b : Best) : Prop :=
  b.final.length = V ∧ b.intf.length = V ∧ b.rips.length = V

/-- One subnet of the loop that compares with the interfaces before. -/
def Router.improveOne (r : Router) (i : Nat) (b : Best) (w : Nat) : Best :=
  if r.distFrom i w < b.final.getD w intMax then
    { final := b.final.set w (r.distFrom i w)
      intf := b.intf.set w i
      rips := b.rips.set w (r.hopFrom i w) }
  else b

theorem improve_eq (r : Router) (b : Best) (i : Nat) :
    improve r (gather r) r.edges b i =
      (List.range (gather r).subnets.length).foldl (r.improveOne i) b := rfl

theorem improveOne_sized (r : Router) (i : Nat) {V : Nat} {b : Best} (w : Nat) (hb : b.Sized V) :
    (r.improveOne i b w).Sized V := by
  obtain ⟨h1, h2, h3⟩ := hb
  unfold Router.improveOne
  split
  · exact ⟨by rw [List.length_set, h1], by rw [List.length_set, h2], by rw [List.length_set, h3]⟩
  · exact ⟨h1, h2, h3⟩

theorem improveOne_at (r : Router) (i : Nat) {V w : Nat} {b : Best} (hw : w < V)
    (hb : b.Sized V) : (r.improveOne i b w).at w =
      if r.distFrom i w < (b.at w).1 then (r.distFrom i w, i, r.hopFrom i w) else b.at w := by
  obtain ⟨h1, h2, h3⟩ := hb
  unfold Router.improveOne Best.at
  simp only
  split
  · simp only
    rw [CArray.getD_set_self (by omega), CArray.getD_set_self (by omega),
      CArray.getD_set_self (by omega)]
  · rfl

theorem improveOne_at_ne (r : Router) (i : Nat) (b : Best) {v w : Nat} (hw : w ≠ v) :
    (r.improveOne i b v).at w = b.at w := by
  unfold Router.improveOne Best.at
  split
  · simp only
    rw [CArray.getD_set_ne _ (Ne.symm hw), CArray.getD_set_ne _ (Ne.symm hw),
      CArray.getD_set_ne _ (Ne.symm hw)]
  · rfl

/-- One interface: the subnets it is nearer to than those before become its own. -/
theorem improve_at (r : Router) (i : Nat) {b : Best} (hb : b.Sized (gather r).subnets.length) :
    (improve r (gather r) r.edges b i).Sized (gather r).subnets.length ∧
      ∀ w < (gather r).subnets.length, (improve r (gather r) r.edges b i).at w =
        if r.distFrom i w < (b.at w).1 then (r.distFrom i w, i, r.hopFrom i w) else b.at w := by
  rw [improve_eq]
  obtain ⟨hsized, hat⟩ := CArray.foldl_range_slots (Best.Sized (gather r).subnets.length) Best.at
    (fun w old => if r.distFrom i w < old.1 then (r.distFrom i w, i, r.hopFrom i w) else old)
    (fun _ w _ hb => improveOne_sized r i w hb) (fun _ _ hw hb => improveOne_at r i hw hb)
    (fun b _ _ _ _ hw => improveOne_at_ne r i b hw) hb _ (Nat.le_refl _)
  exact ⟨hsized, fun w hw => (hat w).trans (if_pos hw)⟩

/-- What the arrays say about subnet `w` after the first `n` interfaces: nothing if none of them
reaches it, otherwise the lowest-numbered of the nearest ones. -/
def BestAt (r : Router) (n w : Nat) (slot : Nat × Nat × AddrIp) : Prop :=
  (slot.1 = intMax ∧ slot.2.1 = intMax ∧ ∀ i < n, intMax ≤ r.distFrom i w) ∨
    ∃ i < n, slot = (r.distFrom i w, i, r.hopFrom i w) ∧ r.distFrom i w < intMax ∧
      (∀ j < n, r.distFrom i w ≤ r.distFrom j w) ∧ ∀ j < i, r.distFrom i w < r.distFrom j w

theorem BestAt.step {r : Router} {n w : Nat} {slot : Nat × Nat × AddrIp} (h : BestAt r n w slot) :
    BestAt r (n + 1) w
      (if r.distFrom n w < slot.1 then (r.distFrom n w, n, r.hopFrom n w) else slot) := by
  have hsplit : ∀ {P : Nat → Prop}, (∀ i < n, P i) → P n → ∀ i < n + 1, P i := by
    intro P hP hn i hi
    rcases Nat.lt_succ_iff_lt_or_eq.1 hi with hi | rfl
    · exact hP i hi
    · exact hn
  rcases h with ⟨hmax, hintf, hnone⟩ | ⟨i, hi, rfl, hlt, hle, hfirst⟩
  · by_cases hnew : r.distFrom n w < slot.1
    · rw [if_pos hnew]
      rw [hmax] at hnew
      have hfar : ∀ j < n, r.distFrom n w < r.distFrom j w := fun j hj =>
        Nat.lt_of_lt_of_le hnew (hnone j hj)
      exact .inr ⟨n, Nat.lt_succ_self n, rfl, hnew,
        hsplit (fun j hj => Nat.le_of_lt (hfar j hj)) (Nat.le_refl _), hfar⟩
    · rw [if_neg hnew]
      rw [hmax] at hnew
      exact .inl ⟨hmax, hintf, hsplit hnone (Nat.le_of_not_lt hnew)⟩
  · by_cases hnew : r.distFrom n w < r.distFrom i w
    · rw [if_pos hnew]
      have hfar : ∀ j < n, r.distFrom n w < r.distFrom j w := fun j hj =>
        Nat.lt_of_lt_of_le hnew (hle j hj)
      exact .inr ⟨n, Nat.lt_succ_self n, rfl, Nat.lt_trans hnew hlt,
        hsplit (fun j hj => Nat.le_of_lt (hfar j hj)) (Nat.le_refl _), hfar⟩
    · rw [if_neg hnew]
      exact .inr ⟨i, Nat.lt_succ_of_lt hi, rfl, hlt, hsplit hle (Nat.le_of_not_lt hnew), hfirst⟩

/-- The arrays after the first `n` interfaces. -/
def Router.bestAfter (r : Router) (n : Nat) : Best :=
  (List.range n).foldl (improve r (gather r) r.edges)
    ⟨List.replicate (gather r).subnets.length intMax,
      List.replicate (gather r).subnets.length intMax,
      List.replicate (gather r).subnets.length 0⟩

theorem bestRoutes_eq (r : Router) : bestRoutes r (gather r) = r.bestAfter r.num_interfaces := rfl

theorem bestAfter_at (r : Router) {w : Nat} (hw : w < (gather r).subnets.length) (n : Nat) :
    (r.bestAfter n).Sized (gather r).subnets.length ∧ BestAt r n w ((r.bestAfter n).at w) := by
  induction n with
  | zero =>
    refine ⟨⟨List.length_replicate, List.length_replicate, List.length_replicate⟩, .inl ?_⟩
    exact ⟨List.getD_replicate _ hw, List.getD_replicate _ hw,
      fun i hi => absurd hi (Nat.not_lt_zero i)⟩
  | succ n ih =>
    obtain ⟨hsized', hat⟩ := improve_at r n ih.1
    have hsucc : r.bestAfter (n + 1) = improve r (gather r) r.edges (r.bestAfter n) n := by
      unfold Router.bestAfter
      rw [List.range_succ, List.foldl_append, List.foldl_cons, List.foldl_nil]
    rw [hsucc]
    exact ⟨hsized', (hat w hw).symm ▸ ih.2.step⟩

/-- **The argmin over the interfaces.** -/
theorem bestRoutes_at (r : Router) {w : Nat} (hw : w < (gather r).subnets.length) :
    BestAt r r.num_interfaces w ((bestRoutes r (gather r)).at w) := by
  rw [bestRoutes_eq]
  exact (bestAfter_at r hw r.num_interfaces).2

/-! ## In terms of the graph -/

theorem distFrom_eq (r : Router) {i w : Nat} (hi : i < r.num_interfaces)
    (hw : w < (gather r).subnets.length) :
    (r.distFrom i w : ℕ∞) =
      min ((subnetGraph r).edist (r.interface i).link (gather r).subnets[w]) intMax := by
  have hown : r.Connected (r.interface i).link := ⟨i, hi, rfl⟩
  have heq := shortest_eq r hown.mem_subnets (List.getElem_mem hw)
  rwa [(subnets_nodup r).idxOf_getElem w hw] at heq

section Compare

variable (r : Router) {i w d : Nat} (hi : i < r.num_interfaces)
  (hw : w < (gather r).subnets.length)
include hi hw

theorem le_distFrom_iff (hd : d ≤ intMax) : d ≤ r.distFrom i w ↔
    (d : ℕ∞) ≤ (subnetGraph r).edist (r.interface i).link (gather r).subnets[w] := by
  have hcap : (d : ℕ∞) ≤ intMax := by exact_mod_cast hd
  rw [← Nat.cast_le (α := ℕ∞), distFrom_eq r hi hw, le_min_iff]
  exact and_iff_left hcap

theorem lt_distFrom_iff (hd : d < intMax) : d < r.distFrom i w ↔
    (d : ℕ∞) < (subnetGraph r).edist (r.interface i).link (gather r).subnets[w] := by
  have hcap : (d : ℕ∞) < intMax := by exact_mod_cast hd
  rw [← Nat.cast_lt (α := ℕ∞), distFrom_eq r hi hw, lt_min_iff]
  exact and_iff_left hcap

theorem distFrom_eq_iff (hd : d < intMax) : r.distFrom i w = d ↔
    (subnetGraph r).edist (r.interface i).link (gather r).subnets[w] = d := by
  have hle := le_distFrom_iff r hi hw (Nat.le_of_lt hd)
  have hlt := lt_distFrom_iff r hi hw hd
  constructor
  · intro h
    exact le_antisymm (not_lt.1 (mt hlt.2 (by omega))) (hle.1 (by omega))
  · intro h
    have h1 := hle.2 (le_of_eq h.symm)
    have h2 := mt hlt.1 (not_lt.2 (le_of_eq h))
    omega

end Compare

/-- Interface `f` is `d` steps away from a subnet, no interface is nearer, and those before it are
farther away. -/
structure Nearest (r : Router) (link : DLink) (f d : Nat) : Prop where
  lt : f < r.num_interfaces
  edist_eq : (subnetGraph r).edist (r.interface f).link link = d
  le : ∀ j < r.num_interfaces, (d : ℕ∞) ≤ (subnetGraph r).edist (r.interface j).link link
  first : ∀ j < f, (d : ℕ∞) < (subnetGraph r).edist (r.interface j).link link

/-- A subnet that an interface reaches is collected. -/
theorem Nearest.mem_subnets {r : Router} {link : DLink} {f d : Nat} (h : Nearest r link f d) :
    link ∈ (gather r).subnets := by
  have hown : r.Connected (r.interface f).link := ⟨f, h.lt, rfl⟩
  obtain ⟨p, -⟩ := SimpleGraph.exists_walk_of_edist_eq_coe h.edist_eq
  exact List.mem_toFinset.1 ((subnetGraph_closed r).support_subset p
    (List.mem_toFinset.2 hown.mem_subnets) link p.end_mem_support)

/-- The interface of a slot is the nearest one, unless no interface comes below `INT_MAX`. -/
theorem bestRoutes_nearest_iff (r : Router) {w : Nat} (hw : w < (gather r).subnets.length)
    (f d : Nat) (hf : f < r.num_interfaces) :
    ((bestRoutes r (gather r)).intf.getD w intMax = f ∧
        (bestRoutes r (gather r)).final.getD w intMax = d) ↔
      d < intMax ∧ Nearest r (gather r).subnets[w] f d := by
  have hnum := r.num_le
  have hslot := bestRoutes_at r hw
  generalize hb : (bestRoutes r (gather r)).at w = slot at hslot
  have hfinal : (bestRoutes r (gather r)).final.getD w intMax = slot.1 := congrArg Prod.fst hb
  have hintf : (bestRoutes r (gather r)).intf.getD w intMax = slot.2.1 :=
    congrArg (fun s => s.2.1) hb
  rw [hfinal, hintf]
  rcases hslot with ⟨-, hmax, hnone⟩ | ⟨i, hi, rfl, hlt, hle, hfirst⟩
  · constructor
    · rintro ⟨hf', -⟩
      have : intMax = 2147483647 := rfl
      omega
    · rintro ⟨hd, hnear⟩
      have := (distFrom_eq_iff r hf hw hd).2 hnear.edist_eq
      have := hnone f hf
      omega
  · constructor
    · rintro ⟨rfl, rfl⟩
      refine ⟨hlt, hi, (distFrom_eq_iff r hi hw hlt).1 rfl, fun j hj => ?_, fun j hj => ?_⟩
      · exact (le_distFrom_iff r hj hw (Nat.le_of_lt hlt)).1 (hle j hj)
      · exact (lt_distFrom_iff r (Nat.lt_trans hj hi) hw hlt).1 (hfirst j hj)
    · rintro ⟨hd, hnear⟩
      -- both are the lowest-numbered nearest interface
      have hdf := (distFrom_eq_iff r hf hw hd).2 hnear.edist_eq
      have hif : i = f := by
        rcases Nat.lt_trichotomy i f with hlt' | heq | hgt
        · have := (lt_distFrom_iff r hi hw hd).2 (hnear.first i hlt')
          have := hle f hf
          omega
        · exact heq
        · have := (le_distFrom_iff r hi hw (Nat.le_of_lt hd)).2 (hnear.le i hi)
          have := hfirst f hgt
          omega
      subst hif
      exact ⟨rfl, hdf⟩

/-! ## The dynamic routes -/

/-- An entry without its padding. -/
def RtableEntry.bare (e : RtableEntry) : RtableEntry := { e with padding := 0 }

/-- The subnet an entry is for. -/
def RtableEntry.link (e : RtableEntry) : DLink := ⟨e.subnet, e.netmask⟩

theorem RtableEntry.link_bare (e : RtableEntry) : e.bare.link = e.link := rfl

theorem RtableEntry.eq_of_bare {e e' : RtableEntry} (h : e.bare = e'.bare) :
    e.dynamic = e'.dynamic ∧ e.interface = e'.interface ∧ e.link = e'.link := by
  have hdyn : e.bare.dynamic = e'.bare.dynamic := by rw [h]
  have hintf : e.bare.interface = e'.bare.interface := by rw [h]
  have hlink : e.bare.link = e'.bare.link := by rw [h]
  exact ⟨hdyn, hintf, hlink⟩

/-- The route for the `q`-th subnet, without padding. -/
def routeAt (g : Gathered) (b : Best) (q : Nat) : RtableEntry where
  router_ip := b.rips.getD q 0
  subnet := (g.subnets.getD q ⟨0, 0⟩).subnet
  netmask := (g.subnets.getD q ⟨0, 0⟩).netmask
  interface := b.intf.getD q intMax
  metric := b.final.getD q intMax
  dynamic := true
  padding := 0

/-- The `q`-th subnet gets a route: it is reached, and its address is not that of its interface. -/
def Routed (r : Router) (g : Gathered) (b : Best) (q : Nat) : Prop :=
  b.intf.getD q intMax < r.num_interfaces ∧
    (r.interface (b.intf.getD q intMax)).subnet ≠ (g.subnets.getD q ⟨0, 0⟩).subnet

instance (r : Router) (g : Gathered) (b : Best) (q : Nat) : Decidable (Routed r g b q) :=
  inferInstanceAs (Decidable (_ ∧ _))

/-- One subnet of the loop that allocates the routes. -/
def addRoute (env : Env) (r : Router) (g : Gathered) (b : Best) (entries : List RtableEntry)
    (q : Nat) : List RtableEntry :=
  if Routed r g b q then
    entries ++ [{ routeAt g b q with padding := env.padding entries.length }]
  else entries

theorem dynamicEntries_eq (env : Env) (r : Router) (g : Gathered) (b : Best) :
    dynamicEntries env r g b = (List.range g.subnets.length).foldl (addRoute env r g b) [] := rfl

/-- **The routes**, but for their padding. -/
theorem dynamicEntries_bare (env : Env) (r : Router) (g : Gathered) (b : Best) :
    (dynamicEntries env r g b).map RtableEntry.bare =
      ((List.range g.subnets.length).filter fun q => Routed r g b q).map (routeAt g b) := by
  rw [dynamicEntries_eq]
  induction g.subnets.length with
  | zero => rfl
  | succ n ih =>
    rw [List.range_succ, List.foldl_append, List.foldl_cons, List.foldl_nil, List.filter_append,
      List.map_append, ← ih, List.filter_singleton, addRoute]
    by_cases h : Routed r g b n
    · rw [if_pos h, decide_eq_true h, cond_true, List.map_append]
      rfl
    · rw [if_neg h, decide_eq_false h, cond_false, List.map_nil, List.append_nil]

/-- What the dynamic routes of a router are, padding aside. -/
structure IsRoute (r : Router) (e : RtableEntry) : Prop where
  dynamic : e.dynamic = true
  /-- The interface is the lowest-numbered nearest one, and the metric its distance. -/
  nearest : ∃ d : Nat, e.metric = d ∧ d < intMax ∧ Nearest r e.link e.interface d
  /-- Only subnets with another address than the interface's own get a route. -/
  other : (r.interface e.interface).subnet ≠ e.subnet
  hop : e.router_ip = lastSpeaker 0 (r.interface e.interface).neighbours

/-- The routes `djikstra_recompute` allocates. -/
def routes (env : Env) (r : Router) : List RtableEntry :=
  dynamicEntries env r (gather r) (bestRoutes r (gather r))

theorem rips_eq (r : Router) {q : Nat} (hq : q < (gather r).subnets.length)
    (h : Routed r (gather r) (bestRoutes r (gather r)) q) :
    (bestRoutes r (gather r)).rips.getD q 0 = lastSpeaker 0
      (r.interface ((bestRoutes r (gather r)).intf.getD q intMax)).neighbours := by
  have hnum := r.num_le
  have hslot := bestRoutes_at r hq
  obtain ⟨hlt, hne⟩ := h
  rcases hslot with ⟨-, hmax, -⟩ | ⟨i, hi, heq, -, -, -⟩
  · have hmax' : (bestRoutes r (gather r)).intf.getD q intMax = intMax := hmax
    have : intMax = 2147483647 := rfl
    omega
  · have hintf : (bestRoutes r (gather r)).intf.getD q intMax = i := congrArg (fun s => s.2.1) heq
    have hrips : (bestRoutes r (gather r)).rips.getD q 0 = r.hopFrom i q :=
      congrArg (fun s => s.2.2) heq
    rw [hintf] at hne ⊢
    rw [hrips, Router.hopFrom, if_neg (Ne.symm hne), gather_routers r hi]

/-- **Which routes there are.** -/
theorem mem_routes_bare_iff (env : Env) (r : Router) (e : RtableEntry) :
    e.bare ∈ (routes env r).map RtableEntry.bare ↔ IsRoute r e := by
  unfold routes
  rw [dynamicEntries_bare, List.mem_map]
  simp only [List.mem_filter, List.mem_range, decide_eq_true_eq]
  constructor
  · rintro ⟨q, ⟨hq, hr⟩, heq⟩
    have hsub : (gather r).subnets.getD q ⟨0, 0⟩ = (gather r).subnets[q] :=
      List.getD_eq_getElem _ _ hq
    have hintf : (bestRoutes r (gather r)).intf.getD q intMax = e.interface :=
      congrArg RtableEntry.interface heq
    have hmetric : ((bestRoutes r (gather r)).final.getD q intMax : Int) = e.metric :=
      congrArg RtableEntry.metric heq
    have hlink : (gather r).subnets[q] = e.link := by
      rw [← hsub, ← RtableEntry.link_bare, ← heq]
      rfl
    have hhop := rips_eq r hq hr
    obtain ⟨hlt, hne⟩ := hr
    rw [hintf] at hlt hne hhop
    obtain ⟨hd, hnear⟩ := (bestRoutes_nearest_iff r hq e.interface _ hlt).1 ⟨hintf, rfl⟩
    rw [hlink] at hnear
    rw [hsub, hlink] at hne
    refine ⟨congrArg RtableEntry.dynamic heq.symm, ⟨_, hmetric.symm, hd, hnear⟩, hne, ?_⟩
    rw [← hhop]
    exact congrArg RtableEntry.router_ip heq.symm
  · rintro ⟨hdyn, ⟨d, hmetric, hd, hnear⟩, hne, hhop⟩
    have hmem := hnear.mem_subnets
    have hq := List.idxOf_lt_length_iff.2 hmem
    have hget : (gather r).subnets[(gather r).subnets.idxOf e.link] = e.link :=
      List.getElem_idxOf hq
    have hsub : (gather r).subnets.getD ((gather r).subnets.idxOf e.link) ⟨0, 0⟩ = e.link := by
      rw [List.getD_eq_getElem _ _ hq, hget]
    obtain ⟨hintf, hfinal⟩ := (bestRoutes_nearest_iff r hq e.interface d hnear.lt).2
      ⟨hd, hget.symm ▸ hnear⟩
    have hr : Routed r (gather r) (bestRoutes r (gather r)) ((gather r).subnets.idxOf e.link) := by
      unfold Routed
      rw [hintf, hsub]
      exact ⟨hnear.lt, hne⟩
    refine ⟨_, ⟨hq, hr⟩, ?_⟩
    have hrips := rips_eq r hq hr
    unfold routeAt RtableEntry.bare
    rw [hintf, hfinal, hsub, hrips, hintf, ← hmetric, ← hhop, ← hdyn]
    rfl

/-- No two routes are for one subnet. -/
theorem routes_link_nodup (env : Env) (r : Router) :
    ((routes env r).map RtableEntry.link).Nodup := by
  have hmap : (routes env r).map RtableEntry.link =
      ((List.range (gather r).subnets.length).filter fun q =>
        Routed r (gather r) (bestRoutes r (gather r)) q).map
        fun q => (gather r).subnets.getD q ⟨0, 0⟩ := by
    have hbare := congrArg (List.map RtableEntry.link)
      (dynamicEntries_bare env r (gather r) (bestRoutes r (gather r)))
    rwa [List.map_map, List.map_map] at hbare
  rw [hmap]
  refine List.Nodup.map_on ?_ (List.nodup_range.filter _)
  intro q hq q' hq' heq
  have hlt := List.mem_range.1 (List.mem_of_mem_filter hq)
  have hlt' := List.mem_range.1 (List.mem_of_mem_filter hq')
  rw [List.getD_eq_getElem _ _ hlt, List.getD_eq_getElem _ _ hlt'] at heq
  exact (subnets_nodup r).getElem_inj_iff.1 heq

theorem routes_bare_nodup (env : Env) (r : Router) :
    ((routes env r).map RtableEntry.bare).Nodup := by
  have hlink := routes_link_nodup env r
  have hcomp : RtableEntry.link = RtableEntry.link ∘ RtableEntry.bare := rfl
  rw [hcomp, ← List.map_map] at hlink
  exact hlink.of_map

theorem isRoute_of_mem {env : Env} {r : Router} {e : RtableEntry} (h : e ∈ routes env r) :
    IsRoute r e :=
  (mem_routes_bare_iff env r e).1 (List.mem_map_of_mem h)

/-! ## Routers with the same topology -/

/-- The same interfaces, and the same LSAs in the databases. -/
structure Router.SameTopology (r r' : Router) : Prop where
  num_interfaces : r'.num_interfaces = r.num_interfaces
  router_id : r'.pw_router.router_id = r.pw_router.router_id
  link : ∀ i < r.num_interfaces, (r'.interface i).link = (r.interface i).link
  advertised : ∀ lsa, Advertised r' lsa ↔ Advertised r lsa

namespace Router.SameTopology

variable {r r' : Router} (h : r.SameTopology r')
include h

theorem subnet {i : Nat} (hi : i < r.num_interfaces) :
    (r'.interface i).subnet = (r.interface i).subnet :=
  congrArg DLink.subnet (h.link i hi)

theorem connected {link : DLink} : r'.Connected link ↔ r.Connected link := by
  unfold Router.Connected
  rw [h.num_interfaces]
  exact exists_congr fun i => and_congr_right fun hi => by rw [h.link i hi]

theorem subnetGraph_eq : subnetGraph r' = subnetGraph r := by
  have hattached : ∀ {id : BitVec 32} {link : DLink}, Attached r' id link ↔ Attached r id link := by
    intro id link
    unfold Attached
    simp only [h.router_id, h.connected, h.advertised]
  ext a b
  exact and_congr_right fun _ => exists_congr fun id => and_congr hattached hattached

theorem nearest {link : DLink} {f d : Nat} : Nearest r' link f d ↔ Nearest r link f d := by
  have hdist : ∀ j < r.num_interfaces, (subnetGraph r').edist (r'.interface j).link link =
      (subnetGraph r).edist (r.interface j).link link := by
    intro j hj
    rw [h.subnetGraph_eq, h.link j hj]
  constructor
  · rintro ⟨hf, heq, hle, hfirst⟩
    rw [h.num_interfaces] at hf hle
    exact ⟨hf, hdist f hf ▸ heq, fun j hj => hdist j hj ▸ hle j hj,
      fun j hj => hdist j (Nat.lt_trans hj hf) ▸ hfirst j hj⟩
  · rintro ⟨hf, heq, hle, hfirst⟩
    refine ⟨h.num_interfaces.symm ▸ hf, (hdist f hf).trans heq, fun j hj => ?_, fun j hj => ?_⟩
    · rw [h.num_interfaces] at hj
      rw [hdist j hj]
      exact hle j hj
    · rw [hdist j (Nat.lt_trans hj hf)]
      exact hfirst j hj

theorem isRoute (hlast : ∀ i < r.num_interfaces, lastSpeaker 0 (r'.interface i).neighbours =
    lastSpeaker 0 (r.interface i).neighbours) {e : RtableEntry} : IsRoute r' e ↔ IsRoute r e := by
  constructor
  · rintro ⟨hdyn, ⟨d, hmetric, hd, hnear⟩, hne, hhop⟩
    have hnear' := h.nearest.1 hnear
    rw [h.subnet hnear'.lt] at hne
    rw [hlast _ hnear'.lt] at hhop
    exact ⟨hdyn, ⟨d, hmetric, hd, hnear'⟩, hne, hhop⟩
  · rintro ⟨hdyn, ⟨d, hmetric, hd, hnear⟩, hne, hhop⟩
    rw [← h.subnet hnear.lt] at hne
    rw [← hlast _ hnear.lt] at hhop
    exact ⟨hdyn, ⟨d, hmetric, hd, h.nearest.2 hnear⟩, hne, hhop⟩

/-- With the same routers on the interfaces as well, the routes are the same but for padding and
order. -/
theorem routes_perm (hlast : ∀ i < r.num_interfaces, lastSpeaker 0 (r'.interface i).neighbours =
    lastSpeaker 0 (r.interface i).neighbours) (env env' : Env) :
    ((routes env' r').map RtableEntry.bare).Perm ((routes env r).map RtableEntry.bare) := by
  refine (List.perm_ext_iff_of_nodup (routes_bare_nodup env' r') (routes_bare_nodup env r)).2
    fun e => ?_
  constructor
  · intro he
    obtain ⟨e', he', rfl⟩ := List.mem_map.1 he
    exact (mem_routes_bare_iff env r e').2 ((h.isRoute hlast).1 (isRoute_of_mem he'))
  · intro he
    obtain ⟨e', he', rfl⟩ := List.mem_map.1 he
    exact (mem_routes_bare_iff env' r' e').2 ((h.isRoute hlast).2 (isRoute_of_mem he'))

end Router.SameTopology

/-! ## The table -/

/-- The new table, for any function in the place of `qsort`. -/
def rebuiltTable (sort : List RtableEntry → List RtableEntry) (env : Env) (r : Router) :
    List RtableEntry :=
  (sort (routes env r ++ r.ip_table.filter fun e => !e.dynamic)).foldl addNew []

theorem newTable_eq (env : Env) (r : Router) :
    newTable env r = rebuiltTable env.qsort.sort env r := rfl

section Rebuilt

variable {sort : List RtableEntry → List RtableEntry} (hsort : ∀ l, (sort l).Perm l)
include hsort

theorem mem_rebuiltTable {env : Env} {r : Router} {e : RtableEntry} :
    e ∈ rebuiltTable sort env r ↔ e ∈ routes env r ∨ (e ∈ r.ip_table ∧ e.dynamic = false) := by
  unfold rebuiltTable
  rw [mem_foldl_addNew, (hsort _).mem_iff, List.mem_append, List.mem_filter, Bool.not_eq_true']

omit hsort in
theorem rebuiltTable_nodup (sort : List RtableEntry → List RtableEntry) (env : Env) (r : Router) :
    (rebuiltTable sort env r).Nodup :=
  nodup_foldl_addNew _

/-- **The dynamic entries of the new table** are the routes, each once. -/
theorem rebuiltTable_dynamic (env : Env) (r : Router) :
    ((rebuiltTable sort env r).filter fun e => e.dynamic).Perm (routes env r) := by
  refine (List.perm_ext_iff_of_nodup ((rebuiltTable_nodup sort env r).filter _)
    (routes_link_nodup env r).of_map).2 fun e => ?_
  rw [List.mem_filter, mem_rebuiltTable hsort]
  constructor
  · rintro ⟨h | ⟨-, hstatic⟩, hdyn⟩
    · exact h
    · rw [hstatic] at hdyn
      cases hdyn
  · intro h
    exact ⟨.inl h, (isRoute_of_mem h).dynamic⟩

end Rebuilt

/-- The same for `djikstra_recompute`. -/
theorem newTable_dynamic (env : Env) (r : Router) :
    ((newTable env r).filter fun e => e.dynamic).Perm (routes env r) := by
  rw [newTable_eq]
  exact rebuiltTable_dynamic env.qsort.perm env r

theorem mem_newTable_dynamic {env : Env} {r : Router} {e : RtableEntry} (hdyn : e.dynamic = true) :
    e ∈ newTable env r ↔ e ∈ routes env r := by
  rw [← (newTable_dynamic env r).mem_iff, List.mem_filter]
  exact (and_iff_left hdyn).symm

/-- How many dynamic entries the table has for a subnet: one if it is a route's, otherwise none. -/
theorem newTable_count_link (env : Env) (r : Router) (link : DLink) :
    (((newTable env r).filter fun e => e.dynamic).map RtableEntry.link).count link = 1 ↔
      ∃ e ∈ routes env r, e.link = link := by
  rw [((newTable_dynamic env r).map RtableEntry.link).count_eq, (routes_link_nodup env r).count]
  constructor
  · intro h
    by_cases hmem : link ∈ (routes env r).map RtableEntry.link
    · exact List.mem_map.1 hmem
    · rw [if_neg hmem] at h
      cases h
  · intro h
    rw [if_pos (List.mem_map.2 h)]

end BirRouter
