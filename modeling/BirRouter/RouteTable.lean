import BirRouter.IpTable
import BirRouter.Lib.Trace
import BirRouter.LinkState
import BirRouter.Routes

/-!
# The routing table over time

The table is filled by `sr_integ_hw_setup` with a static entry for each interface and from then on
rebuilt by `djikstra_recompute`.

* `rebuild_law` — in every run of rebuilds a call keeps the static entries, replaces the dynamic
  ones, never hands an empty array to `qsort` and `free`, leaves no entry twice, and is repeated
  without effect.  All that is assumed of `qsort` is that it permutes.
* `table_current` — in every run of the PWOSPF handlers the dynamic entries are those that
  `djikstra_recompute` would compute: a handler that changes something `djikstra_recompute` reads
  (`PwospfListEntry.routing`) also calls it (`pwospfOnreceiveHello_recomputes`,
  `pwospfOnreceiveLink_recomputes`).
-/

set_option autoImplicit false

namespace BirRouter

open ByteLayout FirstMatch Trace

/-! ## Static entries -/

/-- The static entry of an interface. -/
def staticEntry (padding : Nat → BitVec 56) (r : Router) (i : Nat) : RtableEntry where
  router_ip := 0
  subnet := (r.interface i).ip &&& (r.interface i).subnet_mask
  netmask := (r.interface i).subnet_mask
  interface := i
  metric := 0
  dynamic := false
  padding := padding i

/-- `sr_integ_hw_setup`, without the threads it starts. -/
def srIntegHwSetup (padding : Nat → BitVec 56) (r : Router) : Router :=
  let table := (List.range r.num_interfaces).foldl
    (fun table i =>
      let f := r.interface i
      ipPutintable (padding i) table (f.ip &&& f.subnet_mask) i f.subnet_mask false 0 0)
    r.ip_table
  { r with ip_table := table }

/-- The table gets one entry for each interface, also where two of them share a subnet. -/
theorem srIntegHwSetup_table (padding : Nat → BitVec 56) {r : Router} (h : r.ip_table = []) :
    (srIntegHwSetup padding r).ip_table =
      (List.range r.num_interfaces).map (staticEntry padding r) := by
  unfold srIntegHwSetup
  simp only
  rw [h]
  induction r.num_interfaces with
  | zero => rfl
  | succ n ih =>
    rw [List.range_succ, List.foldl_append, List.foldl_cons, List.foldl_nil, ih, List.map_append]
    refine ipPutintable_new (fun e he => ?_) ..
    obtain ⟨i, hi, rfl⟩ := List.mem_map.1 he
    exact Nat.ne_of_lt (List.mem_range.1 hi)

/-- What the static entries of a table have in common over a run: there is one, and no two are for
one interface. -/
structure StaticPart (table : List RtableEntry) : Prop where
  nonempty : ∃ e ∈ table, e.dynamic = false
  unique : ∀ e ∈ table, ∀ e' ∈ table, e.dynamic = false → e'.dynamic = false →
    e.interface = e'.interface → e = e'

theorem staticPart_setup (padding : Nat → BitVec 56) {r : Router} (h : r.ip_table = [])
    (hn : 0 < r.num_interfaces) : StaticPart (srIntegHwSetup padding r).ip_table := by
  rw [srIntegHwSetup_table padding h]
  refine ⟨⟨staticEntry padding r 0, List.mem_map_of_mem (List.mem_range.2 hn), rfl⟩, ?_⟩
  intro e he e' he' _ _ hi
  obtain ⟨i, -, rfl⟩ := List.mem_map.1 he
  obtain ⟨i', -, rfl⟩ := List.mem_map.1 he'
  rw [show i = i' from hi]

/-! ## Rebuilding the table -/

/-- `djikstra_recompute` with `sort` in the place of `qsort`. -/
def djikstraRecomputeBy (sort : List RtableEntry → List RtableEntry) (env : Env) (r : Router) :
    Router :=
  let r := { r with ip_table := rebuiltTable sort env r }
  { r with nf := updateHardwarearp r }

theorem djikstraRecompute_eq_by (env : Env) (r : Router) :
    djikstraRecompute env r = djikstraRecomputeBy env.qsort.sort env r := rfl

/-- One call: the router it finds, with any neighbour databases, and a `qsort` that permutes. -/
structure Recomputation where
  sort : List RtableEntry → List RtableEntry
  perm : ∀ l, (sort l).Perm l
  env : Env
  router : Router

namespace Recomputation

def result (c : Recomputation) : Router := djikstraRecomputeBy c.sort c.env c.router

/-- The array `entries` as it is handed to `qsort` and `free`; it is allocated with its first
entry. -/
def entries (c : Recomputation) : List RtableEntry :=
  routes c.env c.router ++ c.router.ip_table.filter fun e => !e.dynamic

/-- The call of a router whose table is `table`. -/
def Rebuilds (table : List RtableEntry) (c : Recomputation) (table' : List RtableEntry) : Prop :=
  c.router.ip_table = table ∧ table' = c.result.ip_table

/-- What a call does to the table. -/
structure Law (c : Recomputation) : Prop where
  /-- Exactly the static entries of the old table are kept. -/
  static : ∀ e, e.dynamic = false → (e ∈ c.result.ip_table ↔ e ∈ c.router.ip_table)
  /-- The dynamic entries are the routes found by this call. -/
  dynamic : ∀ e, e.dynamic = true → (e ∈ c.result.ip_table ↔ e ∈ routes c.env c.router)
  /-- No old dynamic entry has a part in the result. -/
  purged : c.result.ip_table = rebuiltTable c.sort c.env
    { c.router with ip_table := c.router.ip_table.filter fun e => !e.dynamic }
  /-- The array that is sorted and freed was allocated. -/
  allocated : c.entries ≠ []
  /-- No entry twice, padding aside. -/
  nodup : (c.result.ip_table.map RtableEntry.bare).Nodup
  /-- Another call leaves the same entries, padding aside. -/
  again : ∀ c' : Recomputation, c'.router = c.result → ∀ e,
    e ∈ c'.result.ip_table.map RtableEntry.bare ↔ e ∈ c.result.ip_table.map RtableEntry.bare

theorem mem_result (c : Recomputation) {e : RtableEntry} :
    e ∈ c.result.ip_table ↔
      e ∈ routes c.env c.router ∨ (e ∈ c.router.ip_table ∧ e.dynamic = false) :=
  mem_rebuiltTable c.perm

theorem mem_result_static (c : Recomputation) {e : RtableEntry} (h : e.dynamic = false) :
    e ∈ c.result.ip_table ↔ e ∈ c.router.ip_table := by
  rw [mem_result]
  constructor
  · rintro (hr | ⟨he, -⟩)
    · exact absurd (isRoute_of_mem hr).dynamic (by rw [h]; decide)
    · exact he
  · intro he
    exact .inr ⟨he, h⟩

theorem mem_result_dynamic (c : Recomputation) {e : RtableEntry} (h : e.dynamic = true) :
    e ∈ c.result.ip_table ↔ e ∈ routes c.env c.router := by
  rw [mem_result, h]
  exact or_iff_left fun hs => absurd hs.2 (by decide)

/-- The static part survives a call. -/
theorem staticPart_result {c : Recomputation} (h : StaticPart c.router.ip_table) :
    StaticPart c.result.ip_table := by
  obtain ⟨e, he, hs⟩ := h.nonempty
  refine ⟨⟨e, (c.mem_result_static hs).2 he, hs⟩, ?_⟩
  intro e he e' he' hs hs'
  exact h.unique e ((c.mem_result_static hs).1 he) e' ((c.mem_result_static hs').1 he') hs hs'

theorem result_bare_nodup {c : Recomputation} (h : StaticPart c.router.ip_table) :
    (c.result.ip_table.map RtableEntry.bare).Nodup := by
  refine List.Nodup.map_on ?_ (rebuiltTable_nodup c.sort c.env c.router)
  intro e he e' he' hbare
  obtain ⟨hdyn, hintf, hlink⟩ := RtableEntry.eq_of_bare hbare
  cases hs : e.dynamic with
  | false =>
    have hs' := hdyn.symm.trans hs
    exact h.unique e ((c.mem_result_static hs).1 he) e' ((c.mem_result_static hs').1 he') hs hs' hintf
  | true =>
    have hr := (c.mem_result_dynamic hs).1 he
    have hr' := (c.mem_result_dynamic (hdyn.symm.trans hs)).1 he'
    exact List.inj_on_of_nodup_map (routes_link_nodup c.env c.router) hr hr' hlink

/-- The routes of a second call are those of the first. -/
theorem routes_again {c c' : Recomputation} (h : c'.router = c.result) :
    ((routes c'.env c'.router).map RtableEntry.bare).Perm
      ((routes c.env c.router).map RtableEntry.bare) := by
  rw [h]
  have hsame : c.router.SameTopology c.result := ⟨rfl, rfl, fun _ _ => rfl, fun _ => Iff.rfl⟩
  exact hsame.routes_perm (fun _ _ => rfl) c.env c'.env

theorem mem_result_bare (c : Recomputation) {e : RtableEntry} :
    e ∈ c.result.ip_table.map RtableEntry.bare ↔
      e ∈ (routes c.env c.router).map RtableEntry.bare ∨
        ∃ e' ∈ c.router.ip_table, e'.dynamic = false ∧ e'.bare = e := by
  simp only [List.mem_map, mem_result]
  constructor
  · rintro ⟨e', hr | ⟨he, hs⟩, rfl⟩
    · exact .inl ⟨e', hr, rfl⟩
    · exact .inr ⟨e', he, hs, rfl⟩
  · rintro (⟨e', hr, rfl⟩ | ⟨e', he, hs, rfl⟩)
    · exact ⟨e', .inl hr, rfl⟩
    · exact ⟨e', .inr ⟨he, hs⟩, rfl⟩

theorem law {c : Recomputation} (h : StaticPart c.router.ip_table) : c.Law := by
  refine ⟨fun e hs => c.mem_result_static hs, fun e hs => c.mem_result_dynamic hs, ?_, ?_,
    result_bare_nodup h, ?_⟩
  · unfold result djikstraRecomputeBy rebuiltTable
    simp only [List.filter_filter, Bool.and_self]
    rfl
  · obtain ⟨e, he, hs⟩ := h.nonempty
    refine List.ne_nil_of_mem (List.mem_append_right _ (List.mem_filter.2 ⟨he, ?_⟩))
    rw [hs]
    rfl
  · intro c' hc' e
    rw [mem_result_bare, mem_result_bare, (routes_again hc').mem_iff, hc']
    refine or_congr_right (exists_congr fun e' => ?_)
    constructor
    · rintro ⟨he, hs, hbare⟩
      exact ⟨(c.mem_result_static hs).1 he, hs, hbare⟩
    · rintro ⟨he, hs, hbare⟩
      exact ⟨(c.mem_result_static hs).2 he, hs, hbare⟩

end Recomputation

open Recomputation

/-- The static part over a run. -/
theorem staticPart_run {padding : Nat → BitVec 56} {r₀ : Router} (h0 : r₀.ip_table = [])
    (hn : 0 < r₀.num_interfaces) {calls : List Recomputation} {table : List RtableEntry}
    (hrun : Exec Rebuilds (srIntegHwSetup padding r₀).ip_table calls table) : StaticPart table := by
  refine hrun.invariant (staticPart_setup padding h0 hn) ?_
  rintro t c t' ht ⟨rfl, rfl⟩
  exact staticPart_result ht

/-- **Rebuilding the table.** -/
theorem rebuild_law {padding : Nat → BitVec 56} {r₀ : Router} (h0 : r₀.ip_table = [])
    (hn : 0 < r₀.num_interfaces) {calls : List Recomputation} {table : List RtableEntry}
    (hrun : Exec Rebuilds (srIntegHwSetup padding r₀).ip_table calls table) (c : Recomputation)
    (hc : c.router.ip_table = table) : c.Law :=
  law (hc ▸ staticPart_run h0 hn hrun)

/-- The small router before `sr_integ_hw_setup`. -/
def bareRouter : Router := { smallRouter with ip_table := [] }

def smallRecomputation : Recomputation :=
  ⟨insertionQsort.sort, insertionQsort.perm, smallEnv, srIntegHwSetup (fun _ => 0) bareRouter⟩

theorem rebuild_law_small :
    bareRouter.ip_table = [] ∧ 0 < bareRouter.num_interfaces ∧
      Exec Rebuilds (srIntegHwSetup (fun _ => 0) bareRouter).ip_table [smallRecomputation]
        smallRecomputation.result.ip_table ∧
      ({ smallRecomputation with router := smallRecomputation.result } : Recomputation).Law := by
  have hrun : Exec Rebuilds (srIntegHwSetup (fun _ => 0) bareRouter).ip_table [smallRecomputation]
      smallRecomputation.result.ip_table := Exec.nil.snoc ⟨rfl, rfl⟩
  exact ⟨rfl, by decide, hrun, rebuild_law rfl (by decide) hrun _ rfl⟩

/-! ## The table and the databases -/

/-- What `djikstra_recompute` reads of a neighbour entry. -/
def PwospfListEntry.routing (entry : PwospfListEntry) : AddrIp × Int × List PwospfLsa :=
  (entry.neighbour_ip, entry.immediate_neighbour, entry.lsu_lastcontents.lsas)

/-- Two routers that look the same to `djikstra_recompute`. -/
structure Router.SameRouting (r r' : Router) : Prop where
  num_interfaces : r'.num_interfaces = r.num_interfaces
  router_id : r'.pw_router.router_id = r.pw_router.router_id
  link : ∀ i < r.num_interfaces, (r'.interface i).link = (r.interface i).link
  routing : ∀ i < r.num_interfaces, (r'.interface i).neighbours.map PwospfListEntry.routing =
    (r.interface i).neighbours.map PwospfListEntry.routing

theorem Router.SameLinks.sameRouting {r r' : Router} (h : r.SameLinks r') : r.SameRouting r' :=
  ⟨h.num_interfaces, by rw [h.pw_router], fun i _ => by rw [h.interface],
    fun i _ => by rw [h.interface]⟩

theorem exists_lsa_iff_routing {l : List PwospfListEntry} {lsa : PwospfLsa} :
    (∃ entry ∈ l, lsa ∈ entry.lsu_lastcontents.lsas) ↔
      ∃ x ∈ l.map PwospfListEntry.routing, lsa ∈ x.2.2 := by
  simp only [List.mem_map, exists_exists_and_eq_and]
  rfl

theorem lastSpeaker_eq_routing (ip : AddrIp) (l : List PwospfListEntry) :
    lastSpeaker ip l = (((l.map PwospfListEntry.routing).filter fun x =>
      decide (x.2.1 = 1 ∧ x.2.2 ≠ [])).getLast?.map Prod.fst).getD ip := by
  unfold lastSpeaker
  rw [List.filter_map, List.getLast?_map, Option.map_map]
  rfl

namespace Router.SameRouting

variable {r r' : Router} (h : r.SameRouting r')
include h

theorem sameTopology : r.SameTopology r' := by
  refine ⟨h.num_interfaces, h.router_id, h.link, fun lsa => ?_⟩
  unfold Advertised
  rw [h.num_interfaces]
  refine exists_congr fun i => and_congr_right fun hi => ?_
  rw [exists_lsa_iff_routing, exists_lsa_iff_routing, h.routing i hi]

theorem lastSpeaker_eq {i : Nat} (hi : i < r.num_interfaces) :
    lastSpeaker 0 (r'.interface i).neighbours = lastSpeaker 0 (r.interface i).neighbours := by
  rw [lastSpeaker_eq_routing, lastSpeaker_eq_routing, h.routing i hi]

end Router.SameRouting

/-- The dynamic entries of a table, padding aside. -/
def dynamicBare (table : List RtableEntry) : List RtableEntry :=
  (table.filter fun e => e.dynamic).map RtableEntry.bare

/-- The dynamic entries are those that `djikstra_recompute` would compute now, in some order. -/
def TableCurrent (r : Router) : Prop :=
  ∀ env, (dynamicBare r.ip_table).Perm (dynamicBare (djikstraRecompute env r).ip_table)

theorem dynamicBare_newTable (env : Env) (r : Router) :
    (dynamicBare (newTable env r)).Perm ((routes env r).map RtableEntry.bare) :=
  (newTable_dynamic env r).map _

/-- A table is current as long as nothing `djikstra_recompute` reads changes. -/
theorem tableCurrent_of_sameRouting (env : Env) {r r' : Router}
    (htable : (dynamicBare r'.ip_table).Perm ((routes env r).map RtableEntry.bare))
    (h : r.SameRouting r') : TableCurrent r' := by
  intro env'
  have hroutes := h.sameTopology.routes_perm (fun _ hi => h.lastSpeaker_eq hi) env env'
  exact htable.trans (hroutes.symm.trans (dynamicBare_newTable env' r').symm)

theorem TableCurrent.congr {r r' : Router} (hcur : TableCurrent r) (htable : r'.ip_table = r.ip_table)
    (h : r.SameRouting r') : TableCurrent r' := by
  intro env
  refine tableCurrent_of_sameRouting env ?_ h env
  rw [htable]
  exact (hcur env).trans (dynamicBare_newTable env r)

/-- After `djikstra_recompute` it is current. -/
theorem tableCurrent_announce (env : Env) (r : Router) : TableCurrent (announce env r) := by
  have htable : (announce env r).ip_table = newTable env r := by
    obtain ⟨frames, hid, last, heq, -⟩ := sendPwospfLsaPacket_effect env (djikstraRecompute env r)
    unfold announce
    rw [heq]
    rfl
  refine tableCurrent_of_sameRouting env ?_ (announce_links env r).sameRouting
  rw [htable]
  exact dynamicBare_newTable env r

theorem tableCurrent_recompute (env : Env) (r : Router) :
    TableCurrent (djikstraRecompute env r) :=
  tableCurrent_of_sameRouting env (dynamicBare_newTable env r)
    (Router.SameLinks.sameRouting ⟨rfl, rfl, rfl⟩)

/-! ## What the handlers do about it -/

/-- A queue that looks the same. -/
theorem sameRouting_setNeighbours {r : Router} {j : Nat} {l : List PwospfListEntry}
    (hl : l.map PwospfListEntry.routing =
      (r.interface j).neighbours.map PwospfListEntry.routing) :
    r.SameRouting (r.setNeighbours j l) := by
  refine ⟨rfl, rfl, fun i _ => ?_, fun i _ => ?_⟩
  · by_cases hij : i = j
    · subst hij
      show (Function.update r.interface i _ i).link = _
      rw [Function.update_self]
      rfl
    · rw [Router.setNeighbours_of_ne r j _ hij]
  · by_cases hij : i = j
    · subst hij
      rw [Router.setNeighbours_self, hl]
    · rw [Router.setNeighbours_of_ne r j _ hij]

/-- Overwriting an entry with one that looks the same. -/
theorem sameRouting_set {r : Router} {j n : Nat} {entry new : PwospfListEntry}
    (hn : (r.interface j).neighbours[n]? = some entry) (hnew : new.routing = entry.routing) :
    r.SameRouting (r.setNeighbours j ((r.interface j).neighbours.set n new)) := by
  obtain ⟨hlt, hget⟩ := List.getElem?_eq_some_iff.1 hn
  refine sameRouting_setNeighbours ?_
  rw [List.map_set, hnew, ← hget, ← List.map_set, List.set_getElem_self]

/-- A handler ends with a new table, or with everything `djikstra_recompute` reads as it was. -/
def Recomputes (env : Env) (r r' : Router) : Prop :=
  (∃ r₁, r' = announce env r₁) ∨ (r'.ip_table = r.ip_table ∧ r.SameRouting r')

theorem TableCurrent.step {env : Env} {r r' : Router} (h : TableCurrent r)
    (hstep : Recomputes env r r') : TableCurrent r' := by
  rcases hstep with ⟨r₁, rfl⟩ | ⟨htable, hsame⟩
  · exact tableCurrent_announce env r₁
  · exact h.congr htable hsame

/-- `immediate_neighbour` is 0 or 1 in every entry. -/
def Router.FlagsValid (r : Router) : Prop :=
  ∀ i < r.num_interfaces, ∀ entry ∈ (r.interface i).neighbours,
    entry.immediate_neighbour = 0 ∨ entry.immediate_neighbour = 1

/-- **HELLOs.**  A neighbour that becomes an immediate one, and a new one, lead to a new table; of
one that is an immediate neighbour already only its id, interval and time change. -/
theorem pwospfOnreceiveHello_recomputes (env : Env) {r : Router} (pi : PacketInfo)
    (hflags : r.FlagsValid) : Recomputes env r (pwospfOnreceiveHello env r pi) := by
  have hsame : r.SameRouting r := (Router.SameLinks.refl r).sameRouting
  unfold pwospfOnreceiveHello
  simp only
  split
  · exact .inr ⟨rfl, hsame⟩
  · split
    · rename_i n hn
      have hget := getElem?_of_findIdx? env.newneighbour hn
      split
      · exact .inl ⟨_, rfl⟩
      · rename_i himm
        refine .inr ⟨rfl, ?_⟩
        by_cases hj : pi.interface < r.num_interfaces
        · refine sameRouting_set hget ?_
          have hone := (hflags _ hj _ (List.mem_of_getElem? hget)).resolve_left himm
          unfold PwospfListEntry.routing PwospfListEntry.greet
          rw [hone]
        · -- not one of the router's interfaces
          refine ⟨rfl, rfl, fun i hi => ?_, fun i hi => ?_⟩
          · rw [Router.setNeighbours_of_ne r _ _ (by omega)]
          · rw [Router.setNeighbours_of_ne r _ _ (by omega)]
    · exact .inl ⟨_, rfl⟩

/-- **LSUs.**  New contents lead to a new table; an LSU that is dropped or says the same as the last
one changes at most the sequence number and the time. -/
theorem pwospfOnreceiveLink_recomputes {env : Env} {r r' : Router} {pi : PacketInfo}
    (h : pwospfOnreceiveLink env r pi = some r') : Recomputes env r r' := by
  by_cases hrefl : Refloods r pi
  · by_cases hcount : 0 ≤ pi.link.payloadCount
    · cases he : entryOf (r.interface pi.interface).neighbours pi.link.pwospf_header.router_id with
      | none =>
        rw [pwospfOnreceiveLink_new hrefl hcount he] at h
        cases h
        exact .inl ⟨_, rfl⟩
      | some entry =>
        rw [pwospfOnreceiveLink_known hrefl hcount he] at h
        split at h
        · rename_i hrepeats
          cases h
          have hrec : entry.record env pi.link pi.lsu = entry.refresh env pi.link := if_pos hrepeats
          have hset : r.SameRouting (r.setNeighbours pi.interface
              (recordLsu env pi (r.interface pi.interface).neighbours)) :=
            sameRouting_setNeighbours (map_upsert_of_find? he (by rw [hrec]; rfl))
          obtain ⟨waiting, heq, _⟩ := pwospfReflood_adds env r pi entry.neighbour_ip pi.interface
          unfold recordedKnown
          rw [heq]
          exact .inr ⟨rfl, hset.num_interfaces, hset.router_id, hset.link, hset.routing⟩
        · cases h
          exact .inl ⟨_, rfl⟩
    · rw [pwospfOnreceiveLink_died hrefl (Int.not_le.1 hcount)] at h
      cases h
  · rw [pwospfOnreceiveLink_dropped hrefl] at h
    cases h
    exact .inr ⟨rfl, (Router.SameLinks.refl r).sameRouting⟩

/-! ## Runs -/

/-- A packet for one of the two handlers. -/
inductive PwospfInput where
  | hello (env : Env) (pi : PacketInfo)
  | link (env : Env) (pi : PacketInfo)

/-- The handler returns. -/
inductive Handles : Router → PwospfInput → Router → Prop
  | hello {r : Router} (env : Env) (pi : PacketInfo) :
      Handles r (.hello env pi) (pwospfOnreceiveHello env r pi)
  | link {r r' : Router} {env : Env} {pi : PacketInfo}
      (h : pwospfOnreceiveLink env r pi = some r') : Handles r (.link env pi) r'

theorem Router.FlagsValid.congr {r r' : Router} (h : r.FlagsValid) (hlinks : r.SameLinks r') :
    r'.FlagsValid := by
  unfold Router.FlagsValid
  rw [hlinks.interface, hlinks.num_interfaces]
  exact h

theorem Router.FlagsValid.setNeighbours {r : Router} (h : r.FlagsValid) {j : Nat}
    {l : List PwospfListEntry} (hl : j < r.num_interfaces → ∀ entry ∈ l,
      entry.immediate_neighbour = 0 ∨ entry.immediate_neighbour = 1) :
    (r.setNeighbours j l).FlagsValid := by
  intro i hi entry he
  by_cases hij : i = j
  · subst hij
    rw [Router.setNeighbours_self] at he
    exact hl hi entry he
  · rw [Router.setNeighbours_of_ne r j l hij] at he
    exact h i hi entry he

theorem flagsValid_hello {env : Env} {r : Router} {pi : PacketInfo} (h : r.FlagsValid) :
    (pwospfOnreceiveHello env r pi).FlagsValid := by
  by_cases hacc : helloAccepted (r.interface pi.interface) pi = true
  · refine Router.FlagsValid.congr (h.setNeighbours fun hj entry he => ?_)
      (pwospfOnreceiveHello_links hacc)
    rcases mem_upsert he with he | ⟨b, -, rfl⟩ | ⟨-, rfl⟩
    · exact h _ hj entry he
    · exact .inr rfl
    · exact .inr rfl
  · unfold pwospfOnreceiveHello
    rw [if_pos hacc]
    exact h

theorem flagsValid_link {env : Env} {r r' : Router} {pi : PacketInfo} (h : r.FlagsValid)
    (hr : pwospfOnreceiveLink env r pi = some r') : r'.FlagsValid := by
  rcases pwospfOnreceiveLink_cases hr with ⟨-, heffect⟩ | ⟨-, rfl⟩
  · refine Router.FlagsValid.congr (h.setNeighbours fun hj entry he => ?_) heffect.links
    rcases mem_upsert he with he | ⟨b, hb, rfl⟩ | ⟨-, rfl⟩
    · exact h _ hj entry he
    · have himm : (b.record env pi.link pi.lsu).immediate_neighbour = b.immediate_neighbour := by
        unfold PwospfListEntry.record
        split <;> rfl
      rw [himm]
      exact h _ hj b (List.mem_of_find?_eq_some hb)
    · exact .inl rfl
  · exact h

/-- **Step lemma**: the flags stay valid and the table current. -/
theorem Handles.current {r r' : Router} {input : PwospfInput} (hstep : Handles r input r')
    (h : r.FlagsValid ∧ TableCurrent r) : r'.FlagsValid ∧ TableCurrent r' := by
  cases hstep with
  | hello env pi =>
    exact ⟨flagsValid_hello h.1, h.2.step (pwospfOnreceiveHello_recomputes env pi h.1)⟩
  | link hr => exact ⟨flagsValid_link h.1 hr, h.2.step (pwospfOnreceiveLink_recomputes hr)⟩

/-- **The table is never stale**, in any run from empty queues and a recomputed table. -/
theorem table_current {env₀ : Env} {r₀ r : Router} {inputs : List PwospfInput}
    (hempty : ∀ i < r₀.num_interfaces, (r₀.interface i).neighbours = [])
    (hrun : Exec Handles (djikstraRecompute env₀ r₀) inputs r) : TableCurrent r := by
  have hstart : (djikstraRecompute env₀ r₀).FlagsValid ∧
      TableCurrent (djikstraRecompute env₀ r₀) := by
    refine ⟨fun i hi entry he => ?_, tableCurrent_recompute env₀ r₀⟩
    have hnil : ((djikstraRecompute env₀ r₀).interface i).neighbours = [] := hempty i hi
    rw [hnil] at he
    cases he
  have hinv : r.FlagsValid ∧ TableCurrent r :=
    hrun.invariant (I := fun r => r.FlagsValid ∧ TableCurrent r) hstart fun h hs => hs.current h
  exact hinv.2

/-- The small router without neighbours. -/
def lonelyRouter : Router := smallRouter.setNeighbours 1 []

/-- Its neighbour, with a network behind it. -/
def nextRouter : Router :=
  { smallRouter with
    interface := fun _ => { smallEth1 with ip := ipConvert 192 168 1 2 }
    pw_router := ⟨ipConvert 192 168 1 2, 0, 30⟩ }

def nextHello : PacketInfo := helloFrame nextRouter 1

def nextLsu : PacketInfo :=
  lsaFrame nextRouter [⟨ipConvert 192 168 1 0, ipConvert 255 255 255 0, 0⟩,
    ⟨ipConvert 10 1 0 0, ipConvert 255 255 0 0, 0⟩] 1
    { smallNeighbour with neighbour_ip := ipConvert 192 168 1 1 }

/-- The router after the HELLO, and after the LSU. -/
def greetedRouter : Router :=
  pwospfOnreceiveHello smallEnv (djikstraRecompute smallEnv lonelyRouter) nextHello

def informedRouter : Router := (pwospfOnreceiveLink smallEnv greetedRouter nextLsu).getD greetedRouter

theorem nextLsu_accepted :
    pwospfOnreceiveLink smallEnv greetedRouter nextLsu = some informedRouter := by
  have hsome : (pwospfOnreceiveLink smallEnv greetedRouter nextLsu).isSome = true := by decide +kernel
  obtain ⟨r, hr⟩ := Option.isSome_iff_exists.1 hsome
  unfold informedRouter
  rw [hr, Option.getD_some]

theorem nextLsu_repeated :
    pwospfOnreceiveLink smallEnv informedRouter nextLsu = some informedRouter := by
  have hold : (entryOf (informedRouter.interface nextLsu.interface).neighbours
      nextLsu.link.pwospf_header.router_id).any (fun entry => entry.Duplicate nextLsu.link) =
        true := by
    decide +kernel
  refine pwospfOnreceiveLink_dropped fun hfresh => ?_
  cases he : entryOf (informedRouter.interface nextLsu.interface).neighbours
      nextLsu.link.pwospf_header.router_id with
  | none =>
    rw [he] at hold
    cases hold
  | some entry =>
    rw [he] at hold
    exact hfresh.fresh entry he (of_decide_eq_true hold)

/-- A run of a HELLO, an LSU that is accepted, and the same LSU again: the table has the route that it
brings. -/
theorem table_current_hello :
    (∀ i < lonelyRouter.num_interfaces, (lonelyRouter.interface i).neighbours = []) ∧
      Exec Handles (djikstraRecompute smallEnv lonelyRouter)
        [.hello smallEnv nextHello, .link smallEnv nextLsu, .link smallEnv nextLsu] informedRouter ∧
      (dynamicBare informedRouter.ip_table).length = 1 ∧ TableCurrent informedRouter := by
  have hempty : ∀ i < lonelyRouter.num_interfaces, (lonelyRouter.interface i).neighbours = [] := by
    have hall : ∀ i : Fin 2, (lonelyRouter.interface i.val).neighbours = [] := by decide
    intro i hi
    exact hall ⟨i, hi⟩
  have hrun : Exec Handles (djikstraRecompute smallEnv lonelyRouter)
      [.hello smallEnv nextHello, .link smallEnv nextLsu, .link smallEnv nextLsu] informedRouter :=
    .cons (.hello smallEnv nextHello)
      (.cons (.link nextLsu_accepted) (.cons (.link nextLsu_repeated) .nil))
  exact ⟨hempty, hrun, by decide +kernel, table_current hempty hrun⟩

end BirRouter
