import BirRouter.Lib.Distinct
import BirRouter.Router

/-!
# Route computation (`djikstra.c`)

`djikstraRecompute` collects the subnets and the topology from the interfaces and the neighbour
databases, runs Dijkstra's algorithm once per interface, merges the routes it finds with the static
ones, sorts them with `qsort` and `cmpfunc` into the routing table and copies the table to the
hardware.

* `gather` — the queues `subnets` and `topology`, to which an element is added only if
  `queue_existsunsafe` does not find it (`addNew`), and the router to go through on each interface;
* `shortest` — the distances from one subnet, with the source's `minDistance`;
* `dynamicEntries` — the routes for the subnets that no interface is attached to;
* `updateHardwarearp` — the 32 hardware rows, and `updateHardwarearp_table` — what they hold
  afterwards.

When there is no route at all the source sorts nothing and frees an uninitialised pointer; the
model is the state such a call leaves if it returns.
-/

set_option autoImplicit false

namespace BirRouter

open ByteLayout Distinct

/-- `INT_MAX`. -/
def intMax : Nat := 2147483647

/-! ## Collecting the topology -/

structure DLink where
  subnet : BitVec 32
  netmask : BitVec 32
  deriving DecidableEq, Repr

structure PwospfLsaDj where
  lsa : PwospfLsa
  router_ip : AddrIp
  deriving DecidableEq, Repr

def PwospfLsa.link (lsa : PwospfLsa) : DLink := ⟨lsa.subnet, lsa.netmask⟩

def Interface.link (f : Interface) : DLink := ⟨f.subnet, f.subnet_mask⟩

structure Gathered where
  topology : List PwospfLsaDj
  subnets : List DLink
  routers : Nat → AddrIp

def gatherLsa (i : Nat) (entry : PwospfListEntry) (g : Gathered) (lsa : PwospfLsa) : Gathered where
  topology := addNew g.topology ⟨lsa, entry.neighbour_ip⟩
  subnets := addNew g.subnets lsa.link
  routers :=
    if entry.immediate_neighbour = 1 then Function.update g.routers i entry.neighbour_ip
    else g.routers

def gatherEntry (i : Nat) (g : Gathered) (entry : PwospfListEntry) : Gathered :=
  entry.lsu_lastcontents.lsas.foldl (gatherLsa i entry) g

def gatherInterface (r : Router) (g : Gathered) (i : Nat) : Gathered :=
  let f := r.interface i
  let g := { g with
    subnets := addNew g.subnets f.link
    topology := addNew g.topology ⟨⟨f.subnet, f.subnet_mask, r.pw_router.router_id⟩, 0⟩ }
  f.neighbours.foldl (gatherEntry i) g

def gather (r : Router) : Gathered :=
  (List.range r.num_interfaces).foldl (gatherInterface r) ⟨[], [], fun _ => 0⟩

/-! ## Shortest paths -/

/-- The pairs of subnets set to 1 in the graph: both attached to one router, with different
addresses. -/
def graphEdges (subnets : List DLink) : List PwospfLsaDj → List (Nat × Nat)
  | [] => []
  | entry :: rest =>
    (rest.filter fun entry_t => entry.lsa.router_id = entry_t.lsa.router_id ∧
        entry.lsa.subnet ≠ entry_t.lsa.subnet).map
      (fun entry_t => (subnets.idxOf entry.lsa.link, subnets.idxOf entry_t.lsa.link)) ++
      graphEdges subnets rest

/-- `graph[u][v]`, an undirected graph. -/
def graph (edges : List (Nat × Nat)) (u v : Nat) : Bool := decide ((u, v) ∈ edges ∨ (v, u) ∈ edges)

/-- The last vertex outside the tree with the least distance. -/
def minDistance (dist : List Nat) (sptSet : List Bool) (V : Nat) : Nat :=
  ((List.range V).foldl
    (fun (best : Nat × Nat) v =>
      if sptSet.getD v false = false ∧ dist.getD v intMax ≤ best.1 then (dist.getD v intMax, v)
      else best)
    (intMax, 0)).2

/-- One round: the nearest vertex joins the tree and its edges are relaxed. -/
def djikstraRound (edges : List (Nat × Nat)) (V : Nat) (s : List Nat × List Bool) :
    List Nat × List Bool :=
  let u := minDistance s.1 s.2 V
  let sptSet := s.2.set u true
  let dist := (List.range V).foldl
    (fun dist v =>
      if sptSet.getD v false = false ∧ graph edges u v ∧ dist.getD u intMax ≠ intMax ∧
          dist.getD u intMax + 1 < dist.getD v intMax
      then dist.set v (dist.getD u intMax + 1) else dist)
    s.1
  (dist, sptSet)

/-- The distances from subnet `id`. -/
def shortest (edges : List (Nat × Nat)) (V id : Nat) : List Nat :=
  ((List.range V).foldl (fun s _ => djikstraRound edges V s)
    ((List.replicate V intMax).set id 0, List.replicate V false)).1

/-! ## Routes -/

/-- `final`, `intf` and `rips`. -/
structure Best where
  final : List Nat
  intf : List Nat
  rips : List AddrIp
  deriving DecidableEq, Repr

/-- The subnets that interface `i` reaches on a shorter way than the interfaces before it. -/
def improve (r : Router) (g : Gathered) (edges : List (Nat × Nat)) (b : Best) (i : Nat) : Best :=
  let f := r.interface i
  let V := g.subnets.length
  let dist := shortest edges V (g.subnets.idxOf f.link)
  (List.range V).foldl
    (fun (b : Best) w =>
      if dist.getD w intMax < b.final.getD w intMax then
        { final := b.final.set w (dist.getD w intMax)
          intf := b.intf.set w i
          rips := b.rips.set w
            (if (g.subnets.getD w ⟨0, 0⟩).subnet = f.subnet then 0 else g.routers i) }
      else b)
    b

def bestRoutes (r : Router) (g : Gathered) : Best :=
  let V := g.subnets.length
  (List.range r.num_interfaces).foldl (improve r g (graphEdges g.subnets g.topology))
    ⟨List.replicate V intMax, List.replicate V intMax, List.replicate V 0⟩

/-- The routes found, one for each reached subnet whose address is not that of its interface. -/
def dynamicEntries (env : Env) (r : Router) (g : Gathered) (b : Best) : List RtableEntry :=
  (List.range g.subnets.length).foldl
    (fun (entries : List RtableEntry) q =>
      let f := b.intf.getD q intMax
      let subnet := g.subnets.getD q ⟨0, 0⟩
      if f < r.num_interfaces ∧ (r.interface f).subnet ≠ subnet.subnet then
        entries ++ [{
          router_ip := b.rips.getD q 0
          subnet := subnet.subnet
          netmask := subnet.netmask
          interface := f
          metric := b.final.getD q intMax
          dynamic := true
          padding := env.padding entries.length }]
      else entries)
    []

/-- The new routing table. -/
def newTable (env : Env) (r : Router) : List RtableEntry :=
  let g := gather r
  let entries := dynamicEntries env r g (bestRoutes r g) ++ r.ip_table.filter fun e => !e.dynamic
  (env.qsort.sort entries).foldl addNew []

/-! ## The hardware copy -/

/-- `update_hardwarearponeentry`: the columns are written, committed to row `id`, cleared, and read
back for the assertions, which hold (`updateHardwarearponeentry_spec`). -/
def updateHardwarearponeentry (t : TableRegs 4) (id : Nat) (ip netmask router_ip : AddrIp)
    (hw_oq : BitVec 32) : TableRegs 4 :=
  if id < 32 then
    let t := t.writeReg 0 (ntohl ip)
    let t := t.writeReg 1 (ntohl netmask)
    let t := t.writeReg 2 (ntohl router_ip)
    let t := t.writeReg 3 hw_oq
    let t := t.writeReg 4 (BitVec.ofNat 32 id)
    let t := t.writeReg 0 0
    let t := t.writeReg 1 0
    let t := t.writeReg 2 0
    let t := t.writeReg 3 0
    t.writeReg 5 (BitVec.ofNat 32 id)
  else t

/-- `update_hardwarearp`: a row for each own address, then the table from its first entry on, and
zeros in the rows that are left. -/
def updateHardwarearp (r : Router) : TableRegs 4 :=
  let n := r.num_interfaces
  let t := (List.range n).foldl
    (fun t i => updateHardwarearponeentry t i (r.interface i).ip 0xffffffff 0
      ((r.interface i).hw_id.setWidth 32)) r.nf
  (List.range (32 - n)).foldl
    (fun t i =>
      match r.ip_table[i]? with
      | some entry => updateHardwarearponeentry t (i + n) entry.subnet entry.netmask entry.router_ip
          ((r.interface entry.interface).hw_oq.setWidth 32)
      | none => updateHardwarearponeentry t (i + n) 0 0 0 0) t

/-- `djikstra_recompute`. -/
def djikstraRecompute (env : Env) (r : Router) : Router :=
  let r := { r with ip_table := newTable env r }
  { r with nf := updateHardwarearp r }

/-! ## What the rows hold -/

/-- A row from its columns. -/
def lpmRow (ip mask nextHop oq : BitVec 32) : LpmRow
  | 0 => ip
  | 1 => mask
  | 2 => nextHop
  | 3 => oq

theorem writes_wr_port (p : LpmRow) (ip mask nextHop oq : BitVec 32) :
    Function.update (Function.update (Function.update (Function.update p 0 ip) 1 mask) 2 nextHop)
      3 oq = lpmRow ip mask nextHop oq := by
  funext c
  match c with
  | 0 => rfl
  | 1 => rfl
  | 2 => rfl
  | 3 => rfl

/-- Writing a row changes that row only, and the registers read back what was written. -/
theorem updateHardwarearponeentry_spec (t : TableRegs 4) {id : Nat} (h : id < 32)
    (ip netmask router_ip : AddrIp) (hw_oq : BitVec 32) :
    (updateHardwarearponeentry t id ip netmask router_ip hw_oq).table =
        Function.update t.table (BitVec.ofNat 5 id)
          (lpmRow (ntohl ip) (ntohl netmask) (ntohl router_ip) hw_oq) ∧
      ∀ c : Fin 4, (updateHardwarearponeentry t id ip netmask router_ip hw_oq).readReg c =
        lpmRow (ntohl ip) (ntohl netmask) (ntohl router_ip) hw_oq c := by
  have hid : (BitVec.ofNat 32 id).setWidth 5 = BitVec.ofNat 5 id :=
    BitVec.eq_of_toNat_eq (by simp only [BitVec.toNat_setWidth, BitVec.toNat_ofNat]; omega)
  unfold updateHardwarearponeentry
  rw [if_pos h]
  simp [TableRegs.writeReg, hid, writes_wr_port]

/-- The row written for a route. -/
def routeRow (r : Router) (entry : RtableEntry) : LpmRow :=
  lpmRow (ntohl entry.subnet) (ntohl entry.netmask) (ntohl entry.router_ip)
    ((r.interface entry.interface).hw_oq.setWidth 32)

/-- The row written for an own address. -/
def ownRow (f : Interface) : LpmRow :=
  lpmRow (ntohl f.ip) (ntohl 0xffffffff) (ntohl 0) (f.hw_id.setWidth 32)

/-- The row written where the table has no entry. -/
def unusedRow : LpmRow := lpmRow (ntohl 0) (ntohl 0) (ntohl 0) 0

/-- **The 32 rows after `update_hardwarearp`.** -/
theorem updateHardwarearp_table (r : Router) {k : Nat} (hk : k < 32) :
    (updateHardwarearp r).table (BitVec.ofNat 5 k) =
      if k < r.num_interfaces then ownRow (r.interface k)
      else match r.ip_table[k - r.num_interfaces]? with
        | some entry => routeRow r entry
        | none => unusedRow := by
  have hnum := r.num_le
  unfold updateHardwarearp
  rw [TableRegs.table_foldl_rows (fun i => match r.ip_table[i]? with
      | some entry => routeRow r entry
      | none => unusedRow) r.num_interfaces ?_ _ hk _ (by omega)]
  · by_cases hlt : k < r.num_interfaces
    · rw [if_neg (by omega), if_pos hlt,
        TableRegs.table_foldl_rows (fun i => ownRow (r.interface i)) 0 ?_ _ hk _ (by omega),
        if_pos (by omega), Nat.sub_zero]
      intro t i hi
      exact (updateHardwarearponeentry_spec t hi _ _ _ _).1
    · rw [if_pos (by omega), if_neg hlt]
  · intro t i hi
    cases hentry : r.ip_table[i]? with
    | some entry => exact (updateHardwarearponeentry_spec t hi _ _ _ _).1
    | none => exact (updateHardwarearponeentry_spec t hi _ _ _ _).1

end BirRouter
