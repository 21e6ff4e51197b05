import BirRouter.OutputPort.DropStages

/-!
# The destination filter and the route lookup

`dest_ip1.v` classifies a packet from its first beat and compares the destination address with the
filter table, `dest_ip2.v` sends what was classified to the CPU, and `lpm1.v`, `lpm2.v` and `lpm3.v`
(`Lpm1`, `Lpm2`, `Lpm3`) look up the route.  The address itself passes through two registers that
are loaded in every clock cycle, whatever the FIFOs do.
-/

set_option autoImplicit false

namespace BirRouter

namespace Beat

def ttl (b : Beat) : BitVec 8 := b.tdata.extractLsb' 72 8
def version (b : Beat) : BitVec 4 := b.tdata.extractLsb' 140 4
def ihl (b : Beat) : BitVec 4 := b.tdata.extractLsb' 136 4

/-- An earlier stage has already sent the packet to one of the CPU queues. -/
def toCpu (b : Beat) : Bool := Axis.toCpu ⟨true, true, b.tlast, b.tuser⟩

/-- The beat with another `TUSER`. -/
def setTuser (b : Beat) (tuser : BitVec 128) : Beat := { b with tuser := tuser }

/-- The beat with another destination port. -/
def sendTo (b : Beat) (port : BitVec 8) : Beat := b.setTuser (setDstPort b.tuser port)

theorem dstPort_sendTo (b : Beat) (port : BitVec 8) : (b.sendTo port).dstPort = port := by
  unfold sendTo setTuser dstPort setDstPort dstPortPos
  ext i hi
  simp only [BitVec.getElem_extractLsb', BitVec.getLsbD_append]
  have h1 : ¬ (24 + i < 24) := by omega
  have h2 : 24 + i - 24 = i := by omega
  simp [h1, h2, BitVec.getLsbD_eq_getElem hi]
  omega

theorem toCpu_eq (b : Beat) :
    b.toCpu = (b.dstPort.getLsbD 1 || b.dstPort.getLsbD 3 || b.dstPort.getLsbD 5 ||
      b.dstPort.getLsbD 7) := by
  simp [toCpu, Axis.toCpu, dstPort]

theorem FromPort.toCpu {b : Beat} {p : Fin 4} (h : b.FromPort p) : b.toCpu = false := by
  rw [toCpu_eq, h.2]
  rfl

/-- A packet from a port is sent to the port's CPU queue. -/
theorem FromPort.miss {b : Beat} {p : Fin 4} (h : b.FromPort p) :
    b.setTuser (missPort b.tuser) = b.sendTo (2#8 <<< (2 * p.val)) := by
  have h0 : b.tuser.getLsbD srcPortPos = _ := h.src (show 0 < 8 by decide)
  have h2 : b.tuser.getLsbD (srcPortPos + 2) = _ := h.src (by decide)
  have h4 : b.tuser.getLsbD (srcPortPos + 4) = _ := h.src (by decide)
  have h6 : b.tuser.getLsbD (srcPortPos + 6) = _ := h.src (by decide)
  unfold missPort sendTo
  rw [h0, h2, h4, h6]
  clear h h0 h2 h4 h6
  match p with
  | 0 => rfl
  | 1 => rfl
  | 2 => rfl
  | 3 => rfl

/-- The CPU queue of a port. -/
theorem toCpu_sendTo (b : Beat) (p : Fin 4) :
    (b.sendTo (2#8 <<< (2 * p.val))).toCpu = true ∧ (b.sendTo (2#8 <<< (2 * p.val))).dstPort ≠ 0 := by
  rw [toCpu_eq, dstPort_sendTo]
  revert p
  decide

/-- The source port stays. -/
theorem src_sendTo (b : Beat) (port : BitVec 8) {i : Nat} (hi : i < 8) :
    (b.sendTo port).tuser.getLsbD (srcPortPos + i) = b.tuser.getLsbD (srcPortPos + i) := by
  have h24 : 16 + i < 24 := by omega
  refine BitVec.getLsbD_append.trans ?_
  simp [srcPortPos, h24]

/-- A packet from a CPU queue has no other queue to go to. -/
theorem FromQueue.miss {b : Beat} {q : Fin 4} (h : b.FromQueue q) (port : BitVec 8) :
    (b.sendTo port).setTuser (missPort (b.sendTo port).tuser) = b.sendTo port := by
  have h0 : (b.sendTo port).tuser.getLsbD srcPortPos = _ :=
    (b.src_sendTo port (show 0 < 8 by decide)).trans (h.src (by decide))
  have h2 := (b.src_sendTo port (show 2 < 8 by decide)).trans (h.src (by decide))
  have h4 := (b.src_sendTo port (show 4 < 8 by decide)).trans (h.src (by decide))
  have h6 := (b.src_sendTo port (show 6 < 8 by decide)).trans (h.src (by decide))
  unfold missPort
  rw [h0, h2, h4, h6]
  clear h h0 h2 h4 h6
  match q with
  | 0 => rfl
  | 1 => rfl
  | 2 => rfl
  | 3 => rfl

/-- The port of a CPU queue. -/
theorem port_sendTo (b : Beat) (q : Fin 4) :
    (b.sendTo (1#8 <<< (2 * q.val))).toCpu = false ∧ (b.sendTo (1#8 <<< (2 * q.val))).dstPort ≠ 0 := by
  rw [toCpu_eq, dstPort_sendTo]
  revert q
  decide

end Beat

/-- The registers of `dest_ip1.v` apart from its table. -/
structure DestIp1 where
  header : Bool
  cpu_hit_array : BitVec 6
  bad_ttl_count : BitVec 32
  ver_count : BitVec 32
  dest_hit_count : BitVec 32
  non_ip_count : BitVec 32
  ip_addr : BitVec 32
  deriving DecidableEq, Repr

/-- `for (j = 0; j < n; j = j+1)`: any row sets the hit. -/
def destIpLoop (dest_ip_table : BitVec 5 → BitVec 32) (destip_addr : BitVec 32) :
    Nat → Bool → Bool
  | 0, hit => hit
  | j + 1, hit =>
    (decide (destip_addr = dest_ip_table (BitVec.ofNat 5 j))) ||
      destIpLoop dest_ip_table destip_addr j hit

namespace DestIp1

/-- A packet's first beat. -/
def onFirst (s : DestIp1) (dest_ip_table : BitVec 5 → BitVec 32) (beat : Beat)
    (destip_addr : BitVec 32) : DestIp1 :=
  let s := { s with header := true, cpu_hit_array := 0 }
  if beat.fromCpu then s
  else if beat.etherType ≠ 0x0800 then
    { s with cpu_hit_array := 4, non_ip_count := s.non_ip_count + 1 }
  else if beat.ttl ≤ 1 then
    { s with cpu_hit_array := 1, bad_ttl_count := s.bad_ttl_count + 1 }
  else if beat.version ≠ 4 ∨ beat.version = 4 ∧ beat.ihl ≠ 5 then
    { s with cpu_hit_array := 2, ver_count := s.ver_count + 1 }
  else if destIpLoop dest_ip_table destip_addr 32 false then
    { s with cpu_hit_array := 8, dest_hit_count := s.dest_hit_count + 1 }
  else s

/-- The classification alone. -/
def cpuHitArray (dest_ip_table : BitVec 5 → BitVec 32) (beat : Beat) (destip_addr : BitVec 32) :
    BitVec 6 :=
  if beat.fromCpu then 0
  else if beat.etherType ≠ 0x0800 then 4
  else if beat.ttl ≤ 1 then 1
  else if beat.version ≠ 4 ∨ beat.version = 4 ∧ beat.ihl ≠ 5 then 2
  else if destIpLoop dest_ip_table destip_addr 32 false then 8
  else 0

theorem cpuHitArray_cases (dest_ip_table : BitVec 5 → BitVec 32) (beat : Beat)
    (destip_addr : BitVec 32) :
    cpuHitArray dest_ip_table beat destip_addr = 0 ∨ cpuHitArray dest_ip_table beat destip_addr = 1 ∨
      cpuHitArray dest_ip_table beat destip_addr = 2 ∨ cpuHitArray dest_ip_table beat destip_addr = 4 ∨
      cpuHitArray dest_ip_table beat destip_addr = 8 := by
  unfold cpuHitArray
  split
  · simp
  · split
    · simp
    · split
      · simp
      · split
        · simp
        · split <;> simp

/-- A cycle without a counter reset. -/
def next (s : DestIp1) (dest_ip_table : BitVec 5 → BitVec 32) (b : Axis) (beat : Beat)
    (destip_addr : BitVec 32) : DestIp1 :=
  let s := { s with ip_addr := destip_addr }
  if !s.header && b.first then s.onFirst dest_ip_table beat destip_addr
  else { s with header := headerNext s.header b }

def step (s : DestIp1) (dest_ip_table : BitVec 5 → BitVec 32) (b : Axis) (beat : Beat)
    (destip_addr : BitVec 32) (reset : BitVec 32) : DestIp1 :=
  let n := s.next dest_ip_table b beat destip_addr
  if reset = 1 then
    { n with bad_ttl_count := 0, ver_count := 0, dest_hit_count := 0, non_ip_count := 0 }
  else n

/-! What one cycle does to each register. -/

section

variable (s : DestIp1) (dest_ip_table : BitVec 5 → BitVec 32) (b : Axis) (beat : Beat)
  (destip_addr reset : BitVec 32)

/-- A packet's first beat sets the class and steps the counter of its class. -/
theorem onFirst_eq : s.onFirst dest_ip_table beat destip_addr =
    let hit := cpuHitArray dest_ip_table beat destip_addr
    { s with
      header := true
      cpu_hit_array := hit
      non_ip_count := if hit = 4 then s.non_ip_count + 1 else s.non_ip_count
      bad_ttl_count := if hit = 1 then s.bad_ttl_count + 1 else s.bad_ttl_count
      ver_count := if hit = 2 then s.ver_count + 1 else s.ver_count
      dest_hit_count := if hit = 8 then s.dest_hit_count + 1 else s.dest_hit_count } := by
  simp only [onFirst, cpuHitArray]
  split
  · rfl
  · split
    · rfl
    · split
      · rfl
      · split
        · rfl
        · split <;> rfl

theorem step_header :
    (s.step dest_ip_table b beat destip_addr reset).header = headerNext s.header b := by
  simp only [step, next, onFirst_eq, headerNext, apply_ite DestIp1.header, ite_self]
  split <;> rfl

theorem step_ip_addr : (s.step dest_ip_table b beat destip_addr reset).ip_addr = destip_addr := by
  simp only [step, next, onFirst_eq, apply_ite DestIp1.ip_addr, ite_self]

/-- The counter of the packet's class is stepped. -/
theorem step_counts (hr : reset ≠ 1) :
    let n := s.step dest_ip_table b beat destip_addr reset
    let hits (c : BitVec 6) :=
      (!s.header && b.first) && decide (cpuHitArray dest_ip_table beat destip_addr = c)
    n.non_ip_count = (if hits 4 then s.non_ip_count + 1 else s.non_ip_count) ∧
      n.bad_ttl_count = (if hits 1 then s.bad_ttl_count + 1 else s.bad_ttl_count) ∧
      n.ver_count = (if hits 2 then s.ver_count + 1 else s.ver_count) ∧
      n.dest_hit_count = (if hits 8 then s.dest_hit_count + 1 else s.dest_hit_count) := by
  unfold step next
  rw [if_neg hr]
  cases hs : (!s.header && b.first) with
  | false => simp [hs]
  | true => simp [hs, onFirst_eq]

theorem step_cpu_hit_array :
    (s.step dest_ip_table b beat destip_addr reset).cpu_hit_array
      = if !s.header && b.first then cpuHitArray dest_ip_table beat destip_addr
        else s.cpu_hit_array := by
  simp only [step, next, onFirst_eq, apply_ite DestIp1.cpu_hit_array, ite_self]

end

end DestIp1

/-- The registers of `dest_ip2.v`. -/
structure DestIp2 where
  header : Bool
  ip_addr : BitVec 32
  deriving DecidableEq, Repr

/-- The MAC port of the CPU queue a packet came from; a later `if` of the source overrides. -/
def cpuPort (tuser : BitVec 128) : BitVec 128 :=
  if tuser.getLsbD (srcPortPos + 7) then setDstPort tuser 0x40
  else if tuser.getLsbD (srcPortPos + 5) then setDstPort tuser 0x10
  else if tuser.getLsbD (srcPortPos + 3) then setDstPort tuser 0x04
  else if tuser.getLsbD (srcPortPos + 1) then setDstPort tuser 0x01
  else tuser

/-- A packet from a CPU queue is sent to the queue's port. -/
theorem Beat.FromQueue.cpuPort {b : Beat} {q : Fin 4} (h : b.FromQueue q) :
    b.setTuser (cpuPort b.tuser) = b.sendTo (1#8 <<< (2 * q.val)) := by
  have h1 : b.tuser.getLsbD (srcPortPos + 1) = _ := h.src (by decide)
  have h3 : b.tuser.getLsbD (srcPortPos + 3) = _ := h.src (by decide)
  have h5 : b.tuser.getLsbD (srcPortPos + 5) = _ := h.src (by decide)
  have h7 : b.tuser.getLsbD (srcPortPos + 7) = _ := h.src (by decide)
  unfold BirRouter.cpuPort sendTo
  rw [h1, h3, h5, h7]
  clear h h1 h3 h5 h7
  match q with
  | 0 => rfl
  | 1 => rfl
  | 2 => rfl
  | 3 => rfl

namespace DestIp2

/-- What happens to a packet's first beat. -/
def onFirst (cpu_hit_array : BitVec 6) (beat : Beat) : Beat :=
  if beat.fromCpu then beat.setTuser (cpuPort beat.tuser)
  else if cpu_hit_array ≠ 0 then beat.setTuser (missPort beat.tuser)
  else beat

/-- The beat at the output, in a cycle in which it is handed on. -/
def out (s : DestIp2) (cpu_hit_array : BitVec 6) (beat : Beat) : Beat :=
  if !s.header && !beat.tlast then onFirst cpu_hit_array beat else beat

theorem onFirst_tlast (cpu_hit_array : BitVec 6) (beat : Beat) :
    (onFirst cpu_hit_array beat).tlast = beat.tlast := by
  simp only [onFirst, Beat.setTuser, apply_ite Beat.tlast, ite_self]

theorem out_tlast (s : DestIp2) (cpu_hit_array : BitVec 6) (beat : Beat) :
    (s.out cpu_hit_array beat).tlast = beat.tlast := by
  simp only [out, apply_ite Beat.tlast, onFirst_tlast, ite_self]

def step (s : DestIp2) (b : Axis) (destip_addr : BitVec 32) : DestIp2 where
  header := headerNext s.header b
  ip_addr := destip_addr

end DestIp2

/-- The beat at the output of `lpm3`, in a cycle in which it is handed on. -/
def Lpm3.out (s : Lpm3) (l : Lpm2) (beat : Beat) : Beat :=
  beat.setTuser (s.step l ⟨true, true, beat.tlast, beat.tuser⟩).2

theorem Lpm3.out_tlast (s : Lpm3) (l : Lpm2) (beat : Beat) : (s.out l beat).tlast = beat.tlast := rfl

/-- A cycle of `lpm3.v` with its counter reset. -/
def Lpm3.clock (s : Lpm3) (l : Lpm2) (b : Axis) (reset : BitVec 32) : Lpm3 :=
  let n := (s.step l b).1
  if reset = 1 then { n with lpm_miss_count := 0 } else n

/-! ## What the route lookup finds -/

/-- The lowest row that matches. -/
def lowestMatch (lpm_table : BitVec 5 → LpmRow) (ip_addr : BitVec 32) : Option (BitVec 5) :=
  ((List.range 32).find? fun j => (lpm_table (BitVec.ofNat 5 j)).Matches ip_addr).map (BitVec.ofNat 5)

theorem lpm1Loop_lowestMatch (lpm_table : BitVec 5 → LpmRow) (ip_addr : BitVec 32)
    (found : Bool × BitVec 5) :
    lpm1Loop lpm_table ip_addr 32 found
      = (lowestMatch lpm_table ip_addr).elim found fun j => (true, j) := by
  unfold lowestMatch
  rcases lpm1Loop_eq lpm_table ip_addr 32 found with ⟨hno, heq⟩ | ⟨j, hj, hm, hlow, heq⟩
  · have hnone : (List.range 32).find? (fun j => (lpm_table (BitVec.ofNat 5 j)).Matches ip_addr)
        = none := by
      rw [List.find?_eq_none]
      intro j hj
      simpa using hno j (List.mem_range.1 hj)
    rw [heq, hnone]
    rfl
  · have hsome : (List.range 32).find? (fun j => (lpm_table (BitVec.ofNat 5 j)).Matches ip_addr)
        = some j := by
      rw [List.find?_range_eq_some]
      refine ⟨by simpa using hm, List.mem_range.2 hj, fun i hi => ?_⟩
      simpa using hlow i hi
    rw [heq, hsome]
    rfl

/-- The row that is used for a packet: none if the packet is for the CPU. -/
def routeRowFor (lpm_table : BitVec 5 → LpmRow) (toCpu : Bool) (ip_addr : BitVec 32) :
    Option (BitVec 5) :=
  if toCpu then none else lowestMatch lpm_table ip_addr

section

variable (lpm_table : BitVec 5 → LpmRow) (b : Axis) {h : Bool}

theorem Lpm1.step_eq {s : Lpm1} (hs : s.header = flag 2 h) (ip_addr : BitVec 32) :
    s.step lpm_table ip_addr b =
      if !h && b.first then
        { header := 1
          lpm_hit := (routeRowFor lpm_table b.toCpu ip_addr).isSome
          index_hit := (routeRowFor lpm_table b.toCpu ip_addr).getD s.index_hit
          ip_addr_out := ip_addr }
      else { s with header := flag 2 (headerNext h b) } := by
  obtain ⟨header, lpm_hit, index_hit, ip_addr_out⟩ := s
  obtain rfl : header = flag 2 h := hs
  have hfound : (if b.toCpu then (false, index_hit)
      else lpm1Loop lpm_table ip_addr 32 (false, index_hit))
        = ((routeRowFor lpm_table b.toCpu ip_addr).isSome,
          (routeRowFor lpm_table b.toCpu ip_addr).getD index_hit) := by
    unfold routeRowFor
    rw [lpm1Loop_lowestMatch]
    cases b.toCpu <;> cases lowestMatch lpm_table ip_addr <;> rfl
  cases h <;> cases hf : b.first <;> cases hl : b.last <;>
    simp [step, flag, headerNext, hf, hl, hfound]

/-- What `lpm3` reads. -/
theorem Lpm2.step_eq {s : Lpm2} (hs : s.header = flag 2 h) (l : Lpm1) :
    s.step lpm_table l b =
      if !h && b.first then
        { header := 1
          lpm_hit := l.lpm_hit
          oq_reg := if !b.toCpu && l.lpm_hit then (lpm_table l.index_hit).oq else s.oq_reg
          nh_reg := if !b.toCpu && l.lpm_hit then
              if (lpm_table l.index_hit).nextHop ≠ 0 then (lpm_table l.index_hit).nextHop
              else l.ip_addr_out
            else s.nh_reg }
      else { s with header := flag 2 (headerNext h b) } := by
  obtain ⟨header, lpm_hit, nh_reg, oq_reg⟩ := s
  obtain rfl : header = flag 2 h := hs
  cases h <;> cases hf : b.first <;> cases hl : b.last <;> cases hc : (!b.toCpu && l.lpm_hit) <;>
    simp [step, flag, headerNext, hf, hl, hc]

/-- What becomes of a packet in `lpm3`. -/
theorem Lpm3.step_eq {s : Lpm3} (hs : s.header = flag 1 h) (l : Lpm2) :
    s.step l b =
      if !h && b.first then
        ({ header := 1
           lpm_miss_count :=
             if !b.toCpu && !l.lpm_hit then s.lpm_miss_count + 1 else s.lpm_miss_count
           arp_lookup := if !b.toCpu && l.lpm_hit then true else s.arp_lookup
           nh_reg := if !b.toCpu && l.lpm_hit then l.nh_reg else s.nh_reg
           oq_reg := if !b.toCpu && l.lpm_hit then l.oq_reg else s.oq_reg },
          if !b.toCpu && !l.lpm_hit then missPort b.tuser else b.tuser)
      else ({ s with header := flag 1 (headerNext h b) }, b.tuser) := by
  obtain ⟨header, lpm_miss_count, arp_lookup, nh_reg, oq_reg⟩ := s
  obtain rfl : header = flag 1 h := hs
  cases h <;> cases hf : b.first <;> cases hl : b.last <;> cases hc : b.toCpu <;>
    cases hh : l.lpm_hit <;> simp [step, flag, headerNext, hf, hl, hc, hh]

end

/-- The next hop of a row: the destination itself if the row names none. -/
def LpmRow.hop (row : LpmRow) (ip_addr : BitVec 32) : BitVec 32 :=
  if row.nextHop ≠ 0 then row.nextHop else ip_addr

/-- The registers of `lpm1` hold what it finds for a packet. -/
def Lpm1.Found (s : Lpm1) (lpm_table : BitVec 5 → LpmRow) (toCpu : Bool) (ip_addr : BitVec 32) :
    Prop :=
  s.lpm_hit = (routeRowFor lpm_table toCpu ip_addr).isSome ∧
    ∀ j ∈ routeRowFor lpm_table toCpu ip_addr, s.index_hit = j ∧ s.ip_addr_out = ip_addr

/-- The registers of `lpm2` hold the output queue and the next hop for a packet. -/
def Lpm2.Found (s : Lpm2) (lpm_table : BitVec 5 → LpmRow) (toCpu : Bool) (ip_addr : BitVec 32) :
    Prop :=
  s.lpm_hit = (routeRowFor lpm_table toCpu ip_addr).isSome ∧
    ∀ j ∈ routeRowFor lpm_table toCpu ip_addr,
      s.oq_reg = (lpm_table j).oq ∧ s.nh_reg = (lpm_table j).hop ip_addr

/-- The registers of `lpm3` hold what the ARP lookup needs for a packet. -/
def Lpm3.Found (s : Lpm3) (lpm_table : BitVec 5 → LpmRow) (toCpu : Bool) (ip_addr : BitVec 32) :
    Prop :=
  ∀ j ∈ routeRowFor lpm_table toCpu ip_addr,
    s.arp_lookup = true ∧ s.oq_reg = (lpm_table j).oq ∧ s.nh_reg = (lpm_table j).hop ip_addr

/-- A packet for the CPU has no row. -/
theorem routeRowFor_mem {lpm_table : BitVec 5 → LpmRow} {toCpu : Bool} {ip_addr : BitVec 32}
    {j : BitVec 5} (hj : j ∈ routeRowFor lpm_table toCpu ip_addr) :
    toCpu = false ∧ (routeRowFor lpm_table toCpu ip_addr).isSome = true := by
  constructor
  · cases toCpu with
    | false => rfl
    | true => cases hj
  · rw [Option.mem_def.1 hj]
    rfl

section

variable {lpm_table : BitVec 5 → LpmRow} {b : Axis} {h : Bool}

/-- What `lpm3` does to a packet's first beat. -/
def Lpm3.onFirst (lpm_hit : Bool) (beat : Beat) : Beat :=
  beat.setTuser (if !beat.toCpu && !lpm_hit then missPort beat.tuser else beat.tuser)

theorem Lpm3.onFirst_tlast (lpm_hit : Bool) (beat : Beat) :
    (onFirst lpm_hit beat).tlast = beat.tlast := rfl

theorem Lpm3.onFirst_of_toCpu {lpm_hit : Bool} {beat : Beat} (h : beat.toCpu = true) :
    onFirst lpm_hit beat = beat := by
  unfold onFirst
  rw [h]
  rfl

theorem Lpm3.onFirst_of_hit (beat : Beat) : onFirst true beat = beat := by
  unfold onFirst
  rw [Bool.not_true, Bool.and_false]
  rfl

theorem Lpm3.onFirst_of_miss {beat : Beat} (h : beat.toCpu = false) :
    onFirst false beat = beat.setTuser (missPort beat.tuser) := by
  unfold onFirst
  rw [h]
  rfl

theorem Lpm3.out_eq {s : Lpm3} (hs : s.header = flag 1 h) (l : Lpm2) (beat : Beat) :
    s.out l beat = if !h && !beat.tlast then onFirst l.lpm_hit beat else beat := by
  unfold out
  rw [step_eq _ hs]
  have hf : (Axis.first ⟨true, true, beat.tlast, beat.tuser⟩) = !beat.tlast := by
    cases beat.tlast <;> rfl
  rw [hf]
  split <;> rfl

theorem Lpm1.step_header {s : Lpm1} (hs : s.header = flag 2 h) (ip_addr : BitVec 32) :
    (s.step lpm_table ip_addr b).header = flag 2 (headerNext h b) := by
  rw [step_eq lpm_table b hs]
  unfold headerNext
  split <;> rfl

theorem Lpm2.step_header {s : Lpm2} (hs : s.header = flag 2 h) (l : Lpm1) :
    (s.step lpm_table l b).header = flag 2 (headerNext h b) := by
  rw [step_eq lpm_table b hs]
  unfold headerNext
  split <;> rfl

theorem Lpm3.clock_header {s : Lpm3} (hs : s.header = flag 1 h) (l : Lpm2) (reset : BitVec 32) :
    (s.clock l b reset).header = flag 1 (headerNext h b) := by
  unfold clock
  rw [step_eq b hs]
  simp only [apply_ite Lpm3.header, ite_self]
  unfold headerNext
  split <;> rfl

theorem Lpm1.found_step {s : Lpm1} (hs : s.header = flag 2 h) (ho : (!h && b.first) = true)
    (ip_addr : BitVec 32) : (s.step lpm_table ip_addr b).Found lpm_table b.toCpu ip_addr := by
  rw [step_eq lpm_table b hs, if_pos ho]
  refine ⟨rfl, fun j hj => ?_⟩
  have hj : routeRowFor lpm_table b.toCpu ip_addr = some j := hj
  simp only [hj, Option.getD_some, and_self]

theorem Lpm1.found_keep {s : Lpm1} (hs : s.header = flag 2 h) (ho : (!h && b.first) = false)
    (ip_addr : BitVec 32) {toCpu : Bool} {d : BitVec 32} (hf : s.Found lpm_table toCpu d) :
    (s.step lpm_table ip_addr b).Found lpm_table toCpu d := by
  rw [step_eq lpm_table b hs, ho]
  exact hf

theorem Lpm2.found_step {s : Lpm2} (hs : s.header = flag 2 h) (ho : (!h && b.first) = true)
    {l : Lpm1} {ip_addr : BitVec 32} (hl : l.Found lpm_table b.toCpu ip_addr) :
    (s.step lpm_table l b).Found lpm_table b.toCpu ip_addr := by
  rw [step_eq lpm_table b hs, if_pos ho]
  refine ⟨hl.1, fun j hj => ?_⟩
  obtain ⟨hidx, hip⟩ := hl.2 j hj
  obtain ⟨hcpu, hsome⟩ := routeRowFor_mem hj
  have hhit : l.lpm_hit = true := hl.1.trans hsome
  simp only [hcpu, hhit, hidx, hip, Bool.not_false, Bool.and_self, if_true, LpmRow.hop, and_self]

theorem Lpm2.found_keep {s : Lpm2} (hs : s.header = flag 2 h) (ho : (!h && b.first) = false)
    (l : Lpm1) {toCpu : Bool} {d : BitVec 32} (hf : s.Found lpm_table toCpu d) :
    (s.step lpm_table l b).Found lpm_table toCpu d := by
  rw [step_eq lpm_table b hs, ho]
  exact hf

/-- The counter apart, a reset changes nothing. -/
theorem Lpm3.clock_found (s : Lpm3) (l : Lpm2) (reset : BitVec 32) :
    (s.clock l b reset).Found = (s.step l b).1.Found := by
  unfold clock
  split <;> rfl

theorem Lpm3.clock_count {s : Lpm3} (hs : s.header = flag 1 h) (l : Lpm2) {reset : BitVec 32}
    (hr : reset ≠ 1) :
    (s.clock l b reset).lpm_miss_count
      = if (!h && b.first) && (!b.toCpu && !l.lpm_hit) then s.lpm_miss_count + 1
        else s.lpm_miss_count := by
  unfold clock
  rw [step_eq b hs, if_neg hr]
  cases (!h && b.first) <;> rfl

theorem Lpm3.found_step {s : Lpm3} (hs : s.header = flag 1 h) (ho : (!h && b.first) = true)
    {l : Lpm2} {ip_addr : BitVec 32} (hl : l.Found lpm_table b.toCpu ip_addr) (reset : BitVec 32) :
    (s.clock l b reset).Found lpm_table b.toCpu ip_addr := by
  rw [clock_found, step_eq b hs, if_pos ho]
  intro j hj
  obtain ⟨hoq, hnh⟩ := hl.2 j hj
  obtain ⟨hcpu, hsome⟩ := routeRowFor_mem hj
  have hhit : l.lpm_hit = true := hl.1.trans hsome
  simp only [hcpu, hhit, hoq, hnh, Bool.not_false, Bool.and_self, if_true, and_self]

theorem Lpm3.found_keep {s : Lpm3} (hs : s.header = flag 1 h) (ho : (!h && b.first) = false)
    (l : Lpm2) (reset : BitVec 32) {toCpu : Bool} {d : BitVec 32}
    (hf : s.Found lpm_table toCpu d) : (s.clock l b reset).Found lpm_table toCpu d := by
  rw [clock_found, step_eq b hs, ho]
  exact hf

end

/-! ## The chain -/

/-- The five stages with the tables of `dest_ip1` and `lpm1`. -/
structure LookupPipe where
  dest_ip_table : BitVec 5 → BitVec 32
  lpm_table : BitVec 5 → LpmRow
  dest_ip1 : Stage 2 DestIp1
  dest_ip2 : Stage 2 DestIp2
  lpm1 : Stage 2 Lpm1
  lpm2 : Stage 2 Lpm2
  lpm3 : Stage 2 Lpm3

namespace LookupPipe

/-- A row written through the register interface. -/
def writeRow {γ : Type} (table : BitVec 5 → γ) (wr : Option (BitVec 5 × γ)) : BitVec 5 → γ :=
  match wr with
  | some (tbl_wr_addr, tbl_wr_data) => Function.update table tbl_wr_addr tbl_wr_data
  | none => table

/-- What `lpm3` offers to the next stage. -/
def offer (s : LookupPipe) : Option Beat := s.lpm3.offer (s.lpm3.regs.out s.lpm2.regs)

/-- One clock cycle. -/
def step (s : LookupPipe) (s_axis : Option Beat) (m_tready : Bool) (reset destip_addr : BitVec 32)
    (dest_ip_wr : Option (BitVec 5 × BitVec 32)) (lpm_wr : Option (BitVec 5 × LpmRow)) :
    LookupPipe where
  dest_ip_table := writeRow s.dest_ip_table dest_ip_wr
  lpm_table := writeRow s.lpm_table lpm_wr
  dest_ip1 :=
    s.dest_ip1.tick s_axis s.dest_ip2.tready
      (s.dest_ip1.regs.step s.dest_ip_table (s.dest_ip1.axis s.dest_ip2.tready) s.dest_ip1.beat
        destip_addr reset)
  dest_ip2 :=
    s.dest_ip2.tick (s.dest_ip1.offer id) s.lpm1.tready
      (s.dest_ip2.regs.step (s.dest_ip2.axis s.lpm1.tready) s.dest_ip1.regs.ip_addr)
  lpm1 :=
    s.lpm1.tick (s.dest_ip2.offer (s.dest_ip2.regs.out s.dest_ip1.regs.cpu_hit_array))
      s.lpm2.tready
      (s.lpm1.regs.step s.lpm_table s.dest_ip2.regs.ip_addr (s.lpm1.axis s.lpm2.tready))
  lpm2 :=
    s.lpm2.tick (s.lpm1.offer id) s.lpm3.tready
      (s.lpm2.regs.step s.lpm_table s.lpm1.regs (s.lpm2.axis s.lpm3.tready))
  lpm3 :=
    s.lpm3.tick (s.lpm2.offer id) m_tready
      (s.lpm3.regs.clock s.lpm2.regs (s.lpm3.axis m_tready) reset)

/-- After reset; the two address registers have none. -/
def reset (word : Beat) (ip_addr1 ip_addr2 : BitVec 32) : LookupPipe where
  dest_ip_table _ := 0
  lpm_table _ _ := 0xFFFFFFFF
  dest_ip1 := .reset word ⟨false, 0, 0, 0, 0, 0, ip_addr1⟩
  dest_ip2 := .reset word ⟨false, ip_addr2⟩
  lpm1 := .reset word ⟨0, false, 0, 0⟩
  lpm2 := .reset word ⟨0, false, 0, 0⟩
  lpm3 := .reset word ⟨0, 0, false, 0, 0⟩

end LookupPipe

end BirRouter
