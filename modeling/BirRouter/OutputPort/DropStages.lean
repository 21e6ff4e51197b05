import BirRouter.OutputPort.Stream

/-!
# The drop stages

`drop_packets1.v` decides from a packet's first beat whether the packet is dropped and keeps the
decision in `drop_array`; `drop_packets2.v`, one FIFO later, takes beats without handing them on
while `drop_array` is not zero.
-/

set_option autoImplicit false

namespace BirRouter

/-- The MAC address registers of the four ports. -/
structure Macs where
  mac0_low : BitVec 32
  mac0_high : BitVec 32
  mac1_low : BitVec 32
  mac1_high : BitVec 32
  mac2_low : BitVec 32
  mac2_high : BitVec 32
  mac3_low : BitVec 32
  mac3_high : BitVec 32
  deriving DecidableEq, Repr

namespace Macs

def mac0 (m : Macs) : BitVec 48 := m.mac0_high.extractLsb' 0 16 ++ m.mac0_low
def mac1 (m : Macs) : BitVec 48 := m.mac1_high.extractLsb' 0 16 ++ m.mac1_low
def mac2 (m : Macs) : BitVec 48 := m.mac2_high.extractLsb' 0 16 ++ m.mac2_low
def mac3 (m : Macs) : BitVec 48 := m.mac3_high.extractLsb' 0 16 ++ m.mac3_low

end Macs

/-- Four ports with the addresses 1 to 4. -/
def portMacs : Macs := ⟨1, 0, 2, 0, 3, 0, 4, 0⟩

namespace Beat

def dstMac (b : Beat) : BitVec 48 := b.tdata.extractLsb' 208 48

def etherType (b : Beat) : BitVec 16 := b.tdata.extractLsb' 144 16

/-- The checksum field of the IPv4 header. -/
def checksumField (b : Beat) : BitVec 16 := b.tdata.extractLsb' 48 16

/-- The destination address is neither `mac` nor the broadcast address. -/
def wrongMac (b : Beat) (mac : BitVec 48) : Bool :=
  !(decide (b.dstMac = mac) || decide (b.dstMac = 0xFFFFFFFFFFFF))

/-- An IPv4 packet whose checksum field is not what the checksum stages computed. -/
def badChecksum (b : Beat) (checksum : BitVec 16) : Bool :=
  decide (b.etherType = 0x0800) && decide (checksum ≠ b.checksumField)

end Beat

/-- The registers of `drop_packets1.v`. -/
structure DropPackets1 where
  header : Bool
  checksum_override : Bool
  destip_addr : BitVec 32
  drop_array : BitVec 5
  wrong_mac_count : BitVec 32
  dropped_count : BitVec 32
  debug_checksum_expected : BitVec 32
  debug_checksum_actual : BitVec 32
  debug1 : BitVec 32
  debug2 : BitVec 32
  debug3 : BitVec 32
  debug4 : BitVec 32
  debug5 : BitVec 32
  deriving DecidableEq, Repr

namespace DropPackets1

/-- Bits `[4:1]` of `drop_array_next`.  The third test reads the source bit of port 3, the fourth
one the bit behind the source bits. -/
def macArray (m : Macs) (b : Beat) : BitVec 4 :=
  BitVec.ofBool (b.src 8 && b.wrongMac m.mac3) ++ BitVec.ofBool (b.src 6 && b.wrongMac m.mac2) ++
    BitVec.ofBool (b.src 2 && b.wrongMac m.mac1) ++ BitVec.ofBool (b.src 0 && b.wrongMac m.mac0)

/-- `drop_array_next` for a packet's first beat. -/
def dropArray (checksum_override : Bool) (m : Macs) (checksum : BitVec 16) (b : Beat) : BitVec 5 :=
  if b.fromPhy then
    macArray m b ++ BitVec.ofBool (b.badChecksum checksum && !checksum_override)
  else 0

/-- The destination address: its high half ends the first beat. -/
def destip (b : Beat) (low_ip_addr : BitVec 16) : BitVec 32 := b.tdata.extractLsb' 0 16 ++ low_ip_addr

/-- A packet's first beat. -/
def onFirst (s : DropPackets1) (beat : Beat) (m : Macs) (low_ip_addr checksum : BitVec 16) :
    DropPackets1 :=
  let s := { s with header := true, drop_array := dropArray s.checksum_override m checksum beat }
  if beat.fromPhy then
    let s := { s with destip_addr := destip beat low_ip_addr }
    let s :=
      if beat.badChecksum checksum then
        { s with
          dropped_count := if s.checksum_override then s.dropped_count else s.dropped_count + 1
          debug_checksum_actual := checksum.setWidth 32
          debug_checksum_expected := beat.checksumField.setWidth 32
          debug1 := beat.tdata.extractLsb' 112 32
          debug2 := beat.tdata.extractLsb' 80 32
          debug3 := beat.tdata.extractLsb' 48 32
          debug4 := beat.tdata.extractLsb' 16 32
          debug5 := destip beat low_ip_addr }
      else s
    if macArray m beat ≠ 0 then { s with wrong_mac_count := s.wrong_mac_count + 1 } else s
  else s

/-- A cycle without a write to the reset register. -/
def next (s : DropPackets1) (b : Axis) (beat : Beat) (m : Macs) (low_ip_addr checksum : BitVec 16) :
    DropPackets1 :=
  if !s.header && b.first then s.onFirst beat m low_ip_addr checksum
  else { s with header := headerNext s.header b }

/-- `reset` is 1 to clear the counters, 2 to enable the checksum test, 4 to override it. -/
def step (s : DropPackets1) (b : Axis) (beat : Beat) (m : Macs) (low_ip_addr checksum : BitVec 16)
    (reset : BitVec 32) : DropPackets1 :=
  let n := s.next b beat m low_ip_addr checksum
  let n := { n with
    checksum_override := if reset = 2 then false else if reset = 4 then true else s.checksum_override }
  if reset = 1 then
    { n with
      dropped_count := 0
      wrong_mac_count := 0
      debug_checksum_expected := 0
      debug_checksum_actual := 0 }
  else n

/-! What one cycle does to each register. -/

section

variable (s : DropPackets1) (b : Axis) (beat : Beat) (m : Macs) (low_ip_addr checksum : BitVec 16)
  (reset : BitVec 32)

/-- The beat opens a packet. -/
def starts : Bool := !s.header && b.first

theorem step_header :
    (s.step b beat m low_ip_addr checksum reset).header = headerNext s.header b := by
  simp only [step, next, onFirst, headerNext, apply_ite DropPackets1.header, ite_self]
  split <;> rfl

theorem step_drop_array :
    (s.step b beat m low_ip_addr checksum reset).drop_array
      = if s.starts b then dropArray s.checksum_override m checksum beat else s.drop_array := by
  simp only [step, next, starts, onFirst, apply_ite DropPackets1.drop_array, ite_self]
  rfl

theorem step_destip_addr :
    (s.step b beat m low_ip_addr checksum reset).destip_addr
      = if s.starts b && beat.fromPhy then destip beat low_ip_addr else s.destip_addr := by
  simp only [step, next, starts, onFirst, apply_ite DropPackets1.destip_addr, ite_self]
  split <;> simp_all

theorem step_wrong_mac_count (hr : reset ≠ 1) :
    (s.step b beat m low_ip_addr checksum reset).wrong_mac_count
      = if s.starts b && (beat.fromPhy && decide (macArray m beat ≠ 0)) then s.wrong_mac_count + 1
        else s.wrong_mac_count := by
  simp only [step, if_neg hr, next, starts, onFirst, apply_ite DropPackets1.wrong_mac_count, ite_self]
  cases beat.fromPhy <;> split <;> simp_all

theorem step_dropped_count (hr : reset ≠ 1) :
    (s.step b beat m low_ip_addr checksum reset).dropped_count
      = if s.starts b && (beat.fromPhy && (beat.badChecksum checksum && !s.checksum_override)) then
          s.dropped_count + 1
        else s.dropped_count := by
  simp only [step, if_neg hr, next, starts, onFirst, apply_ite DropPackets1.dropped_count, ite_self]
  cases beat.fromPhy <;> cases s.checksum_override <;> split <;> simp_all

end

/-- A packet is dropped if a test on its destination address or its checksum fails. -/
theorem dropArray_eq_zero (checksum_override : Bool) (m : Macs) (checksum : BitVec 16) (b : Beat) :
    dropArray checksum_override m checksum b = 0 ↔
      (b.fromPhy = true → macArray m b = 0 ∧ (b.badChecksum checksum && !checksum_override) = false) := by
  unfold dropArray
  cases b.fromPhy with
  | false => simp
  | true =>
    generalize (b.badChecksum checksum && !checksum_override) = c
    generalize macArray m b = a
    revert a c
    decide

/-- Bit 0 of the decision is the checksum test, the others are the tests of the address. -/
theorem dropArray_bits (checksum_override : Bool) (m : Macs) (checksum : BitVec 16) (b : Beat) :
    (dropArray checksum_override m checksum b).getLsbD 0
        = (b.fromPhy && (b.badChecksum checksum && !checksum_override)) ∧
      decide ((dropArray checksum_override m checksum b).extractLsb' 1 4 ≠ 0)
        = (b.fromPhy && decide (macArray m b ≠ 0)) := by
  unfold dropArray
  generalize (b.badChecksum checksum && !checksum_override) = c
  generalize macArray m b = a
  generalize b.fromPhy = f
  revert f a c
  decide

end DropPackets1

/-- The registers of `drop_packets2.v`. -/
structure DropPackets2 where
  header : Bool
  destip_addr : BitVec 32
  deriving DecidableEq, Repr

/-- `header` is only ever cleared here, so the address is taken with every beat but the last. -/
def DropPackets2.step (s : DropPackets2) (b : Axis) (destip_in : BitVec 32) : DropPackets2 :=
  if !s.header && b.first then { s with destip_addr := destip_in }
  else if s.header && b.last then { s with header := false }
  else s

theorem DropPackets2.step_header {s : DropPackets2} (h : s.header = false) (b : Axis)
    (destip_in : BitVec 32) : (s.step b destip_in).header = false := by
  unfold step
  split
  · exact h
  · split
    · rfl
    · exact h

theorem DropPackets2.step_destip_addr {s : DropPackets2} (h : s.header = false) (b : Axis)
    (destip_in : BitVec 32) :
    (s.step b destip_in).destip_addr = if b.first then destip_in else s.destip_addr := by
  unfold step
  rw [h]
  cases b.first <;> rfl

/-- The first beat of a packet for `mac` from a port. -/
def beatFor (mac : BitVec 48) (srcPort : BitVec 8) : Beat where
  tdata := BitVec.setWidth 256 mac <<< 208
  tstrb := 0xFFFFFFFF
  tuser := BitVec.setWidth 128 srcPort <<< 16
  tlast := false

/-! ## The two stages -/

structure DropPipe where
  drop_packets1 : Stage 4 DropPackets1
  drop_packets2 : Stage 4 DropPackets2

namespace DropPipe

def dropArray (s : DropPipe) : BitVec 5 := s.drop_packets1.regs.drop_array

/-- What `drop_packets2` offers: nothing while the packet is dropped. -/
def offer (s : DropPipe) : Option Beat :=
  if s.dropArray ≠ 0 then none else s.drop_packets2.offer id

/-- One clock cycle. -/
def step (s : DropPipe) (s_axis : Option Beat) (m_tready : Bool) (reset : BitVec 32) (m : Macs)
    (low_ip_addr checksum : BitVec 16) : DropPipe where
  drop_packets1 :=
    s.drop_packets1.tick s_axis s.drop_packets2.tready
      (s.drop_packets1.regs.step (s.drop_packets1.axis s.drop_packets2.tready) s.drop_packets1.beat m
        low_ip_addr checksum reset)
  drop_packets2 :=
    s.drop_packets2.tick (s.drop_packets1.offer id) m_tready
      (s.drop_packets2.regs.step (s.drop_packets2.axis m_tready) s.drop_packets1.regs.destip_addr)

def reset (word : Beat) : DropPipe where
  drop_packets1 := .reset word ⟨false, true, 0, 0, 0, 0, 0, 0, 0, 0, 0, 0, 0⟩
  drop_packets2 := .reset word ⟨false, 0⟩

end DropPipe

end BirRouter
