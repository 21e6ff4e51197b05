import BirRouter.OutputPort.Stream

/-!
# The checksum stages

`checksum1.v`, `checksum2.v`, `checksum2a.v`, `checksum3.v` and `ip_addr_checksum_delay.v`: five
stages that add up the words of an IPv4 header and fetch the low half of the destination address,
which stands in the second beat of a packet.  The partial sums travel in registers beside the FIFOs,
the address half through a transparent latch in `checksum2`.

Part selects of `M_AXIS_TDATA` are written `tdata.extractLsb' low width`; sums have the width of the
variable they are assigned to.
-/

set_option autoImplicit false

namespace BirRouter

/-- The registers of `checksum1.v`. -/
structure Checksum1 where
  header : Bool
  checksum01 : BitVec 32
  checksum02 : BitVec 32
  checksum03 : BitVec 32
  checksum04 : BitVec 32
  deriving DecidableEq, Repr

/-- A 16-bit word of the first beat in a 32-bit sum. -/
def headerWord (tdata : BitVec 256) (low : Nat) : BitVec 32 :=
  (tdata.extractLsb' low 16).setWidth 32

def Checksum1.step (s : Checksum1) (b : Axis) (tdata : BitVec 256) : Checksum1 :=
  if !s.header && b.first then
    { header := true
      checksum01 := headerWord tdata 128 + headerWord tdata 112
      checksum02 := headerWord tdata 96 + headerWord tdata 80
      checksum03 := headerWord tdata 64 + headerWord tdata 32
      checksum04 := headerWord tdata 16 + headerWord tdata 0 }
  else { s with header := headerNext s.header b }

/-- The registers of `checksum2.v`; `low_ip_addr` is the value the latch holds. -/
structure Checksum2 where
  header : Bool
  header2 : Bool
  checksum11 : BitVec 32
  checksum12 : BitVec 32
  low_ip_addr : BitVec 16
  deriving DecidableEq, Repr

/-- The latch is open while a packet's second beat is handed on. -/
def Checksum2.opens (s : Checksum2) (b : Axis) : Bool := s.header && !s.header2 && b.taken

/-- The output of the latch in a cycle. -/
def Checksum2.lowIpAddr (s : Checksum2) (b : Axis) (tdata : BitVec 256) : BitVec 16 :=
  if s.opens b then tdata.extractLsb' 240 16 else s.low_ip_addr

def Checksum2.step (s : Checksum2) (b : Axis) (tdata : BitVec 256) (c : Checksum1) : Checksum2 where
  header := headerNext s.header b
  header2 := if s.opens b then true else if s.header = false then false else s.header2
  checksum11 := if !s.header && b.first then c.checksum01 + c.checksum02 else s.checksum11
  checksum12 := if !s.header && b.first then c.checksum03 + c.checksum04 else s.checksum12
  low_ip_addr := s.lowIpAddr b tdata

/-- The registers of `checksum2a.v`. -/
structure Checksum2a where
  header : Bool
  checksum21 : BitVec 32
  checksum22 : BitVec 32
  deriving DecidableEq, Repr

def Checksum2a.step (s : Checksum2a) (b : Axis) (c : Checksum2) : Checksum2a :=
  if !s.header && b.first then
    { header := true, checksum21 := c.checksum11, checksum22 := c.checksum12 }
  else { s with header := headerNext s.header b }

/-- The registers of `checksum3.v`. -/
structure Checksum3 where
  header : Bool
  checksum_final : BitVec 32
  low_ip_addr_out : BitVec 16
  deriving DecidableEq, Repr

def Checksum3.step (s : Checksum3) (b : Axis) (c : Checksum2a) (low_ip_addr_in : BitVec 16) :
    Checksum3 :=
  if !s.header && b.first then
    { header := true
      checksum_final := c.checksum21 + c.checksum22 + low_ip_addr_in.setWidth 32
      low_ip_addr_out := low_ip_addr_in }
  else { s with header := headerNext s.header b }

/-- The registers of `ip_addr_checksum_delay.v`. -/
structure IpAddrChecksumDelay where
  header : Bool
  cpu_count : BitVec 32
  low_ip_addr : BitVec 16
  checksum_out : BitVec 16
  deriving DecidableEq, Repr

/-- `~(checksum_in[15:0] + checksum_in[19:16])`, a sum of 16 bits. -/
def foldChecksum (checksum_in : BitVec 32) : BitVec 16 :=
  ~~~ (checksum_in.extractLsb' 0 16 + (checksum_in.extractLsb' 16 4).setWidth 16)

/-- A cycle without a counter reset. -/
def IpAddrChecksumDelay.next (s : IpAddrChecksumDelay) (b : Axis) (beat : Beat) (c : Checksum3) :
    IpAddrChecksumDelay :=
  if !s.header && b.first then
    { header := true
      cpu_count := if beat.fromCpu then s.cpu_count + 1 else s.cpu_count
      low_ip_addr := c.low_ip_addr_out
      checksum_out := foldChecksum c.checksum_final }
  else { s with header := headerNext s.header b }

def IpAddrChecksumDelay.step (s : IpAddrChecksumDelay) (b : Axis) (beat : Beat) (c : Checksum3)
    (reset : BitVec 32) : IpAddrChecksumDelay :=
  if reset = 1 then { s.next b beat c with cpu_count := 0 } else s.next b beat c

/-! What one cycle does to the registers: `header` follows the beats, and the others change with a
packet's first beat only. -/

section

variable (b : Axis) (beat : Beat) (tdata : BitVec 256)

theorem Checksum1.step_header (s : Checksum1) : (s.step b tdata).header = headerNext s.header b := by
  simp only [step, headerNext, apply_ite Checksum1.header]
  split <;> rfl

/-- The first beat's words other than the checksum, in two sums. -/
def headerSums (tdata : BitVec 256) : BitVec 32 × BitVec 32 :=
  (headerWord tdata 128 + headerWord tdata 112 + (headerWord tdata 96 + headerWord tdata 80),
    headerWord tdata 64 + headerWord tdata 32 + (headerWord tdata 16 + headerWord tdata 0))

/-- The sums that `checksum2` reads. -/
def Checksum1.sums (s : Checksum1) : BitVec 32 × BitVec 32 :=
  (s.checksum01 + s.checksum02, s.checksum03 + s.checksum04)

theorem Checksum1.step_sums (s : Checksum1) :
    (s.step b tdata).sums = if !s.header && b.first then headerSums tdata else s.sums := by
  unfold step
  split <;> rfl

/-- The sums that `checksum2a` reads. -/
def Checksum2.sums (s : Checksum2) : BitVec 32 × BitVec 32 := (s.checksum11, s.checksum12)

theorem Checksum2.step_sums (s : Checksum2) (c : Checksum1) :
    (s.step b tdata c).sums = if !s.header && b.first then c.sums else s.sums := by
  by_cases h : (!s.header && b.first) = true
  · rw [if_pos h]
    exact Prod.ext (if_pos h) (if_pos h)
  · rw [if_neg h]
    exact Prod.ext (if_neg h) (if_neg h)

theorem Checksum2a.step_header (s : Checksum2a) (c : Checksum2) :
    (s.step b c).header = headerNext s.header b := by
  simp only [step, headerNext, apply_ite Checksum2a.header]
  split <;> rfl

/-- The sums that `checksum3` reads. -/
def Checksum2a.sums (s : Checksum2a) : BitVec 32 × BitVec 32 := (s.checksum21, s.checksum22)

theorem Checksum2a.step_sums (s : Checksum2a) (c : Checksum2) :
    (s.step b c).sums = if !s.header && b.first then c.sums else s.sums := by
  unfold step
  split <;> rfl

theorem Checksum3.step_header (s : Checksum3) (c : Checksum2a) (low_ip_addr_in : BitVec 16) :
    (s.step b c low_ip_addr_in).header = headerNext s.header b := by
  simp only [step, headerNext, apply_ite Checksum3.header]
  split <;> rfl

/-- What `ip_addr_checksum_delay` reads. -/
def Checksum3.result (s : Checksum3) : BitVec 32 × BitVec 16 := (s.checksum_final, s.low_ip_addr_out)

theorem Checksum3.step_result (s : Checksum3) (c : Checksum2a) (low_ip_addr_in : BitVec 16) :
    (s.step b c low_ip_addr_in).result = if !s.header && b.first then
        (c.sums.1 + c.sums.2 + low_ip_addr_in.setWidth 32, low_ip_addr_in)
      else s.result := by
  unfold step
  split <;> rfl

theorem IpAddrChecksumDelay.step_header (s : IpAddrChecksumDelay) (c : Checksum3) (reset : BitVec 32) :
    (s.step b beat c reset).header = headerNext s.header b := by
  simp only [step, next, headerNext, apply_ite IpAddrChecksumDelay.header, ite_self]
  split <;> rfl

/-- What `drop_packets1` reads. -/
def IpAddrChecksumDelay.result (s : IpAddrChecksumDelay) : BitVec 16 × BitVec 16 :=
  (s.checksum_out, s.low_ip_addr)

theorem IpAddrChecksumDelay.step_result (s : IpAddrChecksumDelay) (c : Checksum3)
    (reset : BitVec 32) :
    (s.step b beat c reset).result = if !s.header && b.first then
        (foldChecksum c.result.1, c.result.2)
      else s.result := by
  unfold step next
  split <;> split <;> rfl

/-- The CPU packet counter. -/
theorem IpAddrChecksumDelay.step_cpu_count (s : IpAddrChecksumDelay) (c : Checksum3)
    {reset : BitVec 32} (hr : reset ≠ 1) :
    (s.step b beat c reset).cpu_count
      = if (!s.header && b.first) && beat.fromCpu then s.cpu_count + 1 else s.cpu_count := by
  unfold step next
  rw [if_neg hr]
  split <;> simp_all

end

/-! ## The chain -/

structure ChecksumPipe where
  checksum1 : Stage 2 Checksum1
  checksum2 : Stage 2 Checksum2
  checksum2a : Stage 2 Checksum2a
  checksum3 : Stage 2 Checksum3
  delay : Stage 2 IpAddrChecksumDelay

namespace ChecksumPipe

/-- The address half that `checksum3` sees. -/
def lowIpAddr (s : ChecksumPipe) : BitVec 16 :=
  s.checksum2.regs.lowIpAddr (s.checksum2.axis s.checksum2a.tready) s.checksum2.beat.tdata

/-- One clock cycle. -/
def step (s : ChecksumPipe) (s_axis : Option Beat) (m_tready : Bool) (reset : BitVec 32) :
    ChecksumPipe where
  checksum1 :=
    s.checksum1.tick s_axis s.checksum2.tready
      (s.checksum1.regs.step (s.checksum1.axis s.checksum2.tready) s.checksum1.beat.tdata)
  checksum2 :=
    s.checksum2.tick (s.checksum1.offer id) s.checksum2a.tready
      (s.checksum2.regs.step (s.checksum2.axis s.checksum2a.tready) s.checksum2.beat.tdata
        s.checksum1.regs)
  checksum2a :=
    s.checksum2a.tick (s.checksum2.offer id) s.checksum3.tready
      (s.checksum2a.regs.step (s.checksum2a.axis s.checksum3.tready) s.checksum2.regs)
  checksum3 :=
    s.checksum3.tick (s.checksum2a.offer id) s.delay.tready
      (s.checksum3.regs.step (s.checksum3.axis s.delay.tready) s.checksum2a.regs s.lowIpAddr)
  delay :=
    s.delay.tick (s.checksum3.offer id) m_tready
      (s.delay.regs.step (s.delay.axis m_tready) s.delay.beat s.checksum3.regs reset)

/-- After reset; the latch and the memory words hold anything. -/
def reset (word : Beat) (low_ip_addr : BitVec 16) : ChecksumPipe where
  checksum1 := .reset word ⟨false, 0, 0, 0, 0⟩
  checksum2 := .reset word ⟨false, false, 0, 0, low_ip_addr⟩
  checksum2a := .reset word ⟨false, 0, 0⟩
  checksum3 := .reset word ⟨false, 0, 0⟩
  delay := .reset word ⟨false, 0, 0, 0⟩

end ChecksumPipe

end BirRouter
