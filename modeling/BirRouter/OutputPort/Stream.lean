import BirRouter.Hardware
import BirRouter.Lib.BitField
import BirRouter.OutputPort.Fifo

/-!
# Beats, packets and the skeleton of a stage

The output port lookup is a chain of stages.  Each stage is an input FIFO of beats
(`fallthrough_small_fifo`) and a few registers that react to the beat at the FIFO's output; a beat is
handed on in the cycles in which the FIFO is not empty and the next stage is ready
(`M_AXIS_TVALID & M_AXIS_TREADY`), and a stage is ready while its FIFO is not nearly full.

All stages share one flag, `header` (`state` in the ARP stages): it is low between packets, a stage
acts on the beat that finds it low, and it is simply the complement of `TLAST` of the beat handed on
last (`headerNext_eq`).
-/

set_option autoImplicit false

namespace BirRouter

open BitField

/-- One beat of the 256-bit stream. -/
structure Beat where
  tdata : BitVec 256
  tstrb : BitVec 32
  tuser : BitVec 128
  tlast : Bool
  deriving DecidableEq, Repr

instance : Zero Beat := ⟨⟨0, 0, 0, false⟩⟩

namespace Beat

/-- The byte of `TUSER` at `DST_PORT_POS`. -/
def dstPort (b : Beat) : BitVec 8 := b.tuser.extractLsb' dstPortPos 8

/-- The source bit `SRC_PORT_POS + i`. -/
def src (b : Beat) (i : Nat) : Bool := b.tuser.getLsbD (srcPortPos + i)

/-- The byte of `TUSER` at `SRC_PORT_POS`. -/
def srcPort (b : Beat) : BitVec 8 := b.tuser.extractLsb' srcPortPos 8

/-- `pkt_is_from_cpu`. -/
def fromCpu (b : Beat) : Bool := b.src 1 || b.src 3 || b.src 5 || b.src 7

/-- The test of `drop_packets1` for the four physical ports. -/
def fromPhy (b : Beat) : Bool := b.src 0 || b.src 2 || b.src 4 || b.src 6

/-- The beat comes from the physical port `p` and has no destination yet. -/
def FromPort (b : Beat) (p : Fin 4) : Prop := b.srcPort = 1#8 <<< (2 * p.val) ∧ b.dstPort = 0

/-- The beat comes from the CPU queue `i` and has no destination yet. -/
def FromQueue (b : Beat) (i : Fin 4) : Prop := b.srcPort = 1#8 <<< (2 * i.val + 1) ∧ b.dstPort = 0

instance (b : Beat) (p : Fin 4) : Decidable (b.FromPort p) :=
  inferInstanceAs (Decidable (_ ∧ _))

instance (b : Beat) (i : Fin 4) : Decidable (b.FromQueue i) :=
  inferInstanceAs (Decidable (_ ∧ _))

variable {b : Beat}

theorem src_eq {i : Nat} (hi : i < 8) : b.src i = b.srcPort.getLsbD i := by
  simp [src, srcPort, hi]

/-- The bit behind the source bits is the first destination bit. -/
theorem src_eight : b.src 8 = b.dstPort.getLsbD 0 := by
  simp [src, dstPort, srcPortPos, dstPortPos]

theorem getLsbD_one_shiftLeft {n i : Nat} (hn : n < 8) (hi : i < 8) :
    (1#8 <<< n).getLsbD i = decide (i = n) := by
  have hall : ∀ n < 8, ∀ i < 8, (1#8 <<< n).getLsbD i = decide (i = n) := by decide
  exact hall n hn i hi

theorem FromPort.src {p : Fin 4} (h : b.FromPort p) {i : Nat} (hi : i < 8) :
    b.src i = decide (i = 2 * p.val) := by
  rw [src_eq hi, h.1, getLsbD_one_shiftLeft (by omega) hi]

theorem FromPort.src_eight {p : Fin 4} (h : b.FromPort p) : b.src 8 = false := by
  rw [Beat.src_eight, h.2]
  rfl

theorem FromPort.fromCpu {p : Fin 4} (h : b.FromPort p) : b.fromCpu = false := by
  unfold Beat.fromCpu
  rw [h.src (by decide), h.src (by decide), h.src (by decide), h.src (by decide)]
  clear h
  revert p
  decide

theorem FromPort.fromPhy {p : Fin 4} (h : b.FromPort p) : b.fromPhy = true := by
  unfold Beat.fromPhy
  rw [h.src (by decide), h.src (by decide), h.src (by decide), h.src (by decide)]
  clear h
  revert p
  decide

theorem FromQueue.src {q : Fin 4} (h : b.FromQueue q) {i : Nat} (hi : i < 8) :
    b.src i = decide (i = 2 * q.val + 1) := by
  rw [src_eq hi, h.1, getLsbD_one_shiftLeft (by omega) hi]

theorem FromQueue.fromCpu {q : Fin 4} (h : b.FromQueue q) : b.fromCpu = true := by
  unfold Beat.fromCpu
  rw [h.src (by decide), h.src (by decide), h.src (by decide), h.src (by decide)]
  clear h
  revert q
  decide

theorem FromQueue.fromPhy {q : Fin 4} (h : b.FromQueue q) : b.fromPhy = false := by
  unfold Beat.fromPhy
  rw [h.src (by decide), h.src (by decide), h.src (by decide), h.src (by decide)]
  clear h
  revert q
  decide

end Beat

/-! ## Packets -/

/-- A packet of at least two beats: `TLAST` marks its last one only. -/
structure Packet where
  first : Beat
  body : List Beat
  last : Beat
  first_tlast : first.tlast = false
  body_tlast : ∀ b ∈ body, b.tlast = false
  last_tlast : last.tlast = true

namespace Packet

variable (p : Packet)

def beats : List Beat := p.first :: (p.body ++ [p.last])

/-- The beat that carries the low half of the destination address. -/
def second : Beat := p.body.headD p.last

theorem length_beats : p.beats.length = p.body.length + 2 := by simp [beats]

theorem two_le_length : 2 ≤ p.beats.length := by
  rw [length_beats]
  omega

theorem tlast_getElem {i : Nat} (hi : i < p.beats.length) :
    p.beats[i].tlast = decide (i + 1 = p.beats.length) := by
  have hlen := p.length_beats
  cases i with
  | zero => simpa [beats] using p.first_tlast
  | succ j =>
    have hj : j < (p.body ++ [p.last]).length := by simpa [beats] using hi
    show (p.body ++ [p.last])[j].tlast = _
    rw [List.getElem_append]
    split
    · rename_i hb
      rw [p.body_tlast _ (List.getElem_mem hb)]
      simp [hlen]
      omega
    · rename_i hb
      have : j = p.body.length := by
        simp only [List.length_append, List.length_singleton] at hj
        omega
      simp [p.last_tlast, hlen, this]

theorem getElem?_one : p.beats[1]? = some p.second := by
  unfold beats second
  cases p.body <;> simp

/-- The packet with its first beat changed. -/
def mapFirst (f : Beat → Beat) (hf : ∀ b, (f b).tlast = b.tlast) : Packet :=
  { p with first := f p.first, first_tlast := (hf p.first).trans p.first_tlast }

end Packet

/-! ## The header flag -/

namespace Axis

/-- `M_AXIS_TVALID & M_AXIS_TREADY`. -/
def taken (b : Axis) : Bool := b.tvalid && b.tready

theorem first_eq (b : Axis) : b.first = (b.taken && !b.tlast) := by
  obtain ⟨tvalid, tready, tlast, tuser⟩ := b
  cases tvalid <;> cases tready <;> cases tlast <;> rfl

end Axis

/-- `header_next`: set by a packet's first beat, cleared by its last one. -/
def headerNext (header : Bool) (b : Axis) : Bool :=
  if !header && b.first then true else if header && b.last then false else header

theorem headerNext_eq (header : Bool) (b : Axis) :
    headerNext header b = if b.taken then !b.tlast else header := by
  obtain ⟨tvalid, tready, tlast, tuser⟩ := b
  cases header <;> cases tvalid <;> cases tready <;> cases tlast <;> rfl

/-- The flag in `w` bits, as the route and ARP stages keep it. -/
def flag (w : Nat) (h : Bool) : BitVec w := if h then 1 else 0

/-- A flag of `w` bits is set. -/
def inPacket {w : Nat} (header : BitVec w) : Bool := header != 0

theorem inPacket_flag (w : Nat) (h : Bool) : inPacket (flag (w + 1) h) = h := by
  cases h <;> simp [inPacket, flag]

/-! ## Stages -/

/-- An input FIFO of `2^k` beats and the registers behind it. -/
structure Stage (k : Nat) (ρ : Type) where
  input_fifo : FallthroughSmallFifo k Beat
  regs : ρ

namespace Stage

variable {k : Nat} {ρ : Type}

/-- `S_AXIS_TREADY`. -/
def tready (s : Stage k ρ) : Bool := !s.input_fifo.nearlyFull

/-- `!in_fifo_empty`. -/
def tvalid (s : Stage k ρ) : Bool := !s.input_fifo.empty

/-- The beat at the output of the FIFO. -/
def beat (s : Stage k ρ) : Beat := s.input_fifo.dout

def axis (s : Stage k ρ) (m_tready : Bool) : Axis :=
  ⟨s.tvalid, m_tready, s.beat.tlast, s.beat.tuser⟩

/-- What the stage offers to the next one, `f` being what it does to the beat on its way out. -/
def offer (s : Stage k ρ) (f : Beat → Beat) : Option Beat :=
  if s.tvalid then some (f s.beat) else none

/-- One clock cycle: the FIFO takes `s_axis` if it is ready, `in_fifo_rd_en` is
`M_AXIS_TREADY && !in_fifo_empty`, and the registers become `regs`. -/
def tick (s : Stage k ρ) (s_axis : Option Beat) (m_tready : Bool) (regs : ρ) : Stage k ρ where
  input_fifo :=
    s.input_fifo.tick (if s.tready then s_axis else none) (m_tready && !s.input_fifo.empty)
  regs := regs

def reset (word : Beat) (regs : ρ) : Stage k ρ := ⟨.reset (fun _ => word) word, regs⟩

end Stage

end BirRouter
