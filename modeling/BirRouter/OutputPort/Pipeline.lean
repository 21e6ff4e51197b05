import BirRouter.Lib.Clocked
import BirRouter.OutputPort.ArpStages
import BirRouter.OutputPort.ChecksumStages

/-!
# The output port lookup (`nf10_router_output_port_lookup.v`)

The sixteen stages from `checksum1` to `arp4`, in the order in which the top module connects them.  The
top module has one more FIFO in front of `checksum1`, which is left out: every stream of beats that it
may hand to `checksum1` is covered.
-/

set_option autoImplicit false

namespace BirRouter

/-- What the pipeline is given in one clock cycle: the beat offered to `checksum1`, whether the
output takes a beat, the software registers, and rows written to the tables. -/
structure Cycle where
  s_axis : Option Beat
  m_tready : Bool
  reset : BitVec 32
  macs : Macs
  dest_ip_wr : Option (BitVec 5 × BitVec 32)
  lpm_wr : Option (BitVec 5 × LpmRow)
  arp_wr : Option (BitVec 5 × ArpRow)

structure Pipeline where
  checksum : ChecksumPipe
  drop : DropPipe
  lookup : LookupPipe
  arp : ArpPipe

namespace Pipeline

/-- One clock cycle. -/
def step (s : Pipeline) (c : Cycle) : Pipeline where
  checksum := s.checksum.step c.s_axis s.drop.drop_packets1.tready c.reset
  drop :=
    s.drop.step (s.checksum.delay.offer id) s.lookup.dest_ip1.tready c.reset c.macs
      s.checksum.delay.regs.low_ip_addr s.checksum.delay.regs.checksum_out
  lookup :=
    s.lookup.step s.drop.offer s.arp.arp1.tready c.reset s.drop.drop_packets2.regs.destip_addr
      c.dest_ip_wr c.lpm_wr
  arp := s.arp.step s.lookup.offer c.m_tready c.reset c.macs s.lookup.lpm3.regs c.arp_wr

/-- The beat accepted by `checksum1` in a cycle. -/
def accepted (s : Pipeline) (c : Cycle) : Option Beat :=
  if s.checksum.checksum1.tready then c.s_axis else none

/-- The beat that leaves `arp4` in a cycle. -/
def emitted (s : Pipeline) (c : Cycle) : Option Beat := if c.m_tready then s.arp.offer else none

def run (s : Pipeline) (cs : List Cycle) : Pipeline := Clocked.run step s cs

/-- The beats that enter during a run. -/
def inputs (s : Pipeline) (cs : List Cycle) : List Beat :=
  Clocked.collect step (fun s c => (s.accepted c).toList) s cs

/-- The beats that leave during a run. -/
def outputs (s : Pipeline) (cs : List Cycle) : List Beat :=
  Clocked.collect step (fun s c => (s.emitted c).toList) s cs

/-- After reset; the latch, the two address registers and the memory words hold anything. -/
def reset (word : Beat) (low_ip_addr : BitVec 16) (ip_addr1 ip_addr2 : BitVec 32) : Pipeline where
  checksum := .reset word low_ip_addr
  drop := .reset word
  lookup := .reset word ip_addr1 ip_addr2
  arp := .reset word

end Pipeline

end BirRouter
