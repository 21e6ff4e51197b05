import BirRouter.OutputPort.HeaderTiming
import BirRouter.OutputPort.LookupRuns

/-!
# The states between packets

Every stage has its own header flag.  A flag differs from the one before it only by the beats in the
FIFO between them, in every state that the pipeline can reach (`Pipeline.Chained`).  Once the pipeline
is empty the flags up to `drop_packets1` are low, and the flags behind `drop_packets2` agree with each
other (`Reached.ready`); they need not be low, since `drop_packets2` may have swallowed the end of a
packet (see `DropRuns`).
-/

set_option autoImplicit false

namespace BirRouter

open Clocked Stage

/-! ## Flags of the ARP stages -/

namespace ArpPipe

/-- The header flags of the ARP stages are flags. -/
structure Flagged (s : ArpPipe) : Prop where
  arp1 : s.arp1.regs.state = flag 2 (inPacket s.arp1.regs.state)
  arp2 : s.arp2.regs.state = flag 2 (inPacket s.arp2.regs.state)
  arp3 : s.arp3.regs.state = flag 2 (inPacket s.arp3.regs.state)

variable {s : ArpPipe} (s_axis : Option Beat) (m_tready : Bool) (reset : BitVec 32) (m : Macs)
  (l : Lpm3) (arp_wr : Option (BitVec 5 × ArpRow))

theorem arp1_state (h : s.Flagged) :
    (s.step s_axis m_tready reset m l arp_wr).arp1.regs.state
      = flag 2 (ends (inPacket s.arp1.regs.state) (s.arp1.popped s.arp2.tready).toList) :=
  (Arp1.step_state h.arp1 _).trans (congrArg (flag 2) (headerNext_ends _))

theorem arp2_state (h : s.Flagged) :
    (s.step s_axis m_tready reset m l arp_wr).arp2.regs.state
      = flag 2 (ends (inPacket s.arp2.regs.state) (s.arp2.popped s.arp3.tready).toList) :=
  (Arp2.step_state h.arp2 _).trans (congrArg (flag 2) (headerNext_ends _))

theorem arp3_state (h : s.Flagged) :
    (s.step s_axis m_tready reset m l arp_wr).arp3.regs.state
      = flag 2 (ends (inPacket s.arp3.regs.state) (s.arp3.popped s.arp4.tready).toList) :=
  (Arp3.step_state h.arp3 _ _).trans (congrArg (flag 2) (headerNext_ends _))

theorem flagged_step (h : s.Flagged) : (s.step s_axis m_tready reset m l arp_wr).Flagged where
  arp1 := by rw [arp1_state _ _ _ _ _ _ h, inPacket_flag]
  arp2 := by rw [arp2_state _ _ _ _ _ _ h, inPacket_flag]
  arp3 := by rw [arp3_state _ _ _ _ _ _ h, inPacket_flag]

end ArpPipe

/-! ## The chain of flags -/

namespace Pipeline

/-- The header flags, one after another; `g` is the flag in front of the pipeline. -/
structure Chained (g : Bool) (s : Pipeline) : Prop where
  wf : s.WellFormed
  lookup : s.lookup.Flagged
  arp : s.arp.Flagged
  checksum1 : g = ends s.checksum.checksum1.regs.header s.checksum.checksum1.contents
  checksum2 : s.checksum.checksum1.regs.header
    = ends s.checksum.checksum2.regs.header s.checksum.checksum2.contents
  checksum2a : s.checksum.checksum2.regs.header
    = ends s.checksum.checksum2a.regs.header s.checksum.checksum2a.contents
  checksum3 : s.checksum.checksum2a.regs.header
    = ends s.checksum.checksum3.regs.header s.checksum.checksum3.contents
  delay : s.checksum.checksum3.regs.header
    = ends s.checksum.delay.regs.header s.checksum.delay.contents
  drop_packets1 : s.checksum.delay.regs.header
    = ends s.drop.drop_packets1.regs.header s.drop.drop_packets1.contents
  drop_packets2 : s.drop.drop_packets2.regs.header = false
  dest_ip2 : s.lookup.dest_ip1.regs.header
    = ends s.lookup.dest_ip2.regs.header s.lookup.dest_ip2.contents
  lpm1 : s.lookup.dest_ip2.regs.header
    = ends (inPacket s.lookup.lpm1.regs.header) s.lookup.lpm1.contents
  lpm2 : inPacket s.lookup.lpm1.regs.header
    = ends (inPacket s.lookup.lpm2.regs.header) s.lookup.lpm2.contents
  lpm3 : inPacket s.lookup.lpm2.regs.header
    = ends (inPacket s.lookup.lpm3.regs.header) s.lookup.lpm3.contents
  arp1 : inPacket s.lookup.lpm3.regs.header
    = ends (inPacket s.arp.arp1.regs.state) s.arp.arp1.contents
  arp2 : inPacket s.arp.arp1.regs.state = ends (inPacket s.arp.arp2.regs.state) s.arp.arp2.contents
  arp3 : inPacket s.arp.arp2.regs.state = ends (inPacket s.arp.arp3.regs.state) s.arp.arp3.contents

/-- Two neighbours in the chain. -/
theorem chain_tick {k k' : Nat} {ρ ρ' : Type} {s : Stage k ρ} {t : Stage k' ρ'} {g header g' : Bool}
    (hwf : t.WellFormed) (h : g = ends header t.contents) {f : Beat → Beat}
    (hf : ∀ b, (f b).tlast = b.tlast) (hg : g' = ends g (s.popped t.tready).toList)
    (m_tready : Bool) (regs : ρ') :
    g' = ends (ends header (t.popped m_tready).toList) (t.tick (s.offer f) m_tready regs).contents := by
  rw [hg, ← ends_tick hwf h, pushed_offer, ends_map hf]

theorem chained_step {g : Bool} {s : Pipeline} (h : s.Chained g) (c : Cycle) :
    (s.step c).Chained (ends g (s.accepted c).toList) := by
  have h1 : (s.step c).checksum.checksum1.regs.header = _ :=
    (Checksum1.step_header _ _ _).trans (headerNext_ends _)
  have h2 : (s.step c).checksum.checksum2.regs.header = _ := headerNext_ends _
  have h2a : (s.step c).checksum.checksum2a.regs.header = _ :=
    (Checksum2a.step_header _ _ _).trans (headerNext_ends _)
  have h3 : (s.step c).checksum.checksum3.regs.header = _ :=
    (Checksum3.step_header _ _ _ _).trans (headerNext_ends _)
  have h5 : (s.step c).checksum.delay.regs.header = _ :=
    (IpAddrChecksumDelay.step_header _ _ _ _ _).trans (headerNext_ends _)
  have h6 : (s.step c).drop.drop_packets1.regs.header = _ :=
    (DropPackets1.step_header _ _ _ _ _ _ _).trans (headerNext_ends _)
  have h8 : (s.step c).lookup.dest_ip1.regs.header = _ := LookupPipe.dest_ip1_header _ _ _ _ _ _
  have h9 : (s.step c).lookup.dest_ip2.regs.header = _ := LookupPipe.dest_ip2_header _ _ _ _ _ _
  have h10 : (s.step c).lookup.lpm1.regs.header = _ := LookupPipe.lpm1_header _ _ _ _ _ _ h.lookup
  have h11 : (s.step c).lookup.lpm2.regs.header = _ := LookupPipe.lpm2_header _ _ _ _ _ _ h.lookup
  have h12 : (s.step c).lookup.lpm3.regs.header = _ := LookupPipe.lpm3_header _ _ _ _ _ _ h.lookup
  have h13 : (s.step c).arp.arp1.regs.state = _ := ArpPipe.arp1_state _ _ _ _ _ _ h.arp
  have h14 : (s.step c).arp.arp2.regs.state = _ := ArpPipe.arp2_state _ _ _ _ _ _ h.arp
  have h15 : (s.step c).arp.arp3.regs.state = _ := ArpPipe.arp3_state _ _ _ _ _ _ h.arp
  have hid : ∀ b : Beat, (id b).tlast = b.tlast := fun _ => rfl
  constructor
  · exact wellFormed_step h.wf c
  · exact LookupPipe.flagged_step _ _ _ _ _ _ h.lookup
  · exact ArpPipe.flagged_step _ _ _ _ _ _ h.arp
  · rw [h1]
    exact ends_tick h.wf.checksum1 h.checksum1
  · rw [h2]
    exact chain_tick h.wf.checksum2 h.checksum2 hid h1 _ _
  · rw [h2a]
    exact chain_tick h.wf.checksum2a h.checksum2a hid h2 _ _
  · rw [h3]
    exact chain_tick h.wf.checksum3 h.checksum3 hid h2a _ _
  · rw [h5]
    exact chain_tick h.wf.delay h.delay hid h3 _ _
  · rw [h6]
    exact chain_tick h.wf.drop_packets1 h.drop_packets1 hid h5 _ _
  · exact DropPackets2.step_header h.drop_packets2 _ _
  · rw [h9]
    exact chain_tick h.wf.dest_ip2 h.dest_ip2 hid h8 _ _
  · rw [h10, inPacket_flag]
    exact chain_tick h.wf.lpm1 h.lpm1 (DestIp2.out_tlast _ _) h9 _ _
  · rw [h10, h11, inPacket_flag, inPacket_flag]
    exact chain_tick h.wf.lpm2 h.lpm2 hid rfl _ _
  · rw [h11, h12, inPacket_flag, inPacket_flag]
    exact chain_tick h.wf.lpm3 h.lpm3 hid rfl _ _
  · rw [h12, h13, inPacket_flag, inPacket_flag]
    exact chain_tick h.wf.arp1 h.arp1 (Lpm3.out_tlast _ _) rfl _ _
  · rw [h13, h14, inPacket_flag, inPacket_flag]
    exact chain_tick h.wf.arp2 h.arp2 hid rfl _ _
  · rw [h14, h15, inPacket_flag, inPacket_flag]
    exact chain_tick h.wf.arp3 h.arp3 hid rfl _ _

theorem chained_run : ∀ (cs : List Cycle) {g : Bool} {s : Pipeline}, s.Chained g →
    (s.run cs).Chained (ends g (s.inputs cs))
  | [], _, _, h => h
  | c :: cs, g, s, h => by
    have ih := chained_run cs (chained_step h c)
    rw [← ends_append] at ih
    exact ih

theorem reset_chained (word : Beat) (low_ip_addr : BitVec 16) (ip_addr1 ip_addr2 : BitVec 32) :
    (reset word low_ip_addr ip_addr1 ip_addr2).Chained false where
  wf := reset_wellFormed word low_ip_addr ip_addr1 ip_addr2
  lookup := (LookupPipe.reset_idle word ip_addr1 ip_addr2).flagged
  arp := ⟨rfl, rfl, rfl⟩
  checksum1 := rfl
  checksum2 := rfl
  checksum2a := rfl
  checksum3 := rfl
  delay := rfl
  drop_packets1 := rfl
  drop_packets2 := rfl
  dest_ip2 := rfl
  lpm1 := rfl
  lpm2 := rfl
  lpm3 := rfl
  arp1 := rfl
  arp2 := rfl
  arp3 := rfl

/-! ## Empty states -/

/-- Between packets; `g` is the flag of the stages behind `drop_packets2`. -/
structure Ready (g : Bool) (s : Pipeline) : Prop where
  idle : s.Idle
  drop_packets2 : s.drop.drop_packets2.regs.header = false
  dest_ip1 : s.lookup.dest_ip1.regs.header = g
  dest_ip2 : s.lookup.dest_ip2.regs.header = g
  lpm1 : s.lookup.lpm1.regs.header = flag 2 g
  lpm2 : s.lookup.lpm2.regs.header = flag 2 g
  lpm3 : s.lookup.lpm3.regs.header = flag 1 g
  arp1 : s.arp.arp1.regs.state = flag 2 g
  arp2 : s.arp.arp2.regs.state = flag 2 g
  arp3 : s.arp.arp3.regs.state = flag 2 g

/-- A state that the pipeline reaches after reset, when all packets that entered have ended and no
beat is on its way. -/
def Reached (s : Pipeline) : Prop :=
  ∃ word low_ip_addr ip_addr1 ip_addr2 cs,
    s = (reset word low_ip_addr ip_addr1 ip_addr2).run cs ∧
      ends false ((reset word low_ip_addr ip_addr1 ip_addr2).inputs cs) = false ∧ s.Drained

theorem Chained.ready {s : Pipeline} (h : s.Chained false) (hd : s.Drained) :
    s.Ready s.lookup.dest_ip1.regs.header := by
  have hempty : ∀ {k : Nat} {ρ : Type} {t : Stage k ρ} {g header : Bool}, g = ends header t.contents →
      t.contents = [] → header = g := by
    intro k ρ t g header hg hc
    rw [hg, hc, ends_nil]
  have h1 := hempty h.checksum1 hd.checksum1
  have h2 := (hempty h.checksum2 hd.checksum2).trans h1
  have h2a := (hempty h.checksum2a hd.checksum2a).trans h2
  have h3 := (hempty h.checksum3 hd.checksum3).trans h2a
  have h5 := (hempty h.delay hd.delay).trans h3
  have h6 := (hempty h.drop_packets1 hd.drop_packets1).trans h5
  have h9 := hempty h.dest_ip2 hd.dest_ip2
  have h10 := (hempty h.lpm1 hd.lpm1).trans h9
  have h11 := (hempty h.lpm2 hd.lpm2).trans h10
  have h12 := (hempty h.lpm3 hd.lpm3).trans h11
  have h13 := (hempty h.arp1 hd.arp1).trans h12
  have h14 := (hempty h.arp2 hd.arp2).trans h13
  have h15 := (hempty h.arp3 hd.arp3).trans h14
  exact
    { idle := ⟨h.wf, hd, h1, h2, h2a, h3, h5, h6⟩
      drop_packets2 := h.drop_packets2
      dest_ip1 := rfl
      dest_ip2 := h9
      lpm1 := h10 ▸ h.lookup.lpm1
      lpm2 := h11 ▸ h.lookup.lpm2
      lpm3 := h12 ▸ h.lookup.lpm3
      arp1 := h13 ▸ h.arp.arp1
      arp2 := h14 ▸ h.arp.arp2
      arp3 := h15 ▸ h.arp.arp3 }

/-- **The flags in every empty state that is reached.** -/
theorem Reached.ready {s : Pipeline} (h : s.Reached) : s.Ready s.lookup.dest_ip1.regs.header := by
  obtain ⟨word, low_ip_addr, ip_addr1, ip_addr2, cs, rfl, hends, hd⟩ := h
  have hc := chained_run cs (reset_chained word low_ip_addr ip_addr1 ip_addr2)
  rw [hends] at hc
  exact hc.ready hd

end Pipeline

end BirRouter
