import BirRouter.OutputPort.DropStages

/-!
# The MAC filter

`drop_packets1` compares the destination address of a packet with the address registers of the port
the packet came from.  The tests for the last two ports read other bits than those of ports 2 and 3,
so that port 2 is not filtered at all and port 3 is filtered with the address of port 2.
-/

set_option autoImplicit false

namespace BirRouter

/-- The address configured for a port. -/
def Macs.mac (m : Macs) : Fin 4 → BitVec 48
  | 0 => m.mac0
  | 1 => m.mac1
  | 2 => m.mac2
  | 3 => m.mac3

/-- The address that packets from a port are really compared with. -/
def Macs.tested (m : Macs) : Fin 4 → Option (BitVec 48)
  | 0 => some m.mac0
  | 1 => some m.mac1
  | 2 => none
  | 3 => some m.mac2

namespace DropPackets1

variable {m : Macs} {b : Beat} {p : Fin 4}

theorem macArray_ne_zero (h : b.FromPort p) :
    macArray m b ≠ 0 ↔ (m.tested p).any b.wrongMac = true := by
  unfold macArray
  rw [h.src_eight, h.src (by decide), h.src (by decide), h.src (by decide)]
  clear h
  match p with
  | 0 => cases hw : b.wrongMac m.mac0 <;> simp [Macs.tested, hw]
  | 1 => cases hw : b.wrongMac m.mac1 <;> simp [Macs.tested, hw]
  | 2 => simp [Macs.tested]
  | 3 =>
    rw [show ((3 : Fin 4) : Nat) = 3 from rfl]
    cases hw : b.wrongMac m.mac2 <;> simp [Macs.tested, hw]

/-- Without the checksum test only the MAC filter drops. -/
theorem dropArray_override (h : b.FromPort p) (checksum : BitVec 16) :
    dropArray true m checksum b ≠ 0 ↔ (m.tested p).any b.wrongMac = true := by
  rw [← macArray_ne_zero h, Ne, Ne, dropArray_eq_zero]
  simp [h.fromPhy]

end DropPackets1

/-- What the filter should do with a packet from port `p`: mark it and count it exactly if its
destination address is neither the one of the port nor the broadcast address. -/
def Filtered (p : Fin 4) (m : Macs) (beat : Beat) (before after : DropPackets1) : Prop :=
  (after.drop_array ≠ 0 ↔ beat.dstMac ≠ m.mac p ∧ beat.dstMac ≠ 0xFFFFFFFFFFFF) ∧
    after.wrong_mac_count
      = if beat.dstMac ≠ m.mac p ∧ beat.dstMac ≠ 0xFFFFFFFFFFFF then before.wrong_mac_count + 1
        else before.wrong_mac_count

instance (p : Fin 4) (m : Macs) (beat : Beat) (before after : DropPackets1) :
    Decidable (Filtered p m beat before after) := inferInstanceAs (Decidable (_ ∧ _))

theorem wrongMac_iff {b : Beat} {mac : BitVec 48} :
    b.wrongMac mac = true ↔ b.dstMac ≠ mac ∧ b.dstMac ≠ 0xFFFFFFFFFFFF := by
  simp [Beat.wrongMac]

/-- A filter that marks and counts the packets that `w` says does what it should exactly if `w` is
the right test. -/
theorem filtered_iff {p : Fin 4} {m : Macs} {beat : Beat} {before after : DropPackets1} {w : Bool}
    (hd : after.drop_array ≠ 0 ↔ w = true)
    (hc : after.wrong_mac_count
      = if w then before.wrong_mac_count + 1 else before.wrong_mac_count) :
    Filtered p m beat before after ↔ w = beat.wrongMac (m.mac p) := by
  unfold Filtered
  simp only [hd, hc, ← wrongMac_iff, Bool.coe_iff_coe]
  constructor
  · intro h
    exact h.1
  · intro h
    rw [h]
    exact ⟨rfl, rfl⟩

/-- **The MAC filter is right for ports 0 and 1, for port 2 only if nothing is to be filtered, and for
port 3 only if the address registers of ports 2 and 3 filter the packet alike.** -/
theorem mac_filter_iff (s : DropPipe) (s_axis : Option Beat) (m_tready : Bool) (reset : BitVec 32)
    (m : Macs) (low_ip_addr checksum : BitVec 16) (p : Fin 4)
    (hheader : s.drop_packets1.regs.header = false)
    (hfirst : (s.drop_packets1.axis s.drop_packets2.tready).first = true)
    (hport : s.drop_packets1.beat.FromPort p)
    (hoverride : s.drop_packets1.regs.checksum_override = true) (hreset : reset ≠ 1) :
    Filtered p m s.drop_packets1.beat s.drop_packets1.regs
        (s.step s_axis m_tready reset m low_ip_addr checksum).drop_packets1.regs ↔
      p = 0 ∨ p = 1 ∨ p = 2 ∧ s.drop_packets1.beat.wrongMac m.mac2 = false ∨
        p = 3 ∧ s.drop_packets1.beat.wrongMac m.mac2 = s.drop_packets1.beat.wrongMac m.mac3 := by
  have hstarts : s.drop_packets1.regs.starts (s.drop_packets1.axis s.drop_packets2.tready) = true := by
    simp [DropPackets1.starts, hheader, hfirst]
  have hd : (s.step s_axis m_tready reset m low_ip_addr checksum).drop_packets1.regs.drop_array ≠ 0 ↔
      (m.tested p).any s.drop_packets1.beat.wrongMac = true := by
    show (DropPackets1.step _ _ _ _ _ _ _).drop_array ≠ 0 ↔ _
    rw [DropPackets1.step_drop_array, if_pos hstarts, hoverride]
    exact DropPackets1.dropArray_override hport checksum
  have hc : (s.step s_axis m_tready reset m low_ip_addr checksum).drop_packets1.regs.wrong_mac_count
      = if (m.tested p).any s.drop_packets1.beat.wrongMac then
          s.drop_packets1.regs.wrong_mac_count + 1
        else s.drop_packets1.regs.wrong_mac_count := by
    show (DropPackets1.step _ _ _ _ _ _ _).wrong_mac_count = _
    rw [DropPackets1.step_wrong_mac_count _ _ _ _ _ _ _ hreset, hstarts, hport.fromPhy]
    simp only [DropPackets1.macArray_ne_zero hport, Bool.decide_eq_true, Bool.true_and]
  rw [filtered_iff hd hc]
  have hall : ∀ p : Fin 4, p = 0 ∨ p = 1 ∨ p = 2 ∨ p = 3 := by decide
  rcases hall p with rfl | rfl | rfl | rfl
  · simp [Macs.tested, Macs.mac]
  · simp [Macs.tested, Macs.mac]
  · simp only [Macs.tested, Macs.mac, Option.any_none]
    simp [eq_comm (a := false)]
  · simp [Macs.tested, Macs.mac]

/-- The drop stages after reset with a packet's first beat at the output of the first FIFO. -/
def holding (beat : Beat) : DropPipe :=
  (((DropPipe.reset beat).step (some beat) true 0 portMacs 0 0).step none true 0 portMacs 0 0).step
    none true 0 portMacs 0 0

theorem mac_filter_iff_port_one :
    Filtered 1 portMacs (beatFor 9 4) (holding (beatFor 9 4)).drop_packets1.regs
      ((holding (beatFor 9 4)).step none true 0 portMacs 0 0).drop_packets1.regs :=
  (mac_filter_iff (holding (beatFor 9 4)) none true 0 portMacs 0 0 1 (by decide +kernel)
    (by decide +kernel) (by decide +kernel) (by decide +kernel) (by decide)).2 (.inr (.inl rfl))

/-- A packet from port 2 for a foreign address passes, and one from port 3 for the address of port 3
is dropped. -/
theorem mac_filter_wrong_port :
    ((holding (beatFor 9 0x10)).drop_packets1.beat.FromPort 2 ∧
      ¬ Filtered 2 portMacs (beatFor 9 0x10) (holding (beatFor 9 0x10)).drop_packets1.regs
        ((holding (beatFor 9 0x10)).step none true 0 portMacs 0 0).drop_packets1.regs) ∧
    (holding (beatFor 4 0x40)).drop_packets1.beat.FromPort 3 ∧
      ¬ Filtered 3 portMacs (beatFor 4 0x40) (holding (beatFor 4 0x40)).drop_packets1.regs
        ((holding (beatFor 4 0x40)).step none true 0 portMacs 0 0).drop_packets1.regs := by
  decide +kernel

end BirRouter
