import BirRouter.OutputPort.Reached
import Mathlib.Data.List.Induction

/-!
# One packet in the pipeline

A packet that enters an empty pipeline, with nothing behind it, however its beats are spread and
however long the output is not ready.

* `Passing` — how many of the packet's beats have entered and left a stage, and with them the header
  flag of the stage;
* `InFlight` — the same for all stages, with the packet as the stages have changed it
  (`Pipeline.filtered`, `Pipeline.routed`, `Pipeline.addressed`);
* `InFlight.run` — the rule by which every other fact about the packet is proved;
* `InFlight.ready` — behind the packet the pipeline is ready for the next one;
* `InFlight.outputs_eq` — the packet leaves with its first beat changed, unless it is dropped.
-/

set_option autoImplicit false

namespace BirRouter

open Clocked Stage

/-! ## A packet in a stage -/

theorem Packet.ends_take (p : Packet) (g : Bool) {o : Nat} (ho : 0 < o) (hle : o ≤ p.beats.length) :
    ends g (p.beats.take o) = decide (o < p.beats.length) := by
  obtain ⟨j, rfl⟩ : ∃ j, o = j + 1 := ⟨o - 1, by omega⟩
  rw [List.take_add_one, List.getElem?_eq_getElem (by omega), Option.toList_some, ends_append]
  show (!p.beats[j].tlast) = _
  rw [p.tlast_getElem (by omega), ← decide_not, decide_eq_decide]
  omega

/-- Of the packet `p`, `i` beats have entered the stage and `o` have left it; the header flag was `g`
before the packet. -/
structure Passing {k : Nat} {ρ : Type} (p : Packet) (g : Bool) (i o : Nat) (header : Bool)
    (s : Stage k ρ) : Prop where
  carries : Carries p.beats i o s
  header_eq : header = ends g (p.beats.take o)

namespace Passing

variable {k : Nat} {ρ : Type} {p : Packet} {g header : Bool} {i o : Nat} {s : Stage k ρ}
  {m_tready : Bool}

theorem empty (hw : s.WellFormed) (hc : s.contents = []) (p : Packet) (hg : header = g) :
    Passing p g 0 0 header s :=
  ⟨Carries.empty hw hc p.beats, hg⟩

/-- The stage acts on the packet's first beat, unless its header flag was set before. -/
theorem starts (h : Passing p g i o header s) :
    (!header && (s.axis m_tready).first) = (!g && decide (o = 0) && (s.popped m_tready).isSome) := by
  rw [Axis.first_eq]
  cases hp : s.popped m_tready with
  | none => simp [popped_eq_none.1 hp]
  | some b =>
    obtain ⟨ht, rfl⟩ := popped_eq_some.1 hp
    obtain ⟨hlt, hb⟩ := h.carries.popped hp
    have hle := h.carries.le_length
    rw [ht, h.header_eq]
    by_cases h0 : o = 0
    · subst h0
      have hlast : s.beat.tlast = false := by
        rw [← Option.some.inj hb]
        exact p.first_tlast
      have htl : (s.axis m_tready).tlast = false := hlast
      simp [htl, ends]
    · rw [p.ends_take g (Nat.pos_of_ne_zero h0) (by omega)]
      have : o < p.beats.length := by omega
      simp [this, h0]

/-- The beat on which the stage acts. -/
theorem beat_of_starts (h : Passing p g i o header s)
    (hs : (!header && (s.axis m_tready).first) = true) : s.beat = p.first := by
  rw [h.starts, Bool.and_eq_true, Bool.and_eq_true, decide_eq_true_eq] at hs
  obtain ⟨⟨-, rfl⟩, hsome⟩ := hs
  obtain ⟨b, hb⟩ := Option.isSome_iff_exists.1 hsome
  rw [(popped_eq_some.1 hb).2]
  exact (Option.some.inj (h.carries.popped hb).2).symm

theorem not_starts (h : Passing p g i o header s) (ho : 0 < o) :
    (!header && (s.axis m_tready).first) = false := by
  rw [h.starts, decide_eq_false (Nat.pos_iff_ne_zero.1 ho), Bool.and_false, Bool.false_and]

/-- A beat that has left was the first one, which the stage acts on, or came later. -/
theorem loads_or_keeps (h : Passing p false i o header s)
    (hpos : 0 < o + (s.popped m_tready).toList.length) :
    0 < i ∧ ((!header && (s.axis m_tready).first) = true ∧ s.beat = p.first ∨
      (!header && (s.axis m_tready).first) = false ∧ 0 < o) := by
  refine ⟨Nat.lt_of_lt_of_le hpos (h.carries.popped_le m_tready), ?_⟩
  rcases Nat.eq_zero_or_pos o with rfl | h0
  · have hst : (!header && (s.axis m_tready).first) = true := by
      rw [h.starts]
      cases hp : s.popped m_tready with
      | none =>
        rw [hp] at hpos
        exact absurd hpos (Nat.lt_irrefl 0)
      | some b => rfl
    exact .inl ⟨hst, h.beat_of_starts hst⟩
  · exact .inr ⟨h.not_starts h0, h0⟩

theorem headerNext_eq (h : Passing p g i o header s) :
    headerNext header (s.axis m_tready)
      = ends g (p.beats.take (o + (s.popped m_tready).toList.length)) := by
  rw [headerNext_ends, h.header_eq, ← ends_append]
  cases hx : s.popped m_tready with
  | none => simp
  | some b =>
    rw [Option.toList_some, List.length_singleton, List.take_add_one, (h.carries.popped hx).2]
    rfl

theorem tick (h : Passing p g i o header s) {s_axis : Option Beat} (m_tready : Bool) (regs : ρ)
    (hp : ∀ b, s.pushed s_axis = some b → p.beats[i]? = some b) {header' : Bool}
    (hh : header' = headerNext header (s.axis m_tready)) :
    Passing p g (i + (s.pushed s_axis).toList.length) (o + (s.popped m_tready).toList.length)
      header' (s.tick s_axis m_tready regs) :=
  ⟨h.carries.tick m_tready regs hp, hh.trans h.headerNext_eq⟩

/-- The flag behind the packet. -/
theorem header_done (h : Passing p g i o header s) (ho : o = p.beats.length) : header = false := by
  have htwo := p.two_le_length
  rw [h.header_eq, p.ends_take g (by omega) (by omega), ho, decide_eq_false_iff_not]
  exact Nat.lt_irrefl _

/-- The flag behind a packet that may have been dropped. -/
theorem header_after (h : Passing p g i o header s) {dropped : Prop} [Decidable dropped]
    (ho : o = if dropped then p.beats.length else 0) : header = if dropped then false else g := by
  split at ho
  · rw [if_pos ‹_›]
    exact h.header_done ho
  · rw [if_neg ‹_›, h.header_eq, ho]
    rfl

/-- What a stage does to the packet, if it acts on the beat that finds its header flag low. -/
def Acts (g : Bool) (f : Beat → Beat) (hf : ∀ b, (f b).tlast = b.tlast) (p : Packet) : Packet :=
  if g then p else p.mapFirst f hf

theorem length_acts (g : Bool) (f : Beat → Beat) (hf : ∀ b, (f b).tlast = b.tlast) (p : Packet) :
    (Acts g f hf p).beats.length = p.beats.length := by
  unfold Acts
  split
  · rfl
  · rw [Packet.length_beats, Packet.length_beats]
    rfl

theorem out (h : Passing p g i o header s) {b : Beat} (hb : s.popped m_tready = some b)
    (f : Beat → Beat) (hf : ∀ b, (f b).tlast = b.tlast) :
    (Acts g f hf p).beats[o]? = some (if !header && !b.tlast then f b else b) := by
  obtain ⟨hlt, hget⟩ := h.carries.popped hb
  have hle := h.carries.le_length
  rw [h.header_eq]
  unfold Acts
  cases o with
  | zero =>
    obtain rfl : p.first = b := Option.some.inj hget
    cases g <;> simp [ends, p.first_tlast, Packet.mapFirst, Packet.beats]
  | succ j =>
    rw [p.ends_take g (Nat.succ_pos j) (by omega), decide_eq_true (by omega)]
    cases g
    · exact hget
    · exact hget

variable {k' : Nat} {ρ' : Type} {t : Stage k' ρ'} {q : Packet} {g' header' : Bool} {o' : Nat}

/-- The next stage is given what this one hands on. -/
theorem tick_offer (ht : Passing q g' o o' header' t) (f : Beat → Beat)
    (hout : ∀ b, s.popped t.tready = some b → q.beats[o]? = some (f b)) (m_tready : Bool) (regs : ρ')
    {header'' : Bool} (hh : header'' = headerNext header' (t.axis m_tready)) :
    Passing q g' (o + (s.popped t.tready).toList.length) (o' + (t.popped m_tready).toList.length)
      header'' (t.tick (s.offer f) m_tready regs) :=
  ⟨ht.carries.tick_offer f hout m_tready regs, hh.trans ht.headerNext_eq⟩

/-- A packet that has not entered yet may be any. -/
theorem transport (h : Passing p g i o header s) (hpq : 0 < i → p = q) : Passing q g i o header s := by
  rcases Nat.eq_zero_or_pos i with rfl | hi
  · obtain rfl : o = 0 := Nat.le_zero.1 h.carries.le
    refine ⟨⟨h.carries.wf, ?_, Nat.le_refl 0, Nat.zero_le _⟩, h.header_eq⟩
    rw [h.carries.contents]
    simp
  · exact hpq hi ▸ h

end Passing

/-! ## A packet in the pipeline -/

namespace Pipeline

/-- The beat that enters the pipeline (0) or leaves its `n`-th stage. -/
def handed (s : Pipeline) (c : Cycle) : Nat → Option Beat
  | 0 => s.accepted c
  | 1 => s.checksum.checksum1.popped s.checksum.checksum2.tready
  | 2 => s.checksum.checksum2.popped s.checksum.checksum2a.tready
  | 3 => s.checksum.checksum2a.popped s.checksum.checksum3.tready
  | 4 => s.checksum.checksum3.popped s.checksum.delay.tready
  | 5 => s.checksum.delay.popped s.drop.drop_packets1.tready
  | 6 => s.drop.drop_packets1.popped s.drop.drop_packets2.tready
  | 7 => s.drop.drop_packets2.popped s.lookup.dest_ip1.tready
  | 8 => s.lookup.dest_ip1.popped s.lookup.dest_ip2.tready
  | 9 => s.lookup.dest_ip2.popped s.lookup.lpm1.tready
  | 10 => s.lookup.lpm1.popped s.lookup.lpm2.tready
  | 11 => s.lookup.lpm2.popped s.lookup.lpm3.tready
  | 12 => s.lookup.lpm3.popped s.arp.arp1.tready
  | 13 => s.arp.arp1.popped s.arp.arp2.tready
  | 14 => s.arp.arp2.popped s.arp.arp3.tready
  | 15 => s.arp.arp3.popped s.arp.arp4.tready
  | 16 => s.arp.arp4.popped c.m_tready
  | _ => none

/-- How many beats have left each stage, after another cycle. -/
def advance (s : Pipeline) (c : Cycle) (o : Nat → Nat) (n : Nat) : Nat :=
  o n + (s.handed c n).toList.length

/-- The packet behind `dest_ip2`. -/
def filtered (s : Pipeline) (g : Bool) (p : Packet) : Packet :=
  Passing.Acts g (DestIp2.onFirst s.lookup.dest_ip1.regs.cpu_hit_array) (DestIp2.onFirst_tlast _) p

/-- The packet behind `lpm3`. -/
def routed (s : Pipeline) (g : Bool) (p : Packet) : Packet :=
  Passing.Acts g (Lpm3.onFirst s.lookup.lpm2.regs.lpm_hit) (Lpm3.onFirst_tlast _) (s.filtered g p)

/-- The packet behind `arp3`. -/
def addressed (s : Pipeline) (m : Macs) (g : Bool) (p : Packet) : Packet :=
  Passing.Acts g (Arp3.onFirst m s.arp.arp2.regs) (Arp3.onFirst_tlast m _) (s.routed g p)

end Pipeline

/-- The packet `p` and nothing else is in the pipeline, `o n` of its beats having left the `n`-th stage.
The header flags of the stages behind `drop_packets2` were `g` before the packet. -/
structure InFlight (p : Packet) (g : Bool) (o : Nat → Nat) (s : Pipeline) : Prop where
  lookup : s.lookup.Flagged
  arp : s.arp.Flagged
  drop2_header : s.drop.drop_packets2.regs.header = false
  checksum1 : Passing p false (o 0) (o 1) s.checksum.checksum1.regs.header s.checksum.checksum1
  checksum2 : Passing p false (o 1) (o 2) s.checksum.checksum2.regs.header s.checksum.checksum2
  checksum2a : Passing p false (o 2) (o 3) s.checksum.checksum2a.regs.header s.checksum.checksum2a
  checksum3 : Passing p false (o 3) (o 4) s.checksum.checksum3.regs.header s.checksum.checksum3
  delay : Passing p false (o 4) (o 5) s.checksum.delay.regs.header s.checksum.delay
  drop_packets1 : Passing p false (o 5) (o 6) s.drop.drop_packets1.regs.header s.drop.drop_packets1
  drop_packets2 : Carries p.beats (o 6) (o 7) s.drop.drop_packets2
  dest_ip1 : Passing p g (if s.drop.dropArray = 0 then o 7 else 0) (o 8)
    s.lookup.dest_ip1.regs.header s.lookup.dest_ip1
  dest_ip2 : Passing p g (o 8) (o 9) s.lookup.dest_ip2.regs.header s.lookup.dest_ip2
  lpm1 : Passing (s.filtered g p) g (o 9) (o 10) (inPacket s.lookup.lpm1.regs.header) s.lookup.lpm1
  lpm2 : Passing (s.filtered g p) g (o 10) (o 11) (inPacket s.lookup.lpm2.regs.header) s.lookup.lpm2
  lpm3 : Passing (s.filtered g p) g (o 11) (o 12) (inPacket s.lookup.lpm3.regs.header) s.lookup.lpm3
  arp1 : Passing (s.routed g p) g (o 12) (o 13) (inPacket s.arp.arp1.regs.state) s.arp.arp1
  arp2 : Passing (s.routed g p) g (o 13) (o 14) (inPacket s.arp.arp2.regs.state) s.arp.arp2
  arp3 : Passing (s.routed g p) g (o 14) (o 15) (inPacket s.arp.arp3.regs.state) s.arp.arp3

namespace InFlight

variable {p : Packet} {g : Bool} {o : Nat → Nat} {s : Pipeline}

/-- What has left a stage had entered it before the cycle. -/
theorem advance_succ_le (h : InFlight p g o s) (c : Cycle) :
    ∀ n, n < 15 → s.advance c o (n + 1) ≤ o n
  | 0, _ => h.checksum1.carries.popped_le _
  | 1, _ => h.checksum2.carries.popped_le _
  | 2, _ => h.checksum2a.carries.popped_le _
  | 3, _ => h.checksum3.carries.popped_le _
  | 4, _ => h.delay.carries.popped_le _
  | 5, _ => h.drop_packets1.carries.popped_le _
  | 6, _ => h.drop_packets2.popped_le _
  | 7, _ => by
    have h8 : s.advance c o 8 ≤ if s.drop.dropArray = 0 then o 7 else 0 :=
      h.dest_ip1.carries.popped_le _
    split at h8
    · exact h8
    · exact Nat.le_trans h8 (Nat.zero_le _)
  | 8, _ => h.dest_ip2.carries.popped_le _
  | 9, _ => h.lpm1.carries.popped_le _
  | 10, _ => h.lpm2.carries.popped_le _
  | 11, _ => h.lpm3.carries.popped_le _
  | 12, _ => h.arp1.carries.popped_le _
  | 13, _ => h.arp2.carries.popped_le _
  | 14, _ => h.arp3.carries.popped_le _
  | n + 15, hn => absurd hn (by omega)

theorem advance_le (h : InFlight p g o s) (c : Cycle) {m n : Nat} (hmn : m < n ∧ n ≤ 15) :
    s.advance c o n ≤ o m := by
  induction n with
  | zero => omega
  | succ n ih =>
    have hstep := h.advance_succ_le c n (by omega)
    have hgrow : o n ≤ s.advance c o n := Nat.le_add_right _ _
    rcases Nat.lt_succ_iff_lt_or_eq.1 hmn.1 with hlt | rfl
    · have hle := ih ⟨hlt, by omega⟩
      omega
    · exact hstep

/-- A packet that has begun to leave a stage had begun to leave the stages before it. -/
theorem passed (h : InFlight p g o s) (c : Cycle) {m n : Nat} (hmn : m < n ∧ n ≤ 15)
    (hpos : 0 < s.advance c o n) : 0 < o m :=
  Nat.lt_of_lt_of_le hpos (h.advance_le c hmn)

theorem passed_before (h : InFlight p g o s) (c : Cycle) {m n : Nat} (hmn : m < n ∧ n ≤ 15)
    (hpos : 0 < o n) : 0 < o m :=
  h.passed c hmn (Nat.lt_of_lt_of_le hpos (Nat.le_add_right _ _))

/-! What a stage has computed stays, once it has handed on the packet's first beat. -/

theorem dropArray_step (h : InFlight p g o s) (c : Cycle) (ho : 0 < o 6) :
    (s.step c).drop.dropArray = s.drop.dropArray := by
  refine (DropPackets1.step_drop_array _ _ _ _ _ _ _).trans ?_
  unfold DropPackets1.starts
  rw [h.drop_packets1.not_starts ho]
  rfl

theorem cpu_hit_array_step (h : InFlight p g o s) (c : Cycle) (ho : 0 < o 8) :
    (s.step c).lookup.dest_ip1.regs.cpu_hit_array = s.lookup.dest_ip1.regs.cpu_hit_array := by
  refine (DestIp1.step_cpu_hit_array _ _ _ _ _ _).trans ?_
  rw [h.dest_ip1.not_starts ho]
  rfl

theorem lpm_hit_step (h : InFlight p g o s) (c : Cycle) (ho : 0 < o 11) :
    (s.step c).lookup.lpm2.regs.lpm_hit = s.lookup.lpm2.regs.lpm_hit := by
  show (Lpm2.step _ _ _ _).lpm_hit = _
  rw [Lpm2.step_eq _ _ h.lookup.lpm2, h.lpm2.not_starts ho]
  rfl

theorem arp_hit_step (h : InFlight p g o s) (c : Cycle) (ho : 0 < o 14) :
    (s.step c).arp.arp2.regs.arp_hit = s.arp.arp2.regs.arp_hit := by
  show (Arp2.step _ _ _ _ _).arp_hit = _
  rw [Arp2.step_eq _ _ _ h.arp.arp2, h.arp2.not_starts ho]
  rfl

theorem filtered_step (h : InFlight p g o s) (c : Cycle) (ho : 0 < o 8) :
    (s.step c).filtered g p = s.filtered g p := by
  unfold Pipeline.filtered
  simp only [h.cpu_hit_array_step c ho]

theorem routed_step (h : InFlight p g o s) (c : Cycle) (ho : 0 < o 11) :
    (s.step c).routed g p = s.routed g p := by
  unfold Pipeline.routed
  simp only [h.lpm_hit_step c ho, h.filtered_step c (h.passed_before c (by decide) ho)]

/-- What reaches `dest_ip1`. -/
theorem pushed_drop (h : InFlight p g o s) (c : Cycle) :
    (if s.drop.dropArray = 0 then o 7 else 0) + (s.lookup.dest_ip1.pushed s.drop.offer).toList.length
      = if (s.step c).drop.dropArray = 0 then s.advance c o 7 else 0 := by
  have h7 : s.advance c o 7 ≤ o 6 := h.advance_le c (by decide)
  have hsame : (if (s.step c).drop.dropArray = 0 then s.advance c o 7 else 0)
      = if s.drop.dropArray = 0 then s.advance c o 7 else 0 := by
    rcases Nat.eq_zero_or_pos (o 6) with h0 | h0
    · have hzero : s.advance c o 7 = 0 := by omega
      rw [hzero, ite_self, ite_self]
    · rw [h.dropArray_step c h0]
  rw [hsame]
  unfold DropPipe.offer
  by_cases hd : s.drop.dropArray = 0
  · rw [if_pos hd, if_pos hd, if_neg (not_not_intro hd), pushed_offer_id]
    rfl
  · rw [if_neg hd, if_neg hd, if_pos hd]
    simp [Stage.pushed]

theorem step (h : InFlight p g o s) {c : Cycle}
    (hin : ∀ b, s.accepted c = some b → p.beats[o 0]? = some b) :
    InFlight p g (s.advance c o) (s.step c) := by
  have hfiltered : 0 < o 8 → s.filtered g p = (s.step c).filtered g p :=
    fun h0 => (h.filtered_step c h0).symm
  have hrouted : 0 < o 11 → s.routed g p = (s.step c).routed g p :=
    fun h0 => (h.routed_step c h0).symm
  constructor
  · exact LookupPipe.flagged_step _ _ _ _ _ _ h.lookup
  · exact ArpPipe.flagged_step _ _ _ _ _ _ h.arp
  · exact DropPackets2.step_header h.drop2_header _ _
  · exact h.checksum1.tick _ _ hin (Checksum1.step_header _ _ _)
  · exact h.checksum2.tick_offer id (fun b hb => (h.checksum1.carries.popped hb).2) _ _ rfl
  · exact h.checksum2a.tick_offer id (fun b hb => (h.checksum2.carries.popped hb).2) _ _
      (Checksum2a.step_header _ _ _)
  · exact h.checksum3.tick_offer id (fun b hb => (h.checksum2a.carries.popped hb).2) _ _
      (Checksum3.step_header _ _ _ _)
  · exact h.delay.tick_offer id (fun b hb => (h.checksum3.carries.popped hb).2) _ _
      (IpAddrChecksumDelay.step_header _ _ _ _ _)
  · exact h.drop_packets1.tick_offer id (fun b hb => (h.delay.carries.popped hb).2) _ _
      (DropPackets1.step_header _ _ _ _ _ _ _)
  · exact h.drop_packets2.tick_offer id (fun b hb => (h.drop_packets1.carries.popped hb).2) _ _
  · rw [← h.pushed_drop c]
    refine h.dest_ip1.tick _ _ (fun b hb => ?_) (DestIp1.step_header _ _ _ _ _ _)
    unfold DropPipe.offer at hb
    by_cases hd : s.drop.dropArray = 0
    · rw [if_neg (not_not_intro hd), pushed_offer_id] at hb
      rw [if_pos hd]
      exact (h.drop_packets2.popped hb).2
    · rw [if_pos hd] at hb
      simp [Stage.pushed] at hb
  · exact h.dest_ip2.tick_offer id (fun b hb => (h.dest_ip1.carries.popped hb).2) _ _ rfl
  · refine (h.lpm1.tick_offer _ (fun b hb => h.dest_ip2.out hb _ _) _ _ ?_).transport ?_
    · exact (congrArg inPacket (Lpm1.step_header h.lookup.lpm1 _)).trans (inPacket_flag 1 _)
    · exact fun h0 => hfiltered (h.passed (n := 9) c (by decide) h0)
  · refine (h.lpm2.tick_offer id (fun b hb => (h.lpm1.carries.popped hb).2) _ _ ?_).transport ?_
    · exact (congrArg inPacket (Lpm2.step_header h.lookup.lpm2 _)).trans (inPacket_flag 1 _)
    · exact fun h0 => hfiltered (h.passed (n := 10) c (by decide) h0)
  · refine (h.lpm3.tick_offer id (fun b hb => (h.lpm2.carries.popped hb).2) _ _ ?_).transport ?_
    · exact (congrArg inPacket (Lpm3.clock_header h.lookup.lpm3 _ _)).trans (inPacket_flag 0 _)
    · exact fun h0 => hfiltered (h.passed (n := 11) c (by decide) h0)
  · refine (h.arp1.tick_offer _ (fun b hb => ?_) _ _ ?_).transport ?_
    · rw [Lpm3.out_eq h.lookup.lpm3]
      exact h.lpm3.out hb _ _
    · exact (congrArg inPacket (Arp1.step_state h.arp.arp1 _)).trans (inPacket_flag 1 _)
    · exact fun h0 => hrouted (h.passed (n := 12) c (by decide) h0)
  · refine (h.arp2.tick_offer id (fun b hb => (h.arp1.carries.popped hb).2) _ _ ?_).transport ?_
    · exact (congrArg inPacket (Arp2.step_state h.arp.arp2 _)).trans (inPacket_flag 1 _)
    · exact fun h0 => hrouted (h.passed (n := 13) c (by decide) h0)
  · refine (h.arp3.tick_offer id (fun b hb => (h.arp2.carries.popped hb).2) _ _ ?_).transport ?_
    · exact (congrArg inPacket (Arp3.step_state h.arp.arp3 _ _)).trans (inPacket_flag 1 _)
    · exact fun h0 => hrouted (h.passed (n := 14) c (by decide) h0)

/-- An empty pipeline, when the packet is to come. -/
theorem of_ready (h : s.Ready g) (p : Packet) : InFlight p g (fun _ => 0) s := by
  have hw := h.idle.wf
  have hd := h.idle.drained
  have hlookup : s.lookup.Flagged :=
    ⟨by rw [h.lpm1, inPacket_flag], by rw [h.lpm2, inPacket_flag], by rw [h.lpm3, inPacket_flag]⟩
  have harp : s.arp.Flagged :=
    ⟨by rw [h.arp1, inPacket_flag], by rw [h.arp2, inPacket_flag], by rw [h.arp3, inPacket_flag]⟩
  refine ⟨hlookup, harp, h.drop_packets2, .empty hw.checksum1 hd.checksum1 p h.idle.checksum1,
    .empty hw.checksum2 hd.checksum2 p h.idle.checksum2,
    .empty hw.checksum2a hd.checksum2a p h.idle.checksum2a,
    .empty hw.checksum3 hd.checksum3 p h.idle.checksum3, .empty hw.delay hd.delay p h.idle.delay,
    .empty hw.drop_packets1 hd.drop_packets1 p h.idle.drop_packets1,
    .empty hw.drop_packets2 hd.drop_packets2 p.beats, ?_,
    .empty hw.dest_ip2 hd.dest_ip2 p h.dest_ip2, .empty hw.lpm1 hd.lpm1 _ ?_,
    .empty hw.lpm2 hd.lpm2 _ ?_, .empty hw.lpm3 hd.lpm3 _ ?_, .empty hw.arp1 hd.arp1 _ ?_,
    .empty hw.arp2 hd.arp2 _ ?_, .empty hw.arp3 hd.arp3 _ ?_⟩
  · rw [ite_self]
    exact .empty hw.dest_ip1 hd.dest_ip1 p h.dest_ip1
  · rw [h.lpm1, inPacket_flag]
  · rw [h.lpm2, inPacket_flag]
  · rw [h.lpm3, inPacket_flag]
  · rw [h.arp1, inPacket_flag]
  · rw [h.arp2, inPacket_flag]
  · rw [h.arp3, inPacket_flag]

end InFlight

/-! ## Runs -/

/-- How many beats have entered (0) or left the `n`-th stage in a run. -/
def Pipeline.counts (s : Pipeline) (cs : List Cycle) (n : Nat) : Nat :=
  (collect Pipeline.step (fun s c => (s.handed c n).toList) s cs).length

theorem Pipeline.counts_append (s : Pipeline) (cs : List Cycle) (c : Cycle) :
    s.counts (cs ++ [c]) = (s.run cs).advance c (s.counts cs) := by
  funext n
  unfold counts advance
  rw [collect_append, List.length_append]
  simp only [collect, List.append_nil]
  rfl

theorem Pipeline.counts_zero (s : Pipeline) (cs : List Cycle) :
    s.counts cs 0 = (s.inputs cs).length := rfl

theorem Pipeline.run_append (s : Pipeline) (cs : List Cycle) (c : Cycle) :
    s.run (cs ++ [c]) = (s.run cs).step c := Clocked.run_append s cs [c]

theorem Pipeline.outputs_append (s : Pipeline) (cs : List Cycle) (c : Cycle) :
    s.outputs (cs ++ [c]) = s.outputs cs ++ ((s.run cs).emitted c).toList := by
  unfold outputs
  rw [collect_append]
  simp only [collect, List.append_nil]
  rfl

theorem Pipeline.inputs_append (s : Pipeline) (cs : List Cycle) (c : Cycle) :
    s.inputs (cs ++ [c]) = s.inputs cs ++ ((s.run cs).accepted c).toList := by
  unfold inputs
  rw [collect_append]
  simp only [collect, List.append_nil]
  rfl

/-- **The rule for a packet on its own**: what holds of an empty pipeline and is kept by every cycle
with the packet in flight holds after every run in which nothing but the packet enters.  `o` counts
the beats that have left the stages, `out` lists those that have left the pipeline. -/
theorem InFlight.run {p : Packet} {g : Bool} {s : Pipeline} (hs : s.Ready g)
    (J : (Nat → Nat) → List Beat → Pipeline → Prop) (ok : Cycle → Prop) (h0 : J (fun _ => 0) [] s)
    (hstep : ∀ o out t c, InFlight p g o t → InFlight p g (t.advance c o) (t.step c) → ok c →
      J o out t → J (t.advance c o) (out ++ (t.emitted c).toList) (t.step c))
    (cs : List Cycle) (hok : ∀ c ∈ cs, ok c) (hin : s.inputs cs <+: p.beats) :
    InFlight p g (s.counts cs) (s.run cs) ∧ J (s.counts cs) (s.outputs cs) (s.run cs) := by
  induction cs using List.reverseRecOn with
  | nil => exact ⟨.of_ready hs p, h0⟩
  | append_singleton cs c ih =>
    rw [Pipeline.inputs_append] at hin
    obtain ⟨hfl, hJ⟩ := ih (fun d hd => hok d (List.mem_append_left _ hd))
      ((List.prefix_append _ _).trans hin)
    have hnext : InFlight p g ((s.run cs).advance c (s.counts cs)) ((s.run cs).step c) := by
      refine hfl.step fun b hb => ?_
      obtain ⟨rest, hrest⟩ := hin
      rw [← hrest, hb, Pipeline.counts_zero]
      simp
    rw [Pipeline.counts_append, Pipeline.run_append, Pipeline.outputs_append]
    exact ⟨hnext, hstep _ _ _ _ hfl hnext (hok c (by simp)) hJ⟩

theorem InFlight.of_run {p : Packet} {g : Bool} {s : Pipeline} (hs : s.Ready g) {cs : List Cycle}
    (hin : s.inputs cs <+: p.beats) : InFlight p g (s.counts cs) (s.run cs) :=
  (InFlight.run hs (fun _ _ _ => True) (fun _ => True) trivial (fun _ _ _ _ _ _ _ _ => trivial) cs
    (fun _ _ => trivial) hin).1

/-! ## The packet has left -/

section

variable {p : Packet} {g : Bool} {o : Nat → Nat} {s : Pipeline}

/-- How far the packet has come when no beat is on its way: to the end, unless it is dropped. -/
theorem InFlight.counts_drained (h : InFlight p g o s) (hd : s.Drained) :
    (∀ n, n ≤ 7 → o n = o 0) ∧
      ∀ n, 8 ≤ n → n ≤ 15 → o n = if s.drop.dropArray = 0 then o 0 else 0 := by
  have h1 := h.checksum1.carries.eq_of_empty hd.checksum1
  have h2 := h.checksum2.carries.eq_of_empty hd.checksum2
  have h3 := h.checksum2a.carries.eq_of_empty hd.checksum2a
  have h4 := h.checksum3.carries.eq_of_empty hd.checksum3
  have h5 := h.delay.carries.eq_of_empty hd.delay
  have h6 := h.drop_packets1.carries.eq_of_empty hd.drop_packets1
  have h7 := h.drop_packets2.eq_of_empty hd.drop_packets2
  have h8 := h.dest_ip1.carries.eq_of_empty hd.dest_ip1
  have h9 := h.dest_ip2.carries.eq_of_empty hd.dest_ip2
  have h10 := h.lpm1.carries.eq_of_empty hd.lpm1
  have h11 := h.lpm2.carries.eq_of_empty hd.lpm2
  have h12 := h.lpm3.carries.eq_of_empty hd.lpm3
  have h13 := h.arp1.carries.eq_of_empty hd.arp1
  have h14 := h.arp2.carries.eq_of_empty hd.arp2
  have h15 := h.arp3.carries.eq_of_empty hd.arp3
  have hall : o 7 = o 0 := by omega
  rw [hall] at h8
  constructor
  · intro n hn
    obtain rfl | rfl | rfl | rfl | rfl | rfl | rfl | rfl :
        n = 0 ∨ n = 1 ∨ n = 2 ∨ n = 3 ∨ n = 4 ∨ n = 5 ∨ n = 6 ∨ n = 7 := by omega
    all_goals omega
  · intro n hn hn'
    obtain rfl | rfl | rfl | rfl | rfl | rfl | rfl | rfl :
        n = 8 ∨ n = 9 ∨ n = 10 ∨ n = 11 ∨ n = 12 ∨ n = 13 ∨ n = 14 ∨ n = 15 := by omega
    all_goals omega

/-- A packet that is not dropped has passed every stage. -/
theorem InFlight.counts_pos (h : InFlight p g o s) (hd : s.Drained) (h0 : o 0 = p.beats.length)
    (hkeep : s.drop.dropArray = 0) {n : Nat} (hn : n ≤ 15) : 0 < o n := by
  obtain ⟨hup, hdown⟩ := h.counts_drained hd
  have htwo := p.two_le_length
  rcases Nat.lt_or_ge n 8 with h8 | h8
  · have hup := hup n (by omega)
    omega
  · have hdown := hdown n h8 hn
    rw [if_pos hkeep] at hdown
    omega

theorem Pipeline.counts_pos (hs : s.Ready g) {cs : List Cycle} (hin : s.inputs cs = p.beats)
    (hd : (s.run cs).Drained) (hkeep : (s.run cs).drop.dropArray = 0) (n : Nat) (hn : n ≤ 15) :
    0 < s.counts cs n := by
  have hprefix : s.inputs cs <+: p.beats := hin ▸ List.prefix_rfl
  exact (InFlight.of_run hs hprefix).counts_pos hd (by rw [counts_zero, hin]) hkeep hn

/-- **The pipeline is ready for the next packet.** -/
theorem InFlight.ready (h : InFlight p g o s) (hw : s.WellFormed) (hd : s.Drained)
    (h0 : o 0 = p.beats.length) : s.Ready (if s.drop.dropArray = 0 then false else g) := by
  obtain ⟨hup, hdown⟩ := h.counts_drained hd
  rw [h0] at hup hdown
  have hlen1 : (s.filtered g p).beats.length = p.beats.length := Passing.length_acts _ _ _ _
  have hlen2 : (s.routed g p).beats.length = p.beats.length :=
    (Passing.length_acts _ _ _ _).trans hlen1
  have h1 := h.checksum1.header_done (hup 1 (by decide))
  have h2 := h.checksum2.header_done (hup 2 (by decide))
  have h2a := h.checksum2a.header_done (hup 3 (by decide))
  have h3 := h.checksum3.header_done (hup 4 (by decide))
  have h5 := h.delay.header_done (hup 5 (by decide))
  have h6 := h.drop_packets1.header_done (hup 6 (by decide))
  have h8 := h.dest_ip1.header_after (hdown 8 (by decide) (by decide))
  have h9 := h.dest_ip2.header_after (hdown 9 (by decide) (by decide))
  have h10 := h.lpm1.header_after (hlen1 ▸ hdown 10 (by decide) (by decide))
  have h11 := h.lpm2.header_after (hlen1 ▸ hdown 11 (by decide) (by decide))
  have h12 := h.lpm3.header_after (hlen1 ▸ hdown 12 (by decide) (by decide))
  have h13 := h.arp1.header_after (hlen2 ▸ hdown 13 (by decide) (by decide))
  have h14 := h.arp2.header_after (hlen2 ▸ hdown 14 (by decide) (by decide))
  have h15 := h.arp3.header_after (hlen2 ▸ hdown 15 (by decide) (by decide))
  exact
    { idle := ⟨hw, hd, h1, h2, h2a, h3, h5, h6⟩
      drop_packets2 := h.drop2_header
      dest_ip1 := h8
      dest_ip2 := h9
      lpm1 := h10 ▸ h.lookup.lpm1
      lpm2 := h11 ▸ h.lookup.lpm2
      lpm3 := h12 ▸ h.lookup.lpm3
      arp1 := h13 ▸ h.arp.arp1
      arp2 := h14 ▸ h.arp.arp2
      arp3 := h15 ▸ h.arp.arp3 }

end

/-- What leaves the pipeline, the MAC addresses being `m`. -/
structure Leaving (p : Packet) (g : Bool) (m : Macs) (o : Nat → Nat) (out : List Beat)
    (s : Pipeline) : Prop where
  carries : Carries (s.addressed m g p).beats (o 15) (o 16) s.arp.arp4
  out_eq : out = (s.addressed m g p).beats.take (o 16)

section

variable {p : Packet} {g : Bool} {o : Nat → Nat} {s : Pipeline}

theorem InFlight.addressed_step (h : InFlight p g o s) (c : Cycle) (m : Macs) (ho : 0 < o 14) :
    (s.step c).addressed m g p = s.addressed m g p := by
  have hact : Arp3.onFirst m (s.step c).arp.arp2.regs = Arp3.onFirst m s.arp.arp2.regs := by
    show Arp3.onFirst m (Arp2.step _ _ _ _ _) = _
    rw [Arp2.step_eq _ _ _ h.arp.arp2, h.arp2.not_starts ho]
    rfl
  unfold Pipeline.addressed
  simp only [hact, h.routed_step c (h.passed_before c (by decide) ho)]

/-- The beat that leaves `arp4`. -/
theorem Pipeline.emitted_eq (c : Cycle) : s.emitted c = s.arp.arp4.popped c.m_tready := by
  unfold emitted ArpPipe.offer Stage.offer Stage.popped
  cases c.m_tready <;> cases s.arp.arp4.tvalid <;> rfl

theorem Leaving.step {m : Macs} {out : List Beat} {c : Cycle} (h : InFlight p g o s)
    (hl : Leaving p g m o out s) (hm : c.macs = m) :
    Leaving p g m (s.advance c o) (out ++ (s.emitted c).toList) (s.step c) := by
  have h15 : s.advance c o 15 ≤ o 14 := h.advance_le c (by decide)
  have hnext : Carries (s.addressed m g p).beats (s.advance c o 15) (s.advance c o 16)
      (s.step c).arp.arp4 := by
    refine hl.carries.tick_offer _ (fun b hb => ?_) _ _
    rw [Arp3.out_eq h.arp.arp3, hm]
    exact h.arp3.out hb _ _
  have hout : out ++ (s.emitted c).toList = (s.addressed m g p).beats.take (s.advance c o 16) := by
    rw [hl.out_eq, Pipeline.emitted_eq]
    cases hb : s.arp.arp4.popped c.m_tready with
    | none => simp [Pipeline.advance, Pipeline.handed, hb]
    | some b =>
      have hadv : s.advance c o 16 = o 16 + 1 := by simp [Pipeline.advance, Pipeline.handed, hb]
      rw [hadv, List.take_add_one, (hl.carries.popped hb).2]
  rcases Nat.eq_zero_or_pos (o 14) with h0 | h0
  · -- nothing has entered `arp4`, so the packet that will leave may still change
    have h15' : s.advance c o 15 = 0 := by omega
    have h16 : s.advance c o 16 = 0 := Nat.le_zero.1 (h15' ▸ hnext.le)
    rw [h16, List.take_zero] at hout
    refine ⟨?_, by rw [hout, h16, List.take_zero]⟩
    rw [h15', h16] at hnext ⊢
    exact .empty hnext.wf (by simpa using hnext.contents) _
  · rw [← h.addressed_step c m h0] at hnext hout
    exact ⟨hnext, hout⟩

/-- **What leaves**: the packet with its first beat changed, or nothing. -/
theorem InFlight.outputs_eq (hs : s.Ready g) {m : Macs} (cs : List Cycle)
    (hm : ∀ c ∈ cs, c.macs = m) (hin : s.inputs cs = p.beats) (hd : (s.run cs).Drained) :
    s.outputs cs
      = if (s.run cs).drop.dropArray = 0 then ((s.run cs).addressed m g p).beats else [] := by
  have hstart : Leaving p g m (fun _ => 0) [] s :=
    ⟨.empty hs.idle.wf.arp4 hs.idle.drained.arp4 _, rfl⟩
  obtain ⟨hfl, hl⟩ := InFlight.run hs (Leaving p g m) (fun c => c.macs = m) hstart
    (fun _ _ _ _ h _ hok hl => hl.step h hok) cs hm (hin ▸ List.prefix_rfl)
  have h0 : s.counts cs 0 = p.beats.length := by rw [Pipeline.counts_zero, hin]
  have h15 := (hfl.counts_drained hd).2 15 (by decide) (by decide)
  have h16 := hl.carries.eq_of_empty hd.arp4
  rw [h0] at h15
  rw [hl.out_eq, h16, h15]
  split
  · refine List.take_of_length_le (Nat.le_of_eq ?_)
    exact (Passing.length_acts _ _ _ _).trans
      ((Passing.length_acts _ _ _ _).trans (Passing.length_acts _ _ _ _))
  · exact List.take_zero

end

end BirRouter
