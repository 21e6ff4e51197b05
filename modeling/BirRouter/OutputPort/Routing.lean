import BirRouter.OutputPort.DropRuns
import BirRouter.OutputPort.Isolated
import BirRouter.OutputPort.Tables

/-!
# What becomes of a packet from a port

* `Looked` — once the packet has passed a stage, the stage's registers hold what the tables say of it;
* `Looked.addressed_first` — so the first beat that leaves is `Tables.forward` of the one that came;
* `destip_isolated` — for a packet on consecutive cycles the address that is looked up is its own;
* `isolated_packet_iff` — such a packet, if it is not dropped, leaves as the tables say exactly when the
  stages behind `drop_packets2` were not still waiting for the end of an earlier packet.
-/

set_option autoImplicit false

namespace BirRouter

open Clocked Stage

/-- No table is written. -/
def Cycle.Quiet (c : Cycle) : Prop := c.dest_ip_wr = none ∧ c.lpm_wr = none ∧ c.arp_wr = none

/-- The destination address that `drop_packets1` holds. -/
def Pipeline.destip (s : Pipeline) : BitVec 32 := s.drop.drop_packets1.regs.destip_addr

/-- What the tables hold, the MAC addresses being `m`. -/
def Pipeline.tables (s : Pipeline) (m : Macs) : Tables :=
  ⟨s.lookup.dest_ip_table, s.lookup.lpm_table, s.arp.arp_table, m⟩

theorem Pipeline.tables_step (s : Pipeline) (m : Macs) {c : Cycle} (h : c.Quiet) :
    (s.step c).tables m = s.tables m := by
  obtain ⟨hd, hl, ha⟩ := h
  show Tables.mk (LookupPipe.writeRow _ c.dest_ip_wr) (LookupPipe.writeRow _ c.lpm_wr)
    (LookupPipe.writeRow _ c.arp_wr) m = _
  rw [hd, hl, ha]
  rfl

theorem Pipeline.tables_run (m : Macs) : ∀ (cs : List Cycle) (s : Pipeline), (∀ c ∈ cs, c.Quiet) →
    (s.run cs).tables m = s.tables m
  | [], _, _ => rfl
  | c :: cs, s, h => by
    refine (tables_run m cs (s.step c) fun d hd => h d (List.mem_cons_of_mem _ hd)).trans ?_
    exact s.tables_step m (h c List.mem_cons_self)

/-- What the stages have found for the packet `p`, each once the packet's first beat has passed it. -/
structure Looked (p : Packet) (o : Nat → Nat) (s : Pipeline) : Prop where
  drop_packets2 : 0 < o 7 → s.drop.drop_packets2.regs.destip_addr = s.destip
  ip_addr1 : 0 < o 8 → s.lookup.dest_ip1.regs.ip_addr = s.destip
  ip_addr2 : 0 < o 9 → s.lookup.dest_ip2.regs.ip_addr = s.destip
  dest_ip1 : 0 < o 8 → s.lookup.dest_ip1.regs.cpu_hit_array
    = DestIp1.cpuHitArray s.lookup.dest_ip_table p.first s.destip
  lpm1 : 0 < o 10 → s.lookup.lpm1.regs.Found s.lookup.lpm_table (s.filtered false p).first.toCpu
    s.destip
  lpm2 : 0 < o 11 → s.lookup.lpm2.regs.Found s.lookup.lpm_table (s.filtered false p).first.toCpu
    s.destip
  lpm3 : 0 < o 12 → s.lookup.lpm3.regs.Found s.lookup.lpm_table (s.filtered false p).first.toCpu
    s.destip
  arp1 : 0 < o 13 → (s.routed false p).first.dstPort = 0 →
    ∀ j ∈ routeRowFor s.lookup.lpm_table (s.filtered false p).first.toCpu s.destip,
      s.arp.arp1.regs.Found s.arp.arp_table (s.lookup.lpm_table j).oq
        ((s.lookup.lpm_table j).hop s.destip)
  arp2 : 0 < o 14 → (s.routed false p).first.dstPort = 0 →
    ∀ j ∈ routeRowFor s.lookup.lpm_table (s.filtered false p).first.toCpu s.destip,
      s.arp.arp2.regs.Found s.arp.arp_table (s.lookup.lpm_table j).oq
        ((s.lookup.lpm_table j).hop s.destip)

section

variable {p : Packet} {g : Bool} {o : Nat → Nat} {s : Pipeline} {c : Cycle}

theorem InFlight.destip_step (h : InFlight p g o s) (c : Cycle) (ho : 0 < o 6) :
    (s.step c).destip = s.destip := by
  refine (DropPackets1.step_destip_addr _ _ _ _ _ _ _).trans ?_
  unfold DropPackets1.starts
  rw [h.drop_packets1.not_starts ho]
  rfl

/-- The address that `drop_packets2` shows. -/
theorem Looked.drop_packets2_step (h : InFlight p g o s) (hl : Looked p o s)
    (hpos : 0 < s.advance c o 7) :
    (s.step c).drop.drop_packets2.regs.destip_addr = s.destip := by
  refine (DropPackets2.step_destip_addr h.drop2_header _ _).trans ?_
  rcases Nat.eq_zero_or_pos (o 7) with h0 | h0
  · have hsome : ∃ b, s.drop.drop_packets2.popped s.lookup.dest_ip1.tready = some b := by
      cases hp : s.drop.drop_packets2.popped s.lookup.dest_ip1.tready with
      | none => simp [Pipeline.advance, Pipeline.handed, hp, h0] at hpos
      | some b => exact ⟨b, rfl⟩
    obtain ⟨b, hb⟩ := hsome
    obtain ⟨ht, hbeat⟩ := popped_eq_some.1 hb
    have hfirst : p.first = b := by
      have hget := (h.drop_packets2.popped hb).2
      rw [h0] at hget
      exact Option.some.inj hget
    have hlast : (s.drop.drop_packets2.axis s.lookup.dest_ip1.tready).tlast = false := by
      show s.drop.drop_packets2.beat.tlast = false
      rw [hbeat, ← hfirst]
      exact p.first_tlast
    rw [Axis.first_eq, ht, hlast]
    rfl
  · rw [hl.drop_packets2 h0]
    exact ite_self _

theorem Looked.step (h : InFlight p false o s) (hl : Looked p o s) (hq : c.Quiet) :
    Looked p (s.advance c o) (s.step c) := by
  have htables := s.tables_step c.macs hq
  have hT : (s.step c).lookup.dest_ip_table = s.lookup.dest_ip_table :=
    congrArg Tables.dest_ip htables
  have hL : (s.step c).lookup.lpm_table = s.lookup.lpm_table := congrArg Tables.lpm htables
  have hA : (s.step c).arp.arp_table = s.arp.arp_table := congrArg Tables.arp htables
  -- what a stage behind `n` needs of the packet was there when it passed `n`
  have hdest : ∀ {n : Nat}, 6 < n ∧ n ≤ 15 → 0 < s.advance c o n → (s.step c).destip = s.destip :=
    fun hn hpos => h.destip_step c (h.passed c hn hpos)
  have hfilt : ∀ {n : Nat}, 8 < n ∧ n ≤ 15 → 0 < s.advance c o n →
      (s.step c).filtered false p = s.filtered false p :=
    fun hn hpos => h.filtered_step c (h.passed c hn hpos)
  constructor
  · intro hpos
    rw [hdest (by decide) hpos]
    exact hl.drop_packets2_step h hpos
  · intro hpos
    rw [hdest (by decide) hpos, ← hl.drop_packets2 (h.passed c (by decide) hpos)]
    exact DestIp1.step_ip_addr _ _ _ _ _ _
  · intro hpos
    rw [hdest (by decide) hpos]
    exact hl.ip_addr1 (h.passed c (by decide) hpos)
  · intro hpos
    rw [hT, hdest (by decide) hpos]
    refine (DestIp1.step_cpu_hit_array _ _ _ _ _ _).trans ?_
    rcases (h.dest_ip1.loads_or_keeps hpos).2 with ⟨ho, hb⟩ | ⟨ho, h0⟩
    · rw [ho, if_pos rfl, hb, hl.drop_packets2 (h.passed c (by decide) hpos)]
    · rw [ho]
      exact hl.dest_ip1 h0
  · intro hpos
    rw [hL, hdest (by decide) hpos, hfilt (by decide) hpos]
    rcases (h.lpm1.loads_or_keeps hpos).2 with ⟨ho, hb⟩ | ⟨ho, h0⟩
    · rw [← hb, ← hl.ip_addr2 (h.passed c (by decide) hpos)]
      exact Lpm1.found_step h.lookup.lpm1 ho _
    · exact Lpm1.found_keep h.lookup.lpm1 ho _ (hl.lpm1 h0)
  · intro hpos
    rw [hL, hdest (by decide) hpos, hfilt (by decide) hpos]
    rcases (h.lpm2.loads_or_keeps hpos).2 with ⟨ho, hb⟩ | ⟨ho, h0⟩
    · have hfound := hl.lpm1 (h.passed c (by decide) hpos)
      rw [← hb] at hfound ⊢
      exact Lpm2.found_step h.lookup.lpm2 ho hfound
    · exact Lpm2.found_keep h.lookup.lpm2 ho _ (hl.lpm2 h0)
  · intro hpos
    rw [hL, hdest (by decide) hpos, hfilt (by decide) hpos]
    rcases (h.lpm3.loads_or_keeps hpos).2 with ⟨ho, hb⟩ | ⟨ho, h0⟩
    · have hfound := hl.lpm2 (h.passed c (by decide) hpos)
      rw [← hb] at hfound ⊢
      exact Lpm3.found_step h.lookup.lpm3 ho hfound _
    · exact Lpm3.found_keep h.lookup.lpm3 ho _ _ (hl.lpm3 h0)
  · intro hpos
    rw [hL, hA, hdest (by decide) hpos, hfilt (by decide) hpos,
      h.routed_step c (h.passed c (by decide) hpos)]
    intro hd j hj
    rcases (h.arp1.loads_or_keeps hpos).2 with ⟨ho, hb⟩ | ⟨ho, h0⟩
    · obtain ⟨hlook, hoq, hnh⟩ := hl.lpm3 (h.passed c (by decide) hpos) j hj
      rw [← hoq, ← hnh]
      exact Arp1.found_step h.arp.arp1 ho (hb ▸ hd) hlook
    · exact Arp1.found_keep h.arp.arp1 ho _ (hl.arp1 h0 hd j hj)
  · intro hpos
    rw [hL, hA, hdest (by decide) hpos, hfilt (by decide) hpos,
      h.routed_step c (h.passed c (by decide) hpos)]
    intro hd j hj
    rcases (h.arp2.loads_or_keeps hpos).2 with ⟨ho, hb⟩ | ⟨ho, h0⟩
    · exact Arp2.found_step h.arp.arp2 ho (hb ▸ hd) (hl.arp1 (h.passed c (by decide) hpos) hd j hj)
    · exact Arp2.found_keep h.arp.arp2 ho _ (hl.arp2 h0 hd j hj)

/-- After a run everything that the packet has passed holds its own results. -/
theorem Looked.run (hs : s.Ready false) {cs : List Cycle} (hq : ∀ c ∈ cs, c.Quiet)
    (hin : s.inputs cs <+: p.beats) : Looked p (s.counts cs) (s.run cs) := by
  have hnone : ∀ {P : Prop}, 0 < 0 → P := fun h => absurd h (Nat.lt_irrefl 0)
  exact (InFlight.run hs (fun o _ t => Looked p o t) Cycle.Quiet
    ⟨hnone, hnone, hnone, hnone, hnone, hnone, hnone, hnone, hnone⟩
    (fun _ _ _ _ h _ hok hl => hl.step h hok) cs hq hin).2

/-- The first beat of a packet from a port behind `dest_ip2`. -/
theorem filtered_first {q : Fin 4} (hp : p.first.FromPort q) :
    (s.filtered false p).first
      = if s.lookup.dest_ip1.regs.cpu_hit_array ≠ 0 then p.first.sendTo (2#8 <<< (2 * q.val))
        else p.first := by
  show DestIp2.onFirst _ p.first = _
  unfold DestIp2.onFirst
  rw [hp.fromCpu, hp.miss]
  rfl

/-- **The stages do what the tables say.** -/
theorem Looked.addressed_first (hl : Looked p o s) {q : Fin 4} (hp : p.first.FromPort q)
    (h14 : 0 < o 14) (h11 : 0 < o 11) (h8 : 0 < o 8) (m : Macs) :
    (s.addressed m false p).first = (s.tables m).forward p.first s.destip := by
  obtain ⟨hcpu, hdst⟩ := p.first.toCpu_sendTo q
  have hfiltered := filtered_first (s := s) hp
  have hrouted : (s.routed false p).first
    = Lpm3.onFirst s.lookup.lpm2.regs.lpm_hit (s.filtered false p).first := rfl
  have hlpm := hl.lpm2 h11
  have harp := hl.arp2 h14
  show Arp3.onFirst m s.arp.arp2.regs (s.routed false p).first = _
  unfold Tables.forward
  rw [hp.miss]
  by_cases hhit : s.lookup.dest_ip1.regs.cpu_hit_array ≠ 0
  · rw [if_pos hhit] at hfiltered
    rw [hrouted, hfiltered, Lpm3.onFirst_of_toCpu hcpu, Arp3.onFirst_of_sent _ _ hdst]
    rw [hl.dest_ip1 h8] at hhit
    exact (if_pos hhit).symm
  · rw [if_neg hhit] at hfiltered
    rw [hl.dest_ip1 h8] at hhit
    rw [hfiltered, hp.toCpu] at hlpm harp
    refine Eq.trans ?_ (if_neg hhit).symm
    rw [hfiltered] at hrouted
    obtain ⟨hlpm, -⟩ := hlpm
    cases hj : lowestMatch (s.tables m).lpm s.destip with
    | none =>
      have hmiss : s.lookup.lpm2.regs.lpm_hit = false := hlpm.trans (congrArg Option.isSome hj)
      rw [hrouted, hmiss, Lpm3.onFirst_of_miss hp.toCpu, hp.miss, Arp3.onFirst_of_sent _ _ hdst]
    | some j =>
      have hhit : s.lookup.lpm2.regs.lpm_hit = true := hlpm.trans (congrArg Option.isSome hj)
      rw [hhit, Lpm3.onFirst_of_hit] at hrouted
      rw [hrouted, Arp3.onFirst_of_found m hp.2 (harp (hrouted ▸ hp.2) j hj), hp.miss]
      rfl

end

/-! ## A packet on consecutive cycles -/

/-- Nothing is left in the pipeline 48 cycles after the last beat. -/
theorem calm_after {s : Pipeline} (h : s.Idle) {cyc : Nat → Cycle}
    (hr : ∀ c, (cyc c).m_tready = true) {k : Nat} (hx : ∀ c, k ≤ c → (cyc c).s_axis = none) (c : Nat) :
    (s.after cyc c).Calm (c - k) := by
  induction c with
  | zero =>
    rw [Nat.zero_sub]
    exact h.calm
  | succ c ih =>
    rw [Pipeline.after_succ]
    exact Pipeline.calm_step ih (hr c) (by omega) fun hc => hx c (by omega)

section

variable {s : Pipeline} {cyc : Nat → Cycle} {p : Packet} (h : s.Idle)
  (hr : ∀ c, (cyc c).m_tready = true) (hx : (fun n => (cyc n).s_axis) = isolated p)
include h hr hx

theorem inputs_isolated (c : Nat) : s.inputs ((List.range c).map cyc) = p.beats.take c := by
  induction c with
  | zero => rfl
  | succ c ih =>
    have hready := (timed_after h hr c).calm.checksum1.tready
    have haxis : (cyc c).s_axis = p.beats[c]? := congrFun hx c
    rw [List.range_succ, List.map_append, List.map_singleton, Pipeline.inputs_append, ih,
      List.take_add_one]
    show p.beats.take c ++ ((s.after cyc c).accepted (cyc c)).toList = _
    unfold Pipeline.accepted
    rw [hready, if_pos rfl, haxis]

/-- The packet has left 48 cycles after its last beat entered. -/
theorem drained_isolated {n : Nat} (hn : p.beats.length + 48 ≤ n) : (s.after cyc n).Drained := by
  refine (calm_after h hr (k := p.beats.length) (fun c hc => ?_) n).drained (by omega)
  have haxis : (cyc c).s_axis = p.beats[c]? := congrFun hx c
  rw [haxis, List.getElem?_eq_none hc]

/-- `drop_packets1` processes the first beat in cycle 18, and nothing afterwards. -/
theorem starts_isolated (c : Nat) :
    (s.after cyc c).drop.drop_packets1.regs.starts
      ((s.after cyc c).drop.drop_packets1.axis (s.after cyc c).drop.drop_packets2.tready)
      = decide (c = 18) := by
  have ht := timed_after h hr c
  unfold DropPackets1.starts
  rw [ht.calm.drop_packets2.tready, ht.drop_packets1.starts, hx]
  rcases Nat.lt_or_ge c 18 with hc | hc
  · have hnone : Arrivals.delayed (isolated p) 18 c = none := if_neg (by omega)
    unfold Arrivals.startsAt
    rw [hnone, Option.any_none, decide_eq_false (by omega)]
  · obtain ⟨t, rfl⟩ : ∃ t, c = t + 18 := ⟨c - 18, by omega⟩
    rw [Arrivals.startsAt_add, isolated.opens_eq, decide_eq_decide]
    omega

/-- The address that `drop_packets1` holds behind the packet is the packet's own. -/
theorem destip_isolated (hp : p.first.fromPhy = true) (c : Nat) :
    (s.after cyc (c + 19)).destip
      = DropPackets1.destip p.first (p.second.tdata.extractLsb' 240 16) := by
  induction c with
  | zero =>
    have hown := ownHeaderData_after h hr (by rw [hx]; exact isolated.arrives p)
      (by rw [hx]; exact isolated.undisturbed p)
    rw [Nat.zero_add] at hown ⊢
    rw [Pipeline.after_succ]
    refine (DropPackets1.step_destip_addr _ _ _ _ _ _ _).trans ?_
    rw [hown.starts, hown.beat, hp, hown.low_ip_addr]
    rfl
  | succ c ih =>
    rw [show c + 1 + 19 = c + 19 + 1 by omega, Pipeline.after_succ]
    refine (DropPackets1.step_destip_addr _ _ _ _ _ _ _).trans ?_
    rw [starts_isolated h hr hx, decide_eq_false (by omega)]
    exact ih

/-- The decision that it holds is the one taken then. -/
theorem dropArray_isolated (c : Nat) :
    (s.after cyc (c + 19)).drop.dropArray
      = DropPackets1.dropArray (s.after cyc 18).drop.drop_packets1.regs.checksum_override (cyc 18).macs
        (s.after cyc 18).checksum.delay.regs.checksum_out p.first := by
  induction c with
  | zero =>
    have hown := ownHeaderData_after h hr (by rw [hx]; exact isolated.arrives p)
      (by rw [hx]; exact isolated.undisturbed p)
    rw [Nat.zero_add] at hown ⊢
    rw [Pipeline.after_succ, ← hown.beat]
    refine (DropPackets1.step_drop_array _ _ _ _ _ _ _).trans ?_
    rw [hown.starts]
    rfl
  | succ c ih =>
    rw [show c + 1 + 19 = c + 19 + 1 by omega, Pipeline.after_succ]
    refine (DropPackets1.step_drop_array _ _ _ _ _ _ _).trans ?_
    rw [starts_isolated h hr hx, decide_eq_false (by omega)]
    exact ih

end

/-- **A packet that arrives on its own leaves as the tables say exactly if the header flag of `dest_ip1`
was low**: it is high in the states that are reached after `drop_packets2` has cut off the end of a
packet. -/
theorem isolated_packet_iff {s : Pipeline} (hs : s.Reached) {p : Packet} {q : Fin 4}
    (hp : p.first.FromPort q) {m : Macs} {cyc : Nat → Cycle} (hr : ∀ c, (cyc c).m_tready = true)
    (hx : (fun n => (cyc n).s_axis) = isolated p) (hm : ∀ c, (cyc c).macs = m)
    (hquiet : ∀ c, (cyc c).Quiet) {n : Nat} (hn : p.beats.length + 48 ≤ n)
    (hkeep : (s.after cyc n).drop.dropArray = 0) :
    (s.tables m).Outcome q (DropPackets1.destip p.first (p.second.tdata.extractLsb' 240 16)) p
        (s.outputs ((List.range n).map cyc)) ↔
      s.lookup.dest_ip1.regs.header = false := by
  have hready := hs.ready
  have hidle := hready.idle
  have hdrained := drained_isolated hidle hr hx hn
  have hin : s.inputs ((List.range n).map cyc) = p.beats := by
    rw [inputs_isolated hidle hr hx, List.take_of_length_le (by omega)]
  have hmacs : ∀ c ∈ (List.range n).map cyc, c.macs = m := List.forall_mem_map.2 fun k _ => hm k
  have hq : ∀ c ∈ (List.range n).map cyc, c.Quiet := List.forall_mem_map.2 fun k _ => hquiet k
  have hout := (InFlight.outputs_eq hready _ hmacs hin hdrained).trans (if_pos hkeep)
  rw [hout]
  cases hg : s.lookup.dest_ip1.regs.header with
  | true => exact iff_of_false (Tables.not_outcome_self hp _) Bool.noConfusion
  | false =>
    rw [hg] at hready
    have hprefix : s.inputs ((List.range n).map cyc) <+: p.beats := hin ▸ List.prefix_rfl
    have hpos := Pipeline.counts_pos hready hin hdrained hkeep
    have hfirst := (Looked.run hready hq hprefix).addressed_first hp (hpos 14 (by decide))
      (hpos 11 (by decide)) (hpos 8 (by decide)) m
    have hdest := destip_isolated hidle hr hx hp.fromPhy (n - 19)
    rw [Nat.sub_add_cancel (by omega)] at hdest
    rw [Pipeline.tables_run m _ s hq] at hfirst
    have hbeats : ((s.run ((List.range n).map cyc)).addressed m false p).beats
        = (s.tables m).forward p.first (s.after cyc n).destip :: p.beats.tail :=
      congrArg (· :: p.beats.tail) hfirst
    rw [hbeats, hdest]
    exact iff_of_true (Tables.outcome_forward hp _) rfl

/-- The cycles in which some beats arrive one after another, the MAC addresses being `m`. -/
def cyclesWith (m : Macs) (beats : List Beat) (n : Nat) : Cycle :=
  ⟨beats[n]?, true, 0, m, none, none, none⟩

theorem cyclesWith_isolated (m : Macs) (p : Packet) :
    (fun n => (cyclesWith m p.beats n).s_axis) = isolated p := rfl

/-- Port 0 has the address that the sample packets are sent to. -/
def sampleMacs : Macs := { portMacs with mac0_low := 0 }

/-- After reset, with a default route to queue 4 and the MAC address of 10.0.0.2. -/
def routedPipeline : Pipeline :=
  freshPipeline.run [⟨none, true, 0, sampleMacs, none, some (0, fun i => if i.val = 3 then 4 else 0),
    some (0, fun i => if i.val = 0 then 0x0A000002 else 7)⟩]

theorem routedPipeline_reached : routedPipeline.Reached :=
  ⟨udpTail, 0, 0, 0, _, rfl, by decide +kernel, by constructor <;> decide +kernel⟩

theorem isolated_packet_iff_sample :
    (routedPipeline.tables sampleMacs).Outcome 0 0x0A000002 (udpPacket 1 0x6696 2)
      (routedPipeline.outputs
        ((List.range 50).map (cyclesWith sampleMacs (udpPacket 1 0x6696 2).beats))) :=
  (isolated_packet_iff routedPipeline_reached (by decide) (fun _ => rfl)
    (cyclesWith_isolated sampleMacs (udpPacket 1 0x6696 2)) (fun _ => rfl) (fun _ => ⟨rfl, rfl, rfl⟩)
    (by decide) (by decide +kernel)).2 (by decide +kernel)

/-- A packet for port 0 and, back to back, one that is not: the end of the first one is cut off. -/
def stuckPipeline : Pipeline :=
  freshPipeline.after (cyclesWith portMacs ((packetFor 1).beats ++ (packetFor 9).beats)) 54

theorem stuckPipeline_reached : stuckPipeline.Reached := by
  refine ⟨udpTail, 0, 0, 0, _, rfl, by decide +kernel, ?_⟩
  refine (calm_after (Pipeline.reset_idle udpTail 0 0 0) (fun _ => rfl) (k := 6) (fun c hc => ?_) 54).drained
    (by decide)
  exact List.getElem?_eq_none hc

/-- In this state a packet that is not IPv4 leaves as it came, without a destination. -/
theorem isolated_packet_stuck :
    stuckPipeline.Reached ∧ (packetFor 1).first.FromPort 0 ∧
      (stuckPipeline.after (cyclesWith portMacs (packetFor 1).beats) 51).drop.dropArray = 0 ∧
      (stuckPipeline.tables portMacs).ToCpu (packetFor 1).first 0 ∧
      stuckPipeline.outputs ((List.range 51).map (cyclesWith portMacs (packetFor 1).beats))
        = (packetFor 1).beats ∧
      (packetFor 1).first.dstPort = 0 := by
  have hready := stuckPipeline_reached.ready
  rw [show stuckPipeline.lookup.dest_ip1.regs.header = true by decide +kernel] at hready
  have hx := cyclesWith_isolated portMacs (packetFor 1)
  have hdrop := dropArray_isolated hready.idle (fun _ => rfl) hx 32
  -- the packet is for port 0 and has no checksum, so it is kept whatever the checksum stages computed
  have hkeep : ∀ checksum_override checksum,
      DropPackets1.dropArray checksum_override portMacs checksum (packetFor 1).first = 0 := by
    intro checksum_override checksum
    refine (DropPackets1.dropArray_eq_zero _ _ _ _).2 fun _ => ⟨by decide, ?_⟩
    rw [Beat.badChecksum, decide_eq_false (by decide)]
    rfl
  rw [show (cyclesWith portMacs (packetFor 1).beats 18).macs = portMacs from rfl, hkeep] at hdrop
  have hout := InFlight.outputs_eq hready (m := portMacs)
    ((List.range 51).map (cyclesWith portMacs (packetFor 1).beats))
    (fun c hc => by obtain ⟨n, -, rfl⟩ := List.mem_map.1 hc; rfl)
    (inputs_isolated hready.idle (fun _ => rfl) hx 51)
    (drained_isolated hready.idle (fun _ => rfl) hx (by decide))
  exact ⟨stuckPipeline_reached, by decide, hdrop, .inl (by decide), hout.trans (if_pos hdrop),
    by decide⟩

end BirRouter
