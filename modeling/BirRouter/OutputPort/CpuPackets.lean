import BirRouter.OutputPort.Counters

/-!
# Packets from the CPU

The software sends a packet by writing it to one of the four CPU queues; `dest_ip2` gives it the port of
its queue.  The packet is not dropped and is not classified, but `lpm1` looks up a route for it with the
destination address of the last packet that came from a port.

* `CpuForwarded` — the packet leaves on the port of its queue with its data unchanged, and is counted
  once, by `cpu_count`;
* `addressed_queue` — what the stages do to the packet does not depend on the tables;
* `tallied_queue` — `lpm_miss_count` does;
* `cpu_packet_iff` — when the packet is forwarded.
-/

set_option autoImplicit false

namespace BirRouter

open Clocked Stage

section

variable {p : Packet} {g : Bool} {s : Pipeline} {q : Fin 4}

/-- `drop_packets1` keeps a packet from the CPU and the address that it held before. -/
theorem kept_queue (hs : s.Ready g) (hp : p.first.FromQueue q) {cs : List Cycle}
    (hin : s.inputs cs <+: p.beats) :
    (0 < s.counts cs 6 → (s.run cs).drop.dropArray = 0) ∧ (s.run cs).destip = s.destip := by
  refine (InFlight.run hs (fun o _ t => (0 < o 6 → t.drop.dropArray = 0) ∧ t.destip = s.destip)
    (fun _ => True) ⟨fun h => absurd h (Nat.lt_irrefl 0), rfl⟩ (fun o _ t c h _ _ hJ => ?_) cs
    (fun _ _ => trivial) hin).2
  obtain ⟨hdrop, hdest⟩ := hJ
  constructor
  · intro hpos
    refine (DropPackets1.step_drop_array _ _ _ _ _ _ _).trans ?_
    rcases (h.drop_packets1.loads_or_keeps hpos).2 with ⟨ho, hb⟩ | ⟨ho, h0⟩
    · refine (if_pos ho).trans ((DropPackets1.dropArray_eq_zero _ _ _ _).2 fun hphy => ?_)
      rw [hb, hp.fromPhy] at hphy
      cases hphy
    · refine (if_neg ?_).trans (hdrop h0)
      unfold DropPackets1.starts
      rw [ho]
      exact Bool.false_ne_true
  · rw [← hdest]
    refine (DropPackets1.step_destip_addr _ _ _ _ _ _ _).trans (if_neg fun hstarts => ?_)
    rw [Bool.and_eq_true] at hstarts
    rw [h.drop_packets1.beat_of_starts hstarts.1, hp.fromPhy] at hstarts
    cases hstarts.2

/-- `dest_ip2` gives the packet its port. -/
theorem filtered_queue (hp : p.first.FromQueue q) :
    (s.filtered false p).first = p.first.sendTo (1#8 <<< (2 * q.val)) := by
  show DestIp2.onFirst _ p.first = _
  unfold DestIp2.onFirst
  rw [hp.fromCpu, hp.cpuPort]
  rfl

/-- `lpm3` does not change it, whether there is a route or not. -/
theorem routed_queue (hp : p.first.FromQueue q) :
    (s.routed false p).first = p.first.sendTo (1#8 <<< (2 * q.val)) := by
  show Lpm3.onFirst s.lookup.lpm2.regs.lpm_hit (s.filtered false p).first = _
  rw [filtered_queue hp]
  cases s.lookup.lpm2.regs.lpm_hit with
  | true => exact Lpm3.onFirst_of_hit _
  | false => rw [Lpm3.onFirst_of_miss (p.first.port_sendTo q).1, hp.miss]

/-- **What the stages do to the packet**, whatever the tables hold. -/
theorem addressed_queue (hp : p.first.FromQueue q) (m : Macs) :
    (s.addressed m false p).beats = p.first.sendTo (1#8 <<< (2 * q.val)) :: p.beats.tail := by
  have hfirst : (s.addressed m false p).first = p.first.sendTo (1#8 <<< (2 * q.val)) := by
    show Arp3.onFirst m s.arp.arp2.regs (s.routed false p).first = _
    rw [routed_queue hp, Arp3.onFirst_of_sent _ _ (p.first.port_sendTo q).2]
  exact congrArg (· :: p.beats.tail) hfirst

/-- `lpm3` counts the packet if there is no route; no other counter is stepped. -/
theorem steps_of_queue (hp : p.first.FromQueue q) {o : Nat → Nat} (hkeep : s.drop.dropArray = 0)
    (h12 : 0 < o 12) (hhit : s.lookup.dest_ip1.regs.cpu_hit_array = 0) (k : Counter) :
    s.steps p o k = (decide (k = .lpmMiss) && !s.lookup.lpm2.regs.lpm_hit) := by
  obtain ⟨hcpu, hdst⟩ := p.first.port_sendTo q
  replace hdst : ¬ (p.first.sendTo (1#8 <<< (2 * q.val))).dstPort = 0#8 := hdst
  cases k <;>
    simp [Pipeline.steps, hkeep, h12, hhit, filtered_queue hp, routed_queue hp, hcpu, hdst]

/-- The packet is not dropped. -/
theorem dropArray_queue (hs : s.Ready g) (hp : p.first.FromQueue q) {cs : List Cycle}
    (hin : s.inputs cs = p.beats) (hd : (s.run cs).Drained) : (s.run cs).drop.dropArray = 0 := by
  have hprefix : s.inputs cs <+: p.beats := hin ▸ List.prefix_rfl
  have htwo := p.two_le_length
  have h0 : s.counts cs 0 = p.beats.length := by rw [Pipeline.counts_zero, hin]
  have h6 := ((InFlight.of_run hs hprefix).counts_drained hd).1 6 (by decide)
  exact (kept_queue hs hp hprefix).1 (by omega)

/-- **The counters behind the packet.** -/
theorem tallied_queue (hs : s.Ready false) (hp : p.first.FromQueue q) {cs : List Cycle} (m : Macs)
    (hquiet : ∀ c ∈ cs, c.Quiet) (hr : ∀ c ∈ cs, c.reset ≠ 1) (hin : s.inputs cs = p.beats)
    (hd : (s.run cs).Drained) :
    (∀ k, (s.run cs).count k = stepped
      (decide (k = .lpmMiss) && !(lowestMatch (s.tables m).lpm s.destip).isSome) (s.count k)) ∧
      (s.run cs).cpuCount = s.cpuCount + 1 := by
  have hprefix : s.inputs cs <+: p.beats := hin ▸ List.prefix_rfl
  have hkeep := dropArray_queue hs hp hin hd
  have hpos := Pipeline.counts_pos hs hin hd hkeep
  have hl := Looked.run hs hquiet hprefix
  have ht := Tallied.run hs hr hprefix
  have hhit : (s.run cs).lookup.dest_ip1.regs.cpu_hit_array = 0 := by
    rw [hl.dest_ip1 (hpos 8 (by decide)), DestIp1.cpuHitArray, hp.fromCpu]
    rfl
  have htable : (s.run cs).lookup.lpm_table = (s.tables m).lpm :=
    congrArg Tables.lpm (Pipeline.tables_run m cs s hquiet)
  have hlpm : (s.run cs).lookup.lpm2.regs.lpm_hit
      = (lowestMatch (s.tables m).lpm s.destip).isSome := by
    rw [(hl.lpm2 (hpos 11 (by decide))).1, filtered_queue hp, (p.first.port_sendTo q).1, htable,
      (kept_queue hs hp hprefix).2]
    rfl
  constructor
  · intro k
    rw [ht.count k, steps_of_queue hp hkeep (hpos 12 (by decide)) hhit, hlpm]
  · rw [ht.cpu, decide_eq_true (hpos 5 (by decide)), hp.fromCpu]
    rfl

end

/-- The packet leaves on the port of its queue, as it came but for its destination, and is counted once,
as a packet from the CPU. -/
structure CpuForwarded (s t : Pipeline) (q : Fin 4) (p : Packet) (out : List Beat) : Prop where
  out_eq : out = p.first.sendTo (1#8 <<< (2 * q.val)) :: p.beats.tail
  kept : t.drop.dropArray = 0
  count : ∀ k, t.count k = s.count k
  cpu : t.cpuCount = s.cpuCount + 1

theorem Pipeline.inputs_idle : ∀ (idle : List Cycle) (s : Pipeline), (∀ c ∈ idle, c.s_axis = none) →
    s.inputs idle = []
  | [], _, _ => rfl
  | c :: idle, s, h => by
    have haccepted : s.accepted c = none := by
      unfold accepted
      rw [h c List.mem_cons_self, ite_self]
    show (s.accepted c).toList ++ (s.step c).inputs idle = []
    rw [haccepted, inputs_idle idle (s.step c) fun d hd => h d (List.mem_cons_of_mem _ hd)]
    rfl

/-- **A packet from the CPU is forwarded exactly if** the header flag of `dest_ip1` was low and some
route matches the destination address of the last packet from a port: then `lpm3` counts no miss. -/
theorem cpu_packet_iff {s : Pipeline} (hs : s.Reached) {p : Packet} {q : Fin 4}
    (hp : p.first.FromQueue q) {m : Macs} {cs idle : List Cycle} (hin : s.inputs cs = p.beats)
    (hidle : ∀ c ∈ idle, c.s_axis = none ∧ c.m_tready = true)
    (hlen : (s.run cs).weight ≤ idle.length) (hm : ∀ c ∈ cs ++ idle, c.macs = m)
    (hquiet : ∀ c ∈ cs ++ idle, c.Quiet) (hr : ∀ c ∈ cs ++ idle, c.reset ≠ 1) :
    CpuForwarded s (s.run (cs ++ idle)) q p (s.outputs (cs ++ idle)) ↔
      s.lookup.dest_ip1.regs.header = false ∧ ∃ j, (s.lookup.lpm_table j).Matches s.destip := by
  have hready := hs.ready
  have hrun : s.run (cs ++ idle) = (s.run cs).run idle := Clocked.run_append s cs idle
  have hdrained : (s.run (cs ++ idle)).Drained := by
    rw [hrun]
    exact Pipeline.drains (Pipeline.wellFormed_run hready.idle.wf cs) hidle hlen
  have hall : s.inputs (cs ++ idle) = p.beats := by
    refine (collect_append _ s cs idle).trans ?_
    show s.inputs cs ++ (s.run cs).inputs idle = _
    rw [hin, Pipeline.inputs_idle idle _ fun c hc => (hidle c hc).1, List.append_nil]
  have hkeep := dropArray_queue hready hp hall hdrained
  have hout := (InFlight.outputs_eq hready _ hm hall hdrained).trans (if_pos hkeep)
  cases hg : s.lookup.dest_ip1.regs.header with
  | true =>
    -- the stages take the first beat for the rest of a packet, so it has no destination
    rw [hg] at hout
    refine iff_of_false (fun h => ?_) fun h => by cases h.1
    have hfirst : p.first = p.first.sendTo (1#8 <<< (2 * q.val)) :=
      (List.cons.inj (hout.symm.trans h.out_eq)).1
    exact (p.first.port_sendTo q).2 (hfirst ▸ hp.2)
  | false =>
    rw [hg] at hready hout
    obtain ⟨hcount, hcpu⟩ := tallied_queue hready hp m hquiet hr hall hdrained
    have hiff : (lowestMatch (s.tables m).lpm s.destip).isSome = true ↔
        ∃ j, (s.lookup.lpm_table j).Matches s.destip := Tables.lowestMatch_isSome
    rw [← hiff]
    constructor
    · intro h
      refine ⟨rfl, ?_⟩
      by_contra hmiss
      have hone := hcount .lpmMiss
      rw [Bool.eq_false_iff.2 hmiss, h.count] at hone
      have hne : ∀ n : BitVec 32, n ≠ n + 1 := by simp
      exact hne _ hone
    · rintro ⟨-, hit⟩
      refine ⟨hout.trans (addressed_queue hp m), hkeep, fun k => ?_, hcpu⟩
      rw [hcount k, hit, Bool.not_true, Bool.and_false]
      rfl

/-- A packet from CPU queue 0. -/
def queuePacket : Packet where
  first := beatFor 1 2
  body := [beatFor 1 2]
  last := { beatFor 1 2 with tlast := true }
  first_tlast := rfl
  body_tlast := by simp [beatFor]
  last_tlast := rfl

/-- The three cycles in which it enters. -/
def queueCycles (m : Macs) : List Cycle := (List.range 3).map (cyclesWith m queuePacket.beats)

/-- Cycles in which nothing enters. -/
def idleCycles (m : Macs) (n : Nat) : List Cycle := List.replicate n ⟨none, true, 0, m, none, none, none⟩

theorem cpu_packet_iff_sample :
    CpuForwarded routedPipeline
      (routedPipeline.run (queueCycles sampleMacs
        ++ idleCycles sampleMacs (routedPipeline.run (queueCycles sampleMacs)).weight))
      0 queuePacket
      (routedPipeline.outputs (queueCycles sampleMacs
        ++ idleCycles sampleMacs (routedPipeline.run (queueCycles sampleMacs)).weight)) := by
  have hmem : ∀ {n : Nat} {c : Cycle}, c ∈ queueCycles sampleMacs ++ idleCycles sampleMacs n →
      c.macs = sampleMacs ∧ c.Quiet ∧ c.reset = 0 := by
    intro n c hc
    rcases List.mem_append.1 hc with hc | hc
    · obtain ⟨k, -, rfl⟩ := List.mem_map.1 hc
      exact ⟨rfl, ⟨rfl, rfl, rfl⟩, rfl⟩
    · rw [(List.mem_replicate.1 hc).2]
      exact ⟨rfl, ⟨rfl, rfl, rfl⟩, rfl⟩
  refine (cpu_packet_iff (m := sampleMacs) routedPipeline_reached (by decide) ?_ (fun c hc => ?_) ?_
    (fun c hc => (hmem hc).1) (fun c hc => (hmem hc).2.1) (fun c hc => ?_)).2
    ⟨by decide +kernel, 0, by decide +kernel⟩
  · exact inputs_isolated routedPipeline_reached.ready.idle (fun _ => rfl)
      (cyclesWith_isolated sampleMacs queuePacket) 3
  · rw [(List.mem_replicate.1 hc).2]
    exact ⟨rfl, rfl⟩
  · exact Nat.le_of_eq List.length_replicate.symm
  · rw [(hmem hc).2.2]
    decide

/-- After reset no route matches, so the packet is counted as a miss as well. -/
theorem cpu_packet_counted_missing :
    freshPipeline.Reached ∧ queuePacket.first.FromQueue 0 ∧
      freshPipeline.inputs ((List.range 51).map (cyclesWith portMacs queuePacket.beats))
        = queuePacket.beats ∧
      (freshPipeline.after (cyclesWith portMacs queuePacket.beats) 51).Drained ∧
      freshPipeline.count .lpmMiss = 0 ∧
      (freshPipeline.after (cyclesWith portMacs queuePacket.beats) 51).count .lpmMiss = 1 := by
  have hidle : freshPipeline.Idle := Pipeline.reset_idle udpTail 0 0 0
  have hx := cyclesWith_isolated portMacs queuePacket
  exact ⟨⟨udpTail, 0, 0, 0, [], rfl, rfl, hidle.drained⟩, by decide,
    inputs_isolated hidle (fun _ => rfl) hx 51, drained_isolated hidle (fun _ => rfl) hx (by decide),
    rfl, by decide +kernel⟩

end BirRouter
