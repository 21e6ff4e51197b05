import BirRouter.OutputPort.Routing
import Mathlib.Algebra.GroupWithZero.Nat

/-!
# The packet counters

* `Tallied` — for a packet on its own, which counters it has stepped by the time it has passed some of
  the stages;
* `steps_of_dropped`, `steps_of_kept` — a packet from a port steps the counters of the tests that it
  fails if it is dropped, and one counter if it is not;
* `counters_account` — packets one at a time, and the sum of the counters.
-/

set_option autoImplicit false

namespace BirRouter

open Clocked Stage

/-- The counters of packets from the ports. -/
inductive Counter where
  | dropped
  | wrongMac
  | nonIp
  | badTtl
  | ver
  | destHit
  | lpmMiss
  | arpMiss
  | forwarded
  deriving DecidableEq, Repr

/-- The counter registers. -/
def Pipeline.count (s : Pipeline) : Counter → BitVec 32
  | .dropped => s.drop.drop_packets1.regs.dropped_count
  | .wrongMac => s.drop.drop_packets1.regs.wrong_mac_count
  | .nonIp => s.lookup.dest_ip1.regs.non_ip_count
  | .badTtl => s.lookup.dest_ip1.regs.bad_ttl_count
  | .ver => s.lookup.dest_ip1.regs.ver_count
  | .destHit => s.lookup.dest_ip1.regs.dest_hit_count
  | .lpmMiss => s.lookup.lpm3.regs.lpm_miss_count
  | .arpMiss => s.arp.arp3.regs.arp_miss_count
  | .forwarded => s.arp.arp3.regs.forwarded_count

def Pipeline.cpuCount (s : Pipeline) : BitVec 32 := s.checksum.delay.regs.cpu_count

/-- The counters that the packet `p` has stepped, by what the stages have found and how far it has
come. -/
def Pipeline.steps (s : Pipeline) (p : Packet) (o : Nat → Nat) : Counter → Bool
  | .dropped => decide (0 < o 6) && s.drop.dropArray.getLsbD 0
  | .wrongMac => decide (0 < o 6) && decide (s.drop.dropArray.extractLsb' 1 4 ≠ 0)
  | .nonIp => decide (0 < o 8) && decide (s.lookup.dest_ip1.regs.cpu_hit_array = 4)
  | .badTtl => decide (0 < o 8) && decide (s.lookup.dest_ip1.regs.cpu_hit_array = 1)
  | .ver => decide (0 < o 8) && decide (s.lookup.dest_ip1.regs.cpu_hit_array = 2)
  | .destHit => decide (0 < o 8) && decide (s.lookup.dest_ip1.regs.cpu_hit_array = 8)
  | .lpmMiss => decide (0 < o 12) &&
    (!(s.filtered false p).first.toCpu && !s.lookup.lpm2.regs.lpm_hit)
  | .arpMiss => decide (0 < o 15) &&
    (decide ((s.routed false p).first.dstPort = 0) && !s.arp.arp2.regs.arp_hit)
  | .forwarded => decide (0 < o 15) &&
    (decide ((s.routed false p).first.dstPort = 0) && s.arp.arp2.regs.arp_hit)

/-- Before it has entered it has stepped none. -/
theorem Pipeline.steps_zero (s : Pipeline) (p : Packet) (k : Counter) :
    s.steps p (fun _ => 0) k = false := by
  cases k <;> simp [steps]

def stepped (b : Bool) (n : BitVec 32) : BitVec 32 := if b then n + 1 else n

/-- A counter that a stage steps with the packet's first beat, if `x` holds then. -/
theorem Passing.stepped {k : Nat} {ρ : Type} {p : Packet} {header : Bool} {i o : Nat} {s : Stage k ρ}
    {m_tready x c c' : Bool} {n n' n0 : BitVec 32} (h : Passing p false i o header s)
    (hn : n = stepped (decide (0 < o) && c) n0)
    (hstep : n' = if (!header && (s.axis m_tready).first) && x then n + 1 else n)
    (hload : (!header && (s.axis m_tready).first) = true → s.beat = p.first → 0 < i → x = c')
    (hkeep : 0 < o → c' = c) :
    n' = BirRouter.stepped (decide (0 < o + (s.popped m_tready).toList.length) && c') n0 := by
  rcases Nat.eq_zero_or_pos (o + (s.popped m_tready).toList.length) with h0 | hpos
  · -- nothing has passed
    obtain ⟨ho, hp⟩ : o = 0 ∧ (s.popped m_tready).toList.length = 0 := by omega
    have hnone : s.popped m_tready = none := by
      cases hb : s.popped m_tready with
      | none => rfl
      | some b => simp [hb] at hp
    rw [hstep, h.starts, hnone, hn, ho]
    rfl
  · obtain ⟨hi, ⟨ho, hb⟩ | ⟨ho, h0⟩⟩ := h.loads_or_keeps hpos
    · have hzero : o = 0 := by
        by_contra hne
        rw [h.not_starts (Nat.pos_of_ne_zero hne)] at ho
        cases ho
      have hn0 : n = n0 := by
        rw [hn, hzero]
        rfl
      rw [hstep, ho, hload ho hb hi, hn0, decide_eq_true hpos]
      rfl
    · rw [hstep, ho, hn, decide_eq_true h0, decide_eq_true hpos, hkeep h0]
      rfl

/-- Each counter is what it was before the packet, or one more. -/
structure Tallied (p : Packet) (s0 : Pipeline) (o : Nat → Nat) (s : Pipeline) : Prop where
  count : ∀ k, s.count k = stepped (s.steps p o k) (s0.count k)
  cpu : s.cpuCount = stepped (decide (0 < o 5) && p.first.fromCpu) s0.cpuCount

section

variable {p : Packet} {o : Nat → Nat} {s s0 : Pipeline} {c : Cycle}

theorem Tallied.step (h : InFlight p false o s) (ht : Tallied p s0 o s) (hr : c.reset ≠ 1) :
    Tallied p s0 (s.advance c o) (s.step c) := by
  have hdrop : s.drop.drop_packets1.regs.starts
      (s.drop.drop_packets1.axis s.drop.drop_packets2.tready) = true →
      (s.step c).drop.dropArray = DropPackets1.dropArray
        s.drop.drop_packets1.regs.checksum_override c.macs s.checksum.delay.regs.checksum_out
        s.drop.drop_packets1.beat := by
    intro hs
    refine (DropPackets1.step_drop_array _ _ _ _ _ _ _).trans ?_
    rw [hs]
    rfl
  obtain ⟨hnon, httl, hver, hdest⟩ := DestIp1.step_counts s.lookup.dest_ip1.regs
    s.lookup.dest_ip_table (s.lookup.dest_ip1.axis s.lookup.dest_ip2.tready) s.lookup.dest_ip1.beat
    s.drop.drop_packets2.regs.destip_addr c.reset hr
  have hclass : ∀ d : BitVec 6, (!s.lookup.dest_ip1.regs.header &&
      (s.lookup.dest_ip1.axis s.lookup.dest_ip2.tready).first) = true →
      decide (DestIp1.cpuHitArray s.lookup.dest_ip_table s.lookup.dest_ip1.beat
        s.drop.drop_packets2.regs.destip_addr = d)
        = decide ((s.step c).lookup.dest_ip1.regs.cpu_hit_array = d) := by
    intro d hs
    have hhit : (s.step c).lookup.dest_ip1.regs.cpu_hit_array = _ :=
      DestIp1.step_cpu_hit_array _ _ _ _ _ _
    rw [hhit, hs, if_pos rfl]
  have hsame : ∀ d : BitVec 6, 0 < o 8 →
      decide ((s.step c).lookup.dest_ip1.regs.cpu_hit_array = d)
        = decide (s.lookup.dest_ip1.regs.cpu_hit_array = d) := by
    intro d h0
    rw [h.cpu_hit_array_step c h0]
  refine ⟨fun k => ?_, h.delay.stepped ht.cpu (IpAddrChecksumDelay.step_cpu_count _ _ _ _ hr)
    (fun _ hb _ => by rw [hb]) (fun _ => rfl)⟩
  cases k with
  | dropped =>
    refine h.drop_packets1.stepped (ht.count .dropped)
      (DropPackets1.step_dropped_count _ _ _ _ _ _ _ hr) (fun hs _ _ => ?_) (fun h0 => by rw [h.dropArray_step c h0])
    rw [hdrop hs, (DropPackets1.dropArray_bits _ _ _ _).1]
  | wrongMac =>
    refine h.drop_packets1.stepped (ht.count .wrongMac)
      (DropPackets1.step_wrong_mac_count _ _ _ _ _ _ _ hr) (fun hs _ _ => ?_) (fun h0 => by rw [h.dropArray_step c h0])
    rw [hdrop hs, (DropPackets1.dropArray_bits _ _ _ _).2]
  | nonIp => exact h.dest_ip1.stepped (ht.count .nonIp) hnon (fun hs _ _ => hclass 4 hs) (hsame 4)
  | badTtl => exact h.dest_ip1.stepped (ht.count .badTtl) httl (fun hs _ _ => hclass 1 hs) (hsame 1)
  | ver => exact h.dest_ip1.stepped (ht.count .ver) hver (fun hs _ _ => hclass 2 hs) (hsame 2)
  | destHit => exact h.dest_ip1.stepped (ht.count .destHit) hdest (fun hs _ _ => hclass 8 hs) (hsame 8)
  | lpmMiss =>
    refine h.lpm3.stepped (ht.count .lpmMiss) (Lpm3.clock_count h.lookup.lpm3 _ hr) (fun _ hb hi => ?_)
      (fun h0 => ?_)
    · rw [h.filtered_step c (h.passed_before c (by decide) hi), h.lpm_hit_step c hi, ← hb]
      rfl
    · rw [h.filtered_step c (h.passed_before c (by decide) h0),
        h.lpm_hit_step c (h.passed_before c (by decide) h0)]
  | arpMiss =>
    refine h.arp3.stepped (ht.count .arpMiss) (Arp3.step_counts h.arp.arp3 _ hr).1 (fun _ hb hi => ?_)
      (fun h0 => ?_)
    · rw [h.routed_step c (h.passed_before c (by decide) hi), h.arp_hit_step c hi, hb]
    · rw [h.routed_step c (h.passed_before c (by decide) h0),
        h.arp_hit_step c (h.passed_before c (by decide) h0)]
  | forwarded =>
    refine h.arp3.stepped (ht.count .forwarded) (Arp3.step_counts h.arp.arp3 _ hr).2 (fun _ hb hi => ?_)
      (fun h0 => ?_)
    · rw [h.routed_step c (h.passed_before c (by decide) hi), h.arp_hit_step c hi, hb]
    · rw [h.routed_step c (h.passed_before c (by decide) h0),
        h.arp_hit_step c (h.passed_before c (by decide) h0)]

theorem Tallied.run (hs : s.Ready false) {cs : List Cycle} (hr : ∀ c ∈ cs, c.reset ≠ 1)
    (hin : s.inputs cs <+: p.beats) : Tallied p s (s.counts cs) (s.run cs) := by
  refine (InFlight.run hs (fun o _ t => Tallied p s o t) (fun c => c.reset ≠ 1) ⟨fun k => ?_, rfl⟩
    (fun _ _ _ _ h _ hok ht => ht.step h hok) cs hr hin).2
  rw [Pipeline.steps_zero]
  rfl

/-- The class of the packet, whatever the filter table holds and the address is. -/
theorem classified_run (hs : s.Ready false) {cs : List Cycle} (hin : s.inputs cs <+: p.beats)
    (hpos : 0 < s.counts cs 8) : ∃ dest_ip_table destip_addr,
      (s.run cs).lookup.dest_ip1.regs.cpu_hit_array
        = DestIp1.cpuHitArray dest_ip_table p.first destip_addr := by
  refine (InFlight.run hs (fun o _ t => 0 < o 8 → ∃ dest_ip_table destip_addr,
    t.lookup.dest_ip1.regs.cpu_hit_array = DestIp1.cpuHitArray dest_ip_table p.first destip_addr)
    (fun _ => True) (fun h => absurd h (Nat.lt_irrefl 0)) (fun o _ t c h _ _ hJ hpos => ?_) cs
    (fun _ _ => trivial) hin).2 hpos
  rcases (h.dest_ip1.loads_or_keeps hpos).2 with ⟨ho, hb⟩ | ⟨-, h0⟩
  · refine ⟨t.lookup.dest_ip_table, t.drop.drop_packets2.regs.destip_addr, ?_⟩
    refine (DestIp1.step_cpu_hit_array _ _ _ _ _ _).trans ?_
    rw [ho, if_pos rfl, hb]
  · rw [h.cpu_hit_array_step c h0]
    exact hJ h0

/-- The packet is dropped for its checksum as well as for its address. -/
def Pipeline.failsBoth (s : Pipeline) : Bool :=
  s.drop.dropArray.getLsbD 0 && decide (s.drop.dropArray.extractLsb' 1 4 ≠ 0)

/-- A packet that is dropped steps the counters of the tests that it fails. -/
theorem steps_of_dropped (hdrop : s.drop.dropArray ≠ 0) (h6 : 0 < o 6)
    (hzero : ∀ n, 8 ≤ n → n ≤ 15 → o n = 0) :
    (s.failsBoth = false → ∃ j, ∀ k, s.steps p o k = decide (k = j)) ∧
      (s.failsBoth = true → ∀ k, s.steps p o k = decide (k = .dropped ∨ k = .wrongMac)) := by
  have h8 := hzero 8 (by decide) (by decide)
  have h12 := hzero 12 (by decide) (by decide)
  have h15 := hzero 15 (by decide) (by decide)
  have hsteps : ∀ k, s.steps p o k = (decide (k = .dropped) && s.drop.dropArray.getLsbD 0 ||
      decide (k = .wrongMac) && decide (s.drop.dropArray.extractLsb' 1 4 ≠ 0)) := by
    intro k
    cases k <;> simp [Pipeline.steps, h6, h8, h12, h15]
  have hone : s.drop.dropArray.getLsbD 0 = true ∨ s.drop.dropArray.extractLsb' 1 4 ≠ 0 := by
    generalize s.drop.dropArray = a at hdrop
    revert a
    decide
  unfold Pipeline.failsBoth
  cases hb : s.drop.dropArray.getLsbD 0 with
  | false =>
    have hmac := hone.resolve_left (by rw [hb]; exact Bool.false_ne_true)
    refine ⟨fun _ => ⟨.wrongMac, fun k => ?_⟩, fun h => by cases h⟩
    rw [hsteps, hb, decide_eq_true hmac]
    simp
  | true =>
    refine ⟨fun h => ⟨.dropped, fun k => ?_⟩, fun h k => ?_⟩
    · rw [hsteps, hb, show decide _ = false from h]
      simp
    · rw [hsteps, hb, show decide _ = true from h]
      simp

/-- A packet from a port that is not dropped steps one counter. -/
theorem steps_of_kept {q : Fin 4} (hp : p.first.FromPort q) (hkeep : s.drop.dropArray = 0)
    (hpos : ∀ n, n ≤ 15 → 0 < o n) {dest_ip_table : BitVec 5 → BitVec 32} {destip_addr : BitVec 32}
    (hclass : s.lookup.dest_ip1.regs.cpu_hit_array
      = DestIp1.cpuHitArray dest_ip_table p.first destip_addr) :
    ∃ j, ∀ k, s.steps p o k = decide (k = j) := by
  obtain ⟨hcpu, hdst⟩ := p.first.toCpu_sendTo q
  replace hdst : ¬ (p.first.sendTo (2#8 <<< (2 * q.val))).dstPort = 0#8 := hdst
  have hfiltered := filtered_first (s := s) hp
  have hrouted : (s.routed false p).first
    = Lpm3.onFirst s.lookup.lpm2.regs.lpm_hit (s.filtered false p).first := rfl
  have hcases := DestIp1.cpuHitArray_cases dest_ip_table p.first destip_addr
  rw [← hclass] at hcases
  have h8 := hpos 8 (by decide)
  have h12 := hpos 12 (by decide)
  have h15 := hpos 15 (by decide)
  by_cases hhit : s.lookup.dest_ip1.regs.cpu_hit_array = 0
  · -- the packet is looked up
    rw [if_neg (not_not_intro hhit)] at hfiltered
    rw [hfiltered] at hrouted
    cases hlpm : s.lookup.lpm2.regs.lpm_hit with
    | false =>
      rw [hlpm, Lpm3.onFirst_of_miss hp.toCpu, hp.miss] at hrouted
      refine ⟨.lpmMiss, fun k => ?_⟩
      cases k <;> simp [Pipeline.steps, hkeep, h12, hhit, hfiltered, hp.toCpu, hlpm, hrouted, hdst]
    | true =>
      rw [hlpm, Lpm3.onFirst_of_hit] at hrouted
      have hdst0 : p.first.dstPort = 0 := hp.2
      cases harp : s.arp.arp2.regs.arp_hit with
      | false =>
        refine ⟨.arpMiss, fun k => ?_⟩
        cases k <;> simp [Pipeline.steps, hkeep, h15, hhit, hlpm, hrouted, harp, hdst0]
      | true =>
        refine ⟨.forwarded, fun k => ?_⟩
        cases k <;> simp [Pipeline.steps, hkeep, h15, hhit, hlpm, hrouted, harp, hdst0]
  · -- the packet is left to the software
    rw [if_pos hhit] at hfiltered
    rw [hfiltered, Lpm3.onFirst_of_toCpu hcpu] at hrouted
    rcases hcases with h | h | h | h | h
    · exact absurd h hhit
    · refine ⟨.badTtl, fun k => ?_⟩
      cases k <;> simp [Pipeline.steps, hkeep, h8, h, hfiltered, hcpu, hrouted, hdst]
    · refine ⟨.ver, fun k => ?_⟩
      cases k <;> simp [Pipeline.steps, hkeep, h8, h, hfiltered, hcpu, hrouted, hdst]
    · refine ⟨.nonIp, fun k => ?_⟩
      cases k <;> simp [Pipeline.steps, hkeep, h8, h, hfiltered, hcpu, hrouted, hdst]
    · refine ⟨.destHit, fun k => ?_⟩
      cases k <;> simp [Pipeline.steps, hkeep, h8, h, hfiltered, hcpu, hrouted, hdst]

end

/-! ## Packets one at a time -/

/-- A packet and the cycles in which it passes the pipeline. -/
structure Transit where
  packet : Packet
  cycles : List Cycle

def Pipeline.transit (s : Pipeline) (x : Transit) : Pipeline := s.run x.cycles

/-- A packet from a port enters and leaves, nothing else enters, and the counters are not reset. -/
structure Transit.OnItsOwn (s : Pipeline) (x : Transit) : Prop where
  port : ∃ q, x.packet.first.FromPort q
  inputs : s.inputs x.cycles = x.packet.beats
  drained : (s.transit x).Drained
  counting : ∀ c ∈ x.cycles, c.reset ≠ 1

/-- What one packet does to the counters: it steps one of them, or the two of the two tests. -/
def Accounted (s t : Pipeline) : Prop :=
  if t.failsBoth then ∀ k, t.count k = stepped (decide (k = .dropped ∨ k = .wrongMac)) (s.count k)
  else ∃ j, ∀ k, t.count k = stepped (decide (k = j)) (s.count k)

theorem Transit.OnItsOwn.accounted {s : Pipeline} (hs : s.Ready false) {x : Transit}
    (h : x.OnItsOwn s) : Accounted s (s.transit x) := by
  obtain ⟨q, hp⟩ := h.port
  have hin : s.inputs x.cycles <+: x.packet.beats := h.inputs ▸ List.prefix_rfl
  have hfl := InFlight.of_run hs hin
  have htally := (Tallied.run hs h.counting hin).count
  have h0 : s.counts x.cycles 0 = x.packet.beats.length := by rw [Pipeline.counts_zero, h.inputs]
  have htwo := x.packet.two_le_length
  obtain ⟨hup, hdown⟩ := hfl.counts_drained h.drained
  unfold Accounted
  by_cases hkeep : (s.transit x).drop.dropArray = 0
  · have hpos := Pipeline.counts_pos hs h.inputs h.drained hkeep
    obtain ⟨table, addr, hclass⟩ := classified_run hs hin (hpos 8 (by decide))
    obtain ⟨j, hj⟩ := steps_of_kept hp hkeep hpos hclass
    have hboth : (s.transit x).failsBoth = false := by
      unfold Pipeline.failsBoth
      rw [hkeep]
      rfl
    rw [hboth]
    exact ⟨j, fun k => hj k ▸ htally k⟩
  · have h6 := hup 6 (by decide)
    obtain ⟨hone, htwo⟩ := steps_of_dropped (p := x.packet) hkeep (o := s.counts x.cycles) (by omega)
      fun n hn hn' => (hdown n hn hn').trans (if_neg hkeep)
    cases hboth : (s.transit x).failsBoth with
    | false =>
      obtain ⟨j, hj⟩ := hone hboth
      exact ⟨j, fun k => hj k ▸ htally k⟩
    | true => exact fun k => htwo hboth k ▸ htally k

theorem Transit.OnItsOwn.ready {s : Pipeline} (hs : s.Ready false) {x : Transit}
    (h : x.OnItsOwn s) : (s.transit x).Ready false := by
  have hin : s.inputs x.cycles <+: x.packet.beats := h.inputs ▸ List.prefix_rfl
  have hfl := InFlight.of_run hs hin
  have hready := hfl.ready (Pipeline.wellFormed_run hs.idle.wf _) h.drained
    (by rw [Pipeline.counts_zero, h.inputs])
  rwa [ite_self] at hready

/-! ## The sum of the counters -/

def Counter.all : List Counter :=
  [.dropped, .wrongMac, .nonIp, .badTtl, .ver, .destHit, .lpmMiss, .arpMiss, .forwarded]

/-- The sum of the counters. -/
def Pipeline.total (s : Pipeline) : Nat := (Counter.all.map fun k => (s.count k).toNat).sum

/-- No counter overflows from one state to the other. -/
def NoOverflow (s t : Pipeline) : Prop := ∀ k, (s.count k).toNat ≤ (t.count k).toNat

/-- The packets that fail both tests. -/
def Pipeline.doubles (s : Pipeline) (xs : List Transit) : List Transit :=
  collect Pipeline.transit (fun s x => if (s.transit x).failsBoth then [x] else []) s xs

theorem toNat_stepped {b : Bool} {n : BitVec 32} (h : n.toNat ≤ (stepped b n).toNat) :
    (stepped b n).toNat = n.toNat + b.toNat := by
  cases b with
  | false => rfl
  | true =>
    have hlt := n.isLt
    have hadd : (stepped true n).toNat = (n.toNat + 1) % 2 ^ 32 := BitVec.toNat_add n 1
    rw [hadd] at h ⊢
    show _ = n.toNat + 1
    omega

theorem sum_stepped {s t : Pipeline} {b : Counter → Bool} (hno : NoOverflow s t)
    (h : ∀ k, t.count k = stepped (b k) (s.count k)) (l : List Counter) :
    (l.map fun k => (t.count k).toNat).sum = (l.map fun k => (s.count k).toNat).sum + l.countP b := by
  induction l with
  | nil => rfl
  | cons k l ih =>
    have hk : (t.count k).toNat = (s.count k).toNat + (b k).toNat := by
      have hle := hno k
      rw [h k] at hle ⊢
      exact toNat_stepped hle
    rw [List.map_cons, List.map_cons, List.sum_cons, List.sum_cons, List.countP_cons, ih, hk]
    cases b k
    · simp
      omega
    · simp
      omega

theorem Accounted.total {s t : Pipeline} (h : Accounted s t) (hno : NoOverflow s t) :
    t.total = s.total + 1 + t.failsBoth.toNat := by
  unfold Accounted at h
  cases hb : t.failsBoth with
  | true =>
    rw [hb] at h
    have hsum := sum_stepped hno h Counter.all
    have htwo : Counter.all.countP (fun k => decide (k = .dropped ∨ k = .wrongMac)) = 2 := by decide
    unfold Pipeline.total
    rw [hsum, htwo, Bool.toNat_true]
  | false =>
    rw [hb] at h
    obtain ⟨j, hj⟩ := h
    have hsum := sum_stepped hno hj Counter.all
    have hone : ∀ j : Counter, Counter.all.countP (fun k => k = j) = 1 := by
      intro j
      cases j <;> decide
    unfold Pipeline.total
    rw [hsum, hone, Bool.toNat_false, Nat.add_zero]

/-- The sum over a run. -/
theorem total_run : ∀ (xs : List Transit) {s : Pipeline},
    Along Pipeline.transit (fun s x => Accounted s (s.transit x)) s xs →
    Along Pipeline.transit (fun s x => NoOverflow s (s.transit x)) s xs →
    (run Pipeline.transit s xs).total = s.total + xs.length + (s.doubles xs).length
  | [], s, _, _ => by
    have hrun : run Pipeline.transit s [] = s := rfl
    have hnone : (s.doubles []).length = 0 := rfl
    rw [hrun, hnone, List.length_nil, Nat.add_zero]
  | x :: xs, s, h, hno => by
    have ih := total_run xs h.2 hno.2
    have hlen : (s.doubles (x :: xs)).length
        = (s.transit x).failsBoth.toNat + ((s.transit x).doubles xs).length := by
      show ((if (s.transit x).failsBoth then [x] else []) ++ (s.transit x).doubles xs).length = _
      rw [List.length_append]
      cases (s.transit x).failsBoth <;> rfl
    rw [run_cons, ih, h.1.total hno.1, hlen, List.length_cons]
    omega

theorem toNat_stepped_le {b : Bool} {n : BitVec 32} (h : n.toNat + 1 < 4294967296) :
    n.toNat ≤ (stepped b n).toNat ∧ (stepped b n).toNat ≤ n.toNat + 1 := by
  have hadd : (n + 1).toNat = (n.toNat + 1) % 2 ^ 32 := BitVec.toNat_add n 1
  unfold stepped
  split
  · omega
  · omega

/-- A packet steps a counter by one at most. -/
theorem Accounted.step_le {s t : Pipeline} (h : Accounted s t) (k : Counter)
    (hk : (s.count k).toNat + 1 < 4294967296) :
    (s.count k).toNat ≤ (t.count k).toNat ∧ (t.count k).toNat ≤ (s.count k).toNat + 1 := by
  unfold Accounted at h
  split at h
  · rw [h k]
    exact toNat_stepped_le hk
  · obtain ⟨j, hj⟩ := h
    rw [hj k]
    exact toNat_stepped_le hk

/-- **No counter overflows** as long as there are not too many packets. -/
theorem noOverflow_of_few : ∀ (xs : List Transit) {s : Pipeline},
    Along Pipeline.transit (fun s x => Accounted s (s.transit x)) s xs →
    (∀ k, (s.count k).toNat + xs.length < 4294967296) →
    Along Pipeline.transit (fun s x => NoOverflow s (s.transit x)) s xs
  | [], _, _, _ => trivial
  | x :: xs, s, h, hfew => by
    have hstep : ∀ k, (s.count k).toNat ≤ ((s.transit x).count k).toNat ∧
        ((s.transit x).count k).toNat ≤ (s.count k).toNat + 1 := by
      intro k
      have := hfew k
      rw [List.length_cons] at this
      exact h.1.step_le k (by omega)
    refine ⟨fun k => (hstep k).1, noOverflow_of_few xs h.2 fun k => ?_⟩
    have := hfew k
    have := (hstep k).2
    rw [List.length_cons] at *
    omega

/-- **The counters account for every packet**: of packets that come from the ports one at a time each
steps one counter, or two of them if it fails the checksum test and the test of its address, and the
counters add up to the number of packets and of those that fail both. -/
theorem counters_account (word : Beat) (low_ip_addr : BitVec 16) (ip_addr1 ip_addr2 : BitVec 32)
    (xs : List Transit)
    (h : Along Pipeline.transit (fun s x => x.OnItsOwn s)
      (Pipeline.reset word low_ip_addr ip_addr1 ip_addr2) xs) :
    Along Pipeline.transit (fun s x => Accounted s (s.transit x))
        (Pipeline.reset word low_ip_addr ip_addr1 ip_addr2) xs ∧
      (Along Pipeline.transit (fun s x => NoOverflow s (s.transit x))
          (Pipeline.reset word low_ip_addr ip_addr1 ip_addr2) xs →
        (run Pipeline.transit (Pipeline.reset word low_ip_addr ip_addr1 ip_addr2) xs).total
          = xs.length
            + ((Pipeline.reset word low_ip_addr ip_addr1 ip_addr2).doubles xs).length) := by
  have hready : (Pipeline.reset word low_ip_addr ip_addr1 ip_addr2).Ready false :=
    (Pipeline.reset_chained word low_ip_addr ip_addr1 ip_addr2).ready
      (Pipeline.reset_drained word low_ip_addr ip_addr1 ip_addr2)
  have hacc := along_of_invariant (Pipeline.Ready false) (fun s x => Transit.OnItsOwn s x)
    (fun _ _ hs hx => hx.ready hs) (fun _ _ hs hx => hx.accounted hs) _ xs hready h
  refine ⟨hacc, fun hno => ?_⟩
  rw [total_run xs hacc hno, show (Pipeline.reset word low_ip_addr ip_addr1 ip_addr2).total = 0 from rfl,
    Nat.zero_add]

/-- The cycles in which a packet arrives on its own, with checksums being checked. -/
def checkedCycles (m : Macs) (p : Packet) (n : Nat) : Cycle :=
  { cyclesWith m p.beats n with reset := 2 }

/-- A packet of two beats takes 50 cycles. -/
def checkedTransit (m : Macs) (p : Packet) : Transit := ⟨p, (List.range 50).map (checkedCycles m p)⟩

theorem checkedTransit_onItsOwn {s : Pipeline} (hs : s.Idle) (m : Macs) {p : Packet} {q : Fin 4}
    (hp : p.first.FromPort q) (hlen : p.beats.length = 2) : (checkedTransit m p).OnItsOwn s := by
  have hr : ∀ n, (checkedCycles m p n).m_tready = true := fun _ => rfl
  have hx : (fun n => (checkedCycles m p n).s_axis) = isolated p := rfl
  refine ⟨⟨q, hp⟩, ?_, drained_isolated hs hr hx (by omega), fun c hc => ?_⟩
  · refine (inputs_isolated hs hr hx 50).trans (List.take_of_length_le ?_)
    omega
  · obtain ⟨n, -, rfl⟩ := List.mem_map.1 hc
    show (2 : BitVec 32) ≠ 1
    decide

/-- Such packets, one after the other. -/
theorem checkedTransits_onTheirOwn : ∀ {s : Pipeline} (_ : s.Ready false) (xs : List (Macs × Packet)),
    (∀ x ∈ xs, (∃ q, x.2.first.FromPort q) ∧ x.2.beats.length = 2) →
    Along Pipeline.transit (fun s x => Transit.OnItsOwn s x) s (xs.map fun x => checkedTransit x.1 x.2)
  | _, _, [], _ => trivial
  | s, hs, x :: xs, h => by
    obtain ⟨⟨⟨q, hp⟩, hlen⟩, hrest⟩ := List.forall_mem_cons.1 h
    have hown : (checkedTransit x.1 x.2).OnItsOwn s := checkedTransit_onItsOwn hs.idle x.1 hp hlen
    exact ⟨hown, checkedTransits_onTheirOwn (hown.ready hs) xs hrest⟩

/-- Two packets that pass both tests, and between them one that fails both. -/
def threePackets : List (Macs × Packet) :=
  [(sampleMacs, udpPacket 1 0x6696 2), (portMacs, udpPacket 1 0 2), (sampleMacs, udpPacket 2 0x6694 3)]

def threeTransits : List Transit := threePackets.map fun x => checkedTransit x.1 x.2

theorem counters_account_sample :
    (run Pipeline.transit (.reset udpTail 0 0 0) threeTransits).total
        = threeTransits.length + (Pipeline.doubles (.reset udpTail 0 0 0) threeTransits).length ∧
      (Pipeline.doubles (.reset udpTail 0 0 0) threeTransits).length = 1 := by
  have hready : (Pipeline.reset udpTail 0 0 0).Ready false :=
    (Pipeline.reset_chained udpTail 0 0 0).ready (Pipeline.reset_drained udpTail 0 0 0)
  have hown := checkedTransits_onTheirOwn hready threePackets fun x hx => by
    have hall : ∀ x ∈ threePackets, x.2.first.FromPort 0 ∧ x.2.beats.length = 2 := by decide
    exact ⟨⟨0, (hall x hx).1⟩, (hall x hx).2⟩
  have hzero : ∀ k, ((Pipeline.reset udpTail 0 0 0).count k).toNat + threeTransits.length
      < 4294967296 := fun k => by cases k <;> decide
  obtain ⟨hacc, htotal⟩ := counters_account udpTail 0 0 0 threeTransits hown
  exact ⟨htotal (noOverflow_of_few threeTransits hacc hzero), by decide +kernel⟩

/-- A packet from port 0 with a wrong checksum and a wrong address is counted twice. -/
theorem counted_twice :
    (checkedTransit portMacs (udpPacket 1 0 2)).OnItsOwn freshPipeline ∧
      (udpPacket 1 0 2).first.FromPort 0 ∧
      (freshPipeline.transit
        (checkedTransit portMacs (udpPacket 1 0 2))).drop.drop_packets1.regs.checksum_override = false ∧
      (freshPipeline.transit (checkedTransit portMacs (udpPacket 1 0 2))).count .dropped = 1 ∧
      (freshPipeline.transit (checkedTransit portMacs (udpPacket 1 0 2))).count .wrongMac = 1 ∧
      (freshPipeline.transit (checkedTransit portMacs (udpPacket 1 0 2))).total = 2 :=
  ⟨checkedTransit_onItsOwn (Pipeline.reset_idle udpTail 0 0 0) portMacs (q := 0) (by decide) rfl,
    by decide, by decide +kernel, by decide +kernel, by decide +kernel, by decide +kernel⟩

end BirRouter
