import BirRouter.OutputPort.HeaderWords
import BirRouter.OutputPort.PipelineFacts

/-!
# When the header data of a packet meet the packet

With an output that is always ready a beat that enters in cycle `t` leaves the `k`-th stage in cycle
`t + 3 k`.  The sums and the low half of the destination address travel in registers that the next
packet overwrites, so whether they meet their own packet in `drop_packets1` is a question of arrival
times.

* `inPacket`, `opens`, `seconds` — the arrivals that open a packet and those that follow directly;
* `Timed` — where the beats are in every cycle, and what the header flags are;
* `hold_three` — a register that is loaded with a packet's first beat and read three cycles later;
* `header_data_runs` — packets whose second beat is not late and that do not follow each other too
  closely find their own data;
* `checksum_agrees_iff` — the checksum test of an isolated packet, compared with the software's.
-/

set_option autoImplicit false

namespace BirRouter

/-! ## Arrivals -/

/-- The beats that arrive, cycle by cycle. -/
abbrev Arrivals := Nat → Option Beat

namespace Arrivals

variable (x : Arrivals)

/-- What arrived `d` cycles before cycle `c`. -/
def delayed (d c : Nat) : Option Beat := if d ≤ c then x (c - d) else none

/-- A packet has begun and not ended before cycle `n`. -/
def inPacket : Nat → Bool
  | 0 => false
  | n + 1 => Stage.ends (inPacket n) (x n).toList

/-- A packet begins in cycle `n`. -/
def opens (n : Nat) : Bool := (x n).any fun b => !x.inPacket n && !b.tlast

/-- What arrived `d` cycles before cycle `c` began a packet. -/
def startsAt (d c : Nat) : Bool := (x.delayed d c).any fun b => !x.inPacket (c - d) && !b.tlast

/-- The last beat before cycle `n` began a packet. -/
def awaits : Nat → Bool
  | 0 => false
  | n + 1 => if (x n).isSome then x.opens n else awaits n

/-- The second beat of a packet arrives in cycle `n`. -/
def seconds (n : Nat) : Bool := x.awaits n && (x n).isSome

variable {x}

theorem delayed_succ (d c : Nat) : x.delayed (d + 1) (c + 1) = x.delayed d c := by
  simp only [delayed, Nat.add_le_add_iff_right, Nat.add_sub_add_right]

theorem delayed_add (t d : Nat) : x.delayed d (t + d) = x t := by
  unfold delayed
  rw [if_pos (by omega), Nat.add_sub_cancel]

theorem startsAt_add (t d : Nat) : x.startsAt d (t + d) = x.opens t := by
  unfold startsAt
  rw [delayed_add, Nat.add_sub_cancel]
  rfl

theorem inPacket_delayed (d c : Nat) :
    x.inPacket (c + 1 - d) = Stage.ends (x.inPacket (c - d)) (x.delayed d c).toList := by
  unfold delayed
  split
  · rename_i h
    rw [Nat.sub_add_comm h]
    rfl
  · rename_i h
    have h0 : c + 1 - d = 0 := by omega
    have h1 : c - d = 0 := by omega
    rw [h0, h1]
    rfl

theorem awaits_delayed (d c : Nat) :
    x.awaits (c + 1 - d)
      = if (x.delayed d c).isSome then x.startsAt d c else x.awaits (c - d) := by
  unfold startsAt delayed
  split
  · rename_i h
    rw [Nat.sub_add_comm h]
    rfl
  · rename_i h
    have h0 : c + 1 - d = 0 := by omega
    have h1 : c - d = 0 := by omega
    rw [h0, h1]
    rfl

/-- A packet whose second beat is still to come has begun. -/
theorem inPacket_of_awaits : ∀ n, x.awaits n = true → x.inPacket n = true
  | 0, h => by cases h
  | n + 1, h => by
    rw [awaits] at h
    rw [inPacket]
    cases hx : x n with
    | none =>
      rw [hx] at h
      exact inPacket_of_awaits n h
    | some b =>
      rw [hx, Option.isSome_some, if_pos rfl, opens, hx, Option.any_some, Bool.and_eq_true] at h
      exact h.2

theorem awaits_eq_false {n : Nat} (h : x.inPacket n = false) : x.awaits n = false := by
  cases ha : x.awaits n with
  | false => rfl
  | true =>
    rw [inPacket_of_awaits n ha] at h
    cases h

end Arrivals

/-! ## Where the beats are -/

namespace Stage

/-- The stage is given what arrived `d` cycles ago and hands it on three cycles later; its header flag
is the one of the arrival it is about to hand on. -/
structure OnTime {k : Nat} {ρ : Type} (x : Arrivals) (d c : Nat) (header : Bool) (s : Stage k ρ) :
    Prop where
  flow : s.Flow (x.delayed (d + 1) c) (x.delayed (d + 2) c) (x.delayed (d + 3) c)
  header_eq : header = x.inPacket (c - (d + 3))

variable {k : Nat} {ρ : Type} {x : Arrivals} {d c : Nat} {header : Bool} {s : Stage k ρ}

namespace OnTime

/-- The beat handed on opens a packet if it did so on arrival. -/
theorem starts (h : s.OnTime x d c header) :
    (!header && (s.axis true).first) = x.startsAt (d + 3) c := by
  have hp := h.flow.popped
  rw [Axis.first_eq, h.header_eq]
  unfold Arrivals.startsAt
  cases hx : x.delayed (d + 3) c with
  | none =>
    rw [popped_eq_none.1 (hp.trans hx)]
    simp
  | some b =>
    obtain ⟨ht, rfl⟩ := popped_eq_some.1 (hp.trans hx)
    rw [ht]
    rfl

theorem beat_add {t : Nat} {b : Beat} (h : s.OnTime x d (t + (d + 3)) header)
    (hx : x t = some b) : s.beat = b := by
  have hp := h.flow.popped
  rw [Arrivals.delayed_add, hx] at hp
  exact (popped_eq_some.1 hp).2

theorem offer_eq (h : s.OnTime x d c header) : s.offer id = x.delayed (d + 3) c := by
  rw [← h.flow.popped]
  unfold offer popped
  cases s.tvalid <;> rfl

theorem tick (h : s.OnTime x d c header) (hk : 2 ≤ k) {s_axis : Option Beat}
    (hin : s_axis = x.delayed d c) {header' : Bool} {regs : ρ}
    (hh : header' = headerNext header (s.axis true)) :
    (s.tick s_axis true regs).OnTime x d (c + 1) header' where
  flow := by
    have hf := h.flow.tick hk s_axis regs
    rw [hin] at hf ⊢
    rwa [Arrivals.delayed_succ, Arrivals.delayed_succ, Arrivals.delayed_succ]
  header_eq := by
    rw [hh, headerNext_ends, h.flow.popped, h.header_eq, Arrivals.inPacket_delayed]

end OnTime

end Stage

/-- Every stage up to `drop_packets1` is on time. -/
structure Timed (x : Arrivals) (c : Nat) (s : Pipeline) : Prop where
  calm : s.Calm 0
  checksum1 : s.checksum.checksum1.OnTime x 0 c s.checksum.checksum1.regs.header
  checksum2 : s.checksum.checksum2.OnTime x 3 c s.checksum.checksum2.regs.header
  checksum2a : s.checksum.checksum2a.OnTime x 6 c s.checksum.checksum2a.regs.header
  checksum3 : s.checksum.checksum3.OnTime x 9 c s.checksum.checksum3.regs.header
  delay : s.checksum.delay.OnTime x 12 c s.checksum.delay.regs.header
  drop_packets1 : s.drop.drop_packets1.OnTime x 15 c s.drop.drop_packets1.regs.header
  header2 : s.checksum.checksum2.regs.header = true →
    s.checksum.checksum2.regs.header2 = !x.awaits (c - 6)

namespace Timed

variable {x : Arrivals} {c : Nat} {s : Pipeline}

/-- The latch of `checksum2` opens for the beats that arrived second. -/
theorem opens (h : Timed x c s) :
    s.checksum.checksum2.regs.opens (s.checksum.checksum2.axis true)
      = (x.awaits (c - 6) && (x.delayed 6 c).isSome) := by
  have htaken : (s.checksum.checksum2.axis true).taken = (x.delayed 6 c).isSome := by
    cases hx : x.delayed 6 c with
    | none => exact Stage.popped_eq_none.1 (h.checksum2.flow.popped.trans hx)
    | some b => exact (Stage.popped_eq_some.1 (h.checksum2.flow.popped.trans hx)).1
  unfold Checksum2.opens
  rw [htaken]
  cases hh : s.checksum.checksum2.regs.header with
  | true => rw [h.header2 hh, Bool.not_not, Bool.true_and]
  | false =>
    rw [Arrivals.awaits_eq_false (h.checksum2.header_eq.symm.trans hh)]
    rfl

theorem step (h : Timed x c s) {cyc : Cycle} (hr : cyc.m_tready = true) (hx : cyc.s_axis = x c) :
    Timed x (c + 1) (s.step cyc) where
  calm := Pipeline.calm_step h.calm hr (Nat.zero_le _) (by omega)
  checksum1 := by
    show (Stage.tick _ _ s.checksum.checksum2.tready _).OnTime _ _ _ _
    rw [h.calm.checksum2.tready]
    refine h.checksum1.tick (by decide) hx ?_
    show (Checksum1.step _ (s.checksum.checksum1.axis s.checksum.checksum2.tready) _).header = _
    rw [h.calm.checksum2.tready, Checksum1.step_header]
  checksum2 := by
    show (Stage.tick _ _ s.checksum.checksum2a.tready _).OnTime _ _ _ _
    rw [h.calm.checksum2a.tready]
    refine h.checksum2.tick (by decide) h.checksum1.offer_eq ?_
    show headerNext _ (s.checksum.checksum2.axis s.checksum.checksum2a.tready) = _
    rw [h.calm.checksum2a.tready]
  checksum2a := by
    show (Stage.tick _ _ s.checksum.checksum3.tready _).OnTime _ _ _ _
    rw [h.calm.checksum3.tready]
    refine h.checksum2a.tick (by decide) h.checksum2.offer_eq ?_
    show (Checksum2a.step _ (s.checksum.checksum2a.axis s.checksum.checksum3.tready) _).header = _
    rw [h.calm.checksum3.tready, Checksum2a.step_header]
  checksum3 := by
    show (Stage.tick _ _ s.checksum.delay.tready _).OnTime _ _ _ _
    rw [h.calm.delay.tready]
    refine h.checksum3.tick (by decide) h.checksum2a.offer_eq ?_
    show (Checksum3.step _ (s.checksum.checksum3.axis s.checksum.delay.tready) _ _).header = _
    rw [h.calm.delay.tready, Checksum3.step_header]
  delay := by
    show (Stage.tick _ _ s.drop.drop_packets1.tready _).OnTime _ _ _ _
    rw [h.calm.drop_packets1.tready]
    refine h.delay.tick (by decide) h.checksum3.offer_eq ?_
    show (IpAddrChecksumDelay.step _ (s.checksum.delay.axis s.drop.drop_packets1.tready)
      _ _ _).header = _
    rw [h.calm.drop_packets1.tready, IpAddrChecksumDelay.step_header]
  drop_packets1 := by
    show (Stage.tick _ _ s.drop.drop_packets2.tready _).OnTime _ _ _ _
    rw [h.calm.drop_packets2.tready]
    refine h.drop_packets1.tick (by decide) h.delay.offer_eq ?_
    show (DropPackets1.step _ (s.drop.drop_packets1.axis s.drop.drop_packets2.tready)
      _ _ _ _ _).header = _
    rw [h.calm.drop_packets2.tready, DropPackets1.step_header]
  header2 := by
    intro hnext
    have hopens := h.opens
    have hold := h.header2
    have hheader := h.checksum2.header_eq
    have hnext' : headerNext s.checksum.checksum2.regs.header
        (s.checksum.checksum2.axis s.checksum.checksum2a.tready) = true := hnext
    rw [h.calm.checksum2a.tready, Stage.headerNext_ends, h.checksum2.flow.popped] at hnext'
    show (if s.checksum.checksum2.regs.opens
        (s.checksum.checksum2.axis s.checksum.checksum2a.tready) then true
      else if s.checksum.checksum2.regs.header = false then false
      else s.checksum.checksum2.regs.header2) = _
    rw [h.calm.checksum2a.tready, hopens, Arrivals.awaits_delayed]
    cases hx : x.delayed 6 c with
    | none =>
      -- nothing is handed on, so the packet was open before
      rw [hx] at hnext'
      have hh : s.checksum.checksum2.regs.header = true := hnext'
      simp [hh, hold hh]
    | some b =>
      rw [hx] at hnext'
      have hb : b.tlast = false := by simpa [Stage.ends] using hnext'
      have hst : x.startsAt 6 c = !s.checksum.checksum2.regs.header := by
        unfold Arrivals.startsAt
        rw [hx, Option.any_some, hb, hheader, Bool.not_false, Bool.and_true]
      cases hh : s.checksum.checksum2.regs.header with
      | false =>
        have hno := Arrivals.awaits_eq_false (hheader.symm.trans hh)
        simp [hno, hst, hh]
      | true =>
        have h2 := hold hh
        cases ha : x.awaits (c - 6) <;> simp_all

end Timed

/-! ## Runs -/

namespace Pipeline

/-- The state before cycle `c`. -/
def after (s : Pipeline) (cyc : Nat → Cycle) (c : Nat) : Pipeline := s.run ((List.range c).map cyc)

theorem after_succ (s : Pipeline) (cyc : Nat → Cycle) (c : Nat) :
    s.after cyc (c + 1) = (s.after cyc c).step (cyc c) := by
  unfold after run
  rw [List.range_succ, List.map_append, Clocked.run_append]
  rfl

/-- Between packets: the FIFOs are empty, and no stage up to `drop_packets1` is inside a packet. -/
structure Idle (s : Pipeline) : Prop where
  wf : s.WellFormed
  drained : s.Drained
  checksum1 : s.checksum.checksum1.regs.header = false
  checksum2 : s.checksum.checksum2.regs.header = false
  checksum2a : s.checksum.checksum2a.regs.header = false
  checksum3 : s.checksum.checksum3.regs.header = false
  delay : s.checksum.delay.regs.header = false
  drop_packets1 : s.drop.drop_packets1.regs.header = false

theorem reset_idle (word : Beat) (low_ip_addr : BitVec 16) (ip_addr1 ip_addr2 : BitVec 32) :
    (reset word low_ip_addr ip_addr1 ip_addr2).Idle where
  wf := reset_wellFormed word low_ip_addr ip_addr1 ip_addr2
  drained := reset_drained word low_ip_addr ip_addr1 ip_addr2
  checksum1 := rfl
  checksum2 := rfl
  checksum2a := rfl
  checksum3 := rfl
  delay := rfl
  drop_packets1 := rfl

theorem Idle.flow {s : Pipeline} (h : s.Idle) : All (fun t => t.Flow none none none) s :=
  All.imp₂ Stage.flow_of_empty h.wf h.drained

theorem Idle.calm {s : Pipeline} (h : s.Idle) : s.Calm 0 := by
  have hf := h.flow
  exact ⟨hf.1.calm (by decide), hf.2.calm (by decide), hf.3.calm (by decide), hf.4.calm (by decide),
    hf.5.calm (by decide), hf.6.calm (by decide), hf.7.calm (by decide), hf.8.calm (by decide),
    hf.9.calm (by decide), hf.10.calm (by decide), hf.11.calm (by decide), hf.12.calm (by decide),
    hf.13.calm (by decide), hf.14.calm (by decide), hf.15.calm (by decide), hf.16.calm (by decide)⟩

theorem Idle.timed {s : Pipeline} (h : s.Idle) (x : Arrivals) : Timed x 0 s where
  calm := h.calm
  checksum1 := ⟨h.flow.checksum1, h.checksum1⟩
  checksum2 := ⟨h.flow.checksum2, h.checksum2⟩
  checksum2a := ⟨h.flow.checksum2a, h.checksum2a⟩
  checksum3 := ⟨h.flow.checksum3, h.checksum3⟩
  delay := ⟨h.flow.delay, h.delay⟩
  drop_packets1 := ⟨h.flow.drop_packets1, h.drop_packets1⟩
  header2 := by
    intro hh
    rw [h.checksum2] at hh
    cases hh

end Pipeline

/-- A register that takes what it is given with every packet's first beat still holds it three cycles
later, unless another packet followed at once. -/
theorem hold_three {α : Type} {x : Arrivals} {d : Nat} {U V : Nat → α}
    (hstep : ∀ c, V (c + 1) = if x.startsAt d c then U c else V c) {t : Nat}
    (h0 : x.opens t = true) (h1 : x.opens (t + 1) = false) (h2 : x.opens (t + 2) = false) :
    V (t + d + 3) = U (t + d) := by
  have e1 := hstep (t + d)
  have e2 := hstep (t + 1 + d)
  have e3 := hstep (t + 2 + d)
  rw [Arrivals.startsAt_add, h0, if_pos rfl] at e1
  rw [Arrivals.startsAt_add, h1, if_neg Bool.false_ne_true] at e2
  rw [Arrivals.startsAt_add, h2, if_neg Bool.false_ne_true] at e3
  rw [show t + 1 + d = t + d + 1 by omega] at e2
  rw [show t + 2 + d = t + d + 1 + 1 by omega] at e3
  rw [← e1, ← e2, ← e3]

section

variable {s : Pipeline} {cyc : Nat → Cycle} (h : s.Idle) (hr : ∀ c, (cyc c).m_tready = true)
include h hr

theorem timed_after (c : Nat) : Timed (fun n => (cyc n).s_axis) c (s.after cyc c) := by
  induction c with
  | zero => exact h.timed _
  | succ c ih =>
    rw [Pipeline.after_succ]
    exact ih.step (hr c) rfl

/-! Each register that travels beside the packets takes what the stage before it holds, in the cycle
in which the packet's first beat passes. -/

theorem sums1_succ (c : Nat) :
    (s.after cyc (c + 1)).checksum.checksum1.regs.sums
      = if Arrivals.startsAt (fun n => (cyc n).s_axis) 3 c then
          headerSums (s.after cyc c).checksum.checksum1.beat.tdata
        else (s.after cyc c).checksum.checksum1.regs.sums := by
  have ht := timed_after h hr c
  rw [Pipeline.after_succ]
  refine (Checksum1.step_sums _ _ _).trans ?_
  rw [ht.calm.checksum2.tready, ht.checksum1.starts]

theorem sums2_succ (c : Nat) :
    (s.after cyc (c + 1)).checksum.checksum2.regs.sums
      = if Arrivals.startsAt (fun n => (cyc n).s_axis) 6 c then
          (s.after cyc c).checksum.checksum1.regs.sums
        else (s.after cyc c).checksum.checksum2.regs.sums := by
  have ht := timed_after h hr c
  rw [Pipeline.after_succ]
  refine (Checksum2.step_sums _ _ _ _).trans ?_
  rw [ht.calm.checksum2a.tready, ht.checksum2.starts]

theorem sums2a_succ (c : Nat) :
    (s.after cyc (c + 1)).checksum.checksum2a.regs.sums
      = if Arrivals.startsAt (fun n => (cyc n).s_axis) 9 c then
          (s.after cyc c).checksum.checksum2.regs.sums
        else (s.after cyc c).checksum.checksum2a.regs.sums := by
  have ht := timed_after h hr c
  rw [Pipeline.after_succ]
  refine (Checksum2a.step_sums _ _ _).trans ?_
  rw [ht.calm.checksum3.tready, ht.checksum2a.starts]

theorem result3_succ (c : Nat) :
    (s.after cyc (c + 1)).checksum.checksum3.regs.result
      = if Arrivals.startsAt (fun n => (cyc n).s_axis) 12 c then
          ((s.after cyc c).checksum.checksum2a.regs.sums.1 +
              (s.after cyc c).checksum.checksum2a.regs.sums.2 +
              (s.after cyc c).checksum.lowIpAddr.setWidth 32,
            (s.after cyc c).checksum.lowIpAddr)
        else (s.after cyc c).checksum.checksum3.regs.result := by
  have ht := timed_after h hr c
  rw [Pipeline.after_succ]
  refine (Checksum3.step_result _ _ _ _).trans ?_
  rw [ht.calm.delay.tready, ht.checksum3.starts]

theorem resultDelay_succ (c : Nat) :
    (s.after cyc (c + 1)).checksum.delay.regs.result
      = if Arrivals.startsAt (fun n => (cyc n).s_axis) 15 c then
          (foldChecksum (s.after cyc c).checksum.checksum3.regs.result.1,
            (s.after cyc c).checksum.checksum3.regs.result.2)
        else (s.after cyc c).checksum.delay.regs.result := by
  have ht := timed_after h hr c
  rw [Pipeline.after_succ]
  refine (IpAddrChecksumDelay.step_result _ _ _ _ _).trans ?_
  rw [ht.calm.drop_packets1.tready, ht.delay.starts]

/-- The latch shows the second beat of a packet while it passes, and keeps it. -/
theorem lowIpAddr_add (n : Nat) :
    (s.after cyc (n + 6)).checksum.lowIpAddr
      = if Arrivals.seconds (fun n => (cyc n).s_axis) n then
          (s.after cyc (n + 6)).checksum.checksum2.beat.tdata.extractLsb' 240 16
        else (s.after cyc (n + 6)).checksum.checksum2.regs.low_ip_addr := by
  have ht := timed_after h hr (n + 6)
  have hopens := ht.opens
  rw [Arrivals.delayed_add, Nat.add_sub_cancel] at hopens
  unfold ChecksumPipe.lowIpAddr Checksum2.lowIpAddr
  rw [ht.calm.checksum2a.tready, hopens]
  rfl

end

/-! ## Packets -/

/-- The packet's first beat arrives in cycle `t` and its second one in cycle `t2`. -/
structure Arrives (x : Arrivals) (p : Packet) (t t2 : Nat) : Prop where
  idle : x.inPacket t = false
  first : x t = some p.first
  lt : t < t2
  second : x t2 = some p.second
  between : ∀ n, t < n → n < t2 → x n = none

/-- The arrivals that leave a packet its header data: its second beat follows within six cycles, the
next packet begins at least three cycles after it, and the second beat of the next packet arrives at
least seven cycles after its first one. -/
structure Undisturbed (x : Arrivals) (t t2 : Nat) : Prop where
  second : t2 ≤ t + 6
  opens_one : x.opens (t + 1) = false
  opens_two : x.opens (t + 2) = false
  seconds : ∀ n, t2 < n → n ≤ t + 6 → x.seconds n = false

namespace Arrives

variable {x : Arrivals} {p : Packet} {t t2 : Nat}

theorem opens (h : Arrives x p t t2) : x.opens t = true := by
  unfold Arrivals.opens
  rw [h.first, Option.any_some, h.idle, p.first_tlast]
  rfl

theorem awaits (h : Arrives x p t t2) : ∀ n, t + 1 ≤ n → n ≤ t2 → x.awaits n = true := by
  intro n hn
  induction hn with
  | refl =>
    intro _
    rw [Arrivals.awaits, h.first, Option.isSome_some, if_pos rfl, h.opens]
  | @step n hn ih =>
    intro hle
    rw [Arrivals.awaits, h.between n hn (by omega)]
    exact ih (by omega)

theorem seconds (h : Arrives x p t t2) : x.seconds t2 = true := by
  unfold Arrivals.seconds
  rw [h.awaits t2 h.lt (Nat.le_refl _), h.second]
  rfl

end Arrives

/-- What `drop_packets1` is given in the cycle in which it processes a packet's first beat. -/
structure OwnHeaderData (p : Packet) (s : Pipeline) : Prop where
  starts : s.drop.drop_packets1.regs.starts
    (s.drop.drop_packets1.axis s.drop.drop_packets2.tready) = true
  beat : s.drop.drop_packets1.beat = p.first
  low_ip_addr : s.checksum.delay.regs.low_ip_addr = p.second.tdata.extractLsb' 240 16
  checksum : s.checksum.delay.regs.checksum_out
    = foldChecksum (headerSum p.first.tdata (p.second.tdata.extractLsb' 240 16))

/-- The low half of the address in the latch, when `checksum3` takes it. -/
theorem lowIpAddr_own {s : Pipeline} (h : s.Idle) {cyc : Nat → Cycle}
    (hr : ∀ c, (cyc c).m_tready = true) {p : Packet} {t t2 : Nat}
    (harr : Arrives (fun n => (cyc n).s_axis) p t t2)
    (hun : Undisturbed (fun n => (cyc n).s_axis) t t2) :
    (s.after cyc (t + 6 + 6)).checksum.lowIpAddr = p.second.tdata.extractLsb' 240 16 := by
  have hkeep : ∀ n, t2 ≤ n → n ≤ t + 6 →
      (s.after cyc (n + 6)).checksum.lowIpAddr = p.second.tdata.extractLsb' 240 16 := by
    intro n hn
    induction hn with
    | refl =>
      intro _
      rw [lowIpAddr_add h hr, harr.seconds, if_pos rfl,
        (timed_after h hr (t2 + 6)).checksum2.beat_add harr.second]
    | @step n hn ih =>
      intro hle
      rw [lowIpAddr_add h hr, hun.seconds (n + 1) (Nat.lt_succ_of_le hn) hle, if_neg Bool.false_ne_true,
        show n + 1 + 6 = n + 6 + 1 by omega, Pipeline.after_succ]
      exact ih (by omega)
  exact hkeep (t + 6) hun.second (Nat.le_refl _)

/-- An undisturbed packet finds its own header data in `drop_packets1`, 18 cycles after its first beat
entered the pipeline. -/
theorem ownHeaderData_after {s : Pipeline} (h : s.Idle) {cyc : Nat → Cycle}
    (hr : ∀ c, (cyc c).m_tready = true) {p : Packet} {t t2 : Nat}
    (harr : Arrives (fun n => (cyc n).s_axis) p t t2)
    (hun : Undisturbed (fun n => (cyc n).s_axis) t t2) :
    OwnHeaderData p (s.after cyc (t + 18)) := by
  have hbeat := (timed_after h hr (t + 3)).checksum1.beat_add harr.first
  have h1 := hold_three (V := fun c => (s.after cyc c).checksum.checksum1.regs.sums)
    (sums1_succ h hr) harr.opens hun.opens_one hun.opens_two
  have h2 := hold_three (V := fun c => (s.after cyc c).checksum.checksum2.regs.sums)
    (sums2_succ h hr) harr.opens hun.opens_one hun.opens_two
  have h2a := hold_three (V := fun c => (s.after cyc c).checksum.checksum2a.regs.sums)
    (sums2a_succ h hr) harr.opens hun.opens_one hun.opens_two
  have h3 := hold_three (V := fun c => (s.after cyc c).checksum.checksum3.regs.result)
    (result3_succ h hr) harr.opens hun.opens_one hun.opens_two
  have h5 := hold_three (V := fun c => (s.after cyc c).checksum.delay.regs.result)
    (resultDelay_succ h hr) harr.opens hun.opens_one hun.opens_two
  have hlow := lowIpAddr_own h hr harr hun
  simp only [Nat.add_assoc, Nat.reduceAdd] at h1 h2 h2a h3 h5 hlow
  rw [h3, h2a, h2, h1, hbeat, hlow] at h5
  have ht := timed_after h hr (t + 18)
  refine ⟨?_, ht.drop_packets1.beat_add harr.first, congrArg Prod.snd h5, congrArg Prod.fst h5⟩
  unfold DropPackets1.starts
  rw [ht.calm.drop_packets2.tready, ht.drop_packets1.starts, Arrivals.startsAt_add, harr.opens]

/-- **In a run in which every packet arrives undisturbed, every first beat that `drop_packets1`
processes finds the header data of its own packet.** -/
theorem header_data_runs {s : Pipeline} (h : s.Idle) {cyc : Nat → Cycle}
    (hr : ∀ c, (cyc c).m_tready = true)
    (hall : ∀ t, Arrivals.opens (fun n => (cyc n).s_axis) t = true → ∃ p t2,
      Arrives (fun n => (cyc n).s_axis) p t t2 ∧ Undisturbed (fun n => (cyc n).s_axis) t t2)
    {c : Nat} (hc : (s.after cyc c).drop.drop_packets1.regs.starts
      ((s.after cyc c).drop.drop_packets1.axis (s.after cyc c).drop.drop_packets2.tready) = true) :
    ∃ p t t2, c = t + 18 ∧ Arrives (fun n => (cyc n).s_axis) p t t2 ∧
      OwnHeaderData p (s.after cyc c) := by
  have ht := timed_after h hr c
  unfold DropPackets1.starts at hc
  rw [ht.calm.drop_packets2.tready, ht.drop_packets1.starts] at hc
  obtain ⟨t, rfl⟩ : ∃ t, c = t + 18 := by
    refine ⟨c - 18, ?_⟩
    by_contra hlt
    have hnone : Arrivals.delayed (fun n => (cyc n).s_axis) 18 c = none := if_neg (by omega)
    unfold Arrivals.startsAt at hc
    rw [hnone] at hc
    cases hc
  rw [Arrivals.startsAt_add] at hc
  obtain ⟨p, t2, harr, hun⟩ := hall t hc
  exact ⟨p, t, t2, rfl, harr, ownHeaderData_after h hr harr hun⟩

/-! ## A packet on its own -/

/-- The beats of a packet on consecutive cycles. -/
def isolated (p : Packet) : Arrivals := fun n => p.beats[n]?

namespace isolated

variable (p : Packet)

theorem inPacket_eq : ∀ n, Arrivals.inPacket (isolated p) n = decide (0 < n ∧ n < p.beats.length)
  | 0 => rfl
  | n + 1 => by
    have htwo := p.two_le_length
    rw [Arrivals.inPacket, inPacket_eq n]
    unfold isolated
    by_cases hn : n < p.beats.length
    · rw [List.getElem?_eq_getElem hn, Option.toList_some]
      show (!p.beats[n].tlast) = _
      rw [p.tlast_getElem hn]
      rw [← decide_not, decide_eq_decide]
      omega
    · rw [List.getElem?_eq_none (by omega), Option.toList_none, Stage.ends_nil, decide_eq_decide]
      omega

theorem opens_eq (n : Nat) : Arrivals.opens (isolated p) n = decide (n = 0) := by
  unfold Arrivals.opens
  rw [inPacket_eq]
  unfold isolated
  by_cases hn : n < p.beats.length
  · rw [List.getElem?_eq_getElem hn, Option.any_some, p.tlast_getElem hn]
    have htwo := p.two_le_length
    by_cases h0 : n = 0
    · subst h0
      simp
      omega
    · simp [hn, Nat.pos_of_ne_zero h0, h0]
  · rw [List.getElem?_eq_none (by omega), Option.any_none]
    have htwo := p.two_le_length
    rw [eq_comm, decide_eq_false_iff_not]
    omega

theorem awaits_eq : ∀ n, Arrivals.awaits (isolated p) (n + 2) = false
  | 0 => by
    rw [Arrivals.awaits]
    have hsome : (isolated p 1).isSome = true := by
      unfold isolated
      rw [p.getElem?_one]
      rfl
    rw [hsome, if_pos rfl, opens_eq]
    rfl
  | n + 1 => by
    have hne : decide (n + 2 = 0) = false := rfl
    rw [Arrivals.awaits, opens_eq, awaits_eq n, hne, ite_self]

theorem arrives : Arrives (isolated p) p 0 1 where
  idle := rfl
  first := rfl
  lt := Nat.zero_lt_one
  second := p.getElem?_one
  between := by omega

theorem undisturbed : Undisturbed (isolated p) 0 1 where
  second := by decide
  opens_one := opens_eq p 1
  opens_two := opens_eq p 2
  seconds := by
    intro n hn _
    obtain ⟨m, rfl⟩ : ∃ m, n = m + 2 := ⟨n - 2, by omega⟩
    unfold Arrivals.seconds
    rw [awaits_eq]
    rfl

end isolated

/-- **The checksum test of an isolated packet agrees with the software's exactly if no carry is lost**:
in the cycle in which `drop_packets1` processes the packet's first beat, the checksum it is given
equals the checksum field if and only if `generatechecksum` of the header is 0. -/
theorem checksum_agrees_iff {s : Pipeline} (h : s.Idle) {cyc : Nat → Cycle}
    (hr : ∀ c, (cyc c).m_tready = true) (p : Packet)
    (hx : (fun n => (cyc n).s_axis) = isolated p) :
    ((s.after cyc 18).drop.drop_packets1.regs.starts
          ((s.after cyc 18).drop.drop_packets1.axis (s.after cyc 18).drop.drop_packets2.tready)
        = true ∧
      (s.after cyc 18).drop.drop_packets1.beat = p.first ∧
      ((s.after cyc 18).checksum.delay.regs.checksum_out = p.first.checksumField ↔
        generatechecksum (headerBytes p.first.tdata p.second.tdata) = 0)) ↔
    ¬ CarryLost (headerSum p.first.tdata (p.second.tdata.extractLsb' 240 16)).toNat
      p.first.checksumField.toNat := by
  have hown := ownHeaderData_after h hr (by rw [hx]; exact isolated.arrives p)
    (by rw [hx]; exact isolated.undisturbed p)
  have hiff := foldChecksum_agrees_iff p.first.tdata p.second.tdata
  rw [Nat.zero_add] at hown
  rw [← hown.checksum] at hiff
  refine Iff.trans ?_ hiff
  constructor
  · intro hp
    exact hp.2.2
  · intro hp
    exact ⟨hown.starts, hown.beat, hp⟩

/-! ## Examples -/

/-- The cycles in which some beats arrive one after another. -/
def cyclesOf (beats : List (Option Beat)) (n : Nat) : Cycle :=
  ⟨beats.getD n none, true, 0, portMacs, none, none, none⟩

/-- A UDP packet of two beats; `low` ends its destination address. -/
def udpPacket (id header_checksum low : BitVec 16) : Packet where
  first := udpBeat 1 id header_checksum
  body := []
  last := { udpTail with tdata := low ++ 0#240 }
  first_tlast := rfl
  body_tlast := by simp
  last_tlast := rfl

/-- The pipeline after reset. -/
def freshPipeline : Pipeline := .reset udpTail 0 0 0

theorem cyclesOf_packet (p : Packet) :
    (fun n => (cyclesOf (p.beats.map some) n).s_axis) = isolated p := by
  funext n
  unfold cyclesOf isolated
  show (p.beats.map some).getD n none = _
  rw [List.getD_eq_getElem?_getD, List.getElem?_map]
  cases p.beats[n]? <;> rfl

theorem opens_cyclesOf_of_le {beats : List (Option Beat)} {t : Nat} (h : beats.length ≤ t) :
    Arrivals.opens (fun n => (cyclesOf beats n).s_axis) t = false := by
  have hnone : (cyclesOf beats t).s_axis = none := by
    show beats.getD t none = none
    rw [List.getD_eq_getElem?_getD, List.getElem?_eq_none h]
    rfl
  unfold Arrivals.opens
  simp only [hnone, Option.any_none]

/-- Two packets, with four cycles between them. -/
def spacedBeats : List (Option Beat) :=
  (udpPacket 1 0x6696 2).beats.map some ++ [none, none, none, none] ++
    (udpPacket 2 0x6694 3).beats.map some

theorem spacedBeats_undisturbed {t : Nat}
    (h : Arrivals.opens (fun n => (cyclesOf spacedBeats n).s_axis) t = true) :
    ∃ p t2, Arrives (fun n => (cyclesOf spacedBeats n).s_axis) p t t2 ∧
      Undisturbed (fun n => (cyclesOf spacedBeats n).s_axis) t t2 := by
  have hopens : ∀ t < 8, Arrivals.opens (fun n => (cyclesOf spacedBeats n).s_axis) t = true →
      t = 0 ∨ t = 6 := by decide +kernel
  have hseconds : ∀ n < 13, Arrivals.seconds (fun n => (cyclesOf spacedBeats n).s_axis) n = true →
      n = 1 ∨ n = 7 := by decide +kernel
  have hlt : t < 8 := by
    by_contra hge
    rw [opens_cyclesOf_of_le (Nat.le_of_not_lt hge)] at h
    cases h
  rcases hopens t hlt h with rfl | rfl
  · refine ⟨udpPacket 1 0x6696 2, 1, ⟨rfl, rfl, by decide, rfl, by omega⟩,
      by decide, by decide +kernel, by decide +kernel, fun n hn hle => ?_⟩
    exact Bool.eq_false_iff.2 fun hs => by have := hseconds n (by omega) hs; omega
  · refine ⟨udpPacket 2 0x6694 3, 7, ⟨by decide +kernel, rfl, by decide, rfl, by omega⟩,
      by decide, by decide +kernel, by decide +kernel, fun n hn hle => ?_⟩
    exact Bool.eq_false_iff.2 fun hs => by have := hseconds n (by omega) hs; omega

theorem header_data_runs_sample :
    (∃ p t t2, 18 = t + 18 ∧ Arrives (fun n => (cyclesOf spacedBeats n).s_axis) p t t2 ∧
      OwnHeaderData p (freshPipeline.after (cyclesOf spacedBeats) 18)) ∧
    ∃ p t t2, 24 = t + 18 ∧ Arrives (fun n => (cyclesOf spacedBeats n).s_axis) p t t2 ∧
      OwnHeaderData p (freshPipeline.after (cyclesOf spacedBeats) 24) :=
  ⟨header_data_runs (Pipeline.reset_idle udpTail 0 0 0) (fun _ => rfl)
      (fun _ => spacedBeats_undisturbed) (by decide +kernel),
    header_data_runs (Pipeline.reset_idle udpTail 0 0 0) (fun _ => rfl)
      (fun _ => spacedBeats_undisturbed) (by decide +kernel)⟩

/-- Of two packets of two beats, back to back, the first one is given the low half of the second
one's address, and a checksum that does not match its field. -/
theorem header_data_mixed :
    Arrives (fun n => (cyclesOf
        (((udpPacket 1 0x6696 2).beats ++ (udpPacket 2 0x6694 3).beats).map some) n).s_axis)
      (udpPacket 1 0x6696 2) 0 1 ∧
    let s := freshPipeline.after (cyclesOf
      (((udpPacket 1 0x6696 2).beats ++ (udpPacket 2 0x6694 3).beats).map some)) 18
    s.drop.drop_packets1.regs.starts (s.drop.drop_packets1.axis s.drop.drop_packets2.tready) = true ∧
      s.drop.drop_packets1.beat = (udpPacket 1 0x6696 2).first ∧
      s.checksum.delay.regs.low_ip_addr ≠ (udpPacket 1 0x6696 2).second.tdata.extractLsb' 240 16 ∧
      s.checksum.delay.regs.checksum_out ≠ (udpPacket 1 0x6696 2).first.checksumField := by
  refine ⟨⟨rfl, rfl, by decide, rfl, by omega⟩, ?_⟩
  decide +kernel

theorem checksum_agrees_iff_sample :
    (freshPipeline.after (cyclesOf ((udpPacket 1 0x6696 2).beats.map some))
        18).checksum.delay.regs.checksum_out = (udpPacket 1 0x6696 2).first.checksumField ↔
      generatechecksum (headerBytes (udpPacket 1 0x6696 2).first.tdata
        (udpPacket 1 0x6696 2).second.tdata) = 0 :=
  ((checksum_agrees_iff (Pipeline.reset_idle udpTail 0 0 0) (fun _ => rfl) (udpPacket 1 0x6696 2)
    (cyclesOf_packet _)).2 (by decide)).2.2

/-- The words of this header add up to `0x1FFFF`; the right checksum is `0xFFFE`, but the addition of
the carry overflows and the hardware expects `0xFFFF`. -/
theorem checksum_carry_lost :
    generatechecksum (headerBytes (udpPacket 0x669A 0xFFFE 0xFFFF).first.tdata
        (udpPacket 0x669A 0xFFFE 0xFFFF).second.tdata) = 0 ∧
      let s := freshPipeline.after (cyclesOf ((udpPacket 0x669A 0xFFFE 0xFFFF).beats.map some)) 18
      s.drop.drop_packets1.regs.starts (s.drop.drop_packets1.axis s.drop.drop_packets2.tready) = true ∧
        s.drop.drop_packets1.beat = (udpPacket 0x669A 0xFFFE 0xFFFF).first ∧
        s.checksum.delay.regs.checksum_out ≠ (udpPacket 0x669A 0xFFFE 0xFFFF).first.checksumField := by
  decide +kernel

end BirRouter
