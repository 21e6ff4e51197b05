import BirRouter.Lib.Clocked
import BirRouter.Lib.Merge
import BirRouter.OutputPort.Stream

/-!
# The input arbiter (`nf10_input_arbiter.v`)

The four ports and the DMA engine each fill a FIFO of their own; the arbiter hands the packets of
these queues on to the output port lookup, one queue after another.  It looks at one queue,
`cur_queue`, at a time: in `IDLE` it goes on to the next one while the queue is empty, in `WR_PKT` it
stays until the beat at the output of the FIFO is a packet's last one.

* `InputArbiter.conserves` — the beats of each queue leave in the order in which they came;
* `InputArbiter.Follows` — what the registers say about the beat that left last: this is what keeps
  the beats of a packet together, since in `WR_PKT` the FIFO is asked for `TLAST` even when it is
  empty and shows the beat that was read last;
* `inputArbiter_merges` — over all runs: the stream that leaves is a merge of the five streams in
  whole packets;
* `inputArbiter_bounded_waiting` — a queue with a beat to offer is passed over by at most one packet
  of each other queue.
-/

set_option autoImplicit false

namespace BirRouter

open Clocked Merge

inductive ArbiterState
  | idle
  | wrPkt
  deriving DecidableEq, Repr

/-- The FIFOs and registers; each FIFO has `2^IN_FIFO_DEPTH_BIT = 64` places.  `cur_queue` has three
bits and never takes the values from `NUM_QUEUES` on. -/
structure InputArbiter where
  in_arb_fifo : Fin 5 → FallthroughSmallFifo 6 Beat
  state : ArbiterState
  cur_queue : Fin 5

/-- What the arbiter is given in a clock cycle. -/
structure ArbiterCycle where
  s_axis : Fin 5 → Option Beat
  m_tready : Bool

namespace InputArbiter

/-- `s_axis_tready_i`. -/
def tready (a : InputArbiter) (i : Fin 5) : Bool := !(a.in_arb_fifo i).nearlyFull

/-- `empty[cur_queue]`. -/
def empty (a : InputArbiter) : Bool := (a.in_arb_fifo a.cur_queue).empty

/-- The beat at the output of the current queue. -/
def beat (a : InputArbiter) : Beat := (a.in_arb_fifo a.cur_queue).dout

def curQueuePlus1 (a : InputArbiter) : Fin 5 := if a.cur_queue = 4 then 0 else a.cur_queue + 1

/-- The combinational logic: `state_next`, `cur_queue_next` and `rd_en[cur_queue]`. -/
def next (a : InputArbiter) (m_tready : Bool) : ArbiterState × Fin 5 × Bool :=
  match a.state with
  | .idle =>
    if !a.empty then
      if m_tready then (.wrPkt, a.cur_queue, true) else (.idle, a.cur_queue, false)
    else (.idle, a.curQueuePlus1, false)
  | .wrPkt =>
    if m_tready && a.beat.tlast then (.idle, a.curQueuePlus1, true)
    else if m_tready && !a.empty then (.wrPkt, a.cur_queue, true)
    else (.wrPkt, a.cur_queue, false)

/-- The beat that enters queue `i`. -/
def pushed (a : InputArbiter) (c : ArbiterCycle) (i : Fin 5) : Option Beat :=
  if a.tready i then c.s_axis i else none

/-- One clock cycle. -/
def step (a : InputArbiter) (c : ArbiterCycle) : InputArbiter where
  in_arb_fifo i :=
    (a.in_arb_fifo i).tick (a.pushed c i) (decide (i = a.cur_queue) && (a.next c.m_tready).2.2)
  state := (a.next c.m_tready).1
  cur_queue := (a.next c.m_tready).2.1

def reset (queue : BitVec 6 → Beat) (word : Beat) : InputArbiter :=
  ⟨fun _ => .reset queue word, .idle, 0⟩

/-- The beat that leaves in a cycle (`m_axis_tvalid & m_axis_tready`), with its queue. -/
def emitted (a : InputArbiter) (c : ArbiterCycle) : List (Fin 5 × Beat) :=
  if c.m_tready && !a.empty then [(a.cur_queue, a.beat)] else []

def accepted (i : Fin 5) (a : InputArbiter) (c : ArbiterCycle) : List Beat := (a.pushed c i).toList

variable {a : InputArbiter} {c : ArbiterCycle}

theorem curQueuePlus1_eq (a : InputArbiter) : a.curQueuePlus1 = a.cur_queue + 1 := by
  unfold curQueuePlus1
  generalize a.cur_queue = i
  revert i
  decide

/-- What a cycle can do to the registers. -/
theorem next_cases (a : InputArbiter) (m_tready : Bool) :
    (a.state = .idle ∧ a.empty = true ∧ a.next m_tready = (.idle, a.cur_queue + 1, false)) ∨
    (a.state = .idle ∧ a.empty = false ∧ m_tready = true ∧
      a.next m_tready = (.wrPkt, a.cur_queue, true)) ∨
    (a.state = .wrPkt ∧ a.beat.tlast = true ∧ m_tready = true ∧
      a.next m_tready = (.idle, a.cur_queue + 1, true)) ∨
    (a.state = .wrPkt ∧ a.beat.tlast = false ∧ a.empty = false ∧ m_tready = true ∧
      a.next m_tready = (.wrPkt, a.cur_queue, true)) ∨
    ((m_tready = true → a.state = .wrPkt ∧ a.empty = true ∧ a.beat.tlast = false) ∧
      (a.state = .idle → a.empty = false) ∧ a.next m_tready = (a.state, a.cur_queue, false)) := by
  unfold next
  rw [curQueuePlus1_eq]
  cases a.state <;> cases a.empty <;> cases a.beat.tlast <;> cases m_tready <;> simp

/-- The current queue is read when its beat leaves; otherwise it is empty or left alone. -/
theorem next_rd_en (h : a.empty = false) (m_tready : Bool) : (a.next m_tready).2.2 = m_tready := by
  unfold next
  cases a.state <;> cases a.beat.tlast <;> cases m_tready <;> simp [h]

/-! ## The queues -/

def WellFormed (a : InputArbiter) : Prop := ∀ i, (a.in_arb_fifo i).WellFormed

theorem reset_wellFormed (queue : BitVec 6 → Beat) (word : Beat) : (reset queue word).WellFormed :=
  fun _ => FallthroughSmallFifo.reset_wellFormed queue word

theorem room (a : InputArbiter) (c : ArbiterCycle) (i : Fin 5) :
    (a.in_arb_fifo i).fifo.Room (a.pushed c i) := by
  intro h
  unfold pushed at h
  split at h
  · rename_i hr
    simpa [tready, FallthroughSmallFifo.nearlyFull] using hr
  · cases h

theorem wellFormed_step (h : a.WellFormed) (c : ArbiterCycle) : (a.step c).WellFormed :=
  fun i => FallthroughSmallFifo.wellFormed_tick (h i) (a.room c i) _

/-- A queue that is not looked at only fills. -/
theorem fifo_step_of_ne {i : Fin 5} (h : i ≠ a.cur_queue) :
    (a.step c).in_arb_fifo i = (a.in_arb_fifo i).tick (a.pushed c i) false := by
  simp [step, h]

theorem fifo_step_cur :
    (a.step c).in_arb_fifo a.cur_queue
      = (a.in_arb_fifo a.cur_queue).tick (a.pushed c a.cur_queue) (c.m_tready && !a.empty) := by
  simp only [step, decide_true, Bool.true_and]
  cases he : a.empty with
  | true => simpa using FallthroughSmallFifo.tick_of_empty he _ _
  | false => rw [next_rd_en he, Bool.not_false, Bool.and_true]

/-- **Each queue is a queue.** -/
theorem conserves (h : a.WellFormed) (c : ArbiterCycle) (i : Fin 5) :
    (a.in_arb_fifo i).contents ++ accepted i a c
      = part i (a.emitted c) ++ ((a.step c).in_arb_fifo i).contents := by
  by_cases hi : i = a.cur_queue
  · subst hi
    rw [fifo_step_cur, FallthroughSmallFifo.contents_tick (h _) (a.room c _) (by simp [empty])]
    unfold accepted emitted
    split
    · rename_i hr
      have he : (a.in_arb_fifo a.cur_queue).empty = false := by
        simp only [empty, Bool.and_eq_true, Bool.not_eq_true'] at hr
        exact hr.2
      have hhead := FallthroughSmallFifo.head?_contents he
      cases hc : (a.in_arb_fifo a.cur_queue).contents with
      | nil => rw [hc] at hhead; cases hhead
      | cons b l =>
        rw [hc] at hhead
        cases hhead
        rw [part_cons_self]
        rfl
    · rfl
  · rw [fifo_step_of_ne hi, FallthroughSmallFifo.contents_tick (h _) (a.room c _) (by simp)]
    have hpart : part i (a.emitted c) = [] := by
      unfold emitted
      split
      · exact part_cons_of_ne (Ne.symm hi) _ _
      · rfl
    rw [hpart]
    rfl

/-! ## Whole packets -/

/-- What the registers say about the beat that left last: in `IDLE` it was the last of its packet; in
`WR_PKT` it came from the current queue, which still shows it if it is empty. -/
structure Follows (a : InputArbiter) (prev : Option (Fin 5 × Beat)) : Prop where
  idle : a.state = .idle → ∀ x ∈ prev, x.2.tlast = true
  wrPkt : a.state = .wrPkt → ∃ b, prev = some (a.cur_queue, b) ∧ (a.empty = true → a.beat = b)

/-- The beat that left last, after a cycle. -/
def lastOf (prev : Option (Fin 5 × Beat)) (l : List (Fin 5 × Beat)) : Option (Fin 5 × Beat) :=
  l.getLast?.or prev

/-- A queue in `WR_PKT` that is empty shows the beat read last. -/
theorem beat_step (hcur : (a.step c).cur_queue = a.cur_queue) (he : (a.step c).empty = true) :
    (a.step c).beat = a.beat := by
  unfold empty at he
  unfold beat
  rw [hcur] at he ⊢
  exact FallthroughSmallFifo.dout_tick_of_empty he

theorem follows_step {prev : Option (Fin 5 × Beat)} (h : a.Follows prev) (c : ArbiterCycle) :
    (a.step c).Follows (lastOf prev (a.emitted c)) := by
  have hstate : (a.step c).state = (a.next c.m_tready).1 := rfl
  have hcur : (a.step c).cur_queue = (a.next c.m_tready).2.1 := rfl
  rcases a.next_cases c.m_tready with ⟨hs, he, hn⟩ | ⟨hs, he, hr, hn⟩ | ⟨hs, hl, hr, hn⟩ |
      ⟨hs, hl, he, hr, hn⟩ | ⟨hr, hi, hn⟩ <;> rw [hn] at hstate hcur
  · -- an empty queue is passed over
    have hout : a.emitted c = [] := by simp [emitted, he]
    refine ⟨fun _ => ?_, fun hw => by simp [hstate] at hw⟩
    rw [hout]
    exact h.idle hs
  · -- the first beat of a packet
    have hout : a.emitted c = [(a.cur_queue, a.beat)] := by simp [emitted, he, hr]
    refine ⟨fun hw => by simp [hstate] at hw, fun _ => ⟨a.beat, ?_, beat_step hcur⟩⟩
    rw [hout, hcur]
    rfl
  · -- `TLAST`: of the beat that leaves now, or of the one that left last
    refine ⟨fun _ => ?_, fun hw => by simp [hstate] at hw⟩
    obtain ⟨b, rfl, hb⟩ := h.wrPkt hs
    cases he : a.empty with
    | true =>
      have hout : a.emitted c = [] := by simp [emitted, he]
      rw [hout]
      rintro x ⟨⟩
      rw [← hb he]
      exact hl
    | false =>
      have hout : a.emitted c = [(a.cur_queue, a.beat)] := by simp [emitted, he, hr]
      rw [hout]
      rintro x ⟨⟩
      exact hl
  · -- a beat inside a packet
    have hout : a.emitted c = [(a.cur_queue, a.beat)] := by simp [emitted, he, hr]
    refine ⟨fun hw => by simp [hstate] at hw, fun _ => ⟨a.beat, ?_, beat_step hcur⟩⟩
    rw [hout, hcur]
    rfl
  · -- nothing leaves
    have hout : a.emitted c = [] := by
      unfold emitted
      cases ht : c.m_tready with
      | false => rfl
      | true => simp [(hr ht).2.1]
    rw [hout]
    refine ⟨fun hw => h.idle (hstate.symm.trans hw), fun hw => ?_⟩
    obtain ⟨b, hprev, hb⟩ := h.wrPkt (hstate.symm.trans hw)
    refine ⟨b, by rw [hcur]; exact hprev, fun he => ?_⟩
    rw [beat_step hcur he]
    refine hb ?_
    -- a queue that is not read does not become empty
    by_contra hne
    have hf : (a.in_arb_fifo a.cur_queue).empty = false := by simpa [empty] using hne
    have hfifo := FallthroughSmallFifo.empty_tick_false hf (a.pushed c a.cur_queue)
    have htick := a.fifo_step_cur (c := c)
    have hrd : (c.m_tready && !a.empty) = false := by
      cases ht : c.m_tready with
      | false => rfl
      | true => simp [(hr ht).2.1]
    rw [hrd] at htick
    unfold empty at he
    rw [hcur] at he
    simp only [htick, hfifo] at he
    cases he

/-- The beat that leaves belongs to the packet that is under way, if there is one. -/
theorem emitted_follows {prev : Option (Fin 5 × Beat)} (h : a.Follows prev) :
    ∀ x ∈ prev, ∀ y ∈ a.emitted c, x.2.tlast = false → y.1 = x.1 := by
  intro x hx y hy hl
  cases hs : a.state with
  | idle => rw [h.idle hs x hx] at hl; cases hl
  | wrPkt =>
    obtain ⟨b, rfl, -⟩ := h.wrPkt hs
    obtain rfl := Option.some.inj hx
    unfold emitted at hy
    split at hy
    · rw [List.mem_singleton.1 hy]
    · cases hy

theorem unmixed_run : ∀ (a : InputArbiter) (cs : List ArbiterCycle) (prev : Option (Fin 5 × Beat)),
    a.Follows prev → Unmixed Beat.tlast (prev.toList ++ collect step emitted a cs)
  | _, [], prev, _ => by cases prev <;> simp [Unmixed, collect]
  | a, c :: cs, prev, h => by
    have ih := unmixed_run (a.step c) cs _ (follows_step h c)
    have hnext := emitted_follows (c := c) h
    rw [collect]
    cases hout : a.emitted c with
    | nil => rwa [hout] at ih
    | cons y l =>
      obtain rfl : l = [] := by
        unfold emitted at hout
        split at hout <;> simp_all
      rw [hout] at ih hnext
      cases prev with
      | none => exact ih
      | some x => exact List.isChain_cons_cons.2 ⟨hnext x rfl y (by simp), ih⟩

theorem reset_follows (queue : BitVec 6 → Beat) (word : Beat) : (reset queue word).Follows none :=
  ⟨fun _ _ h => (nomatch h), fun h => (nomatch h)⟩

/-! ## Turns -/

/-- The queues that come before queue `q`. -/
def ahead (a : InputArbiter) (q : Fin 5) : Nat :=
  match a.state with
  | .idle => (q - a.cur_queue).val
  | .wrPkt => (q - (a.cur_queue + 1)).val

/-- The queue looked at in `IDLE` while the output is ready. -/
def looked (a : InputArbiter) (c : ArbiterCycle) : List (Fin 5) :=
  if a.state = .idle && c.m_tready then [a.cur_queue] else []

theorem ahead_le (a : InputArbiter) (q : Fin 5) : a.ahead q ≤ 4 := by
  unfold ahead
  split <;> omega

theorem sub_succ_lt {q i : Fin 5} (h : q ≠ i) : (q - (i + 1)).val + 1 = (q - i).val := by
  revert q i
  decide

/-- While a queue waits, each look at a queue brings its turn nearer. -/
theorem ahead_step {q : Fin 5} (hq : (a.in_arb_fifo q).empty = false)
    (hwait : part q (a.emitted c) = []) :
    (a.step c).ahead q + (a.looked c).length ≤ a.ahead q := by
  have hne : c.m_tready = true → q ≠ a.cur_queue := by
    rintro hr rfl
    simp [emitted, hr, empty, hq, part] at hwait
  have hcur : a.empty = true → q ≠ a.cur_queue := by
    rintro he rfl
    rw [empty, hq] at he
    cases he
  have hahead : (a.step c).ahead q = match (a.next c.m_tready).1 with
      | .idle => (q - (a.next c.m_tready).2.1).val
      | .wrPkt => (q - ((a.next c.m_tready).2.1 + 1)).val := rfl
  rw [hahead]
  unfold ahead looked
  rcases a.next_cases c.m_tready with ⟨hs, he, hn⟩ | ⟨hs, he, hr, hn⟩ | ⟨hs, hl, hr, hn⟩ |
      ⟨hs, hl, he, hr, hn⟩ | ⟨hr, hi, hn⟩ <;> simp only [hn]
  · simp only [hs]
    rw [← sub_succ_lt (hcur he)]
    split <;> simp
  · simp only [hs, hr]
    rw [← sub_succ_lt (hne hr)]
    simp
  · simp [hs]
  · simp [hs]
  · cases hs : a.state with
    | wrPkt => simp
    | idle =>
      have hr' : c.m_tready = false := by
        cases ht : c.m_tready with
        | false => rfl
        | true => rw [(hr ht).1] at hs; cases hs
      simp [hr']

/-- A queue that waits keeps its beats. -/
theorem empty_step {q : Fin 5} (hq : (a.in_arb_fifo q).empty = false)
    (hwait : part q (a.emitted c) = []) : ((a.step c).in_arb_fifo q).empty = false := by
  by_cases hcur : q = a.cur_queue
  · subst hcur
    have hr : c.m_tready = false := by
      cases ht : c.m_tready with
      | false => rfl
      | true => simp [emitted, ht, empty, hq, part] at hwait
    rw [fifo_step_cur, hr]
    exact FallthroughSmallFifo.empty_tick_false hq _
  · rw [fifo_step_of_ne hcur]
    exact FallthroughSmallFifo.empty_tick_false hq _

theorem ahead_run {q : Fin 5} : ∀ (a : InputArbiter) (cs : List ArbiterCycle),
    (a.in_arb_fifo q).empty = false → part q (collect step emitted a cs) = [] →
    (run step a cs).ahead q + (collect step looked a cs).length ≤ a.ahead q
  | a, [], _, _ => by simp [run, collect]
  | a, c :: cs, hq, hwait => by
    rw [collect, part_append] at hwait
    obtain ⟨hnow, hlater⟩ := List.append_eq_nil_iff.1 hwait
    have hstep := ahead_step hq hnow
    have ih := ahead_run (a.step c) cs (empty_step hq hnow) hlater
    rw [run_cons, collect, List.length_append]
    omega

end InputArbiter

open InputArbiter

/-- **The input arbiter merges the five streams packet by packet.**  In every run from reset, what has
left from a queue and what the queue still holds is what it accepted; the queue changes only behind a
last beat; so if the queues have handed on whole packets, these have left one after another, those of
each queue in their order. -/
theorem inputArbiter_merges (queue : BitVec 6 → Beat) (word : Beat) (cs : List ArbiterCycle) :
    let out := collect step emitted (reset queue word) cs
    (∀ i, part i out ++ ((run step (reset queue word) cs).in_arb_fifo i).contents
      = collect step (accepted i) (reset queue word) cs) ∧
    Unmixed Beat.tlast out ∧
    ∀ packets : Fin 5 → List (List Beat), (∀ i, ∀ p ∈ packets i, Whole Beat.tlast p) →
      (∀ i, part i out = (packets i).flatten) →
      ∃ order : List (Fin 5 × List Beat), out = order.flatMap tag ∧ ∀ i, part i order = packets i := by
  intro out
  have hmix : Unmixed Beat.tlast out := unmixed_run _ cs none (reset_follows queue word)
  refine ⟨fun i => ?_, hmix, fun packets hw hpart => hmix.groups hw hpart⟩
  have hrun := collect_conserves WellFormed (fun _ _ => True) (fun a => (a.in_arb_fifo i).contents)
    (accepted i) (fun a c => part i (emitted a c)) (fun _ c h _ => wellFormed_step h c)
    (fun _ c h _ => conserves h c i) (reset queue word) cs (reset_wellFormed queue word)
    (along_of_forall (fun _ _ => trivial) _ cs)
  rw [← collect_map (part i) part_nil part_append] at hrun
  have hnil : ((reset queue word).in_arb_fifo i).contents = [] :=
    FallthroughSmallFifo.contents_reset queue word
  rw [hnil, List.nil_append] at hrun
  exact hrun.symm

/-- **Bounded waiting.**  While a queue holds a beat that does not leave, the arbiter looks at a queue
(to begin a packet or to pass it over) at most four times. -/
theorem inputArbiter_bounded_waiting (a : InputArbiter) (q : Fin 5)
    (hq : (a.in_arb_fifo q).empty = false) (cs : List ArbiterCycle)
    (hwait : part q (collect step emitted a cs) = []) :
    (collect step looked a cs).length ≤ 4 := by
  have hrun := ahead_run a cs hq hwait
  have hle := a.ahead_le q
  omega

/-- Queue 0 waits while queue 3, whose packet begins, is looked at once. -/
theorem inputArbiter_bounded_waiting_run :
    (collect step looked
      (run step (reset (fun _ => ⟨0, 0, 0, false⟩) ⟨0, 0, 0, false⟩)
        (List.replicate 4 ⟨fun i => if i = 0 ∨ i = 3 then some ⟨1, 0, 0, false⟩ else none, false⟩))
      (List.replicate 3 ⟨fun _ => none, true⟩)).length ≤ 4 :=
  inputArbiter_bounded_waiting _ 0 (by decide +kernel) _ (by decide +kernel)

end BirRouter
