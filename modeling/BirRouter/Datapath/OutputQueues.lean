import BirRouter.Datapath.OutputQueue
import BirRouter.Lib.Clocked

/-!
# The output queues (`nf10_bram_output_queues.v`)

The last core of the data path copies a packet into the queues of all ports it is meant for, or into
none of them: in `IDLE` it looks at the destination bits of the first beat and at the registered
`nearly_full` flags of these queues, and goes through the packet in `WR_PKT` or in `DROP`.

The flags are a cycle old, and the packet is written without looking at them again.  That no queue
overflows is a matter of numbers: a flag is raised at 78 words, one more word may have been written
since, and a packet of at most 50 beats fits behind them, down to the last of the 128 places.

`Copier` says what the core is for: packets are taken in one after another and each is kept or
dropped as a whole.  `Stands` relates the core, fed from a stream of packets, to it, and `Stands.step`
is the simulation of one cycle.

* `outputQueues_all_or_nothing` — over all runs: what leaves at each port is the packets for that port
  that were kept, in order, with their metadata on their first beats;
* `outputQueues_line_rate` — while the ports are ready nothing is dropped.
-/

set_option autoImplicit false

namespace BirRouter

open Clocked Frames

inductive QueuesState
  | idle
  | wrPkt
  | drop
  deriving DecidableEq, Repr

structure BramOutputQueues where
  queues : Fin 5 → OutputQueue
  state : QueuesState
  cur_queue : BitVec 5
  first_word : Bool

/-- What the core is given in a clock cycle. -/
structure QueuesCycle where
  s_axis_tvalid : Bool
  s_axis : Beat
  m_tready : Fin 5 → Bool

namespace BramOutputQueues

def dstPos : Nat := 24

/-- The queues a packet is meant for: one for each port, and one for all four CPU queues. -/
def oq (tuser : BitVec 128) : BitVec 5 :=
  let bit := fun i => (BitVec.ofBool (tuser.getLsbD (dstPos + i))).setWidth 5
  bit 0 ||| bit 2 <<< 1 ||| bit 4 <<< 2 ||| bit 6 <<< 3 |||
    (bit 1 ||| bit 3 ||| bit 5 ||| bit 7) <<< 4

/-- `(nearly_full | metadata_nearly_full) & oq`, bit `i`. -/
def crowded (s : BramOutputQueues) (oq : BitVec 5) (i : Fin 5) : Bool :=
  ((s.queues i).nearly_full || (s.queues i).metadata_nearly_full) && oq.getLsbD i

/-- No queue of the packet is nearly full. -/
def able (s : BramOutputQueues) (oq : BitVec 5) : Bool := decide (∀ i, s.crowded oq i = false)

/-- `s_axis_tready`. -/
def tready (s : BramOutputQueues) : Bool := decide (s.state ≠ .idle)

def stateNext (s : BramOutputQueues) (c : QueuesCycle) : QueuesState :=
  match s.state with
  | .idle =>
    if c.s_axis_tvalid then if s.able (oq c.s_axis.tuser) then .wrPkt else .drop else .idle
  | .wrPkt => if c.s_axis_tvalid && c.s_axis.tlast then .idle else .wrPkt
  | .drop => if c.s_axis_tvalid && c.s_axis.tlast then .idle else .drop

def curQueueNext (s : BramOutputQueues) (c : QueuesCycle) : BitVec 5 :=
  match s.state with
  | .idle => oq c.s_axis.tuser
  | _ => s.cur_queue

def firstWordNext (s : BramOutputQueues) (c : QueuesCycle) : Bool :=
  match s.state with
  | .idle => if c.s_axis_tvalid && s.able (oq c.s_axis.tuser) then true else s.first_word
  | .wrPkt => if c.s_axis_tvalid then false else s.first_word
  | .drop => s.first_word

/-- `wr_en[i]`, with the beat that is written. -/
def wr (s : BramOutputQueues) (c : QueuesCycle) (i : Fin 5) : Option Beat :=
  if s.state = .wrPkt && c.s_axis_tvalid && s.cur_queue.getLsbD i then some c.s_axis else none

/-- One clock cycle. -/
def step (s : BramOutputQueues) (c : QueuesCycle) : BramOutputQueues where
  queues i := (s.queues i).tick ((s.wr c i).map Beat.word)
    (OutputQueue.metadataWr s.first_word (s.wr c i)) (c.m_tready i)
  state := s.stateNext c
  cur_queue := s.curQueueNext c
  first_word := s.firstWordNext c

def reset (queues : Fin 5 → OutputQueue) : BramOutputQueues := ⟨queues, .idle, 0, false⟩

end BramOutputQueues

open BramOutputQueues

/-! ## What the core is for -/

/-- The packet is meant for queue `i`. -/
def Packet.to (p : Packet) (i : Fin 5) : Bool := (oq p.first.tuser).getLsbD i

/-- A packet that is taken in: `begun` has been taken, `tail` has not. -/
structure Intake where
  packet : Packet
  begun : List Beat
  tail : List Beat
  kept : Bool

/-- Packets are taken in one after another; each is kept or dropped. -/
structure Copier where
  done : List (Packet × Bool)
  intake : Option Intake
  rest : List Packet

namespace Copier

/-- The beats for queue `i` of the packets that were kept. -/
def copies (i : Fin 5) (done : List (Packet × Bool)) : List Beat :=
  done.flatMap fun p => if p.2 && p.1.to i then p.1.beats else []

/-- The beats for queue `i` of the packet that is taken in. -/
def Intake.written (i : Fin 5) (t : Intake) : List Beat :=
  if t.kept && t.packet.to i then t.begun else []

def written (i : Fin 5) (m : Copier) : List Beat :=
  copies i m.done ++ (m.intake.map (Intake.written i)).getD []

/-- The packets in the order in which they come. -/
def packets (m : Copier) : List Packet :=
  m.done.map Prod.fst ++ (m.intake.map Intake.packet).toList ++ m.rest

/-- The beats that have not been taken. -/
def pending (m : Copier) : List Beat :=
  (m.intake.map Intake.tail).getD [] ++ m.rest.flatMap Packet.beats

/-- A cycle in which the next beat is offered; `able` decides about a packet that begins. -/
def offered (m : Copier) (able : Packet → Bool) : Copier :=
  match m.intake with
  | none =>
    match m.rest with
    | [] => m
    | p :: rest => ⟨m.done, some ⟨p, [], p.beats, able p⟩, rest⟩
  | some t =>
    match t.tail with
    | [] => m
    | [_] => ⟨m.done ++ [(t.packet, t.kept)], none, m.rest⟩
    | b :: tail => ⟨m.done, some ⟨t.packet, t.begun ++ [b], tail, t.kept⟩, m.rest⟩

end Copier

/-- The core with the stream it is fed from. -/
structure Feed where
  pending : List Beat
  core : BramOutputQueues

/-- The next beat of the stream is offered or not; then the bus shows anything. -/
structure FeedCycle where
  offer : Bool
  bus : Beat
  m_tready : Fin 5 → Bool

namespace Feed

def cycle (f : Feed) (c : FeedCycle) : QueuesCycle :=
  match c.offer, f.pending with
  | true, b :: _ => ⟨true, b, c.m_tready⟩
  | _, _ => ⟨false, c.bus, c.m_tready⟩

def step (f : Feed) (c : FeedCycle) : Feed where
  pending := if (f.cycle c).s_axis_tvalid && f.core.tready then f.pending.tail else f.pending
  core := f.core.step (f.cycle c)

/-- The beat that leaves at port `i`. -/
def emitted (i : Fin 5) (f : Feed) (c : FeedCycle) : List Beat :=
  (f.core.queues i).emitted (c.m_tready i)

end Feed

/-! ## Packets, beat by beat -/

namespace Packet

variable {p : Packet} {begun tail : List Beat} {b : Beat}

theorem tlast_of_split (h : p.beats = begun ++ b :: tail) : b.tlast = tail.isEmpty := by
  have hi : begun.length < p.beats.length := by simp [h]
  have hb := p.tlast_getElem hi
  have hget : p.beats[begun.length] = b := by simp [h]
  rw [hget] at hb
  rw [hb, h]
  cases tail <;> simp

theorem tlast_of_mem_begun (h : p.beats = begun ++ tail) (ht : tail ≠ []) :
    ∀ x ∈ begun, x.tlast = false := by
  intro x hx
  obtain ⟨i, hi, rfl⟩ := List.getElem_of_mem hx
  have hlen : begun.length < p.beats.length := by
    rw [h, List.length_append]
    exact Nat.lt_add_of_pos_right (List.length_pos_iff.2 ht)
  have hb := p.tlast_getElem (Nat.lt_trans hi hlen)
  have hget : p.beats[i] = begun[i] := by simp [h, hi]
  rw [← hget, hb]
  exact decide_eq_false (by omega)

theorem after_beats (p : Packet) (start : Bool) : after Beat.tlast start p.beats = true := by
  have hsplit : p.beats = (p.first :: p.body) ++ [p.last] := rfl
  rw [hsplit, after_concat, p.last_tlast]

/-- Inside a packet no beat begins one. -/
theorem after_begun (h : p.beats = begun ++ tail) (ht : tail ≠ []) :
    after Beat.tlast true begun = begun.isEmpty := by
  have hl := tlast_of_mem_begun h ht
  cases begun with
  | nil => rfl
  | cons b begun =>
    rw [after, hl b List.mem_cons_self]
    exact after_false fun x hx => hl x (List.mem_cons_of_mem _ hx)

end Packet

namespace Copier

theorem after_copies (i : Fin 5) (done : List (Packet × Bool)) :
    after Beat.tlast true (copies i done) = true := by
  induction done with
  | nil => rfl
  | cons p done ih =>
    rw [copies, List.flatMap_cons, after_append]
    split
    · rw [Packet.after_beats]
      exact ih
    · exact ih

end Copier

/-! ## The core stands for the copier -/

/-- The core is in the middle of a packet. -/
structure Intake.Stands (t : Intake) (s : BramOutputQueues) : Prop where
  split : t.packet.beats = t.begun ++ t.tail
  tail_ne : t.tail ≠ []
  state : s.state = if t.kept then .wrPkt else .drop
  target : t.kept = true → s.cur_queue = oq t.packet.first.tuser ∧ s.first_word = t.begun.isEmpty
  /-- The queues have room for what is left of the packet. -/
  room : t.kept = true → ∀ i, t.packet.to i = true →
    (s.queues i).output_fifo.fifo.depth.toNat + t.tail.length ≤ 2 ^ 7 ∧
    (t.begun = [] → (s.queues i).metadata_fifo.fifo.depth.toNat ≤ 3)

/-- The core, fed with packets of at most 50 beats, stands for the copier `m`; `out` has left. -/
structure Stands (f : Feed) (m : Copier) (out : Fin 5 → List Beat) : Prop where
  pending : f.pending = m.pending
  short : ∀ p ∈ m.rest, p.beats.length ≤ 50
  idle : m.intake = none → f.core.state = .idle
  intake : ∀ t, m.intake = some t → t.Stands f.core
  queues : ∀ i, ∃ shown held, m.written i = shown ++ held ∧ OutputQueue.Shows (out i) shown ∧
    (f.core.queues i).Holds shown held

/-- What the copier does in a cycle of the core. -/
def Copier.next (m : Copier) (f : Feed) (c : FeedCycle) : Copier :=
  if c.offer then m.offered fun p => f.core.able (oq p.first.tuser) else m

section Step

variable {f : Feed} {m : Copier} {out : Fin 5 → List Beat} {c : FeedCycle}

/-- What happens in a cycle: nothing, a look at a packet that begins, or a beat. -/
theorem Stands.cycle_cases (h : Stands f m out) (c : FeedCycle) :
    (f.cycle c = ⟨false, c.bus, c.m_tready⟩ ∧ m.next f c = m) ∨
    (∃ p rest, m.intake = none ∧ m.rest = p :: rest ∧ f.cycle c = ⟨true, p.first, c.m_tready⟩ ∧
      m.next f c = ⟨m.done, some ⟨p, [], p.beats, f.core.able (oq p.first.tuser)⟩, rest⟩) ∨
    (∃ t b tail, m.intake = some t ∧ t.tail = b :: tail ∧ f.cycle c = ⟨true, b, c.m_tready⟩ ∧
      m.next f c = if tail.isEmpty then ⟨m.done ++ [(t.packet, t.kept)], none, m.rest⟩
        else ⟨m.done, some ⟨t.packet, t.begun ++ [b], tail, t.kept⟩, m.rest⟩) := by
  cases ho : c.offer with
  | false => exact .inl ⟨by simp [Feed.cycle, ho], by simp [Copier.next, ho]⟩
  | true =>
    have hp := h.pending
    unfold Copier.pending at hp
    unfold Copier.next Copier.offered
    rw [if_pos ho]
    cases hi : m.intake with
    | none =>
      rw [hi] at hp
      cases hr : m.rest with
      | nil =>
        rw [hr] at hp
        exact .inl ⟨by simp [Feed.cycle, ho, hp], rfl⟩
      | cons p rest =>
        rw [hr] at hp
        refine .inr (.inl ⟨p, rest, rfl, rfl, ?_, rfl⟩)
        simp [Feed.cycle, ho, hp, Packet.beats]
    | some t =>
      rw [hi] at hp
      cases ht : t.tail with
      | nil => exact absurd ht (h.intake t hi).tail_ne
      | cons b tail =>
        refine .inr (.inr ⟨t, b, tail, rfl, ht, ?_, ?_⟩)
        · simp [Feed.cycle, ho, hp, ht]
        · simp only [ht]
          cases tail <;> rfl

/-- What is written to queue `i`. -/
theorem Stands.written_next (h : Stands f m out) (c : FeedCycle) (i : Fin 5) :
    (m.next f c).written i = m.written i ++ (f.core.wr (f.cycle c) i).toList := by
  rcases h.cycle_cases c with ⟨hc, hn⟩ | ⟨p, rest, hi, hr, hc, hn⟩ | ⟨t, b, tail, hi, ht, hc, hn⟩
  · simp [hn, hc, BramOutputQueues.wr]
  · simp [hn, hc, BramOutputQueues.wr, h.idle hi, Copier.written, hi, Copier.Intake.written]
  · have hs := h.intake t hi
    have hwr : (f.core.wr (f.cycle c) i).toList = if t.kept && t.packet.to i then [b] else [] := by
      unfold BramOutputQueues.wr
      rw [hc, hs.state]
      cases hk : t.kept with
      | false => simp
      | true =>
        rw [(hs.target hk).1]
        simp only [Packet.to, if_true, decide_true, Bool.true_and]
        split <;> rfl
    rw [hwr, hn]
    unfold Copier.written
    rw [hi]
    cases tail with
    | nil =>
      rw [List.isEmpty_nil, if_pos rfl]
      have hb : t.packet.beats = t.begun ++ [b] := by rw [hs.split, ht]
      simp only [Copier.copies, List.flatMap_append, List.flatMap_singleton, Option.map_none,
        Option.getD_none, List.append_nil, Option.map_some, Option.getD_some,
        Copier.Intake.written, List.append_assoc, hb]
      split <;> rfl
    | cons b' tail =>
      rw [List.isEmpty_cons, if_neg Bool.false_ne_true]
      simp only [Option.map_some, Option.getD_some, Copier.Intake.written, List.append_assoc]
      split <;> rfl

/-- A beat is written behind what its queue stands for, and finds room there. -/
theorem Stands.wr_ok (h : Stands f m out) {i : Fin 5} {b : Beat}
    (hb : f.core.wr (f.cycle c) i = some b) :
    f.core.first_word = after Beat.tlast true (m.written i) ∧
    (f.core.first_word = true → b.tlast = false) ∧
    (f.core.queues i).output_fifo.fifo.depth.toNat < 2 ^ 7 ∧
    (f.core.first_word = true → (f.core.queues i).metadata_fifo.fifo.depth.toNat < 2 ^ 2) := by
  rcases h.cycle_cases c with ⟨hc, hn⟩ | ⟨p, rest, hi, hr, hc, hn⟩ | ⟨t, b', tail, hi, ht, hc, hn⟩
  · simp [hc, BramOutputQueues.wr] at hb
  · simp [hc, BramOutputQueues.wr, h.idle hi] at hb
  · have hs := h.intake t hi
    cases hk : t.kept with
    | false => simp [BramOutputQueues.wr, hs.state, hk] at hb
    | true =>
      obtain ⟨hcur, hfw⟩ := hs.target hk
      obtain ⟨hto, rfl⟩ : t.packet.to i = true ∧ b' = b := by
        simpa [BramOutputQueues.wr, hc, hs.state, hk, hcur, Packet.to] using hb
      obtain ⟨hroom, hmeta⟩ := hs.room hk i hto
      have hsplit := hs.split
      rw [ht] at hsplit hroom
      have hwritten : m.written i = Copier.copies i m.done ++ t.begun := by
        simp [Copier.written, hi, Copier.Intake.written, hk, hto]
      refine ⟨?_, fun hf => ?_, ?_, fun hf => ?_⟩
      · rw [hwritten, after_append, Copier.after_copies, hfw,
          Packet.after_begun hsplit (List.cons_ne_nil _ _)]
      · rw [hfw, List.isEmpty_iff] at hf
        rw [hf] at hsplit
        obtain ⟨rfl, -⟩ := List.cons.inj hsplit
        exact t.packet.first_tlast
      · rw [List.length_cons] at hroom
        omega
      · rw [hfw, List.isEmpty_iff] at hf
        have := hmeta hf
        omega

theorem Stands.fits (h : Stands f m out) (c : FeedCycle) (i : Fin 5) :
    (f.core.queues i).output_fifo.fifo.Fits ((f.core.wr (f.cycle c) i).map Beat.word) ∧
    (f.core.queues i).metadata_fifo.fifo.Fits
      (OutputQueue.metadataWr f.core.first_word (f.core.wr (f.cycle c) i)) := by
  cases hb : f.core.wr (f.cycle c) i with
  | none =>
    refine ⟨fun hw => (nomatch hw), fun hw => ?_⟩
    cases hf : f.core.first_word <;> simp [OutputQueue.metadataWr, hf] at hw
  | some b =>
    obtain ⟨-, -, hroom, hmeta⟩ := h.wr_ok hb
    refine ⟨fun _ => hroom, fun hw => hmeta ?_⟩
    cases hf : f.core.first_word with
    | true => rfl
    | false => simp [OutputQueue.metadataWr, hf] at hw

theorem Stands.depth_step (h : Stands f m out) (c : FeedCycle) (i : Fin 5) :
    ((f.step c).core.queues i).output_fifo.fifo.depth.toNat
      ≤ (f.core.queues i).output_fifo.fifo.depth.toNat
        + (f.core.wr (f.cycle c) i).toList.length ∧
    (f.core.wr (f.cycle c) i = none →
      ((f.step c).core.queues i).metadata_fifo.fifo.depth.toNat
        ≤ (f.core.queues i).metadata_fifo.fifo.depth.toNat) := by
  obtain ⟨shown, held, -, -, hq⟩ := h.queues i
  obtain ⟨hfits, hmfits⟩ := h.fits c i
  constructor
  · have hle := OutputQueue.FallthroughSmallFifo.depth_tick_le hq.sound hfits
      ((f.core.queues i).rdEn ((f.cycle c).m_tready i))
    rw [Option.toList_map, List.length_map] at hle
    exact hle
  · intro hnone
    have hle := OutputQueue.FallthroughSmallFifo.depth_tick_le hq.metadata_sound hmfits
      ((f.core.queues i).metadataNext ((f.cycle c).m_tready i)).1
    rw [hnone] at hle
    have hwr : OutputQueue.metadataWr f.core.first_word none = none := by
      cases f.core.first_word <;> rfl
    rw [hwr] at hle
    show ((f.core.queues i).metadata_fifo.tick _ _).fifo.depth.toNat ≤ _
    rw [hnone, hwr]
    exact hle

theorem Feed.cycle_m_tready (f : Feed) (c : FeedCycle) : (f.cycle c).m_tready = c.m_tready := by
  unfold Feed.cycle
  split <;> rfl

theorem Stands.queues_step (h : Stands f m out) (c : FeedCycle) (i : Fin 5) :
    ∃ shown held, (m.next f c).written i = shown ++ held ∧
      OutputQueue.Shows (out i ++ f.emitted i c) shown ∧
      ((f.step c).core.queues i).Holds shown held := by
  obtain ⟨shown, held, hw, hshow, hq⟩ := h.queues i
  obtain ⟨hfits, hmfits⟩ := h.fits c i
  have hfirst : ∀ b ∈ f.core.wr (f.cycle c) i,
      f.core.first_word = after Beat.tlast true (shown ++ held) := fun b hb => hw ▸ (h.wr_ok hb).1
  have htick := hq.tick hfirst (fun b hb => (h.wr_ok hb).2.1) hfits hmfits (c.m_tready i)
  have hcore : (f.step c).core.queues i
      = (f.core.queues i).tick ((f.core.wr (f.cycle c) i).map Beat.word)
        (OutputQueue.metadataWr f.core.first_word (f.core.wr (f.cycle c) i)) (c.m_tready i) := by
    simp only [Feed.step, BramOutputQueues.step, Feed.cycle_m_tready]
  obtain ⟨hwords, htusers⟩ := hq.emitted (c.m_tready i)
  refine ⟨_, _, ?_, ⟨?_, ?_⟩, hcore ▸ htick⟩
  · rw [h.written_next, hw, List.append_assoc, List.append_assoc, ← List.append_assoc (List.take _ _),
      List.take_append_drop]
  · rw [List.map_append, List.map_append, hshow.1]
    exact congrArg _ hwords
  · rw [firsts_append, firsts_append, List.map_append, List.map_append, hshow.2,
      OutputQueue.after_eq_of_words hshow.1]
    exact congrArg _ htusers

/-- **The core does in a cycle what the copier does.** -/
theorem Stands.step (h : Stands f m out) (c : FeedCycle) :
    Stands (f.step c) (m.next f c) fun i => out i ++ f.emitted i c := by
  have hdepth := h.depth_step c
  have hqueues := h.queues_step c
  have hpending : (f.step c).pending = if (f.cycle c).s_axis_tvalid && f.core.tready
      then f.pending.tail else f.pending := rfl
  have hstate : (f.step c).core.state = f.core.stateNext (f.cycle c) := rfl
  have hcur : (f.step c).core.cur_queue = f.core.curQueueNext (f.cycle c) := rfl
  have hfirst : (f.step c).core.first_word = f.core.firstWordNext (f.cycle c) := rfl
  have hp := h.pending
  rcases h.cycle_cases c with ⟨hc, hn⟩ | ⟨p, rest, hi, hr, hc, hn⟩ | ⟨t, b, tail, hi, ht, hc, hn⟩
  · -- nothing is offered
    have hwr : ∀ i, f.core.wr (f.cycle c) i = none := fun i => by
      simp [hc, BramOutputQueues.wr]
    rw [hc] at hpending hstate hcur hfirst
    rw [hn] at hqueues ⊢
    refine ⟨hpending.trans hp, h.short, fun hi => ?_, fun t hi => ?_, hqueues⟩
    · rw [hstate]
      simp [stateNext, h.idle hi]
    · have hs := h.intake t hi
      refine ⟨hs.split, hs.tail_ne, ?_, fun hk => ?_, fun hk i hto => ?_⟩
      · rw [hstate, stateNext, hs.state]
        cases t.kept <;> rfl
      · rw [hcur, hfirst, curQueueNext, firstWordNext, hs.state, hk]
        exact hs.target hk
      · obtain ⟨hle, hmle⟩ := hdepth i
        obtain ⟨hroom, hmeta⟩ := hs.room hk i hto
        rw [hwr i] at hle
        exact ⟨Nat.le_trans (Nat.add_le_add_right hle _) hroom,
          fun hb => Nat.le_trans (hmle (hwr i)) (hmeta hb)⟩
  · -- a packet begins: its queues are looked at
    have hidle := h.idle hi
    have hwr : ∀ i, f.core.wr (f.cycle c) i = none := fun i => by
      simp [BramOutputQueues.wr, hidle]
    have hlen := h.short p (by rw [hr]; exact List.mem_cons_self)
    rw [hc] at hpending hstate hcur hfirst
    rw [hn] at hqueues ⊢
    refine ⟨?_, fun q hq => h.short q (by rw [hr]; exact List.mem_cons_of_mem _ hq),
      fun hnone => (nomatch hnone), fun t ht => ?_, hqueues⟩
    · rw [hpending, hp]
      simp [Copier.pending, hi, hr, tready, hidle]
    · obtain rfl := Option.some.inj ht
      refine ⟨rfl, List.cons_ne_nil _ _, ?_, fun hk => ?_, fun hk i hto => ?_⟩
      · rw [hstate, stateNext, hidle]
        rfl
      · rw [hcur, hfirst, curQueueNext, firstWordNext, hidle]
        simp only at hk
        simp [hk]
      · obtain ⟨hle, hmle⟩ := hdepth i
        obtain ⟨shown, held, -, -, hq⟩ := h.queues i
        have hfree : f.core.crowded (oq p.first.tuser) i = false := of_decide_eq_true hk i
        rw [crowded, show (oq p.first.tuser).getLsbD i = true from hto, Bool.and_true,
          Bool.or_eq_false_iff] at hfree
        have hnf := hq.nearly_full hfree.1
        have hmnf := hq.metadata_nearly_full hfree.2
        have hmle' := hmle (hwr i)
        rw [hwr i] at hle
        unfold OutputQueue.bufferThreshold at hnf
        simp only [Option.toList_none, List.length_nil, Nat.add_zero] at hle
        exact ⟨show _ + p.beats.length ≤ 128 by omega, fun _ => by omega⟩
  · -- a beat of a packet
    have hs := h.intake t hi
    have hsplit := hs.split
    rw [ht] at hsplit
    have hlast := Packet.tlast_of_split hsplit
    have hready : f.core.tready = true := by
      rw [tready, hs.state]
      cases t.kept <;> rfl
    have hpend : (f.step c).pending = tail ++ m.rest.flatMap Packet.beats := by
      rw [hpending, hc, hready, hp]
      simp [Copier.pending, hi, ht]
    have hstate' : (f.step c).core.state
        = if tail.isEmpty then .idle else if t.kept then .wrPkt else .drop := by
      rw [hstate, hc, stateNext, hs.state]
      cases t.kept <;> simp [hlast]
    rw [hn] at hqueues ⊢
    cases tail with
    | nil =>
      refine ⟨hpend, h.short, fun _ => hstate', fun t ht => (nomatch ht), hqueues⟩
    | cons b' tail =>
      refine ⟨hpend, h.short, fun hnone => (nomatch hnone), fun t' ht' => ?_, hqueues⟩
      obtain rfl := Option.some.inj ht'
      refine ⟨by simpa using hsplit, List.cons_ne_nil _ _, hstate', fun hk => ?_,
        fun hk i hto => ?_⟩
      · rw [hcur, hfirst, hc, curQueueNext, firstWordNext, hs.state]
        simp only at hk
        simp [hk, (hs.target hk).1]
      · obtain ⟨hle, -⟩ := hdepth i
        obtain ⟨hroom, -⟩ := hs.room hk i hto
        have hone : (f.core.wr (f.cycle c) i).toList.length ≤ 1 := by
          cases f.core.wr (f.cycle c) i <;> simp
        rw [ht, List.length_cons] at hroom
        exact ⟨show _ + (b' :: tail).length ≤ _ by omega, fun hb => by simp at hb⟩

end Step

/-! ## Runs -/

theorem Stands.packets_next {f : Feed} {m : Copier} {out : Fin 5 → List Beat} (h : Stands f m out)
    (c : FeedCycle) : (m.next f c).packets = m.packets := by
  rcases h.cycle_cases c with ⟨-, hn⟩ | ⟨p, rest, hi, hr, -, hn⟩ | ⟨t, b, tail, hi, -, -, hn⟩
  · rw [hn]
  · rw [hn]
    simp [Copier.packets, hi, hr]
  · rw [hn]
    unfold Copier.packets
    rw [hi]
    split <;> simp

/-- Over a run the core stands for the copier that has the same packets, and what every cycle keeps of
the two is kept. -/
theorem stands_run {I : Feed → Copier → Prop} {ok : FeedCycle → Prop}
    (hstep : ∀ {f m out c}, Stands f m out → I f m → ok c → I (f.step c) (m.next f c)) :
    ∀ (cs : List FeedCycle) (f : Feed) (m : Copier) (out : Fin 5 → List Beat), Stands f m out →
      I f m → (∀ c ∈ cs, ok c) → ∃ m' : Copier, m'.packets = m.packets ∧
        I (run Feed.step f cs) m' ∧
        Stands (run Feed.step f cs) m' fun i => out i ++ collect Feed.step (Feed.emitted i) f cs
  | [], f, m, out, h, hi, _ => ⟨m, rfl, hi, by simpa [collect, run] using h⟩
  | c :: cs, f, m, out, h, hi, hc => by
    obtain ⟨m', hp, hi', hs⟩ := stands_run hstep cs (f.step c) (m.next f c) _ (h.step c)
      (hstep h hi (hc c List.mem_cons_self)) fun d hd => hc d (List.mem_cons_of_mem _ hd)
    refine ⟨m', hp.trans (h.packets_next c), hi', ?_⟩
    simpa only [run_cons, collect, List.append_assoc] using hs

namespace Copier

/-- Everything that was taken in was kept. -/
def KeptAll (m : Copier) : Prop :=
  (∀ p ∈ m.done, p.2 = true) ∧ ∀ t, m.intake = some t → t.kept = true

end Copier

/-- While all ports are ready the flags stay low and every packet is kept. -/
theorem Stands.keptAll_step {f : Feed} {m : Copier} {out : Fin 5 → List Beat} (h : Stands f m out)
    (hf : ∀ i, (f.core.queues i).Flowing) (hk : m.KeptAll) {c : FeedCycle}
    (hc : ∀ i, c.m_tready i = true) :
    (∀ i, ((f.step c).core.queues i).Flowing) ∧ (m.next f c).KeptAll := by
  constructor
  · intro i
    obtain ⟨shown, held, -, -, hq⟩ := h.queues i
    have htick := (hf i).tick hq (h.fits c i).1
      (OutputQueue.metadataWr f.core.first_word (f.core.wr (f.cycle c) i))
    rw [← hc i, ← f.cycle_m_tready c] at htick
    exact htick
  · have hable : ∀ v, f.core.able v = true := fun v =>
      decide_eq_true fun i => by simp [crowded, (hf i).nearly_full, (hf i).metadata_nearly_full]
    rcases h.cycle_cases c with ⟨-, hn⟩ | ⟨p, rest, hi, hr, -, hn⟩ | ⟨t, b, tail, hi, -, -, hn⟩
    · rwa [hn]
    · rw [hn]
      refine ⟨hk.1, fun t ht => ?_⟩
      obtain rfl := Option.some.inj ht
      exact hable _
    · have hkept := hk.2 t hi
      rw [hn]
      split
      · refine ⟨fun p hp => ?_, fun t ht => (nomatch ht)⟩
        rcases List.mem_append.1 hp with hp | hp
        · exact hk.1 p hp
        · rw [List.mem_singleton.1 hp]
          exact hkept
      · refine ⟨hk.1, fun t' ht' => ?_⟩
        obtain rfl := Option.some.inj ht'
        exact hkept

/-- The core after reset, in front of a stream of packets. -/
def Feed.start (packets : List Packet) (queue : BitVec 7 → Word) (word : Word)
    (metadata : BitVec 2 → BitVec 128) (tuser : BitVec 128) : Feed :=
  ⟨packets.flatMap Packet.beats, .reset fun _ => .reset queue word metadata tuser⟩

section Start

variable (packets : List Packet) (queue : BitVec 7 → Word) (word : Word)
  (metadata : BitVec 2 → BitVec 128) (tuser : BitVec 128)

theorem OutputQueue.reset_holds : (OutputQueue.reset queue word metadata tuser).Holds [] [] where
  sound := FallthroughSmallFifo.reset_sound queue word
  metadata_sound := FallthroughSmallFifo.reset_sound metadata tuser
  words := FallthroughSmallFifo.contents_reset queue word
  headers := FallthroughSmallFifo.contents_reset metadata tuser
  state := rfl
  long := fun _ hb => (nomatch hb)
  ready := fun _ _ => rfl
  nearly_full := fun _ => Nat.zero_le _
  metadata_nearly_full := fun _ => Nat.zero_le _

theorem stands_start (hlen : ∀ p ∈ packets, p.beats.length ≤ 50) :
    Stands (.start packets queue word metadata tuser) ⟨[], none, packets⟩ fun _ => [] where
  pending := rfl
  short := hlen
  idle := fun _ => rfl
  intake := fun _ h => (nomatch h)
  queues := fun _ => ⟨[], [], rfl, ⟨rfl, rfl⟩, OutputQueue.reset_holds queue word metadata tuser⟩

end Start

namespace Copier

/-- The copier says what has happened: what it has not taken is pending, and at each port what it
kept for that port has left or is still in the queue, whose FIFOs hold no more than they have room
for. -/
structure Explains (m : Copier) (f : Feed) (out : Fin 5 → List Beat) : Prop where
  pending : f.pending = m.pending
  intake : ∀ t, m.intake = some t → t.packet.beats = t.begun ++ t.tail
  ports : ∀ i, ∃ shown held, m.written i = shown ++ held ∧ OutputQueue.Shows (out i) shown ∧
    (f.core.queues i).output_fifo.contents = held.map Beat.word
  depths : ∀ i, (f.core.queues i).output_fifo.fifo.depth.toNat ≤ 128 ∧
    (f.core.queues i).metadata_fifo.fifo.depth.toNat ≤ 4

end Copier

theorem Stands.explains {f : Feed} {m : Copier} {out : Fin 5 → List Beat} (h : Stands f m out) :
    m.Explains f out := by
  refine ⟨h.pending, fun t ht => (h.intake t ht).split, fun i => ?_, fun i => ?_⟩
  · obtain ⟨shown, held, hw, hshow, hq⟩ := h.queues i
    exact ⟨shown, held, hw, hshow, hq.words⟩
  · obtain ⟨_, _, _, _, hq⟩ := h.queues i
    exact ⟨hq.sound.depth_le, hq.metadata_sound.depth_le⟩

/-- **All or nothing.**  The core is fed with packets of two to fifty beats, whatever the ports do.
Then each packet is kept or dropped as a whole, for all its ports, and what has left at each port is
the packets kept for it, in order and complete, with their metadata on their first beats; no FIFO
overflows. -/
theorem outputQueues_all_or_nothing (packets : List Packet)
    (hlen : ∀ p ∈ packets, p.beats.length ≤ 50) (queue : BitVec 7 → Word) (word : Word)
    (metadata : BitVec 2 → BitVec 128) (tuser : BitVec 128) (cs : List FeedCycle) :
    let f := Feed.start packets queue word metadata tuser
    ∃ m : Copier, m.packets = packets ∧
      m.Explains (run Feed.step f cs) fun i => collect Feed.step (Feed.emitted i) f cs := by
  intro f
  obtain ⟨m, hp, _, hs⟩ := stands_run (I := fun _ _ => True) (fun _ _ _ => trivial) cs f _ _
    (stands_start packets queue word metadata tuser hlen) trivial fun _ _ => trivial
  exact ⟨m, hp, hs.explains⟩

/-- A packet of three beats for port 1 and the CPU. -/
def Packet.sample : Packet :=
  ⟨⟨0, 0, 0x0c000000, false⟩, [⟨1, 0, 0, false⟩], ⟨2, 0, 0, true⟩, rfl, by simp, rfl⟩

example : (List.finRange 5).map Packet.sample.to = [false, true, false, false, true] := by decide

/-- Two packets, and ports that are ready in every other cycle. -/
theorem outputQueues_all_or_nothing_sample :
    let f := Feed.start [.sample, .sample] (fun _ => ⟨false, 0, 0⟩) ⟨false, 0, 0⟩ (fun _ => 0) 0
    let cs := (List.range 9).map fun n => ⟨true, Packet.sample.first, fun _ => n % 2 == 0⟩
    ∃ m : Copier, m.packets = [.sample, .sample] ∧
      m.Explains (run Feed.step f cs) fun i => collect Feed.step (Feed.emitted i) f cs :=
  outputQueues_all_or_nothing [.sample, .sample] (by decide) _ _ _ _ _

/-- **While the ports are ready nothing is dropped.** -/
theorem outputQueues_line_rate (packets : List Packet)
    (hlen : ∀ p ∈ packets, p.beats.length ≤ 50) (queue : BitVec 7 → Word) (word : Word)
    (metadata : BitVec 2 → BitVec 128) (tuser : BitVec 128) (cs : List FeedCycle)
    (hready : ∀ c ∈ cs, ∀ i, c.m_tready i = true) :
    let f := Feed.start packets queue word metadata tuser
    ∃ m : Copier, m.packets = packets ∧ m.KeptAll ∧
      m.Explains (run Feed.step f cs) fun i => collect Feed.step (Feed.emitted i) f cs := by
  intro f
  obtain ⟨m, hp, hk, hs⟩ := stands_run (I := fun f m => (∀ i, (f.core.queues i).Flowing) ∧ m.KeptAll)
    (fun h hi hc => h.keptAll_step hi.1 hi.2 hc) cs f _ _
    (stands_start packets queue word metadata tuser hlen)
    ⟨fun _ => ⟨Nat.zero_le _, rfl, rfl⟩, fun _ h => (nomatch h), fun _ h => (nomatch h)⟩ hready
  exact ⟨m, hp, hk.2, hs.explains⟩

theorem outputQueues_line_rate_sample :
    let f := Feed.start [.sample, .sample] (fun _ => ⟨false, 0, 0⟩) ⟨false, 0, 0⟩ (fun _ => 0) 0
    let cs := List.replicate 9 ⟨true, Packet.sample.first, fun _ => true⟩
    ∃ m : Copier, m.packets = [.sample, .sample] ∧ m.KeptAll ∧
      m.Explains (run Feed.step f cs) fun i => collect Feed.step (Feed.emitted i) f cs :=
  outputQueues_line_rate [.sample, .sample] (by decide) _ _ _ _ _
    fun c hc _ => by rw [List.eq_of_mem_replicate hc]

end BirRouter
