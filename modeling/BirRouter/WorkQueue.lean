import BirRouter.Lib.Linked
import BirRouter.Lib.Trace
import Mathlib.Algebra.BigOperators.Fin
import Mathlib.Algebra.Order.BigOperators.Group.Finset

/-!
# The work queue (`sr_work_queue.c`)

Producers append to a linked list under a mutex and signal a condition variable; workers take from
its head, and wait on the variable while it is empty.

One step is one critical section, or what a thread does between two of them.  A worker that wakes up
has to get the mutex again and then looks at the queue again; a signal is sent after the mutex has
been released, so that others may come in between.

* `wqEnqueue`, `wqWaitForWork` — the critical sections on the nodes;
* `WqStep` — any number of producers and `n` workers, in any order, before `wq_destroy`;
* `workQueue_fifo` — the list is what was enqueued and not yet taken, in that order, and no step can
  fail; as long as something is left a worker is awake or a signal is on its way, so that a run
  without further enqueues takes all.
-/

set_option autoImplicit false

namespace BirRouter

open Linked Trace

/-! ## Critical sections -/

variable {α : Type}

/-- What a caller enqueues; the work itself is a pointer to something. -/
structure Work (α : Type) where
  type : Int
  work : α
  deriving DecidableEq, Repr

/-- `work_t` -/
structure WorkNode (α : Type) where
  item : Work α
  next : Option Nat

/-- `work_queue_t`, with the nodes. -/
structure WorkQueue (α : Type) where
  mem : Heap (WorkNode α)
  head : Option Nat
  tail : Option Nat
  done : Bool
  workers : Nat

/-- `wq_init`, which dies without workers. -/
def wqInit (mem : Heap (WorkNode α)) (num_workers : Nat) : Option (WorkQueue α) :=
  if num_workers = 0 then none
  else some { mem := mem, head := none, tail := none, done := false, workers := num_workers }

/-- `wq_enqueue`; `w` is what `malloc` returns. -/
def wqEnqueue (wq : WorkQueue α) (w : Nat) (item : Work α) : Option (WorkQueue α) := do
  let wq := { wq with mem := store wq.mem w ⟨item, none⟩ }
  match wq.tail with
  | some tail =>
    let mem ← modify wq.mem tail fun a => { a with next := some w }
    some { wq with mem := mem, tail := some w }
  | none => some { wq with head := some w, tail := some w }

/-- What a worker does with the mutex. -/
inductive WorkerTurn (α : Type)
  | waits
  | stops (wq : WorkQueue α)
  | died (message : String)
  | takes (work : Nat) (wq : WorkQueue α)

/-- One turn of `wq_wait_for_work`, up to `pthread_cond_wait` or `pthread_mutex_unlock`. -/
def wqWaitForWork (wq : WorkQueue α) : Option (WorkerTurn α) :=
  if wq.done = false ∧ wq.head = none then some .waits
  else if wq.done then some (.stops { wq with workers := wq.workers - 1 })
  else
    match wq.head with
    | none => some (.died "Error: no work on the work queue?")
    | some work => do
      let node ← wq.mem work
      let wq := { wq with head := node.next }
      some (.takes work (if wq.head = none then { wq with tail := none } else wq))

/-! ## Threads -/

inductive WorkerPhase
  /-- About to get the mutex. -/
  | checks
  /-- In `pthread_cond_wait`. -/
  | waits
  /-- Has the node `work`, which it frees when the work is done. -/
  | works (work : Nat)
  deriving DecidableEq, Repr

/-- The queue with its workers and the signals that producers are about to send.  What was enqueued
and what was taken is recorded beside it. -/
structure WqSystem (α : Type) (n : Nat) where
  wq : WorkQueue α
  worker : Fin n → WorkerPhase
  signals : Nat
  enqueued : List (Work α)
  taken : List (Work α)

/-- After `wq_init`, with all workers on their way to the mutex. -/
def WqSystem.start {n : Nat} (wq : WorkQueue α) : WqSystem α n where
  wq := wq
  worker _ := .checks
  signals := 0
  enqueued := []
  taken := []

inductive WqEvent (α : Type) (n : Nat)
  | enqueue (w : Nat) (item : Work α)
  /-- A signal that wakes a worker. -/
  | signal (i : Fin n)
  /-- A signal while no worker waits. -/
  | unheard
  /-- A worker that wakes up without being signalled, as `pthread_cond_wait` may. -/
  | spurious (i : Fin n)
  | turn (i : Fin n)
  | finish (i : Fin n)

inductive WqStep {n : Nat} : WqSystem α n → WqEvent α n → WqSystem α n → Prop
  | enqueue {s : WqSystem α n} {w : Nat} {item : Work α} {wq : WorkQueue α}
      (fresh : s.wq.mem w = none) (h : wqEnqueue s.wq w item = some wq) :
      WqStep s (.enqueue w item)
        { s with wq := wq, signals := s.signals + 1, enqueued := s.enqueued ++ [item] }
  | signal {s : WqSystem α n} {i : Fin n} (pending : 0 < s.signals) (waiting : s.worker i = .waits) :
      WqStep s (.signal i)
        { s with worker := Function.update s.worker i .checks, signals := s.signals - 1 }
  | unheard {s : WqSystem α n} (pending : 0 < s.signals) (none_waits : ∀ i, s.worker i ≠ .waits) :
      WqStep s .unheard { s with signals := s.signals - 1 }
  | spurious {s : WqSystem α n} {i : Fin n} (waiting : s.worker i = .waits) :
      WqStep s (.spurious i) { s with worker := Function.update s.worker i .checks }
  | waits {s : WqSystem α n} {i : Fin n} (checking : s.worker i = .checks)
      (h : wqWaitForWork s.wq = some .waits) :
      WqStep s (.turn i) { s with worker := Function.update s.worker i .waits }
  | takes {s : WqSystem α n} {i : Fin n} {work : Nat} {wq : WorkQueue α} {node : WorkNode α}
      (checking : s.worker i = .checks) (h : wqWaitForWork s.wq = some (.takes work wq))
      (hnode : s.wq.mem work = some node) :
      WqStep s (.turn i)
        { s with wq := wq, worker := Function.update s.worker i (.works work),
                 taken := s.taken ++ [node.item] }
  | finish {s : WqSystem α n} {i : Fin n} {work : Nat} (working : s.worker i = .works work) :
      WqStep s (.finish i)
        { s with wq := { s.wq with mem := free s.wq.mem work },
                 worker := Function.update s.worker i .checks }

/-! ## Nodes -/

/-- The nodes from `head` are those of `l`, one after another up to the null pointer, and `tail` is
the last of them. -/
structure WorkQueue.Holds (wq : WorkQueue α) (l : List (Nat × Work α)) : Prop where
  head : wq.head = first l none
  tail : wq.tail = last none l
  nodup : (addrs l).Nodup
  linked : Segment (fun _ item after node => node = ⟨item, after⟩) wq.mem none l none

variable {wq : WorkQueue α} {l : List (Nat × Work α)} {w : Nat} {item : Work α}

theorem WorkQueue.Holds.head_iff_tail (h : wq.Holds l) : wq.head = none ↔ wq.tail = none := by
  rw [h.head, h.tail, first_eq_none, last_eq_none]

/-- An empty queue gets its first node. -/
theorem wqEnqueue_nil (h : wq.Holds []) (w : Nat) (item : Work α) :
    wqEnqueue wq w item =
      some { wq with mem := store wq.mem w ⟨item, none⟩, head := some w, tail := some w } := by
  have htail : wq.tail = none := h.tail
  simp only [wqEnqueue, htail]

/-- The new node is stored first, and the old last one is then linked to it. -/
theorem wqEnqueue_concat {x : Nat × Work α} (h : wq.Holds (l ++ [x])) (hne : x.1 ≠ w)
    (item : Work α) :
    wqEnqueue wq w item =
      some { wq with mem := store (store wq.mem w ⟨item, none⟩) x.1 ⟨x.2, some w⟩
                     tail := some w } := by
  obtain ⟨a, ha, rfl⟩ := segment_singleton.1 (segment_append.1 h.linked).2
  have htail : wq.tail = some x.1 := h.tail.trans (last_concat ..)
  have hmod : modify (store wq.mem w ⟨item, none⟩) x.1 (fun a => { a with next := some w }) =
      some (store (store wq.mem w ⟨item, none⟩) x.1 ⟨x.2, some w⟩) :=
    modify_of_eq ((store_of_ne hne).trans ha)
  simp only [wqEnqueue, htail, hmod, Option.bind_eq_bind, Option.bind_some]

/-- Of the other nodes, an enqueue changes none. -/
theorem wqEnqueue_holds (h : wq.Holds l) (fresh : wq.mem w = none) (item : Work α) :
    ∃ wq', wqEnqueue wq w item = some wq' ∧ wq'.Holds (l ++ [(w, item)]) ∧ wq'.done = wq.done ∧
      ∀ p, p ∉ addrs l → p ≠ w → wq'.mem p = wq.mem p := by
  have hw : ∀ p ∈ addrs l, p ≠ w := by
    rintro p hp rfl
    exact h.linked.allocated p hp fresh
  have hnodup : (addrs (l ++ [(w, item)])).Nodup :=
    nodup_addrs_middle.2 ⟨fun hmem => hw w hmem rfl, by simp, by simpa using h.nodup⟩
  cases l using List.reverseRecOn with
  | nil =>
    exact ⟨_, wqEnqueue_nil h w item,
      ⟨rfl, rfl, hnodup, segment_singleton.2 ⟨_, store_self, rfl⟩⟩, rfl, fun p _ hp => store_of_ne hp⟩
  | append_singleton l x =>
    have hx : x.1 ≠ w := hw x.1 (by simp)
    refine ⟨_, wqEnqueue_concat h hx item, ⟨?_, ?_, hnodup, ?_⟩, rfl, ?_⟩
    · show wq.head = _
      rw [h.head, first_append, first_append, first_append]
      rfl
    · rw [last_concat]
    · refine segment_append.2 ⟨segment_append.2 ⟨?_, ?_⟩, ?_⟩
      · refine (segment_append.1 h.linked).1.frame fun p hp => ?_
        have hpx : p ≠ x.1 := ne_of_nodup_addrs h.nodup hp (by simp)
        exact (store_of_ne hpx).trans (store_of_ne (hw p (by simp [hp])))
      · exact segment_singleton.2 ⟨_, store_self, rfl⟩
      · exact segment_singleton.2 ⟨_, (store_of_ne (Ne.symm hx)).trans store_self, rfl⟩
    · intro p hp hpw
      have hpx : p ≠ x.1 := by
        rintro rfl
        simp at hp
      exact (store_of_ne hpx).trans (store_of_ne hpw)

theorem wqWaitForWork_nil (h : wq.Holds []) (hdone : wq.done = false) :
    wqWaitForWork wq = some .waits := by
  have hhead : wq.head = none := h.head
  simp [wqWaitForWork, hdone, hhead]

theorem wqWaitForWork_cons (h : wq.Holds ((w, item) :: l)) (hdone : wq.done = false) :
    ∃ wq', wqWaitForWork wq = some (.takes w wq') ∧ wq.mem w = some ⟨item, first l none⟩ ∧
      wq'.Holds l ∧ wq'.mem = wq.mem ∧ wq'.done = false := by
  obtain ⟨⟨a, ha, rfl⟩, hl⟩ := h.linked
  have hhead : wq.head = some w := h.head
  have hnodup : (addrs l).Nodup := (List.nodup_cons.1 h.nodup).2
  cases l with
  | nil =>
    refine ⟨{ wq with head := none, tail := none }, ?_, ha, ⟨rfl, rfl, hnodup, trivial⟩, rfl, hdone⟩
    simp [wqWaitForWork, hdone, hhead, ha, first]
  | cons x l =>
    refine ⟨{ wq with head := some x.1 }, ?_, ha, ⟨rfl, h.tail, hnodup, ?_⟩, rfl, hdone⟩
    · simp [wqWaitForWork, hdone, hhead, ha, first]
    -- Of what stands behind it a node knows nothing.
    · exact hl

/-! ## Invariant -/

variable {n : Nat} {s t : WqSystem α n}

structure WqSystem.Inv (s : WqSystem α n) (l : List (Nat × Work α)) : Prop where
  queue : s.wq.Holds l
  running : s.wq.done = false
  /-- A worker's node is in use and no longer in the queue. -/
  owned : ∀ i w, s.worker i = .works w → s.wq.mem w ≠ none ∧ w ∉ addrs l
  distinct : ∀ i j w, s.worker i = .works w → s.worker j = .works w → i = j
  fifo : s.enqueued = s.taken ++ l.map Prod.snd
  /-- Nobody sleeps while there is something to do and no signal on its way. -/
  awake : l ≠ [] → 0 < s.signals ∨ ∃ i, s.worker i ≠ .waits

theorem WqSystem.start_inv {mem : Heap (WorkNode α)} (hinit : wqInit mem n = some wq) :
    (WqSystem.start wq : WqSystem α n).Inv [] := by
  unfold wqInit at hinit
  split at hinit
  · exact absurd hinit (by simp)
  · cases hinit
    refine ⟨⟨rfl, rfl, List.nodup_nil, trivial⟩, rfl, ?_, ?_, rfl, fun h => absurd rfl h⟩
    · intro i w hw
      exact absurd hw (by simp [start])
    · intro i j w hw
      exact absurd hw (by simp [start])

theorem works_of_update {worker : Fin n → WorkerPhase} {i j : Fin n} {phase : WorkerPhase}
    (h : Function.update worker i phase j = .works w) :
    j = i ∧ phase = .works w ∨ j ≠ i ∧ worker j = .works w := by
  rw [Function.update_apply] at h
  split at h
  · exact .inl ⟨‹_›, h⟩
  · exact .inr ⟨‹_›, h⟩

/-- A worker may go on to the mutex at any time, and to sleep if there is nothing to do. -/
theorem WqSystem.Inv.setWorker (h : s.Inv l) {i : Fin n} {phase : WorkerPhase} (signals : Nat)
    (hidle : ∀ w, phase ≠ .works w) (hwait : phase = .waits → l = []) :
    WqSystem.Inv { s with worker := Function.update s.worker i phase, signals := signals } l where
  queue := h.queue
  running := h.running
  owned j w hw := by
    rcases works_of_update hw with ⟨-, hphase⟩ | ⟨-, hj⟩
    · exact absurd hphase (hidle w)
    · exact h.owned j w hj
  distinct j k w hj hk := by
    rcases works_of_update hj with ⟨-, hphase⟩ | ⟨-, hj⟩
    · exact absurd hphase (hidle w)
    rcases works_of_update hk with ⟨-, hphase⟩ | ⟨-, hk⟩
    · exact absurd hphase (hidle w)
    exact h.distinct j k w hj hk
  fifo := h.fifo
  awake hl := by
    have hi : Function.update s.worker i phase i = phase := Function.update_self ..
    exact .inr ⟨i, fun hphase => hl (hwait (hi.symm.trans hphase))⟩

theorem WqSystem.Inv.enqueue (h : s.Inv l) (fresh : s.wq.mem w = none)
    (hwq : wqEnqueue s.wq w item = some wq) :
    WqSystem.Inv { s with wq := wq, signals := s.signals + 1, enqueued := s.enqueued ++ [item] }
      (l ++ [(w, item)]) := by
  obtain ⟨wq', heq, hqueue, hdone, hframe⟩ := wqEnqueue_holds h.queue fresh item
  obtain rfl : wq = wq' := Option.some.inj (hwq.symm.trans heq)
  refine ⟨hqueue, hdone.trans h.running, ?_, h.distinct, ?_, fun _ => .inl (Nat.succ_pos _)⟩
  · intro i p hp
    obtain ⟨hmem, hl⟩ := h.owned i p hp
    have hpw : p ≠ w := by
      rintro rfl
      exact hmem fresh
    refine ⟨?_, by simp [hl, hpw]⟩
    rw [hframe p hl hpw]
    exact hmem
  · simp [h.fifo]

/-- The node of the head passes from the queue to the worker. -/
theorem WqSystem.Inv.takes (h : s.Inv ((w, item) :: l)) {wq' : WorkQueue α} {i : Fin n}
    (hqueue : wq'.Holds l) (hmem : wq'.mem = s.wq.mem) (hdone : wq'.done = false) :
    WqSystem.Inv { s with wq := wq', worker := Function.update s.worker i (.works w),
                          taken := s.taken ++ [item] } l := by
  have hw : s.wq.mem w ≠ none := h.queue.linked.allocated w (by simp)
  have hnodup : w ∉ addrs l := (List.nodup_cons.1 h.queue.nodup).1
  have hother : ∀ j, s.worker j ≠ .works w := fun j hj => (h.owned j w hj).2 (by simp)
  refine ⟨hqueue, hdone, ?_, ?_, ?_, fun _ => .inr ⟨i, by simp⟩⟩
  · intro j p hj
    rw [hmem]
    rcases works_of_update hj with ⟨-, hphase⟩ | ⟨-, hj⟩
    · cases hphase
      exact ⟨hw, hnodup⟩
    · obtain ⟨hp, hl⟩ := h.owned j p hj
      exact ⟨hp, fun hmem => hl (by simp [hmem])⟩
  · intro j k p hj hk
    rcases works_of_update hj with ⟨hji, hpj⟩ | ⟨-, hold⟩ <;>
      rcases works_of_update hk with ⟨hki, hpk⟩ | ⟨-, hold'⟩
    · exact hji.trans hki.symm
    · cases hpj
      exact absurd hold' (hother k)
    · cases hpk
      exact absurd hold (hother j)
    · exact h.distinct j k p hold hold'
  · simp [h.fifo]

/-- No one else has the node that a worker frees. -/
theorem WqSystem.Inv.finish (h : s.Inv l) {i : Fin n} (hi : s.worker i = .works w) :
    WqSystem.Inv { s with wq := { s.wq with mem := free s.wq.mem w },
                          worker := Function.update s.worker i .checks } l := by
  have hw : w ∉ addrs l := (h.owned i w hi).2
  have hset : WqSystem.Inv { s with worker := Function.update s.worker i .checks } l :=
    h.setWorker s.signals (by simp) (by simp)
  refine ⟨⟨h.queue.head, h.queue.tail, h.queue.nodup, ?_⟩, h.running, ?_, hset.distinct, h.fifo,
    hset.awake⟩
  · refine h.queue.linked.frame fun p hp => free_of_ne ?_
    rintro rfl
    exact hw hp
  · intro j p hj
    obtain ⟨hp, hl⟩ := hset.owned j p hj
    refine ⟨?_, hl⟩
    rcases works_of_update hj with ⟨-, hphase⟩ | ⟨hji, hold⟩
    · cases hphase
    · have hpw : p ≠ w := fun heq => hji (h.distinct j i p hold (heq ▸ hi))
      have hfree : free s.wq.mem w p = s.wq.mem p := free_of_ne hpw
      exact fun hnone => hp (hfree.symm.trans hnone)

/-- **Step lemma.** -/
theorem WqStep.inv (hn : 0 < n) {e : WqEvent α n} (h : s.Inv l) (hstep : WqStep s e t) :
    ∃ l', t.Inv l' := by
  cases hstep with
  | enqueue fresh hwq => exact ⟨_, h.enqueue fresh hwq⟩
  | signal _ _ => exact ⟨l, h.setWorker _ (by simp) (by simp)⟩
  | unheard _ hnone =>
    exact ⟨l, h.queue, h.running, h.owned, h.distinct, h.fifo, fun _ => .inr ⟨⟨0, hn⟩, hnone _⟩⟩
  | spurious _ => exact ⟨l, h.setWorker s.signals (by simp) (by simp)⟩
  | waits _ hturn =>
    cases l with
    | nil => exact ⟨[], h.setWorker s.signals (by simp) (fun _ => rfl)⟩
    | cons x l =>
      obtain ⟨wq', heq, -⟩ := wqWaitForWork_cons h.queue h.running
      exact absurd (hturn.symm.trans heq) (by simp)
  | takes _ hturn hnode =>
    cases l with
    | nil =>
      have heq := wqWaitForWork_nil h.queue h.running
      exact absurd (hturn.symm.trans heq) (by simp)
    | cons x l =>
      obtain ⟨wq', heq, hmem, hqueue, hsame, hdone⟩ := wqWaitForWork_cons h.queue h.running
      rw [hturn] at heq
      cases heq
      rw [hnode] at hmem
      cases hmem
      exact ⟨l, h.takes hqueue hsame hdone⟩
  | finish hi => exact ⟨l, h.finish hi⟩

/-- **Run lemma.** -/
theorem WqSystem.Inv.run (hn : 0 < n) {events : List (WqEvent α n)} (h : ∃ l, s.Inv l)
    (hrun : Exec WqStep s events t) : ∃ l, t.Inv l := by
  refine hrun.invariant (I := fun t => ∃ l, t.Inv l) h ?_
  rintro t e u ⟨l, ht⟩ hstep
  exact hstep.inv hn ht

/-! ## Progress -/

/-- The events that neither bring new work nor wake a worker without need. -/
def WqEvent.quiet : WqEvent α n → Prop
  | .enqueue _ _ | .spurious _ => False
  | .signal _ | .unheard | .turn _ | .finish _ => True

/-- The steps of a system that is left alone. -/
def QuietStep : WqSystem α n → WqEvent α n → WqSystem α n → Prop :=
  Restrict (fun _ e => e.quiet) WqStep

/-- The steps a worker makes at most before it sleeps, without new work. -/
def WorkerPhase.rank : WorkerPhase → Nat
  | .waits => 0
  | .checks => 1
  | .works _ => 2

theorem WorkerPhase.rank_waits : waits.rank = 0 := rfl

theorem WorkerPhase.rank_checks : checks.rank = 1 := rfl

theorem WorkerPhase.rank_works (work : Nat) : (works work).rank = 2 := rfl

/-- Each piece of work that is left and each signal can cost two steps. -/
def WqSystem.rank (s : WqSystem α n) : Nat :=
  2 * (s.enqueued.length - s.taken.length) + 2 * s.signals + ∑ i, (s.worker i).rank

theorem sum_rank_update (worker : Fin n → WorkerPhase) (i : Fin n) (phase : WorkerPhase) :
    ∑ j, (Function.update worker i phase j).rank + (worker i).rank =
      ∑ j, (worker j).rank + phase.rank := by
  have hrest : ∑ j ∈ Finset.univ.erase i, (Function.update worker i phase j).rank =
      ∑ j ∈ Finset.univ.erase i, (worker j).rank := by
    refine Finset.sum_congr rfl fun j hj => ?_
    rw [Function.update_of_ne (Finset.ne_of_mem_erase hj)]
  rw [← Finset.add_sum_erase _ _ (Finset.mem_univ i), ← Finset.add_sum_erase _ (fun j =>
    (worker j).rank) (Finset.mem_univ i), hrest, Function.update_self]
  omega

theorem WqSystem.Inv.length (h : s.Inv l) : s.enqueued.length = s.taken.length + l.length := by
  simp [h.fifo]

theorem QuietStep.rank_lt {e : WqEvent α n} (h : s.Inv l) (hstep : QuietStep s e t) :
    t.rank < s.rank := by
  obtain ⟨hquiet, hstep⟩ := hstep
  have hlength := h.length
  cases hstep with
  | enqueue => exact hquiet.elim
  | spurious => exact hquiet.elim
  | @signal i hsignals hi =>
    have hsum := sum_rank_update s.worker i .checks
    rw [hi, WorkerPhase.rank_checks, WorkerPhase.rank_waits] at hsum
    simp only [WqSystem.rank]
    omega
  | unheard hsignals _ =>
    simp only [WqSystem.rank]
    omega
  | @waits i hi _ =>
    have hsum := sum_rank_update s.worker i .waits
    rw [hi, WorkerPhase.rank_checks, WorkerPhase.rank_waits] at hsum
    simp only [WqSystem.rank]
    omega
  | @takes i work _ _ hi hturn _ =>
    have hsum := sum_rank_update s.worker i (.works work)
    rw [hi, WorkerPhase.rank_checks, WorkerPhase.rank_works] at hsum
    cases l with
    | nil =>
      have heq := wqWaitForWork_nil h.queue h.running
      exact absurd (hturn.symm.trans heq) (by simp)
    | cons x l =>
      simp only [List.length_cons] at hlength
      simp only [WqSystem.rank, List.length_append, List.length_singleton]
      omega
  | @finish i work hi =>
    have hsum := sum_rank_update s.worker i .checks
    rw [hi, WorkerPhase.rank_checks, WorkerPhase.rank_works] at hsum
    simp only [WqSystem.rank]
    omega

theorem QuietStep.enqueued {e : WqEvent α n} (hstep : QuietStep s e t) :
    t.enqueued = s.enqueued := by
  obtain ⟨hquiet, hstep⟩ := hstep
  cases hstep with
  | enqueue => exact hquiet.elim
  | _ => rfl

/-- While something is left, something can be done about it. -/
theorem WqSystem.Inv.progress (h : s.Inv l) (hl : l ≠ []) : ∃ e t, QuietStep s e t := by
  by_cases hsignals : 0 < s.signals
  · by_cases hwaits : ∃ i, s.worker i = .waits
    · obtain ⟨i, hi⟩ := hwaits
      exact ⟨.signal i, _, trivial, .signal hsignals hi⟩
    · exact ⟨.unheard, _, trivial, .unheard hsignals fun i hi => hwaits ⟨i, hi⟩⟩
  · obtain ⟨i, hi⟩ := (h.awake hl).resolve_left hsignals
    cases hphase : s.worker i with
    | waits => exact absurd hphase hi
    | works work => exact ⟨.finish i, _, trivial, .finish hphase⟩
    | checks =>
      obtain ⟨x, l, rfl⟩ := List.exists_cons_of_ne_nil hl
      obtain ⟨wq', hturn, hmem, -⟩ := wqWaitForWork_cons h.queue h.running
      exact ⟨.turn i, _, trivial, .takes hphase hturn hmem⟩

theorem QuietStep.run (hn : 0 < n) {events : List (WqEvent α n)} (h : ∃ l, s.Inv l)
    (hrun : Exec QuietStep s events t) :
    (∃ l, t.Inv l) ∧ t.enqueued = s.enqueued ∧ events.length + t.rank ≤ s.rank := by
  refine hrun.invariant_trace (I := fun events t => (∃ l, t.Inv l) ∧ t.enqueued = s.enqueued ∧
    events.length + t.rank ≤ s.rank) ⟨h, rfl, by simp⟩ ?_
  rintro events t e u ⟨⟨l, ht⟩, henqueued, hrank⟩ hstep
  refine ⟨hstep.2.inv hn ht, hstep.enqueued.trans henqueued, ?_⟩
  have hlt := hstep.rank_lt ht
  rw [List.length_append, List.length_singleton]
  omega

/-! ## Result -/

/-- In every run the queue is what was enqueued and has not been taken, in the order of the enqueues,
with `tail` at its end.  A worker that gets the mutex waits or takes the node at the head, which
exists; an enqueue can always link its node; and the node a worker is going to free is allocated.  If
the system is left alone, it stops after at most `s.rank` steps, when all has been taken. -/
theorem workQueue_fifo {mem : Heap (WorkNode α)} (hinit : wqInit mem n = some wq)
    {events : List (WqEvent α n)} (hrun : Exec WqStep (WqSystem.start wq) events s) :
    (s.wq.head = none ↔ s.wq.tail = none) ∧
      (∃ l, s.wq.Holds l ∧ s.enqueued = s.taken ++ l.map Prod.snd) ∧
      (wqWaitForWork s.wq = some .waits ∨ ∃ work wq' node,
        wqWaitForWork s.wq = some (.takes work wq') ∧ s.wq.mem work = some node) ∧
      (∀ w item, s.wq.mem w = none → ∃ wq', wqEnqueue s.wq w item = some wq') ∧
      (∀ i work, s.worker i = .works work → s.wq.mem work ≠ none) ∧
      ∀ more t, Exec QuietStep s more t →
        more.length ≤ s.rank ∧ ((∀ e u, ¬ QuietStep t e u) → t.taken = s.enqueued) := by
  have hn : 0 < n := by
    rcases Nat.eq_zero_or_pos n with rfl | hn
    · exact absurd hinit (by simp [wqInit])
    · exact hn
  obtain ⟨l, h⟩ := WqSystem.Inv.run hn ⟨[], WqSystem.start_inv hinit⟩ hrun
  refine ⟨h.queue.head_iff_tail, ⟨l, h.queue, h.fifo⟩, ?_, ?_, fun i work hi => (h.owned i work hi).1,
    ?_⟩
  · cases l with
    | nil => exact .inl (wqWaitForWork_nil h.queue h.running)
    | cons x l =>
      obtain ⟨wq', hturn, hmem, -⟩ := wqWaitForWork_cons h.queue h.running
      exact .inr ⟨x.1, wq', _, hturn, hmem⟩
  · intro w item fresh
    obtain ⟨wq', hwq, -⟩ := wqEnqueue_holds h.queue fresh item
    exact ⟨wq', hwq⟩
  · intro more t hmore
    obtain ⟨⟨k, ht⟩, henqueued, hrank⟩ := QuietStep.run hn ⟨l, h⟩ hmore
    refine ⟨by omega, fun hstuck => ?_⟩
    have hk : k = [] := by
      by_contra hk
      obtain ⟨e, u, hstep⟩ := ht.progress hk
      exact hstuck e u hstep
    have hfifo := ht.fifo
    rw [hk] at hfifo
    simpa [henqueued] using hfifo.symm

/-- One worker takes the first of two pieces of work. -/
theorem workQueue_fifo_first : ∃ s : WqSystem Nat 1,
    Exec WqStep (WqSystem.start ⟨fun _ => none, none, none, false, 1⟩)
      [.enqueue 0 ⟨1, 10⟩, .enqueue 1 ⟨1, 20⟩, .turn 0] s ∧
    s.taken = [⟨1, 10⟩] ∧ ∃ l, s.wq.Holds l ∧ s.enqueued = s.taken ++ l.map Prod.snd := by
  have hinit : wqInit (fun _ => none) 1 = some (⟨fun _ => none, none, none, false, 1⟩ : WorkQueue Nat) :=
    rfl
  have hfirst : WqStep (WqSystem.start (α := Nat) (n := 1) ⟨fun _ => none, none, none, false, 1⟩)
      (.enqueue 0 ⟨1, 10⟩) _ := .enqueue rfl rfl
  have hsecond : Exec WqStep _ ([.enqueue 0 ⟨1, 10⟩] ++ [.enqueue 1 ⟨1, 20⟩]) _ :=
    (Exec.nil.snoc hfirst).snoc (.enqueue rfl rfl)
  have hrun : Exec WqStep _ ([.enqueue 0 ⟨1, 10⟩, .enqueue 1 ⟨1, 20⟩] ++ [.turn 0]) _ :=
    hsecond.snoc (.takes rfl rfl rfl)
  exact ⟨_, hrun, rfl, (workQueue_fifo hinit hrun).2.1⟩

end BirRouter
