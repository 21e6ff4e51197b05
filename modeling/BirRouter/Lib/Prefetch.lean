import Mathlib.Data.List.Basic
import Mathlib.Tactic.Common

/-!
# Queues that read ahead

A memory queue whose head appears one cycle after it was asked for is made to show its head at once
by reading ahead into three registers: `fetched` (what the memory delivered), `middle` and `out`
(what a reader sees).  `step` is one clock cycle, with an optional word written at the end and a
reader that takes `out` or does not.

* `contents_step` — nothing is lost, duplicated or reordered: the words in the registers and in the
  memory together are an ordinary queue (`contents`);
* `step_flow` — a queue whose reader always takes what it sees is a delay of three cycles;
* `weight_step` — every word moves forward, and some word does in every cycle in which the reader
  is willing; that is what bounds the time until a queue has drained.
-/

set_option autoImplicit false

namespace Prefetch

variable {α : Type}

structure State (α : Type) where
  queue : List α
  fetched : Option α
  middle : Option α
  out : Option α

namespace State

/-- The words in the order they will be read. -/
def contents (q : State α) : List α :=
  q.out.toList ++ (q.middle.toList ++ (q.fetched.toList ++ q.queue))

/-- `out` is refilled if something stands behind it and it is empty or being read. -/
def updateOut (q : State α) (rd : Bool) : Bool :=
  (q.middle.isSome || q.fetched.isSome) && (rd || q.out.isNone)

def updateMiddle (q : State α) (rd : Bool) : Bool :=
  q.fetched.isSome && (q.middle.isSome == q.updateOut rd)

/-- The memory is asked for its head unless all three registers are full. -/
def fetch (q : State α) : Bool :=
  !q.queue.isEmpty && !(q.middle.isSome && q.out.isSome && q.fetched.isSome)

/-- One clock cycle. -/
def step (q : State α) (wr : Option α) (rd : Bool) : State α where
  queue := (if q.fetch then q.queue.tail else q.queue) ++ wr.toList
  fetched :=
    if q.fetch then q.queue.head?
    else if q.updateMiddle rd || q.updateOut rd then none
    else q.fetched
  middle :=
    if q.updateMiddle rd then q.fetched else if q.updateOut rd then none else q.middle
  out :=
    if q.updateOut rd then (if q.middle.isSome then q.middle else q.fetched)
    else if rd then none
    else q.out

/-- The registers fill from the front. -/
def Filled (q : State α) : Prop := q.middle.isSome → q.out.isSome

theorem filled_step {q : State α} (h : q.Filled) (wr : Option α) (rd : Bool) :
    (q.step wr rd).Filled := by
  obtain ⟨queue, fetched, middle, out⟩ := q
  cases fetched <;> cases middle <;> cases out <;> cases rd <;>
    simp_all [Filled, step, updateMiddle, updateOut]

/-- **The registers and the memory are one queue.** -/
theorem contents_step {q : State α} (h : q.Filled) (wr : Option α) {rd : Bool}
    (hrd : rd = true → q.out.isSome) :
    (q.step wr rd).contents = (if rd then q.contents.tail else q.contents) ++ wr.toList := by
  obtain ⟨queue, fetched, middle, out⟩ := q
  cases queue <;> cases fetched <;> cases middle <;> cases out <;> cases rd <;>
    simp_all [Filled, step, updateMiddle, updateOut, fetch, contents]

theorem head?_contents {q : State α} (h : q.out.isSome) : q.contents.head? = q.out := by
  obtain ⟨a, ha⟩ := Option.isSome_iff_exists.1 h
  simp [contents, ha]

/-! ## A reader that never waits -/

/-- The state after the words `x1`, `x2`, `x3` of the last three cycles, the latest first. -/
def flow (x1 x2 x3 : Option α) : State α := ⟨x1.toList, x2, none, x3⟩

/-- **A delay of three cycles.** -/
theorem step_flow (x0 x1 x2 x3 : Option α) :
    (flow x1 x2 x3).step x0 x3.isSome = flow x0 x1 x2 := by
  cases x1 <;> cases x2 <;> cases x3 <;> simp [flow, step, updateMiddle, updateOut, fetch]

theorem contents_flow (x1 x2 x3 : Option α) :
    (flow x1 x2 x3).contents = x3.toList ++ (x2.toList ++ x1.toList) := by
  simp [flow, contents]

theorem contents_eq_nil {q : State α} : q.contents = [] ↔ q = flow none none none := by
  obtain ⟨queue, fetched, middle, out⟩ := q
  cases fetched <;> cases middle <;> cases out <;> simp [contents, flow]

/-! ## Progress -/

/-- How far the words still have to move, one step for each register. -/
def weight (q : State α) : Nat :=
  4 * q.queue.length + 3 * q.fetched.toList.length + 2 * q.middle.toList.length +
    q.out.toList.length

/-- **No word moves back.** -/
theorem weight_step_le {q : State α} (wr : Option α) {rd : Bool}
    (hrd : rd = true → q.out.isSome) :
    (q.step wr rd).weight + rd.toNat ≤ q.weight + 4 * wr.toList.length := by
  obtain ⟨queue, fetched, middle, out⟩ := q
  cases queue <;> cases fetched <;> cases middle <;> cases out <;> cases rd <;>
    simp_all [step, updateMiddle, updateOut, fetch, weight] <;> omega

/-- **A queue that is read whenever it shows a word moves in every cycle.** -/
theorem weight_step {q : State α} (h : q.Filled) (wr : Option α) (hne : q.contents ≠ []) :
    (q.step wr q.out.isSome).weight + 1 ≤ q.weight + 4 * wr.toList.length := by
  obtain ⟨queue, fetched, middle, out⟩ := q
  cases queue <;> cases fetched <;> cases middle <;> cases out <;>
    simp_all [Filled, step, updateMiddle, updateOut, fetch, weight, contents] <;> omega

theorem length_contents_le_weight (q : State α) : q.contents.length ≤ q.weight := by
  simp only [contents, weight, List.length_append]
  omega

end State

end Prefetch
