import BirRouter.Lib.Trace
import Mathlib.Logic.Function.Basic

/-!
# Networks of nodes that react to messages

Nodes of any index type `ι` with states `σ`; a step delivers one message in flight, whichever it
is, to the node it is for.  The node reacts with a new state, more messages and the events it wants
remembered.

* `Step` — one delivery; `exists_step` — every message in flight whose node reacts can be delivered;
* `Local`, `project` — what a run of the whole network looks like from one node: a run of that node
  alone on the messages it received.
-/

set_option autoImplicit false

namespace Network

open Trace

variable {ι σ μ α ε : Type}

structure Message (ι μ : Type) where
  dest : ι
  body : μ

structure Reaction (ι σ μ ε : Type) where
  state : σ
  sent : List (Message ι μ)
  events : List ε

structure Net (ι σ μ ε : Type) where
  node : ι → σ
  log : ι → List ε
  inFlight : List (Message ι μ)

/-- A delivery, with what the node finds outside its state. -/
structure Arrival (ι α μ : Type) where
  env : α
  msg : Message ι μ

/-- What a node makes of a message; `none` where it does not survive it. -/
abbrev React (ι σ μ α ε : Type) : Type := ι → α → σ → μ → Option (Reaction ι σ μ ε)

/-- The reactions of node `b` alone, as a step relation on its state and log. -/
def Local (react : React ι σ μ α ε) (b : ι) (s : σ × List ε) (d : α × μ) (s' : σ × List ε) :
    Prop :=
  ∃ out, react b d.1 s.1 d.2 = some out ∧ s' = (out.state, s.2 ++ out.events)

variable [DecidableEq ι] {react : React ι σ μ α ε}

/-- One message in flight is delivered. -/
def Step (react : React ι σ μ α ε) (net : Net ι σ μ ε) (a : Arrival ι α μ) (net' : Net ι σ μ ε) :
    Prop :=
  ∃ before after out, net.inFlight = before ++ a.msg :: after ∧
    react a.msg.dest a.env (net.node a.msg.dest) a.msg.body = some out ∧
    net' = { node := Function.update net.node a.msg.dest out.state
             log := Function.update net.log a.msg.dest (net.log a.msg.dest ++ out.events)
             inFlight := before ++ after ++ out.sent }

/-- What node `b` received in a run. -/
def received (b : ι) (as : List (Arrival ι α μ)) : List (α × μ) :=
  (as.filter fun a => a.msg.dest = b).map fun a => (a.env, a.msg.body)

theorem mem_received {b : ι} {as : List (Arrival ι α μ)} {d : α × μ} (h : d ∈ received b as) :
    ∃ a ∈ as, a.env = d.1 ∧ a.msg.body = d.2 := by
  obtain ⟨a, ha, rfl⟩ := List.mem_map.1 h
  exact ⟨a, (List.mem_filter.1 ha).1, rfl, rfl⟩

theorem received_append (b : ι) (as : List (Arrival ι α μ)) (a : Arrival ι α μ) :
    received b (as ++ [a]) =
      received b as ++ if a.msg.dest = b then [(a.env, a.msg.body)] else [] := by
  unfold received
  rw [List.filter_append, List.map_append]
  congr 1
  by_cases ha : a.msg.dest = b
  · rw [if_pos ha, List.filter_cons_of_pos (by simpa using ha)]
    rfl
  · rw [if_neg ha, List.filter_cons_of_neg (by simpa using ha)]
    rfl

/-- **Projection**: a run of the network is a run of each node. -/
theorem project {net₀ net : Net ι σ μ ε} {as : List (Arrival ι α μ)}
    (h : Exec (Step react) net₀ as net) (b : ι) :
    Exec (Local react b) (net₀.node b, net₀.log b) (received b as) (net.node b, net.log b) := by
  induction h with
  | nil => exact Exec.nil
  | snoc _ hs ih =>
    obtain ⟨_, _, out, _, hout, rfl⟩ := hs
    rw [received_append]
    split
    · rename_i hb
      subst hb
      simp only [Function.update_self]
      exact ih.snoc ⟨out, hout, rfl⟩
    · rename_i hb
      simp only [Function.update_of_ne (Ne.symm hb), List.append_nil]
      exact ih

/-- Any message in flight can be the next one. -/
theorem exists_step {net : Net ι σ μ ε} {a : Arrival ι α μ} {out : Reaction ι σ μ ε}
    (ha : a.msg ∈ net.inFlight)
    (hout : react a.msg.dest a.env (net.node a.msg.dest) a.msg.body = some out) :
    ∃ net', Step react net a net' ∧
      net'.node = Function.update net.node a.msg.dest out.state ∧
      net'.log = Function.update net.log a.msg.dest (net.log a.msg.dest ++ out.events) ∧
      (∀ m ∈ out.sent, m ∈ net'.inFlight) ∧
      ∀ m ∈ net.inFlight, m ≠ a.msg → m ∈ net'.inFlight := by
  obtain ⟨before, after, hcut⟩ := List.append_of_mem ha
  refine ⟨_, ⟨before, after, out, hcut, hout, rfl⟩, rfl, rfl, ?_, ?_⟩
  · exact fun m hm => List.mem_append_right _ hm
  · intro m hm hne
    rw [hcut] at hm
    refine List.mem_append_left _ ?_
    rcases List.mem_append.1 hm with hm | hm
    · exact List.mem_append_left _ hm
    · exact List.mem_append_right _ ((List.mem_cons.1 hm).resolve_left hne)

end Network
