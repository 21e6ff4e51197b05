import Mathlib.Data.List.Induction
import Mathlib.Data.List.Nodup
import Mathlib.Logic.Function.Basic
import Mathlib.Tactic.Common

/-!
# Linked lists in a heap

A heap gives the node at each address that is allocated.  The nodes of a list are of any type; what
it means that a node holds a datum between the pointers to its neighbours is a parameter, so that the
same lemmas serve singly and doubly linked lists.

* `Segment holds mem before l after` — the addresses of `l` hold its data; the first node stands
  behind `before`, and the last one in front of `after`;
* `segment_append` — a list is cut, spliced and extended at any point;
* `Segment.frame` — writes to other addresses do not matter.
-/

set_option autoImplicit false

namespace Linked

variable {α β : Type}

/-! ## Heaps -/

abbrev Heap (α : Type) := Nat → Option α

def store (mem : Heap α) (p : Nat) (a : α) : Heap α := Function.update mem p (some a)

def free (mem : Heap α) (p : Nat) : Heap α := Function.update mem p none

/-- An assignment to a field of the node at `p`, if there is one. -/
def modify (mem : Heap α) (p : Nat) (f : α → α) : Option (Heap α) :=
  (mem p).map fun a => store mem p (f a)

section

variable {mem : Heap α} {p q : Nat} {a : α}

@[simp]
theorem store_self : store mem p a p = some a := Function.update_self ..

theorem store_of_ne (h : q ≠ p) : store mem p a q = mem q := Function.update_of_ne h ..

theorem free_of_ne (h : q ≠ p) : free mem p q = mem q := Function.update_of_ne h ..

theorem modify_of_eq {f : α → α} (h : mem p = some a) :
    modify mem p f = some (store mem p (f a)) := by
  rw [modify, h]
  rfl

end

/-! ## Segments -/

/-- The addresses of the nodes. -/
def addrs (l : List (Nat × β)) : List Nat := l.map Prod.fst

@[simp]
theorem addrs_nil : addrs ([] : List (Nat × β)) = [] := rfl

@[simp]
theorem addrs_cons (x : Nat × β) (l : List (Nat × β)) : addrs (x :: l) = x.1 :: addrs l := rfl

@[simp]
theorem addrs_append (l m : List (Nat × β)) : addrs (l ++ m) = addrs l ++ addrs m :=
  List.map_append ..

theorem nodup_addrs_middle {l m : List (Nat × β)} {x : Nat × β} :
    (addrs (l ++ x :: m)).Nodup ↔ x.1 ∉ addrs l ∧ x.1 ∉ addrs m ∧ (addrs (l ++ m)).Nodup := by
  simp only [addrs_append, addrs_cons, List.nodup_middle, List.nodup_cons, List.mem_append, not_or,
    and_assoc]

theorem ne_of_nodup_addrs {l m : List (Nat × β)} (h : (addrs (l ++ m)).Nodup) {p q : Nat}
    (hp : p ∈ addrs l) (hq : q ∈ addrs m) : p ≠ q := by
  rw [addrs_append] at h
  exact (List.nodup_append.1 h).2.2 p hp q hq

/-- The pointer to the first node of a list in front of `after`. -/
def first : List (Nat × β) → Option Nat → Option Nat
  | [], after => after
  | x :: _, _ => some x.1

/-- The pointer to the last node of a list behind `before`. -/
def last : Option Nat → List (Nat × β) → Option Nat
  | before, [] => before
  | _, x :: l => last (some x.1) l

theorem first_append (l m : List (Nat × β)) (after : Option Nat) :
    first (l ++ m) after = first l (first m after) := by
  cases l <;> rfl

theorem last_append (before : Option Nat) (l m : List (Nat × β)) :
    last before (l ++ m) = last (last before l) m := by
  induction l generalizing before with
  | nil => rfl
  | cons x l ih => exact ih (some x.1)

@[simp]
theorem last_concat (before : Option Nat) (l : List (Nat × β)) (x : Nat × β) :
    last before (l ++ [x]) = some x.1 := by
  rw [last_append]
  rfl

theorem first_eq_none {l : List (Nat × β)} : first l none = none ↔ l = [] := by
  cases l with
  | nil => simp [first]
  | cons x l => simp [first]

theorem last_eq_none {l : List (Nat × β)} : last none l = none ↔ l = [] := by
  induction l using List.reverseRecOn with
  | nil => simp [last]
  | append_singleton l x => simp

variable (holds : Option Nat → β → Option Nat → α → Prop) (mem : Heap α)

def Segment : Option Nat → List (Nat × β) → Option Nat → Prop
  | _, [], _ => True
  | before, x :: l, after =>
    (∃ a, mem x.1 = some a ∧ holds before x.2 (first l after) a) ∧ Segment (some x.1) l after

variable {holds mem}

theorem segment_append {l m : List (Nat × β)} {before after : Option Nat} :
    Segment holds mem before (l ++ m) after ↔
      Segment holds mem before l (first m after) ∧ Segment holds mem (last before l) m after := by
  induction l generalizing before with
  | nil => simp [Segment, last]
  | cons x l ih =>
    rw [List.cons_append, Segment, Segment, ih, first_append, and_assoc]
    rfl

theorem segment_singleton {x : Nat × β} {before after : Option Nat} :
    Segment holds mem before [x] after ↔ ∃ a, mem x.1 = some a ∧ holds before x.2 after a := by
  simp [Segment, first]

/-- Of a segment, only the nodes at its addresses matter. -/
theorem Segment.frame {mem' : Heap α} {l : List (Nat × β)} {before after : Option Nat}
    (h : Segment holds mem before l after) (hmem : ∀ p ∈ addrs l, mem' p = mem p) :
    Segment holds mem' before l after := by
  induction l generalizing before with
  | nil => trivial
  | cons x l ih =>
    obtain ⟨⟨a, ha, hold⟩, hl⟩ := h
    simp only [addrs_cons, List.forall_mem_cons] at hmem
    exact ⟨⟨a, hmem.1.trans ha, hold⟩, ih hl hmem.2⟩

theorem Segment.allocated {l : List (Nat × β)} {before after : Option Nat}
    (h : Segment holds mem before l after) : ∀ p ∈ addrs l, mem p ≠ none := by
  induction l generalizing before with
  | nil => simp
  | cons x l ih =>
    obtain ⟨⟨a, ha, -⟩, hl⟩ := h
    simp only [addrs_cons, List.forall_mem_cons]
    exact ⟨by simp [ha], ih hl⟩

end Linked
