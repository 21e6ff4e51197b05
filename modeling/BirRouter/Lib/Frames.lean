import Mathlib.Tactic.Common

/-!
# Streams cut into frames

A stream is a list of items of which some end a frame (`ends`); the item behind such an item begins
the next one.

* `after` — whether the next item begins a frame;
* `firsts` — the items of a stream that begin a frame.
-/

set_option autoImplicit false

namespace Frames

variable {β γ : Type} (ends : β → Bool)

def after (start : Bool) : List β → Bool
  | [] => start
  | b :: l => after (ends b) l

def firsts (start : Bool) : List β → List β
  | [] => []
  | b :: l => (if start then [b] else []) ++ firsts (ends b) l

variable {ends}

theorem after_append (l m : List β) (start : Bool) :
    after ends start (l ++ m) = after ends (after ends start l) m := by
  induction l generalizing start with
  | nil => rfl
  | cons b l ih => exact ih _

theorem firsts_append (l m : List β) (start : Bool) :
    firsts ends start (l ++ m) = firsts ends start l ++ firsts ends (after ends start l) m := by
  induction l generalizing start with
  | nil => rfl
  | cons b l ih => rw [List.cons_append, firsts, firsts, ih, after, List.append_assoc]

theorem after_concat (l : List β) (b : β) (start : Bool) :
    after ends start (l ++ [b]) = ends b := by
  rw [after_append]
  rfl

theorem after_false {l : List β} (h : ∀ b ∈ l, ends b = false) : after ends false l = false := by
  induction l with
  | nil => rfl
  | cons b l ih =>
    rw [after, h b List.mem_cons_self, ih fun c hc => h c (List.mem_cons_of_mem _ hc)]

theorem length_firsts_le (l : List β) (start : Bool) :
    (firsts ends start l).length ≤ l.length := by
  induction l generalizing start with
  | nil => exact Nat.le_refl _
  | cons b l ih =>
    have := ih (ends b)
    rw [firsts, List.length_append, List.length_cons]
    split <;> simp only [List.length_singleton, List.length_nil] <;> omega

end Frames
