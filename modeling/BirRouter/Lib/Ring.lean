import Mathlib.Data.List.Range
import Mathlib.Data.Nat.ModEq
import Mathlib.Logic.Function.Basic
import Mathlib.Tactic.Common

/-!
# Ring buffers

`contents a i n` are the `n` cells of an array of `N` cells from cell `i` on, going round.
-/

set_option autoImplicit false

namespace Ring

variable {α : Type} {N : Nat}

/-- The `n` cells from `i` on. -/
def contents (N : Nat) (a : Nat → α) (i n : Nat) : List α :=
  (List.range n).map fun k => a ((i + k) % N)

@[simp]
theorem length_contents (a : Nat → α) (i n : Nat) : (contents N a i n).length = n := by
  simp [contents]

/-- Going round once more changes nothing. -/
theorem contents_mod (a : Nat → α) (i n : Nat) : contents N a (i % N) n = contents N a i n := by
  unfold contents
  refine List.map_congr_left fun k _ => ?_
  rw [Nat.mod_add_mod]

/-- The cell behind the contents, while it is not one of them. -/
theorem contents_update {a : Nat → α} {i n : Nat} (hn : n < N) (x : α) :
    contents N (Function.update a ((i + n) % N) x) i n = contents N a i n := by
  unfold contents
  refine List.map_congr_left fun k hk => ?_
  have hk' : k < n := List.mem_range.1 hk
  refine Function.update_of_ne (fun heq => ?_) _ _
  have hmod : (i + k) % N = (i + n) % N := heq
  have hcancel : k % N = n % N := Nat.ModEq.add_left_cancel' i hmod
  rw [Nat.mod_eq_of_lt (by omega), Nat.mod_eq_of_lt hn] at hcancel
  omega

/-- One cell more at the end. -/
theorem contents_succ (a : Nat → α) (i n : Nat) :
    contents N a i (n + 1) = contents N a i n ++ [a ((i + n) % N)] := by
  simp [contents, List.range_succ]

/-- One cell more in front. -/
theorem contents_cons (a : Nat → α) (i n : Nat) :
    contents N a i (n + 1) = a (i % N) :: contents N a (i + 1) n := by
  unfold contents
  rw [List.range_succ_eq_map, List.map_cons, List.map_map]
  congr 1
  refine List.map_congr_left fun k _ => ?_
  rw [Function.comp_apply, Nat.succ_eq_add_one, Nat.add_assoc, Nat.add_comm 1 k]

end Ring
