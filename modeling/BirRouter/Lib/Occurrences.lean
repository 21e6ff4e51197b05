import Mathlib.Data.List.Infix
import Mathlib.Tactic.Common

/-!
# Occurrences of a needle

The needle occurs in a list at offset `i` if it is a prefix of what is left after `i` elements.

* `scanFrom needle l o` — the offsets of its occurrences from `o` on, overlapping ones included, as
  a scan from left to right finds them;
* `isPrefix_drop_append` — an occurrence that is complete does not depend on what follows;
* `scanFrom_skip`, `scanFrom_of_isPrefix` — a scan that passes over nothing loses nothing.
-/

set_option autoImplicit false

namespace Occurrences

variable {α : Type} [DecidableEq α]

def scan (needle : List α) : List α → Nat → List Nat
  | [], _ => []
  | a :: l, i => if needle <+: a :: l then i :: scan needle l (i + 1) else scan needle l (i + 1)

def scanFrom (needle l : List α) (o : Nat) : List Nat := scan needle (l.drop o) o

variable {needle l m : List α} {i o p : Nat}

omit [DecidableEq α] in
theorem isPrefix_drop_append (h : i + needle.length ≤ l.length) :
    needle <+: (l ++ m).drop i ↔ needle <+: l.drop i := by
  have hdrop : (l ++ m).drop i = l.drop i ++ m := List.drop_append_of_le_length (by omega)
  rw [hdrop]
  constructor
  · intro hpre
    refine List.prefix_of_prefix_length_le hpre (List.prefix_append _ _) ?_
    rw [List.length_drop]
    omega
  · intro hpre
    exact hpre.trans (List.prefix_append _ _)

omit [DecidableEq α] in
theorem length_of_isPrefix_drop (hneedle : needle ≠ []) (h : needle <+: l.drop i) :
    i + needle.length ≤ l.length := by
  have hle := h.length_le
  have hpos := List.length_pos_iff.2 hneedle
  rw [List.length_drop] at hle
  omega

theorem scanFrom_of_length_le (h : l.length ≤ o) : scanFrom needle l o = [] := by
  rw [scanFrom, List.drop_eq_nil_of_le h]
  rfl

theorem scanFrom_of_isPrefix (hneedle : needle ≠ []) (h : needle <+: l.drop i) :
    scanFrom needle l i = i :: scanFrom needle l (i + 1) := by
  have hlen := length_of_isPrefix_drop hneedle h
  have hpos := List.length_pos_iff.2 hneedle
  have hi : i < l.length := by omega
  rw [List.drop_eq_getElem_cons hi] at h
  rw [scanFrom, List.drop_eq_getElem_cons hi, scan, if_pos h]
  rfl

theorem scanFrom_of_not_isPrefix (h : ¬ needle <+: l.drop i) :
    scanFrom needle l i = scanFrom needle l (i + 1) := by
  by_cases hi : i < l.length
  · rw [List.drop_eq_getElem_cons hi] at h
    rw [scanFrom, List.drop_eq_getElem_cons hi, scan, if_neg h]
    rfl
  · rw [scanFrom_of_length_le (by omega), scanFrom_of_length_le (by omega)]

theorem scanFrom_skip (hop : o ≤ p) (h : ∀ i, o ≤ i → i < p → ¬ needle <+: l.drop i) :
    scanFrom needle l o = scanFrom needle l p := by
  induction p, hop using Nat.le_induction with
  | base => rfl
  | succ p hop ih =>
    rw [ih fun i hoi hip => h i hoi (by omega)]
    exact scanFrom_of_not_isPrefix (h p hop (by omega))

/-- No occurrence begins where the needle no longer fits. -/
theorem scanFrom_of_lt (hneedle : needle ≠ []) (h : l.length < o + needle.length) :
    scanFrom needle l o = [] := by
  rw [scanFrom_skip (Nat.le_add_right o l.length), scanFrom_of_length_le (by omega)]
  intro i hoi _ hpre
  have hlen := length_of_isPrefix_drop hneedle hpre
  omega

end Occurrences
