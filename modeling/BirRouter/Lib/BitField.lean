import Mathlib.Algebra.Group.Nat.Defs
import Mathlib.Tactic.Common

/-!
# Bit fields of a word

`x.extractLsb' start n` is the field of `n` bits from bit `start` on; `replaceBits x start v` is `x`
with the field at `start` replaced by `v`, as an assignment to a part select does it.  Reading a
field back gives what was written (`extractLsb'_replaceBits`), fields elsewhere keep their value
(`extractLsb'_replaceBits_of_disjoint`).
-/

set_option autoImplicit false

namespace BitField

variable {w n : Nat}

def replaceBits (x : BitVec w) (start : Nat) (v : BitVec n) : BitVec w :=
  (x &&& ~~~ ((BitVec.allOnes n).setWidth w <<< start)) ||| (v.setWidth w <<< start)

theorem getLsbD_replaceBits (x : BitVec w) (start : Nat) (v : BitVec n) {i : Nat} (hi : i < w) :
    (replaceBits x start v).getLsbD i
      = if start ≤ i ∧ i < start + n then v.getLsbD (i - start) else x.getLsbD i := by
  unfold replaceBits
  simp only [BitVec.getLsbD_or, BitVec.getLsbD_and, BitVec.getLsbD_not, BitVec.getLsbD_shiftLeft,
    BitVec.getLsbD_setWidth, BitVec.getLsbD_allOnes, hi, decide_true, Bool.true_and]
  by_cases h1 : i < start
  · simp [h1, Nat.not_le.2 h1]
  · by_cases h2 : i < start + n
    · have h3 : i - start < n := by omega
      simp [h1, h3, Nat.not_lt.1 h1, h2, show i - start < w by omega]
    · have h3 : ¬ i - start < n := by omega
      simp [h1, h3, h2, BitVec.getLsbD_of_ge v (i - start) (by omega)]

theorem extractLsb'_replaceBits (x : BitVec w) {start : Nat} (v : BitVec n)
    (h : start + n ≤ w) : (replaceBits x start v).extractLsb' start n = v := by
  refine BitVec.eq_of_getLsbD_eq fun i hi => ?_
  rw [BitVec.getLsbD_extractLsb', getLsbD_replaceBits x start v (by omega)]
  simp [hi]

theorem extractLsb'_replaceBits_of_disjoint (x : BitVec w) {start : Nat} (v : BitVec n)
    {s m : Nat} (hs : s + m ≤ w) (h : s + m ≤ start ∨ start + n ≤ s) :
    (replaceBits x start v).extractLsb' s m = x.extractLsb' s m := by
  refine BitVec.eq_of_getLsbD_eq fun i hi => ?_
  rw [BitVec.getLsbD_extractLsb', BitVec.getLsbD_extractLsb',
    getLsbD_replaceBits x start v (by omega), if_neg (by omega)]

end BitField
