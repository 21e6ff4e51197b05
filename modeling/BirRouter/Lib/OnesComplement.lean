import BirRouter.Lib.Layout

/-!
# One's complement sums of 16-bit words

The arithmetic behind the Internet checksum, on natural numbers:

* `wordSum` — the sum of a byte list read as big-endian 16-bit words (an odd last byte is the
  high half of a word);
* `fold16` — a 32-bit sum brought back to 16 bits by adding the carries in twice.

`fold16` is reduction modulo `65535` with the two representatives of zero kept apart
(`fold16_mod`, `fold16_pos`), so a sum completed with the complement of its own fold folds to
`65535` (`fold16_complement`).  That is all a receiver of a checksum relies on.  With the complement
of another sum's fold it does so exactly if the difference is 0 modulo `65535`: where a part of the
bytes was not summed (`fold16_partial_iff`), and where others were summed with them
(`fold16_excess_iff`).

`onesSum` is the sum as it is usually described, word by word with the carry going around;
`fold16_wordSum` says that folding once at the end gives the same.  Exchanging one word changes the
fold, but for the two zeros (`fold16_change`).
-/

set_option autoImplicit false

namespace OnesComplement

open ByteLayout

/-- The sum of the big-endian 16-bit words of a byte list. -/
def wordSum : List Byte → Nat
  | [] => 0
  | [b] => b.toNat * 256
  | a :: b :: rest => a.toNat * 256 + b.toNat + wordSum rest

theorem wordSum_append : ∀ (p q : List Byte), p.length % 2 = 0 →
    wordSum (p ++ q) = wordSum p + wordSum q
  | [], q, _ => by simp [wordSum]
  | [_], _, h => by simp at h
  | a :: b :: p, q, h => by
    have ih := wordSum_append p q (by simp only [List.length_cons] at h; omega)
    simp only [List.cons_append, wordSum, ih]
    omega

/-- Bytes behind others are summed as behind zeros. -/
theorem wordSum_append_replicate : ∀ p q : List Byte,
    wordSum (p ++ q) = wordSum p + wordSum (List.replicate p.length 0 ++ q)
  | [], q => by simp [wordSum]
  | [a], [] => by simp [wordSum]
  | [a], b :: q => by simp [wordSum, Nat.add_assoc]
  | a :: b :: p, q => by
    have ih := wordSum_append_replicate p q
    have hz : (0 : Byte).toNat = 0 := rfl
    simp only [List.cons_append, wordSum, ih, List.length_cons, List.replicate_succ, hz]
    omega

theorem wordSum_eq_zero_iff : ∀ bs : List Byte, wordSum bs = 0 ↔ ∀ b ∈ bs, b = 0
  | [] => by simp [wordSum]
  | [b] => by
    have hb : b = 0 ↔ b.toNat = 0 := BitVec.toNat_inj.symm
    rw [List.forall_mem_singleton, hb, wordSum]
    omega
  | a :: b :: rest => by
    have ih := wordSum_eq_zero_iff rest
    have ha : a = 0 ↔ a.toNat = 0 := BitVec.toNat_inj.symm
    have hb : b = 0 ↔ b.toNat = 0 := BitVec.toNat_inj.symm
    rw [List.forall_mem_cons, List.forall_mem_cons, ← ih, ha, hb, wordSum]
    omega

theorem wordSum_le : ∀ bs : List Byte, wordSum bs ≤ 65535 * ((bs.length + 1) / 2)
  | [] => by simp [wordSum]
  | [b] => by
    have := b.isLt
    simp only [wordSum, List.length_cons, List.length_nil]
    omega
  | a :: b :: rest => by
    have ih := wordSum_le rest
    have ha := a.isLt
    have hb := b.isLt
    simp only [wordSum, List.length_cons]
    omega

/-- Two rounds of adding the carries back in, cut to 16 bits. -/
def fold16 (s : Nat) : Nat :=
  (s / 65536 + s % 65536 + (s / 65536 + s % 65536) / 65536) % 65536

theorem fold16_lt (s : Nat) : fold16 s < 65536 := Nat.mod_lt _ (by decide)

/-- On a 32-bit sum the second round adds a carry of at most one. -/
theorem fold16_halves {hi lo : Nat} (hhi : hi < 65536) (hlo : lo < 65536) :
    fold16 (hi * 65536 + lo) = if hi + lo < 65536 then hi + lo else hi + lo - 65535 := by
  have hd : (hi * 65536 + lo) / 65536 = hi := by omega
  have hm : (hi * 65536 + lo) % 65536 = lo := by omega
  unfold fold16
  rw [hd, hm]
  split
  · have hc : (hi + lo) / 65536 = 0 := by omega
    omega
  · have hc : (hi + lo) / 65536 = 1 := by omega
    omega

theorem exists_halves {s : Nat} (h : s < 4294967296) :
    ∃ hi lo, hi < 65536 ∧ lo < 65536 ∧ s = hi * 65536 + lo :=
  ⟨s / 65536, s % 65536, by omega, by omega, by omega⟩

theorem fold16_mod {s : Nat} (h : s < 4294967296) : fold16 s % 65535 = s % 65535 := by
  obtain ⟨hi, lo, hhi, hlo, rfl⟩ := exists_halves h
  rw [fold16_halves hhi hlo]
  split <;> omega

theorem fold16_pos {s : Nat} (h : s < 4294967296) (hs : 0 < s) : 0 < fold16 s := by
  obtain ⟨hi, lo, hhi, hlo, rfl⟩ := exists_halves h
  rw [fold16_halves hhi hlo]
  split <;> omega

/-- **A sum completed by the complement of its fold folds to all ones.** -/
theorem fold16_complement {s : Nat} (h : s + 65535 < 4294967296) :
    fold16 (s + (65535 - fold16 s)) = 65535 := by
  have hlt := fold16_lt s
  have hm := fold16_mod (show s < 4294967296 by omega)
  have hm' := fold16_mod (show s + (65535 - fold16 s) < 4294967296 by omega)
  have hp' : 0 < fold16 (s + (65535 - fold16 s)) := by
    apply fold16_pos (by omega)
    by_cases h0 : s = 0
    · subst h0; decide
    · omega
  have hlt' := fold16_lt (s + (65535 - fold16 s))
  omega

theorem fold16_eq_iff {s : Nat} (h : s < 4294967296) : fold16 s = 65535 ↔ 0 < s ∧ s % 65535 = 0 := by
  have hm := fold16_mod h
  have hlt := fold16_lt s
  constructor
  · intro hf
    refine ⟨Nat.pos_of_ne_zero fun h0 => ?_, ?_⟩
    · rw [h0] at hf
      exact absurd hf (by decide)
    · rw [← hm, hf]
  · rintro ⟨hpos, hs⟩
    have := fold16_pos h hpos
    omega

/-- **A checksum of a part** checks if the rest adds nothing. -/
theorem fold16_partial_iff {s t : Nat} (h : s + t + 65535 < 4294967296) :
    fold16 (s + t + (65535 - fold16 s)) = 65535 ↔ t % 65535 = 0 := by
  have hlt := fold16_lt s
  obtain ⟨hpos, hmod⟩ := (fold16_eq_iff (by omega)).1
    (fold16_complement (show s + 65535 < 4294967296 by omega))
  rw [fold16_eq_iff (by omega)]
  omega

/-- **A checksum of more** checks if what was summed with it adds nothing; if all else is zero, it has
to be zero as well. -/
theorem fold16_excess_iff {s x : Nat} (h : s + x + 65535 < 4294967296) :
    fold16 (s + (65535 - fold16 (s + x))) = 65535 ↔ x % 65535 = 0 ∧ (s = 0 → x = 0) := by
  have hlt := fold16_lt (s + x)
  have hmod := fold16_mod (show s + x < 4294967296 by omega)
  rw [fold16_eq_iff (by omega)]
  rcases Nat.eq_zero_or_pos (s + x) with h0 | hpos
  · obtain rfl : s = 0 := by omega
    obtain rfl : x = 0 := by omega
    decide
  · have := fold16_pos (by omega) hpos
    omega

/-! ## The sum with end-around carry -/

/-- The big-endian 16-bit words of a byte list. -/
def words : List Byte → List Nat
  | [] => []
  | [b] => [b.toNat * 256]
  | a :: b :: rest => (a.toNat * 256 + b.toNat) :: words rest

/-- One's complement addition of 16-bit words: the carry goes around. -/
def endAround (a b : Nat) : Nat := if a + b < 65536 then a + b else a + b - 65535

/-- The one's complement sum of the words of a byte list. -/
def onesSum (bs : List Byte) : Nat := (words bs).foldl endAround 0

/-- Carries added in one by one or all at the end come to the same. -/
theorem endAround_fold16 {s w : Nat} (hw : w < 65536) (h : s + w < 4294967296) :
    endAround (fold16 s) w = fold16 (s + w) := by
  have hlt := fold16_lt s
  have hlt' := fold16_lt (s + w)
  have hm := fold16_mod (show s < 4294967296 by omega)
  have hm' := fold16_mod h
  -- both sides have the residue of `s + w`, so only the two zeros are to be told apart
  rcases Nat.eq_zero_or_pos s with rfl | hs
  · have h0 : fold16 0 = 0 := rfl
    rw [h0, Nat.zero_add, endAround, Nat.zero_add, if_pos hw, fold16]
    omega
  · have hp := fold16_pos (show s < 4294967296 by omega) hs
    have hp' := fold16_pos h (by omega)
    unfold endAround
    split <;> omega

theorem foldl_words : ∀ (bs : List Byte) (s : Nat), s + wordSum bs < 4294967296 →
    (words bs).foldl endAround (fold16 s) = fold16 (s + wordSum bs)
  | [], _, _ => rfl
  | [b], s, h => by
    have hb := b.isLt
    exact endAround_fold16 (by omega) h
  | a :: b :: rest, s, h => by
    have ha := a.isLt
    have hb := b.isLt
    have hw : a.toNat * 256 + b.toNat < 65536 := by omega
    rw [wordSum, ← Nat.add_assoc] at h ⊢
    rw [words, List.foldl_cons, endAround_fold16 hw (Nat.lt_of_le_of_lt (Nat.le_add_right _ _) h),
      foldl_words rest _ h]

/-- **The fold of the sum is the one's complement sum.** -/
theorem fold16_wordSum {bs : List Byte} (h : wordSum bs < 4294967296) :
    fold16 (wordSum bs) = onesSum bs := by
  have h0 : (words bs).foldl endAround (fold16 0) = fold16 (0 + wordSum bs) :=
    foldl_words bs 0 (by omega)
  rw [Nat.zero_add] at h0
  exact h0.symm

/-- **A changed word is seen**: a sum that folds to all ones does not after one of its words is
exchanged, but for the two zeros. -/
theorem fold16_change {s w w' : Nat} (hs : s + w < 4294967296) (hs' : s + w' < 4294967296)
    (hw : w < 65536) (hw' : w' < 65536) (hne : w' ≠ w)
    (hz : ¬ (w = 0 ∧ w' = 65535 ∨ w = 65535 ∧ w' = 0)) (h : fold16 (s + w) = 65535) :
    fold16 (s + w') ≠ 65535 := by
  rw [Ne, fold16_eq_iff hs']
  rw [fold16_eq_iff hs] at h
  omega

end OnesComplement
