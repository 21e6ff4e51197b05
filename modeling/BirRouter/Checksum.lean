import BirRouter.Lib.OnesComplement
import BirRouter.Packets

/-!
# The Internet checksum (`generatechecksum` in `globals.c`)

`generatechecksum` adds the 16-bit words of a buffer in a 32-bit accumulator, folds the carries in
twice and returns the complement in network order.  On the numbers this is `OnesComplement`
(`toNat_generatechecksum`), so a buffer is accepted exactly when its word sum folds to all ones
(`generatechecksum_eq_zero`), and storing the checksum in a zeroed field of the buffer makes it
accepted (`generatechecksum_store`).  `generatechecksum_laws` puts its three laws together: the value,
the stored checksum, and that a single changed word is noticed.
-/

set_option autoImplicit false

namespace BirRouter

open ByteLayout OnesComplement

/-- The summing loop, an odd last byte being the high half of a word. -/
def sumWords : BitVec 32 → List Byte → BitVec 32
  | sum, [] => sum
  | sum, [a] => sum + a.setWidth 32 <<< 8
  | sum, a :: b :: rest => sumWords (sum + (ntohs (b ++ a)).setWidth 32) rest

/-- The buffer is the `len` bytes that are summed. -/
def generatechecksum (buf : List Byte) : BitVec 16 :=
  let sum := sumWords 0#32 buf
  let sum := (sum >>> 16) + (sum &&& 0xffff#32)
  let sum := sum + (sum >>> 16)
  htons (~~~ (sum.setWidth 16))

theorem ntohs_bytes (a b : Byte) : ntohs (b ++ a) = a ++ b := by
  have h1 : (b ++ a).extractLsb' 8 8 = b := by rw [byteAt_append _ _ 0, byteAt_self]
  unfold ntohs
  rw [byte0_append, h1]

theorem toNat_sumWords : ∀ (buf : List Byte) (sum : BitVec 32),
    (sumWords sum buf).toNat = (sum.toNat + wordSum buf) % 4294967296
  | [], sum => by
    have := sum.isLt
    simp only [sumWords, wordSum]
    omega
  | [a], sum => by
    have ha := a.isLt
    have hw : (a.setWidth 32).toNat = a.toNat := by
      rw [BitVec.toNat_setWidth]
      omega
    simp only [sumWords, wordSum, BitVec.toNat_add, BitVec.toNat_shiftLeft, hw, Nat.shiftLeft_eq]
    omega
  | a :: b :: rest, sum => by
    have ha := a.isLt
    have hb := b.isLt
    have hw : ((ntohs (b ++ a)).setWidth 32).toNat = a.toNat * 256 + b.toNat := by
      rw [ntohs_bytes, BitVec.toNat_setWidth, toNat_append_byte]
      omega
    rw [sumWords, toNat_sumWords rest, BitVec.toNat_add, hw, wordSum]
    omega

/-- **The checksum as a number.** -/
theorem toNat_generatechecksum (buf : List Byte) :
    (ntohs (generatechecksum buf)).toNat = 65535 - fold16 (wordSum buf % 4294967296) := by
  have hs : (sumWords 0#32 buf).toNat = wordSum buf % 4294967296 := by
    rw [toNat_sumWords, BitVec.toNat_zero, Nat.zero_add]
  unfold generatechecksum
  rw [ntohs_htons, BitVec.toNat_not, BitVec.toNat_setWidth]
  simp only [BitVec.toNat_add, BitVec.toNat_ushiftRight, BitVec.toNat_and, hs,
    Nat.shiftRight_eq_div_pow]
  generalize hS : wordSum buf % 4294967296 = S
  have hlt : S < 4294967296 := hS ▸ Nat.mod_lt _ (by decide)
  have hand : S &&& (65535#32).toNat = S % 65536 := Nat.and_two_pow_sub_one_eq_mod S 16
  -- no addition overflows the accumulator, so the folds are those of `fold16`
  have h1 : (S / 65536 + S % 65536) % 4294967296 = S / 65536 + S % 65536 := by omega
  unfold fold16
  simp only [hand, Nat.reducePow, h1]
  omega

theorem ntohs_eq_zero {v : BitVec 16} : ntohs v = 0 ↔ v = 0 := by
  constructor
  · intro h
    have hv := ntohs_htons v
    unfold htons at hv
    rw [← hv, h]
    rfl
  · rintro rfl
    rfl

theorem generatechecksum_eq_zero (buf : List Byte) :
    generatechecksum buf = 0 ↔ fold16 (wordSum buf % 4294967296) = 65535 := by
  have hlt := fold16_lt (wordSum buf % 4294967296)
  have hz : (0 : BitVec 16).toNat = 0 := rfl
  rw [← ntohs_eq_zero, ← BitVec.toNat_inj, toNat_generatechecksum, hz]
  omega

theorem wordSum_u16le (c : BitVec 16) : wordSum (u16le.enc c) = (ntohs c).toNat := by
  unfold ntohs
  rw [toNat_append_byte]
  simp only [u16le, wordSum, Nat.add_zero]

theorem wordSum_field {pre post : List Byte} (heven : pre.length % 2 = 0) (c : BitVec 16) :
    wordSum (pre ++ (u16le.enc c ++ post)) = wordSum pre + wordSum post + (ntohs c).toNat := by
  rw [wordSum_append _ _ heven, wordSum_append _ _ (by rw [u16le.enc_length]; rfl), wordSum_u16le]
  omega


/-- **A stored checksum checks.**  The field is two bytes at an even offset, zero while the
checksum is computed. -/
theorem generatechecksum_store {pre post : List Byte} (heven : pre.length % 2 = 0)
    (hlen : pre.length + post.length ≤ 131000) :
    generatechecksum (pre ++ (u16le.enc (generatechecksum (pre ++ (u16le.enc 0 ++ post))) ++ post))
      = 0 := by
  have hpre := wordSum_le pre
  have hpost := wordSum_le post
  have hb : wordSum pre + wordSum post + 65535 < 4294967296 := by omega
  have hz : (ntohs (0 : BitVec 16)).toNat = 0 := rfl
  have hf := fold16_lt (wordSum pre + wordSum post)
  have hc := toNat_generatechecksum (pre ++ (u16le.enc 0 ++ post))
  rw [wordSum_field heven, hz, Nat.add_zero, Nat.mod_eq_of_lt (by omega)] at hc
  rw [generatechecksum_eq_zero, wordSum_field heven, hc, Nat.mod_eq_of_lt (by omega)]
  exact fold16_complement hb

theorem wordSum_lt {buf : List Byte} (h : buf.length ≤ 131000) : wordSum buf < 4294967296 := by
  have := wordSum_le buf
  omega

/-- **The checksum is the complement of the one's complement sum**, in network order. -/
theorem generatechecksum_eq {buf : List Byte} (h : buf.length ≤ 131000) :
    generatechecksum buf = htons (~~~ BitVec.ofNat 16 (onesSum buf)) := by
  have hlt := fold16_lt (wordSum buf)
  have hsum := fold16_wordSum (wordSum_lt h)
  apply ntohs_injective
  apply BitVec.eq_of_toNat_eq
  rw [toNat_generatechecksum, ntohs_htons, BitVec.toNat_not, BitVec.toNat_ofNat,
    Nat.mod_eq_of_lt (wordSum_lt h), ← hsum]
  omega

/-- A word that is changed in a buffer that checks. -/
theorem generatechecksum_change {pre post : List Byte} (heven : pre.length % 2 = 0)
    (hlen : pre.length + post.length ≤ 130000) {w w' : BitVec 16} (hne : w' ≠ w)
    (hz : ¬ (w = 0x0000 ∧ w' = 0xffff ∨ w = 0xffff ∧ w' = 0x0000))
    (h : generatechecksum (pre ++ (u16le.enc w ++ post)) = 0) :
    generatechecksum (pre ++ (u16le.enc w' ++ post)) ≠ 0 := by
  have hb : ∀ c : BitVec 16, wordSum pre + wordSum post + (ntohs c).toNat < 4294967296 := by
    intro c
    have hpre := wordSum_le pre
    have hpost := wordSum_le post
    have hc := (ntohs c).isLt
    omega
  have hval : ∀ c d : BitVec 16, (ntohs c).toNat = (ntohs d).toNat → c = d :=
    fun c d e => ntohs_injective (BitVec.eq_of_toNat_eq e)
  rw [Ne, generatechecksum_eq_zero, wordSum_field heven, Nat.mod_eq_of_lt (hb w')]
  rw [generatechecksum_eq_zero, wordSum_field heven, Nat.mod_eq_of_lt (hb w)] at h
  refine fold16_change (hb w) (hb w') (ntohs w).isLt (ntohs w').isLt (fun e => hne (hval _ _ e)) ?_ h
  -- the two zeros are the same words in either byte order
  rintro (⟨e, e'⟩ | ⟨e, e'⟩)
  · exact hz (.inl ⟨hval w 0x0000 e, hval w' 0xffff e'⟩)
  · exact hz (.inr ⟨hval w 0xffff e, hval w' 0x0000 e'⟩)

/-- The last word of a buffer of odd length is a byte and the padding. -/
theorem generatechecksum_change_last {pre : List Byte} (heven : pre.length % 2 = 0)
    (hlen : pre.length ≤ 130000) {b b' : Byte} (hne : b' ≠ b)
    (h : generatechecksum (pre ++ [b]) = 0) : generatechecksum (pre ++ [b']) ≠ 0 := by
  have hpre := wordSum_le pre
  have hb := b.isLt
  have hb' := b'.isLt
  have hval : b'.toNat ≠ b.toNat := fun e => hne (BitVec.eq_of_toNat_eq e)
  have hsplit : ∀ c : Byte, wordSum (pre ++ [c]) = wordSum pre + c.toNat * 256 :=
    fun c => wordSum_append pre [c] heven
  rw [Ne, generatechecksum_eq_zero, hsplit, Nat.mod_eq_of_lt (by omega)]
  rw [generatechecksum_eq_zero, hsplit, Nat.mod_eq_of_lt (by omega)] at h
  exact fold16_change (by omega) (by omega) (by omega) (by omega) (by omega) (by omega) h

/-- **The laws of the Internet checksum**: its value, that storing it makes the buffer check, and
that one changed word, the padded last one included, makes it fail. -/
theorem generatechecksum_laws (buf : List Byte) (hlen : buf.length ≤ 65535) :
    generatechecksum buf = htons (~~~ BitVec.ofNat 16 (onesSum buf)) ∧
    (∀ off, off % 2 = 0 → off + 2 ≤ buf.length → u16le.load off buf = 0 →
      generatechecksum (u16le.store off (generatechecksum buf) buf) = 0) ∧
    (generatechecksum buf = 0 →
      (∀ off w, off % 2 = 0 → off + 2 ≤ buf.length → w ≠ u16le.load off buf →
        ¬ (u16le.load off buf = 0x0000 ∧ w = 0xffff ∨ u16le.load off buf = 0xffff ∧ w = 0x0000) →
        generatechecksum (u16le.store off w buf) ≠ 0) ∧
      ∀ pre b b', buf = pre ++ [b] → pre.length % 2 = 0 → b' ≠ b →
        generatechecksum (pre ++ [b']) ≠ 0) := by
  refine ⟨generatechecksum_eq (by omega), ?_, fun hzero => ⟨?_, ?_⟩⟩
  · intro off heven hoff hload
    obtain ⟨pre, v, post, rfl, hpre⟩ := u16le.exists_append hoff
    rw [u16le.load_append v post hpre] at hload
    rw [u16le.store_append _ v post hpre, hload]
    rw [List.length_append, List.length_append] at hlen
    exact generatechecksum_store (by rw [hpre]; exact heven) (by omega)
  · intro off w heven hoff hne hz
    obtain ⟨pre, v, post, rfl, hpre⟩ := u16le.exists_append hoff
    rw [u16le.load_append v post hpre] at hne hz
    rw [u16le.store_append _ v post hpre]
    rw [List.length_append, List.length_append] at hlen
    exact generatechecksum_change (by rw [hpre]; exact heven) (by omega) hne hz hzero
  · rintro pre b b' rfl heven hne
    rw [List.length_append] at hlen
    exact generatechecksum_change_last heven (by omega) hne hzero

theorem generatechecksum_laws_header :
    ([0x45, 0x00, 0x00, 0x00, 0x11] : List Byte).length ≤ 65535 ∧
    generatechecksum (u16le.store 2 (generatechecksum [0x45, 0x00, 0x00, 0x00, 0x11])
      [0x45, 0x00, 0x00, 0x00, 0x11]) = 0 :=
  ⟨by decide, (generatechecksum_laws [0x45, 0x00, 0x00, 0x00, 0x11] (by decide)).2.1 2 (by decide)
    (by decide) (by decide)⟩

end BirRouter
