import Mathlib.Algebra.Group.Nat.Defs
import Mathlib.Data.List.Basic
import Mathlib.Tactic.Common

/-!
# Packed records over byte lists

A `Layout α` is a fixed-width byte representation of `α`: what a packed C structure is to the
buffer it is overlaid on.

* `u8`, `u16le`, `u32le` — the scalar layouts (little-endian words, as a little-endian machine
  loads them);
* `Layout.seq`, `Layout.iso` — one field after another, and renaming a tuple to a record;
* `load` / `store` — reading and overwriting the record at a byte offset of a buffer, and `load?`,
  which does not read beyond its end;
* `encs` / `decs` — arrays of records.

Every layout is a bijection onto the byte strings of its width (`dec_append`, `enc_dec`), so a
buffer that is long enough *is* a record followed by the rest (`exists_append`), and a load or
store on such a buffer is computed by `load_append` and `store_append`.
-/

set_option autoImplicit false

namespace ByteLayout

abbrev Byte := BitVec 8

/-! ## Bytes of a word -/

theorem toNat_append_byte {n : Nat} (a : BitVec n) (b : Byte) :
    (a ++ b).toNat = a.toNat * 256 + b.toNat := by
  have hb : b.toNat < 2 ^ 8 := b.isLt
  rw [BitVec.toNat_append, ← Nat.shiftLeft_add_eq_or_of_lt hb, Nat.shiftLeft_eq]

theorem toNat_byteAt {n : Nat} (v : BitVec n) (k : Nat) :
    (v.extractLsb' k 8).toNat = v.toNat / 2 ^ k % 256 := by
  rw [BitVec.extractLsb'_toNat, Nat.shiftRight_eq_div_pow]

theorem word16_bytes (v : BitVec 16) :
    (v.extractLsb' 8 8 ++ v.extractLsb' 0 8 : BitVec 16) = v := by
  apply BitVec.eq_of_toNat_eq
  have hv := v.isLt
  rw [toNat_append_byte, toNat_byteAt, toNat_byteAt]
  omega

theorem word32_bytes (v : BitVec 32) :
    (v.extractLsb' 24 8 ++ v.extractLsb' 16 8 ++ v.extractLsb' 8 8 ++ v.extractLsb' 0 8 :
      BitVec 32) = v := by
  apply BitVec.eq_of_toNat_eq
  have hv := v.isLt
  rw [toNat_append_byte, toNat_append_byte, toNat_append_byte]
  simp only [toNat_byteAt]
  omega

theorem byte0_append {n : Nat} (a : BitVec n) (b : Byte) : (a ++ b).extractLsb' 0 8 = b :=
  BitVec.extractLsb'_append_eq_right

/-- Above its last byte, a word is the word without that byte. -/
theorem byteAt_append {n : Nat} (a : BitVec n) (b : Byte) (k : Nat) :
    (a ++ b).extractLsb' (k + 8) 8 = a.extractLsb' k 8 := by
  apply BitVec.eq_of_toNat_eq
  have hb := b.isLt
  rw [toNat_byteAt, toNat_byteAt, toNat_append_byte, Nat.pow_add, Nat.mul_comm (2 ^ k),
    ← Nat.div_div_eq_div_mul]
  congr 2
  omega

theorem byteAt_self (b : Byte) : b.extractLsb' 0 8 = b := by
  apply BitVec.eq_of_toNat_eq
  have hb := b.isLt
  rw [toNat_byteAt]
  omega

/-! ## Layouts -/

/-- A fixed-width byte representation.  `dec` reads from the front of a longer buffer. -/
structure Layout (α : Type) where
  size : Nat
  enc : α → List Byte
  dec : List Byte → α
  enc_length : ∀ a, (enc a).length = size
  dec_append : ∀ a rest, dec (enc a ++ rest) = a
  enc_dec : ∀ bs, size ≤ bs.length → enc (dec bs) = bs.take size

variable {α β : Type}

/-- One byte. -/
def u8 : Layout Byte where
  size := 1
  enc b := [b]
  dec bs := bs.getD 0 0
  enc_length _ := rfl
  dec_append _ _ := rfl
  enc_dec
    | [], h => by simp at h
    | b :: bs, _ => by simp

/-- A 16-bit word, least significant byte first. -/
def u16le : Layout (BitVec 16) where
  size := 2
  enc v := [v.extractLsb' 0 8, v.extractLsb' 8 8]
  dec bs := bs.getD 1 0 ++ bs.getD 0 0
  enc_length _ := rfl
  dec_append v rest := word16_bytes v
  enc_dec
    | [], h => by simp at h
    | [_], h => by simp at h
    | b0 :: b1 :: bs, _ => by
      have h1 : (b1 ++ b0).extractLsb' 8 8 = b1 := by rw [byteAt_append b1 b0 0, byteAt_self]
      simp [byte0_append, h1]

/-- A 32-bit word, least significant byte first. -/
def u32le : Layout (BitVec 32) where
  size := 4
  enc v := [v.extractLsb' 0 8, v.extractLsb' 8 8, v.extractLsb' 16 8, v.extractLsb' 24 8]
  dec bs := bs.getD 3 0 ++ bs.getD 2 0 ++ bs.getD 1 0 ++ bs.getD 0 0
  enc_length _ := rfl
  dec_append v rest := word32_bytes v
  enc_dec
    | [], h => by simp at h
    | [_], h => by simp at h
    | [_, _], h => by simp at h
    | [_, _, _], h => by simp at h
    | b0 :: b1 :: b2 :: b3 :: bs, _ => by
      have h1 : (b3 ++ b2 ++ b1 ++ b0).extractLsb' 8 8 = b1 := by
        rw [byteAt_append _ b0 0, byte0_append]
      have h2 : (b3 ++ b2 ++ b1 ++ b0).extractLsb' 16 8 = b2 := by
        rw [byteAt_append _ b0 8, byteAt_append _ b1 0, byte0_append]
      have h3 : (b3 ++ b2 ++ b1 ++ b0).extractLsb' 24 8 = b3 := by
        rw [byteAt_append _ b0 16, byteAt_append _ b1 8, byteAt_append _ b2 0, byteAt_self]
      simp [byte0_append, h1, h2, h3]

namespace Layout

/-- One record after another. -/
def seq (A : Layout α) (B : Layout β) : Layout (α × β) where
  size := A.size + B.size
  enc p := A.enc p.1 ++ B.enc p.2
  dec bs := (A.dec bs, B.dec (bs.drop A.size))
  enc_length p := by rw [List.length_append, A.enc_length, B.enc_length]
  dec_append p rest := by
    have hd : (A.enc p.1 ++ (B.enc p.2 ++ rest)).drop A.size = B.enc p.2 ++ rest := by
      rw [← A.enc_length p.1, List.drop_left]
    rw [List.append_assoc, A.dec_append, hd, B.dec_append]
  enc_dec bs h := by
    have hb : B.size ≤ (bs.drop A.size).length := by rw [List.length_drop]; omega
    rw [A.enc_dec bs (by omega), B.enc_dec _ hb, ← List.take_add]

/-- A layout of `α` read as a layout of an equivalent type. -/
def iso (A : Layout α) (f : α → β) (g : β → α) (hfg : ∀ b, f (g b) = b)
    (hgf : ∀ a, g (f a) = a) : Layout β where
  size := A.size
  enc b := A.enc (g b)
  dec bs := f (A.dec bs)
  enc_length b := A.enc_length (g b)
  dec_append b rest := by rw [A.dec_append, hfg]
  enc_dec bs h := by rw [hgf, A.enc_dec bs h]

theorem enc_injective (A : Layout α) {a b : α} (h : A.enc a = A.enc b) : a = b := by
  have ha := A.dec_append a []
  rw [h, A.dec_append] at ha
  exact ha.symm

/-! ## Overlaying a record on a buffer -/

/-- The record at byte offset `off`. -/
def load (A : Layout α) (off : Nat) (p : List Byte) : α := A.dec (p.drop off)

/-- The record at byte offset `off`, if the buffer holds it. -/
def load? (A : Layout α) (off : Nat) (p : List Byte) : Option α :=
  if off + A.size ≤ p.length then some (A.load off p) else none

theorem load?_of_le (A : Layout α) {off : Nat} {p : List Byte} (h : off + A.size ≤ p.length) :
    A.load? off p = some (A.load off p) := if_pos h

theorem load?_of_lt (A : Layout α) {off : Nat} {p : List Byte} (h : p.length < off + A.size) :
    A.load? off p = none := if_neg (Nat.not_le.2 h)

/-- The buffer with the record at byte offset `off` overwritten. -/
def store (A : Layout α) (off : Nat) (a : α) (p : List Byte) : List Byte :=
  p.take off ++ (A.enc a ++ p.drop (off + A.size))

theorem exists_append (A : Layout α) {off : Nat} {p : List Byte} (h : off + A.size ≤ p.length) :
    ∃ pre a rest, p = pre ++ (A.enc a ++ rest) ∧ pre.length = off := by
  refine ⟨p.take off, A.load off p, p.drop (off + A.size), ?_, by rw [List.length_take]; omega⟩
  have hs : A.size ≤ (p.drop off).length := by rw [List.length_drop]; omega
  unfold load
  rw [A.enc_dec _ hs, ← List.drop_drop, List.take_append_drop, List.take_append_drop]

theorem load_append (A : Layout α) {off : Nat} {pre : List Byte} (a : α) (rest : List Byte)
    (h : pre.length = off) : A.load off (pre ++ (A.enc a ++ rest)) = a := by
  unfold load
  rw [← h, List.drop_left, A.dec_append]

/-- A record is read from its own bytes only. -/
theorem load_of_take_eq (A : Layout α) {off n : Nat} {p q : List Byte} (h : p.take n = q.take n)
    (hn : off + A.size ≤ n) (hp : n ≤ p.length) (hq : n ≤ q.length) :
    A.load off p = A.load off q := by
  have hcut : ∀ l : List Byte, (l.drop off).take A.size = ((l.take n).drop off).take A.size := by
    intro l
    rw [List.drop_take, List.take_take, Nat.min_eq_left (by omega)]
  have hbytes : (p.drop off).take A.size = (q.drop off).take A.size := by
    rw [hcut p, hcut q, h]
  refine A.enc_injective ?_
  unfold load
  rw [A.enc_dec _ (by rw [List.length_drop]; omega), A.enc_dec _ (by rw [List.length_drop]; omega),
    hbytes]

theorem store_append (A : Layout α) {off : Nat} {pre : List Byte} (a b : α) (rest : List Byte)
    (h : pre.length = off) :
    A.store off a (pre ++ (A.enc b ++ rest)) = pre ++ (A.enc a ++ rest) := by
  unfold store
  have hd : (pre ++ (A.enc b ++ rest)).drop (off + A.size) = rest := by
    rw [← h, ← List.drop_drop, List.drop_left, ← A.enc_length b, List.drop_left]
  rw [hd, ← h, List.take_left]

theorem store_length (A : Layout α) {off : Nat} {p : List Byte} (a : α)
    (h : off + A.size ≤ p.length) : (A.store off a p).length = p.length := by
  unfold store
  rw [List.length_append, List.length_append, A.enc_length, List.length_take, List.length_drop]
  omega

/-! ## Arrays of records -/

/-- The records one after another. -/
def encs (A : Layout α) (as : List α) : List Byte := as.flatMap A.enc

/-- The first `n` records of a buffer. -/
def decs (A : Layout α) : Nat → List Byte → List α
  | 0, _ => []
  | n + 1, bs => A.dec bs :: decs A n (bs.drop A.size)

theorem encs_length (A : Layout α) : ∀ as : List α, (A.encs as).length = as.length * A.size
  | [] => by simp [encs]
  | a :: as => by
    have ih := encs_length A as
    unfold encs at ih ⊢
    rw [List.flatMap_cons, List.length_append, A.enc_length, ih, List.length_cons, Nat.succ_mul,
      Nat.add_comm]

theorem decs_length (A : Layout α) : ∀ (n : Nat) (bs : List Byte), (A.decs n bs).length = n
  | 0, _ => rfl
  | n + 1, bs => by rw [decs, List.length_cons, decs_length A n]

theorem decs_append (A : Layout α) : ∀ (as : List α) (rest : List Byte),
    A.decs as.length (A.encs as ++ rest) = as
  | [], _ => rfl
  | a :: as, rest => by
    have hs : A.encs (a :: as) = A.enc a ++ A.encs as := List.flatMap_cons
    have hd : (A.enc a ++ (A.encs as ++ rest)).drop A.size = A.encs as ++ rest := by
      rw [← A.enc_length a, List.drop_left]
    rw [List.length_cons, decs, hs, List.append_assoc, A.dec_append, hd, decs_append A as rest]

theorem encs_injective (A : Layout α) {as bs : List α} (hlen : as.length = bs.length)
    (h : A.encs as = A.encs bs) : as = bs := by
  have ha := A.decs_append as []
  have hb := A.decs_append bs []
  rw [h, hlen, hb] at ha
  exact ha.symm

theorem encs_decs (A : Layout α) : ∀ (n : Nat) (bs : List Byte), n * A.size ≤ bs.length →
    A.encs (A.decs n bs) = bs.take (n * A.size)
  | 0, _, _ => by simp [encs, decs]
  | n + 1, bs, h => by
    rw [Nat.succ_mul] at h
    have ih := encs_decs A n (bs.drop A.size) (by rw [List.length_drop]; omega)
    have hs : A.encs (A.decs (n + 1) bs) = A.enc (A.dec bs) ++ A.encs (A.decs n (bs.drop A.size)) :=
      List.flatMap_cons
    rw [hs, ih, A.enc_dec bs (by omega), ← List.take_add, Nat.succ_mul, Nat.add_comm]

end Layout

end ByteLayout
