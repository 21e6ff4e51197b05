import BirRouter.IpHeader
import BirRouter.OutputPort.ArpStages
import BirRouter.OutputPort.ChecksumStages

/-!
# The IPv4 header in the beats

The header of an IPv4 packet is the last 18 bytes of the first beat and the first two bytes of the
second one.  Seen as the 20 bytes that `generatechecksum` adds up, two pieces of hardware arithmetic
can be compared with the software:

* `arp3` adds one to the high byte of the checksum where the TTL loses one, without the end-around
  carry (`ttl_rewrite_iff`);
* the checksum stages fold the carries in with one 16-bit addition whose own carry is lost
  (`foldChecksum_agrees_iff`).
-/

set_option autoImplicit false

namespace BirRouter

open ByteLayout OnesComplement

/-- The bytes of the header, in the order of the wire. -/
def headerBytes (first second : BitVec 256) : List Byte :=
  [first.extractLsb' 136 8, first.extractLsb' 128 8, first.extractLsb' 120 8,
    first.extractLsb' 112 8, first.extractLsb' 104 8, first.extractLsb' 96 8,
    first.extractLsb' 88 8, first.extractLsb' 80 8, first.extractLsb' 72 8, first.extractLsb' 64 8,
    first.extractLsb' 56 8, first.extractLsb' 48 8, first.extractLsb' 40 8, first.extractLsb' 32 8,
    first.extractLsb' 24 8, first.extractLsb' 16 8, first.extractLsb' 8 8, first.extractLsb' 0 8,
    second.extractLsb' 248 8, second.extractLsb' 240 8]

/-- The header as the software loads it. -/
def headerOf (first second : BitVec 256) : PacketIp4 :=
  PacketIp4.layout.dec (headerBytes first second)

theorem enc_headerOf (first second : BitVec 256) :
    PacketIp4.layout.enc (headerOf first second) = headerBytes first second :=
  PacketIp4.layout.enc_dec _ (Nat.le_refl 20)

theorem wordSum_headerBytes_le (first second : BitVec 256) :
    wordSum (headerBytes first second) ≤ 655350 := by
  have hle := wordSum_le (headerBytes first second)
  have hlen : (headerBytes first second).length = 20 := rfl
  rw [hlen] at hle
  exact hle

/-! ## The TTL -/

/-- The forwarded header, byte by byte. -/
theorem headerBytes_rewrite (m : Macs) (dest_mac : BitVec 48) (oq : BitVec 8)
    (first second : BitVec 256) :
    headerBytes (Arp3.rewrite m dest_mac oq first) second
      = ((headerBytes first second).set 8 (first.extractLsb' 72 8 - 1)).set 10
          (first.extractLsb' 56 8 + 1) := by
  unfold headerBytes
  simp (disch := decide) only [Arp3.rewrite_ttl, Arp3.rewrite_checksum, Arp3.rewrite_field,
    List.set_cons_succ, List.set_cons_zero]

/-- The header sum drops by a full 65536 when the high byte of the checksum wraps around. -/
theorem wordSum_rewrite (m : Macs) (dest_mac : BitVec 48) (oq : BitVec 8)
    (first second : BitVec 256) (httl : 1 ≤ first.extractLsb' 72 8) :
    wordSum (headerBytes (Arp3.rewrite m dest_mac oq first) second)
        + (if first.extractLsb' 56 8 = 0xFF then 65536 else 0)
      = wordSum (headerBytes first second) := by
  rw [headerBytes_rewrite]
  unfold headerBytes
  simp only [List.set_cons_succ, List.set_cons_zero, wordSum]
  generalize first.extractLsb' 72 8 = ttl at httl ⊢
  generalize first.extractLsb' 56 8 = ck
  have ht : (ttl - 1).toNat + 1 = ttl.toNat := by bv_omega
  have hc : (ck + 1).toNat + (if ck = 0xFF then 256 else 0) = ck.toNat + 1 := by
    split <;> bv_omega
  by_cases hff : ck = 0xFF
  · rw [if_pos hff] at hc ⊢
    omega
  · rw [if_neg hff] at hc ⊢
    omega

theorem fold16_eq_ones {s : Nat} (h : s < 4294967296) : fold16 s = 65535 ↔ 0 < s ∧ s % 65535 = 0 := by
  have hmod := fold16_mod h
  have hlt := fold16_lt s
  constructor
  · intro hf
    refine ⟨Nat.pos_of_ne_zero ?_, by omega⟩
    rintro rfl
    exact absurd hf (by decide)
  · rintro ⟨hpos, hz⟩
    have := fold16_pos h hpos
    omega

/-- A header passes the software's test if its words add up to a positive multiple of 65535. -/
theorem generatechecksum_headerBytes (first second : BitVec 256) :
    generatechecksum (headerBytes first second) = 0 ↔
      0 < wordSum (headerBytes first second) ∧ wordSum (headerBytes first second) % 65535 = 0 := by
  have hle := wordSum_headerBytes_le first second
  rw [generatechecksum_eq_zero, Nat.mod_eq_of_lt (by omega), fold16_eq_ones (by omega)]

theorem generatechecksum_rewrite (m : Macs) (dest_mac : BitVec 48) (oq : BitVec 8)
    (first second : BitVec 256) (httl : 1 ≤ first.extractLsb' 72 8)
    (hvalid : generatechecksum (headerBytes first second) = 0) :
    generatechecksum (headerBytes (Arp3.rewrite m dest_mac oq first) second) = 0 ↔
      first.extractLsb' 56 8 ≠ 0xFF := by
  have hsum := wordSum_rewrite m dest_mac oq first second httl
  rw [generatechecksum_headerBytes] at hvalid ⊢
  split at hsum
  · rename_i hff
    simp only [hff, ne_eq, not_true_eq_false, iff_false, not_and]
    omega
  · rename_i hff
    simp only [ne_eq, hff, not_false_eq_true, iff_true]
    omega

/-- The other fields that `ip_header_check` reads are not rewritten. -/
theorem ipHeaderCheck_rewrite (m : Macs) (dest_mac : BitVec 48) (oq : BitVec 8)
    (first second : BitVec 256)
    (h : generatechecksum (headerBytes (Arp3.rewrite m dest_mac oq first) second) = 0) :
    ipHeaderCheck (headerOf (Arp3.rewrite m dest_mac oq first) second)
      = ipHeaderCheck (headerOf first second).hop := by
  unfold PacketIp4.hop
  rw [PacketIp4.ipHeaderCheck_updateChecksum]
  unfold ipHeaderCheck
  rw [enc_headerOf, h]
  simp only [decide_true, Bool.and_true]
  unfold headerOf
  rw [headerBytes_rewrite]
  rfl

/-- **`arp3` keeps a header valid exactly if the high byte of its checksum is not `0xFF`.** -/
theorem ttl_rewrite_iff (s : Arp3) (m : Macs) (a : Arp2) (beat second : Beat)
    (hstate : s.state = 0) (hlast : beat.tlast = false) (hdst : beat.dstPort = 0)
    (hhit : a.arp_hit = true) (httl : 2 ≤ (headerOf beat.tdata second.tdata).ttl)
    (hvalid : generatechecksum (PacketIp4.layout.enc (headerOf beat.tdata second.tdata)) = 0) :
    (generatechecksum (PacketIp4.layout.enc (headerOf (s.out m a beat).tdata second.tdata)) = 0 ∧
        ipHeaderCheck (headerOf (s.out m a beat).tdata second.tdata)
          = ipHeaderCheck (headerOf beat.tdata second.tdata).hop) ↔
      ntohs (headerOf beat.tdata second.tdata).header_checksum < 0xFF00 := by
  have hout : (s.out m a beat).tdata
      = Arp3.rewrite m a.dest_mac (a.oq_reg_out.extractLsb' 0 8) beat.tdata := by
    simp [Arp3.out, Arp3.onFirst, hstate, hlast, hdst, hhit]
  have hone : 1 ≤ beat.tdata.extractLsb' 72 8 := by
    have : 2 ≤ beat.tdata.extractLsb' 72 8 := httl
    rw [BitVec.le_def] at this ⊢
    exact Nat.le_of_succ_le this
  rw [enc_headerOf] at hvalid ⊢
  rw [hout]
  have hiff := generatechecksum_rewrite m a.dest_mac (a.oq_reg_out.extractLsb' 0 8) beat.tdata
    second.tdata hone hvalid
  have hfield : ntohs (headerOf beat.tdata second.tdata).header_checksum < 0xFF00 ↔
      beat.tdata.extractLsb' 56 8 ≠ 0xFF := by
    have hck : (headerOf beat.tdata second.tdata).header_checksum
        = beat.tdata.extractLsb' 48 8 ++ beat.tdata.extractLsb' 56 8 := rfl
    rw [hck, ntohs_bytes, BitVec.lt_def, toNat_append_byte]
    bv_omega
  rw [hfield, ← hiff]
  constructor
  · intro h
    exact h.1
  · intro h
    exact ⟨h, ipHeaderCheck_rewrite _ _ _ _ _ h⟩

/-- The first beat of a UDP packet from 10.0.0.1 to 10.0.0.2. -/
def udpBeat (srcPort : BitVec 8) (id header_checksum : BitVec 16) : Beat where
  tdata := 0x08004500_0054#144 ++ id ++ 0x00004011#32 ++ header_checksum ++ 0x0a0000010a00#48
  tstrb := 0xFFFFFFFF
  tuser := BitVec.setWidth 128 srcPort <<< 16
  tlast := false

/-- Its second beat. -/
def udpTail : Beat where
  tdata := 0x0002#16 ++ 0#240
  tstrb := 0xFFFFFFFF
  tuser := 0
  tlast := true

theorem ttl_rewrite_iff_sample :
    generatechecksum (PacketIp4.layout.enc (headerOf
        ((⟨0, 0, 0⟩ : Arp3).out portMacs ⟨1, 7, true, 4⟩ (udpBeat 1 1 0x6696)).tdata
        udpTail.tdata)) = 0 :=
  ((ttl_rewrite_iff ⟨0, 0, 0⟩ portMacs ⟨1, 7, true, 4⟩ (udpBeat 1 1 0x6696) udpTail rfl rfl
    (by decide) rfl (by decide) (by decide)).2 (by decide)).1

/-- A checksum of `0xFFFE` becomes `0x00FE`, and the packet is discarded by the next router. -/
theorem ttl_rewrite_breaks :
    generatechecksum (PacketIp4.layout.enc
        (headerOf (udpBeat 1 0x6698 0xFFFE).tdata udpTail.tdata)) = 0 ∧
      generatechecksum (PacketIp4.layout.enc (headerOf
        ((⟨0, 0, 0⟩ : Arp3).out portMacs ⟨1, 7, true, 4⟩ (udpBeat 1 0x6698 0xFFFE)).tdata
        udpTail.tdata)) ≠ 0 ∧
      ipHeaderCheck (headerOf (udpBeat 1 0x6698 0xFFFE).tdata udpTail.tdata).hop = true ∧
      ipHeaderCheck (headerOf
        ((⟨0, 0, 0⟩ : Arp3).out portMacs ⟨1, 7, true, 4⟩ (udpBeat 1 0x6698 0xFFFE)).tdata
        udpTail.tdata) = false := by
  decide +kernel

/-! ## The checksum -/

/-- The sum of the header words other than the checksum, in the order in which the stages add. -/
def headerSum (first : BitVec 256) (low_ip_addr : BitVec 16) : BitVec 32 :=
  (headerSums first).1 + (headerSums first).2 + low_ip_addr.setWidth 32

theorem toNat_word {w : Nat} (v : BitVec w) (k : Nat) :
    (v.extractLsb' k 16).toNat = (v.extractLsb' (k + 8) 8).toNat * 256 + (v.extractLsb' k 8).toNat := by
  rw [BitVec.extractLsb'_toNat, toNat_byteAt, toNat_byteAt, Nat.shiftRight_eq_div_pow, Nat.pow_add,
    ← Nat.div_div_eq_div_mul]
  omega

theorem toNat_headerWord (tdata : BitVec 256) (low : Nat) :
    (headerWord tdata low).toNat = (tdata.extractLsb' low 16).toNat := by
  have := (tdata.extractLsb' low 16).isLt
  unfold headerWord
  rw [BitVec.toNat_setWidth]
  omega

/-- Nine 16-bit words do not overflow the 32-bit sums. -/
theorem toNat_headerSum (first : BitVec 256) (low_ip_addr : BitVec 16) :
    (headerSum first low_ip_addr).toNat
      = (first.extractLsb' 128 16).toNat + (first.extractLsb' 112 16).toNat
        + (first.extractLsb' 96 16).toNat + (first.extractLsb' 80 16).toNat
        + (first.extractLsb' 64 16).toNat + (first.extractLsb' 32 16).toNat
        + (first.extractLsb' 16 16).toNat + (first.extractLsb' 0 16).toNat + low_ip_addr.toNat := by
  have hw : ∀ low, (first.extractLsb' low 16).toNat < 65536 := fun low => BitVec.isLt _
  have hl : (low_ip_addr.setWidth 32).toNat = low_ip_addr.toNat := by
    have := low_ip_addr.isLt
    rw [BitVec.toNat_setWidth]
    omega
  have h1 := hw 128
  have h2 := hw 112
  have h3 := hw 96
  have h4 := hw 80
  have h5 := hw 64
  have h6 := hw 32
  have h7 := hw 16
  have h8 := hw 0
  have h9 := low_ip_addr.isLt
  simp only [headerSum, headerSums, BitVec.toNat_add, toNat_headerWord, hl]
  omega

theorem wordSum_headerBytes (first second : BitVec 256) :
    wordSum (headerBytes first second)
      = (headerSum first (second.extractLsb' 240 16)).toNat + (first.extractLsb' 48 16).toNat := by
  rw [toNat_headerSum]
  simp only [headerBytes, wordSum, toNat_word, Nat.reduceAdd]
  omega

/-- The cases in which the two tests differ: the 16-bit addition of the carries loses a carry, or the
checksum is the second zero of one's complement arithmetic. -/
def CarryLost (sum checksum : Nat) : Prop :=
  65536 ≤ sum % 65536 + sum / 65536 ∧
      (sum % 65536 + sum / 65536 + checksum = 131070 ∨
        sum % 65536 + sum / 65536 + checksum = 131071) ∨
    sum % 65536 + sum / 65536 = 65535 ∧ checksum = 65535

instance (sum checksum : Nat) : Decidable (CarryLost sum checksum) :=
  inferInstanceAs (Decidable (_ ∨ _))

theorem toNat_foldChecksum (sum : BitVec 32) (h : sum.toNat < 1048576) :
    (foldChecksum sum).toNat = 65535 - (sum.toNat % 65536 + sum.toNat / 65536) % 65536 := by
  unfold foldChecksum
  rw [BitVec.toNat_not, BitVec.toNat_add, BitVec.toNat_setWidth, BitVec.extractLsb'_toNat,
    BitVec.extractLsb'_toNat, Nat.shiftRight_zero, Nat.shiftRight_eq_div_pow]
  have hcarry : sum.toNat / 65536 % 16 % 65536 = sum.toNat / 65536 := by omega
  simp only [Nat.reducePow, hcarry]

/-- **The hardware test and the software test agree up to a lost carry and the second zero.** -/
theorem foldChecksum_agrees_iff (first second : BitVec 256) :
    (foldChecksum (headerSum first (second.extractLsb' 240 16)) = first.extractLsb' 48 16 ↔
        generatechecksum (headerBytes first second) = 0) ↔
      ¬ CarryLost (headerSum first (second.extractLsb' 240 16)).toNat
        (first.extractLsb' 48 16).toNat := by
  have hlt := wordSum_headerBytes_le first second
  have hc := (first.extractLsb' 48 16).isLt
  rw [wordSum_headerBytes] at hlt
  rw [generatechecksum_headerBytes, wordSum_headerBytes, ← BitVec.toNat_inj,
    toNat_foldChecksum _ (by omega)]
  generalize (headerSum first (second.extractLsb' 240 16)).toNat = sum at hlt ⊢
  generalize (first.extractLsb' 48 16).toNat = c at hc ⊢
  unfold CarryLost
  -- `sum` is congruent to the sum of its halves modulo 65535
  obtain ⟨hi, lo, hlo, rfl⟩ : ∃ hi lo, lo < 65536 ∧ sum = hi * 65536 + lo :=
    ⟨sum / 65536, sum % 65536, Nat.mod_lt _ (by decide), by omega⟩
  have hd : (hi * 65536 + lo) / 65536 = hi := by omega
  have hm : (hi * 65536 + lo) % 65536 = lo := by omega
  have hhi : hi ≤ 9 := by omega
  rw [hd, hm]
  have hmod : (hi * 65536 + lo + c) % 65535 = (hi + lo + c) % 65535 := by
    rw [show hi * 65536 + lo + c = hi + lo + c + 65535 * hi by omega, Nat.add_mul_mod_self_left]
  by_cases hcarry : 65536 ≤ lo + hi
  · have hsum : (lo + hi) % 65536 = lo + hi - 65536 := by omega
    rw [hsum, hmod]
    omega
  · have hsum : (lo + hi) % 65536 = lo + hi := by omega
    rw [hsum, hmod]
    omega

end BirRouter
