import BirRouter.IpVerdict

/-!
# The pseudo header of a UDP datagram (`malloc_udp_pseudo_header`)

The size of the buffer and the number of bytes copied to it come from the length field of the
datagram.

* `udpDatasize`, `udpPseudoSize` — the two sizes in the arithmetic of C;
* `udpPseudoHeader_inside` — the buffer of a datagram that the frame holds does not depend on the memory
  behind the frame;
* `pseudoHeader_inside_iff` — both sizes are right exactly if the length field is at least 8 and not
  beyond the end of the frame.
-/

set_option autoImplicit false

namespace BirRouter

open ByteLayout

/-! ## The sizes -/

/-- `const int datasize = ntohs(udp->length) - sizeof(packet_udp_t)`: a difference of type `size_t`. -/
def udpDatasize (udp : PacketUdp) : BitVec 32 := ((ntohs udp.length).setWidth 64 - 8#64).setWidth 32

/-- `*size = sizeof(packet_udp_pseudo_header_t) + datasize`. -/
def udpPseudoSize (udp : PacketUdp) : BitVec 32 :=
  (20#64 + (udpDatasize udp).signExtend 64).setWidth 32

/-- The number of bytes that `memcpy` is told to copy, a `size_t`. -/
def udpCopied (udp : PacketUdp) : BitVec 64 := (udpDatasize udp).signExtend 64

theorem toNat_udpDatasize (udp : PacketUdp) : (udpDatasize udp).toNat =
    (4294967288 + (ntohs udp.length).toNat) % 4294967296 := by
  have hlt := (ntohs udp.length).isLt
  unfold udpDatasize
  rw [BitVec.toNat_setWidth, BitVec.toNat_sub, BitVec.toNat_setWidth, BitVec.toNat_ofNat]
  omega

theorem toInt_udpDatasize (udp : PacketUdp) :
    (udpDatasize udp).toInt = ((ntohs udp.length).toNat : Int) - 8 := by
  have hlt := (ntohs udp.length).isLt
  rw [BitVec.toInt_eq_toNat_cond, toNat_udpDatasize]
  split <;> omega

theorem toNat_udpCopied {udp : PacketUdp} (h : 8 ≤ (ntohs udp.length).toNat) :
    (udpCopied udp).toNat = (ntohs udp.length).toNat - 8 := by
  have hlt := (ntohs udp.length).isLt
  have hdata := toNat_udpDatasize udp
  have hmsb : (udpDatasize udp).msb = false := by
    rw [BitVec.msb_eq_false_iff_two_mul_lt, hdata]
    omega
  rw [udpCopied, BitVec.signExtend_eq_setWidth_of_msb_false hmsb, BitVec.toNat_setWidth, hdata]
  omega

theorem toInt_udpPseudoSize {udp : PacketUdp} (h : 8 ≤ (ntohs udp.length).toNat) :
    (udpPseudoSize udp).toInt = ((ntohs udp.length).toNat : Int) + 12 := by
  have hlt := (ntohs udp.length).isLt
  have hsize : (udpPseudoSize udp).toNat = (ntohs udp.length).toNat + 12 := by
    have hcopied := toNat_udpCopied h
    unfold udpCopied at hcopied
    rw [udpPseudoSize, BitVec.toNat_setWidth, BitVec.toNat_add, hcopied, BitVec.toNat_ofNat]
    omega
  rw [BitVec.toInt_eq_toNat_cond, hsize]
  split <;> omega

/-! ## The buffer -/

/-- The pseudo header and the data behind it. -/
def pseudoHeader (ipv4 : PacketIp4) (udp : PacketUdp) (data : List Byte) : List Byte :=
  u32le.enc ipv4.src_ip ++ u32le.enc ipv4.dst_ip ++ [0, ipv4.protocol] ++ u16le.enc udp.length ++
    PacketUdp.layout.enc udp ++ data

theorem pseudoHeader_length (ipv4 : PacketIp4) (udp : PacketUdp) (data : List Byte) :
    (pseudoHeader ipv4 udp data).length = 20 + data.length := by
  simp only [pseudoHeader, List.length_append, Layout.enc_length]
  rfl

/-- The buffer has the size that is computed for it. -/
theorem udpPseudoHeader_size (env : Env) {pi : PacketInfo} {udp : PacketUdp} {pseudo : List Byte}
    (hfits : 42 ≤ pi.packet.length) (h : udpPseudoHeader env pi udp = some pseudo) :
    (pseudo.length : Int) = (udpPseudoSize udp).toInt := by
  have h8 : 8 ≤ (ntohs udp.length).toNat :=
    (udpPseudoHeader_isSome env pi udp).1 (by rw [h]; rfl)
  unfold udpPseudoHeader at h
  simp only at h
  rw [if_neg (by omega), Option.some_inj] at h
  rw [← h]
  show ((pseudoHeader pi.ipv4 udp _).length : Int) = _
  rw [pseudoHeader_length, toInt_udpPseudoSize h8, List.length_take, List.length_drop,
    PacketInfo.memory, List.length_append, List.length_map, List.length_range]
  omega

/-- A datagram that the frame holds is copied from the frame. -/
theorem udpPseudoHeader_inside (env : Env) {pi : PacketInfo} {udp : PacketUdp}
    (h8 : 8 ≤ (ntohs udp.length).toNat) (h : 34 + (ntohs udp.length).toNat ≤ pi.packet.length) :
    udpPseudoHeader env pi udp =
      some (pseudoHeader pi.ipv4 udp ((pi.packet.drop 42).take ((ntohs udp.length).toNat - 8))) := by
  have hn : (((ntohs udp.length).toNat : Int) - 8).toNat = (ntohs udp.length).toNat - 8 := by omega
  unfold udpPseudoHeader
  simp only
  rw [if_neg (by omega), hn, PacketInfo.memory, List.drop_append_of_le_length (by omega),
    List.take_append_of_le_length (by rw [List.length_drop]; omega)]
  rfl

/-- Buffer and copy are as they are meant to be: there is room for the pseudo header, the number of
bytes copied is not negative, and they are bytes of the frame. -/
structure PseudoHeaderInside (pi : PacketInfo) : Prop where
  size : 20 ≤ (udpPseudoSize pi.udp).toInt
  datasize : 0 ≤ (udpDatasize pi.udp).toInt
  inside : 42 + (udpCopied pi.udp).toNat ≤ pi.packet.length

/-- **The pseudo header is well formed** exactly if the frame holds the datagram that its length field
announces. -/
theorem pseudoHeader_inside_iff (r : Router) (pi : PacketInfo) (h : UdpToRouter r pi) :
    PseudoHeaderInside pi ↔
      8 ≤ (ntohs pi.udp.length).toNat ∧ 34 + (ntohs pi.udp.length).toNat ≤ pi.packet.length := by
  have hfits := h.fits
  have hdata := toInt_udpDatasize pi.udp
  constructor
  · rintro ⟨_, hdatasize, hinside⟩
    have h8 : 8 ≤ (ntohs pi.udp.length).toNat := by omega
    rw [toNat_udpCopied h8] at hinside
    omega
  · rintro ⟨h8, hend⟩
    have hsize := toInt_udpPseudoSize h8
    have hcopied := toNat_udpCopied h8
    exact ⟨by omega, by omega, by omega⟩

/-- A datagram without data from 192.168.1.7 to the router, with any length field. -/
def emptyDatagram (length : BitVec 16) : PacketInfo :=
  .ofParts ⟨smallEth1.mac, ⟨2, 0, 0, 0, 0, 9⟩, htons ethIpType⟩
    (PacketIp4.updateChecksum ⟨5, 4, 0, htons 28, 7, 0, 64, 17, 0, ipConvert 192 168 1 7,
      ipConvert 192 168 1 1⟩)
    (PacketUdp.layout.enc ⟨htons 9, htons 9, htons length, 0⟩) 1

theorem emptyDatagram_toRouter (length : BitVec 16) :
    UdpToRouter smallRouter (emptyDatagram length) := by
  have hipv4 : (emptyDatagram length).ipv4 = PacketIp4.updateChecksum ⟨5, 4, 0, htons 28, 7, 0, 64, 17,
      0, ipConvert 192 168 1 7, ipConvert 192 168 1 1⟩ := PacketInfo.ofParts_ipv4 ..
  have hlen : (emptyDatagram length).packet.length = 42 := rfl
  refine ⟨?_, ?_, ?_, ?_, Nat.le_of_eq hlen.symm⟩
  · rw [hipv4]
    decide +kernel
  · rw [hipv4, ← ownInterface_isSome_iff]
    decide +kernel
  · rw [hipv4]
    decide +kernel
  · rw [hipv4]
    rfl

/-- With a length of 4 the size of the copy is negative, with 65535 the copy leaves the frame. -/
theorem pseudoHeader_inside_lengths :
    (UdpToRouter smallRouter (emptyDatagram 4) ∧ ¬ PseudoHeaderInside (emptyDatagram 4)) ∧
    (UdpToRouter smallRouter (emptyDatagram 65535) ∧ ¬ PseudoHeaderInside (emptyDatagram 65535)) := by
  refine ⟨⟨emptyDatagram_toRouter 4, fun h => ?_⟩, ⟨emptyDatagram_toRouter 65535, fun h => ?_⟩⟩
  · exact absurd h.datasize (by decide +kernel)
  · exact absurd h.inside (by decide +kernel)

/-- A length of 8 is right. -/
theorem pseudoHeader_inside_empty : PseudoHeaderInside (emptyDatagram 8) :=
  (pseudoHeader_inside_iff smallRouter (emptyDatagram 8) (emptyDatagram_toRouter 8)).2
    (by decide +kernel)

end BirRouter
