import BirRouter.Checksum

/-!
# IPv4 headers (`ip.c`)

The functions of `ip.c` that only look at the header: its check on reception, the renewal of its
checksum, and the header of generated packets.  A header whose checksum was renewed passes the
checksum test (`updateChecksum_valid`), so the other tests decide (`ipHeaderCheck_updateChecksum`).
-/

set_option autoImplicit false

namespace BirRouter

open ByteLayout

/-- `ip_header_check`.  The length test compares the raw field with the size of one byte. -/
def ipHeaderCheck (h : PacketIp4) : Bool :=
  decide (h.version = 4) && decide (h.ihl = 5) && decide (1 ≤ h.total_length) &&
    decide (generatechecksum (PacketIp4.layout.enc h) = 0) &&
    decide (ntohs h.flags_fragmentoffset &&& 0x3fff = 0)

namespace PacketIp4

/-- `header_checksum = 0; header_checksum = generatechecksum(ipv4, sizeof(packet_ip4_t))`. -/
def updateChecksum (h : PacketIp4) : PacketIp4 :=
  let h := { h with header_checksum := 0 }
  { h with header_checksum := generatechecksum (PacketIp4.layout.enc h) }

/-- The header with its TTL decremented and its checksum renewed. -/
def hop (h : PacketIp4) : PacketIp4 := { h with ttl := h.ttl - 1 }.updateChecksum

/-- The checksum a header arrives with does not matter to the next hop. -/
theorem hop_updateChecksum (h : PacketIp4) : h.updateChecksum.hop = h.hop := rfl

/-- The bytes in front of the checksum field. -/
def front (h : PacketIp4) : List Byte :=
  nibbles.enc (h.ihl, h.version) ++ (u8.enc h.dscp_ecn ++ (u16le.enc h.total_length ++
    (u16le.enc h.id ++ (u16le.enc h.flags_fragmentoffset ++ (u8.enc h.ttl ++ u8.enc h.protocol)))))

/-- The bytes behind the checksum field. -/
def back (h : PacketIp4) : List Byte := u32le.enc h.src_ip ++ u32le.enc h.dst_ip

theorem enc_split (h : PacketIp4) :
    PacketIp4.layout.enc h = h.front ++ (u16le.enc h.header_checksum ++ h.back) := by
  unfold front back
  simp only [List.append_assoc]
  rfl

theorem front_length (h : PacketIp4) : h.front.length = 10 := rfl

theorem back_length (h : PacketIp4) : h.back.length = 8 := rfl

/-- **A renewed checksum checks.** -/
theorem updateChecksum_valid (h : PacketIp4) :
    generatechecksum (PacketIp4.layout.enc h.updateChecksum) = 0 := by
  have hz : PacketIp4.layout.enc { h with header_checksum := 0 }
      = h.front ++ (u16le.enc 0 ++ h.back) := enc_split _
  rw [enc_split]
  show generatechecksum (h.front ++ (u16le.enc
    (generatechecksum (PacketIp4.layout.enc { h with header_checksum := 0 })) ++ h.back)) = 0
  rw [hz]
  exact generatechecksum_store (by rw [front_length]) (by rw [front_length, back_length]; decide)

theorem ipHeaderCheck_updateChecksum (h : PacketIp4) :
    ipHeaderCheck h.updateChecksum =
      (decide (h.version = 4) && decide (h.ihl = 5) && decide (1 ≤ h.total_length) &&
        decide (ntohs h.flags_fragmentoffset &&& 0x3fff = 0)) := by
  unfold ipHeaderCheck
  rw [updateChecksum_valid]
  simp only [decide_true, Bool.and_true]
  rfl

/-- **A new header is valid** if it has a length and is no fragment. -/
theorem ipHeaderCheck_fresh {h : PacketIp4} (hversion : h.version = 4) (hihl : h.ihl = 5)
    (hlength : h.total_length ≠ 0) (hflags : ntohs h.flags_fragmentoffset &&& 0x3fff = 0) :
    ipHeaderCheck h.updateChecksum = true := by
  have hpos : 1 ≤ h.total_length := by bv_omega
  rw [ipHeaderCheck_updateChecksum, decide_eq_true hversion, decide_eq_true hihl,
    decide_eq_true hpos, decide_eq_true hflags]
  rfl

/-- With the fields that are checked as they were, a renewed checksum makes the header valid. -/
theorem ipHeaderCheck_renewed {h h' : PacketIp4} (hc : ipHeaderCheck h = true)
    (hversion : h'.version = h.version) (hihl : h'.ihl = h.ihl)
    (hlength : h'.total_length = h.total_length)
    (hflags : h'.flags_fragmentoffset = h.flags_fragmentoffset) :
    ipHeaderCheck h'.updateChecksum = true := by
  rw [ipHeaderCheck_updateChecksum, hversion, hihl, hlength, hflags]
  unfold ipHeaderCheck at hc
  simp only [Bool.and_eq_true] at hc ⊢
  exact ⟨hc.1.1, hc.2⟩

/-- **A forwarded header is as good as the received one.** -/
theorem ipHeaderCheck_hop {h : PacketIp4} (hc : ipHeaderCheck h = true) :
    ipHeaderCheck h.hop = true :=
  ipHeaderCheck_renewed hc rfl rfl rfl rfl

end PacketIp4

theorem unfragmented : ntohs (0 : BitVec 16) &&& 0x3fff = 0 := by decide

theorem htons_ofNat_ne_zero {n : Nat} (hpos : 0 < n) (hlt : n < 65536) :
    htons (BitVec.ofNat 16 n) ≠ 0 := by
  intro h
  have hn := congrArg BitVec.toNat (ntohs_eq_zero.2 h)
  have hz : (0 : BitVec 16).toNat = 0 := rfl
  rw [ntohs_htons, BitVec.toNat_ofNat, hz] at hn
  omega

/-- `generate_ipv4_header`. -/
def generateIpv4Header (src_ip : AddrIp) (datagram_size : Nat) (protocol : Byte) (dest : AddrIp) :
    PacketIp4 :=
  PacketIp4.updateChecksum
    { ihl := 5
      version := 4
      dscp_ecn := 0
      total_length := htons (BitVec.ofNat 16 (20 + datagram_size))
      id := 0
      flags_fragmentoffset := 0
      ttl := 65
      protocol := protocol
      header_checksum := 0
      src_ip := src_ip
      dst_ip := dest }

end BirRouter
