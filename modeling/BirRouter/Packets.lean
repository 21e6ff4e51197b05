import BirRouter.Lib.Layout

/-!
# Packet formats (`packets.h`)

The packed structures the router overlays on packet buffers, with their layouts.  Fields hold what
a little-endian machine loads: a 32-bit address field holds the network-order bytes with the first
byte lowest, and `ntohs` / `ntohl` swap.  Every layout is a `Layout`, so records and the bytes
under them determine each other.
-/

set_option autoImplicit false

namespace BirRouter

open ByteLayout

/-! ## Byte order -/

def ntohs (v : BitVec 16) : BitVec 16 := v.extractLsb' 0 8 ++ v.extractLsb' 8 8

def htons (v : BitVec 16) : BitVec 16 := ntohs v

def ntohl (v : BitVec 32) : BitVec 32 :=
  v.extractLsb' 0 8 ++ v.extractLsb' 8 8 ++ v.extractLsb' 16 8 ++ v.extractLsb' 24 8

def htonl (v : BitVec 32) : BitVec 32 := ntohl v

theorem ntohs_htons (v : BitVec 16) : ntohs (htons v) = v := by
  unfold htons ntohs
  have h1 : (v.extractLsb' 0 8 ++ v.extractLsb' 8 8 : BitVec 16).extractLsb' 0 8
      = v.extractLsb' 8 8 := byte0_append _ _
  have h2 : (v.extractLsb' 0 8 ++ v.extractLsb' 8 8 : BitVec 16).extractLsb' 8 8
      = v.extractLsb' 0 8 := by rw [byteAt_append _ _ 0, byteAt_self]
  rw [h1, h2, word16_bytes]

theorem ntohs_injective {a b : BitVec 16} (h : ntohs a = ntohs b) : a = b := by
  have ha := ntohs_htons a
  have hb := ntohs_htons b
  unfold htons at ha hb
  rw [← ha, h, hb]

theorem ntohl_htonl (v : BitVec 32) : ntohl (htonl v) = v := by
  unfold htonl ntohl
  generalize hb0 : v.extractLsb' 0 8 = b0
  generalize hb1 : v.extractLsb' 8 8 = b1
  generalize hb2 : v.extractLsb' 16 8 = b2
  generalize hb3 : v.extractLsb' 24 8 = b3
  have h0 : (b0 ++ b1 ++ b2 ++ b3).extractLsb' 0 8 = b3 := byte0_append _ _
  have h1 : (b0 ++ b1 ++ b2 ++ b3).extractLsb' 8 8 = b2 := by
    rw [byteAt_append _ _ 0, byte0_append]
  have h2 : (b0 ++ b1 ++ b2 ++ b3).extractLsb' 16 8 = b1 := by
    rw [byteAt_append _ _ 8, byteAt_append _ _ 0, byte0_append]
  have h3 : (b0 ++ b1 ++ b2 ++ b3).extractLsb' 24 8 = b0 := by
    rw [byteAt_append _ _ 16, byteAt_append _ _ 8, byteAt_append _ _ 0, byteAt_self]
  rw [h0, h1, h2, h3, ← hb0, ← hb1, ← hb2, ← hb3, word32_bytes]

theorem ntohl_injective {a b : BitVec 32} (h : ntohl a = ntohl b) : a = b := by
  have ha := ntohl_htonl a
  have hb := ntohl_htonl b
  unfold htonl at ha hb
  rw [← ha, h, hb]

/-! ## Ethernet -/

abbrev AddrIp := BitVec 32

/-- `IP_CONVERT`: the address `a.b.c.d` as it is stored. -/
def ipConvert (a b c d : Nat) : AddrIp := BitVec.ofNat 32 (a + 256 * b + 65536 * c + 16777216 * d)

structure AddrMac where
  octet0 : Byte
  octet1 : Byte
  octet2 : Byte
  octet3 : Byte
  octet4 : Byte
  octet5 : Byte
  deriving DecidableEq, Repr

def AddrMac.layout : Layout AddrMac :=
  (u8.seq (u8.seq (u8.seq (u8.seq (u8.seq u8))))).iso
    (fun (a, b, c, d, e, f) => ⟨a, b, c, d, e, f⟩)
    (fun m => (m.octet0, m.octet1, m.octet2, m.octet3, m.octet4, m.octet5))
    (fun _ => rfl) (fun _ => rfl)

/-- `MAC_BROADCAST`. -/
def AddrMac.broadcast : AddrMac := ⟨0xff, 0xff, 0xff, 0xff, 0xff, 0xff⟩

structure PacketEthernet where
  dest_mac : AddrMac
  source_mac : AddrMac
  type : BitVec 16
  deriving DecidableEq, Repr

def PacketEthernet.layout : Layout PacketEthernet :=
  (AddrMac.layout.seq (AddrMac.layout.seq u16le)).iso
    (fun (d, s, t) => ⟨d, s, t⟩) (fun e => (e.dest_mac, e.source_mac, e.type))
    (fun _ => rfl) (fun _ => rfl)

/-- `ETH_IP_TYPE`, `ETH_ARP_TYPE`. -/
def ethIpType : BitVec 16 := 0x0800
def ethArpType : BitVec 16 := 0x0806

/-! ## ARP -/

structure PacketArp where
  hardwaretype : BitVec 16
  protocoltype : BitVec 16
  hardwareaddresslength : Byte
  protocoladdresslength : Byte
  opcode : BitVec 16
  sender_mac : AddrMac
  sender_ip : AddrIp
  target_mac : AddrMac
  target_ip : AddrIp
  deriving DecidableEq, Repr

def PacketArp.layout : Layout PacketArp :=
  (u16le.seq (u16le.seq (u8.seq (u8.seq (u16le.seq
    (AddrMac.layout.seq (u32le.seq (AddrMac.layout.seq u32le)))))))).iso
    (fun (ht, pt, hl, pl, op, sm, si, tm, ti) => ⟨ht, pt, hl, pl, op, sm, si, tm, ti⟩)
    (fun a => (a.hardwaretype, a.protocoltype, a.hardwareaddresslength, a.protocoladdresslength,
      a.opcode, a.sender_mac, a.sender_ip, a.target_mac, a.target_ip))
    (fun _ => rfl) (fun _ => rfl)

/-! ## IPv4 -/

structure PacketIp4 where
  ihl : BitVec 4
  version : BitVec 4
  dscp_ecn : Byte
  total_length : BitVec 16
  id : BitVec 16
  flags_fragmentoffset : BitVec 16
  ttl : Byte
  protocol : Byte
  header_checksum : BitVec 16
  src_ip : AddrIp
  dst_ip : AddrIp
  deriving DecidableEq, Repr

/-- The two four-bit fields of a byte, low one first. -/
def nibbles : Layout (BitVec 4 × BitVec 4) :=
  u8.iso (fun b => (b.extractLsb' 0 4, b.extractLsb' 4 4)) (fun p => p.2 ++ p.1)
    (fun p => by
      have h0 : (p.2 ++ p.1).extractLsb' 0 4 = p.1 := BitVec.extractLsb'_append_eq_right
      have h1 : (p.2 ++ p.1).extractLsb' 4 4 = p.2 := BitVec.extractLsb'_append_eq_left
      simp only [h0, h1])
    (fun b => by
      show b.extractLsb' 4 4 ++ b.extractLsb' 0 4 = b
      revert b
      decide)

def PacketIp4.layout : Layout PacketIp4 :=
  (nibbles.seq (u8.seq (u16le.seq (u16le.seq (u16le.seq (u8.seq (u8.seq
    (u16le.seq (u32le.seq u32le))))))))).iso
    (fun ((ihl, ver), tos, len, id, fl, ttl, pr, ck, s, d) =>
      ⟨ihl, ver, tos, len, id, fl, ttl, pr, ck, s, d⟩)
    (fun h => ((h.ihl, h.version), h.dscp_ecn, h.total_length, h.id, h.flags_fragmentoffset,
      h.ttl, h.protocol, h.header_checksum, h.src_ip, h.dst_ip))
    (fun _ => rfl) (fun _ => rfl)

/-- `IP_TYPE_ICMP`, `IP_TYPE_TCP`, `IP_TYPE_UDP`, `IP_TYPE_OSPF`. -/
def ipTypeIcmp : Byte := 1
def ipTypeTcp : Byte := 6
def ipTypeUdp : Byte := 17
def ipTypeOspf : Byte := 89

/-! ## ICMP and UDP -/

/-- `packet_icmp_t` without its `data`, which follows. -/
structure PacketIcmp where
  type : Byte
  code : Byte
  header_checksum : BitVec 16
  id : BitVec 16
  seq_num : BitVec 16
  deriving DecidableEq, Repr

def PacketIcmp.layout : Layout PacketIcmp :=
  (u8.seq (u8.seq (u16le.seq (u16le.seq u16le)))).iso
    (fun (t, c, ck, id, sq) => ⟨t, c, ck, id, sq⟩)
    (fun m => (m.type, m.code, m.header_checksum, m.id, m.seq_num))
    (fun _ => rfl) (fun _ => rfl)

structure PacketUdp where
  source_port : BitVec 16
  destination_port : BitVec 16
  length : BitVec 16
  checksum : BitVec 16
  deriving DecidableEq, Repr

def PacketUdp.layout : Layout PacketUdp :=
  (u16le.seq (u16le.seq (u16le.seq u16le))).iso
    (fun (s, d, l, ck) => ⟨s, d, l, ck⟩)
    (fun u => (u.source_port, u.destination_port, u.length, u.checksum))
    (fun _ => rfl) (fun _ => rfl)

/-! ## PWOSPF -/

structure PwospfPacket where
  version : Byte
  type : Byte
  len : BitVec 16
  router_id : BitVec 32
  area_id : BitVec 32
  checksum : BitVec 16
  autotype : BitVec 16
  auth_type : BitVec 32
  auth_data : BitVec 32
  deriving DecidableEq, Repr

def PwospfPacket.layout : Layout PwospfPacket :=
  (u8.seq (u8.seq (u16le.seq (u32le.seq (u32le.seq (u16le.seq (u16le.seq
    (u32le.seq u32le)))))))).iso
    (fun (v, t, l, r, a, ck, au, at', ad) => ⟨v, t, l, r, a, ck, au, at', ad⟩)
    (fun h => (h.version, h.type, h.len, h.router_id, h.area_id, h.checksum, h.autotype,
      h.auth_type, h.auth_data))
    (fun _ => rfl) (fun _ => rfl)

structure PwospfPacketHello where
  pwospf_header : PwospfPacket
  netmask : BitVec 32
  helloint : BitVec 16
  padding : BitVec 16
  deriving DecidableEq, Repr

def PwospfPacketHello.layout : Layout PwospfPacketHello :=
  (PwospfPacket.layout.seq (u32le.seq (u16le.seq u16le))).iso
    (fun (h, m, i, p) => ⟨h, m, i, p⟩)
    (fun h => (h.pwospf_header, h.netmask, h.helloint, h.padding))
    (fun _ => rfl) (fun _ => rfl)

structure PwospfPacketLink where
  pwospf_header : PwospfPacket
  seq : BitVec 16
  ttl : BitVec 16
  advert : BitVec 32
  deriving DecidableEq, Repr

def PwospfPacketLink.layout : Layout PwospfPacketLink :=
  (PwospfPacket.layout.seq (u16le.seq (u16le.seq u32le))).iso
    (fun (h, s, t, a) => ⟨h, s, t, a⟩)
    (fun l => (l.pwospf_header, l.seq, l.ttl, l.advert))
    (fun _ => rfl) (fun _ => rfl)

structure PwospfLsa where
  subnet : BitVec 32
  netmask : BitVec 32
  router_id : BitVec 32
  deriving DecidableEq, Repr

def PwospfLsa.layout : Layout PwospfLsa :=
  (u32le.seq (u32le.seq u32le)).iso
    (fun (s, m, r) => ⟨s, m, r⟩) (fun l => (l.subnet, l.netmask, l.router_id))
    (fun _ => rfl) (fun _ => rfl)

/-- `ALLSPFRouters`: 224.0.0.5. -/
def allSPFRouters : AddrIp := 0x050000e0

def ospfVersion : Byte := 2
def ospfTypeHello : Byte := 1
def ospfTypeLink : Byte := 4

/-! ## Sizes -/

@[simp] theorem AddrMac.layout_size : AddrMac.layout.size = 6 := rfl
@[simp] theorem PacketEthernet.layout_size : PacketEthernet.layout.size = 14 := rfl
@[simp] theorem PacketArp.layout_size : PacketArp.layout.size = 28 := rfl
@[simp] theorem PacketIp4.layout_size : PacketIp4.layout.size = 20 := rfl
@[simp] theorem PacketIcmp.layout_size : PacketIcmp.layout.size = 8 := rfl
@[simp] theorem PacketUdp.layout_size : PacketUdp.layout.size = 8 := rfl
@[simp] theorem PwospfPacket.layout_size : PwospfPacket.layout.size = 24 := rfl
@[simp] theorem PwospfPacketHello.layout_size : PwospfPacketHello.layout.size = 32 := rfl
@[simp] theorem PwospfPacketLink.layout_size : PwospfPacketLink.layout.size = 32 := rfl
@[simp] theorem PwospfLsa.layout_size : PwospfLsa.layout.size = 12 := rfl

end BirRouter
