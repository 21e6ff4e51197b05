import BirRouter.Forwarding
import BirRouter.IpVerdict
import BirRouter.Lib.CArray

/-!
# The TCP stack (`sr_lwtcp_glue.c`, `sr_integration.c`)

Between `ip_onreceive` and the TCP stack:

* `srTransportInput` — a packet for the router goes to the stack, with as many bytes as its length
  field says;
* `srLwipOutput` — a segment of the stack, a chain of buffers, gets an IP header and goes through
  `ip_onreceive` as if it had been received.

`accepted_length_iff` says for which length fields an accepted header describes the frame it came in;
`tcp_output_encapsulated` that a segment reaches the stack or the wire as it is.
-/

set_option autoImplicit false

namespace BirRouter

open ByteLayout CArray

/-! ## Input -/

/-- `sr_transport_input`: the segment that `tcp_msg_input` gets.  It is copied from the IP header on,
`none` if that leaves the frame. -/
def srTransportInput (packet : List Byte) : Option (List Byte) :=
  let ip_len := (ntohs (PacketIp4.layout.load 0 packet).total_length).toNat
  if ip_len ≤ packet.length then some (packet.take ip_len) else none

/-- The length field says that the frame holds the header and the payload. -/
def LengthInside (n : Nat) (total_length : BitVec 16) : Prop :=
  20 ≤ (ntohs total_length).toNat ∧ (ntohs total_length).toNat ≤ n - 14

theorem ipv4_of_drop (pi : PacketInfo) : PacketIp4.layout.load 0 (pi.packet.drop 14) = pi.ipv4 := by
  rw [Layout.load, List.drop_zero]
  rfl

theorem srTransportInput_isSome (pi : PacketInfo) :
    (srTransportInput (pi.packet.drop 14)).isSome = true ↔
      (ntohs pi.ipv4.total_length).toNat ≤ pi.packet.length - 14 := by
  rw [srTransportInput, ipv4_of_drop, List.length_drop]
  split
  · exact iff_of_true rfl ‹_›
  · exact iff_of_false Bool.false_ne_true ‹_›

/-- A frame of `n` bytes with a header that is accepted with any length but 0. -/
def lengthFrame (n : Nat) (total_length : BitVec 16) : PacketInfo :=
  .ofParts ⟨smallEth1.mac, ⟨2, 0, 0, 0, 0, 9⟩, htons ethIpType⟩
    (PacketIp4.updateChecksum ⟨5, 4, 0, total_length, 7, 0, 64, ipTypeTcp, 0, ipConvert 192 168 1 7,
      ipConvert 192 168 1 1⟩)
    (List.replicate (n - 34) 0) 1

theorem lengthFrame_length {n : Nat} (h : 34 ≤ n) (total_length : BitVec 16) :
    (lengthFrame n total_length).packet.length = n := by
  rw [lengthFrame, PacketInfo.ofParts_packet, List.length_append, List.length_append,
    Layout.enc_length, Layout.enc_length, List.length_replicate]
  show 14 + (20 + (n - 34)) = n
  omega

theorem lengthFrame_accepted (n : Nat) {total_length : BitVec 16} (h : total_length ≠ 0) :
    ipHeaderCheck (lengthFrame n total_length).ipv4 = true := by
  rw [lengthFrame, PacketInfo.ofParts_ipv4]
  exact PacketIp4.ipHeaderCheck_fresh rfl rfl h unfragmented

/-- **Accepted headers have a consistent length** exactly for the length fields that describe a part of
the frame.  Besides those only 0 is rejected: the field is compared with the size of one byte. -/
theorem accepted_length_iff (n : Nat) (hn : 34 ≤ n) (total_length : BitVec 16) :
    (∀ pi : PacketInfo, pi.packet.length = n → pi.ipv4.total_length = total_length →
      ipHeaderCheck pi.ipv4 = true →
      LengthInside n total_length ∧ (srTransportInput (pi.packet.drop 14)).isSome = true) ↔
    total_length = 0 ∨ LengthInside n total_length := by
  constructor
  · intro h
    by_cases h0 : total_length = 0
    · exact .inl h0
    · have hfield : (lengthFrame n total_length).ipv4.total_length = total_length := by
        rw [lengthFrame, PacketInfo.ofParts_ipv4]
        rfl
      exact .inr (h (lengthFrame n total_length) (lengthFrame_length hn total_length) hfield
        (lengthFrame_accepted n h0)).1
  · rintro h pi rfl rfl hcheck
    rcases h with h0 | hinside
    · unfold ipHeaderCheck at hcheck
      rw [h0] at hcheck
      simp at hcheck
    · exact ⟨hinside, (srTransportInput_isSome pi).2 hinside.2⟩

/-- A frame of 34 bytes with a length of 65535 is accepted, and reading it leaves the frame; so is one
with a length of 1. -/
theorem accepted_length_outside :
    (ipHeaderCheck (lengthFrame 34 65535).ipv4 = true ∧ (lengthFrame 34 65535).packet.length = 34 ∧
      ¬ LengthInside 34 (lengthFrame 34 65535).ipv4.total_length ∧
      srTransportInput ((lengthFrame 34 65535).packet.drop 14) = none) ∧
    (ipHeaderCheck (lengthFrame 34 (htons 1)).ipv4 = true ∧
      ¬ LengthInside 34 (lengthFrame 34 (htons 1)).ipv4.total_length) := by
  unfold LengthInside
  decide +kernel

theorem accepted_length_whole : LengthInside 34 (htons 20) ∧
    ∀ pi : PacketInfo, pi.packet.length = 34 → pi.ipv4.total_length = htons 20 →
      ipHeaderCheck pi.ipv4 = true →
      LengthInside 34 (htons 20) ∧ (srTransportInput (pi.packet.drop 14)).isSome = true := by
  have hinside : LengthInside 34 (htons 20) := by
    unfold LengthInside
    decide
  exact ⟨hinside, (accepted_length_iff 34 (by decide) (htons 20)).2 (.inr hinside)⟩

/-- A datagram with the right length is copied whole. -/
theorem srTransportInput_whole {h : PacketIp4} {payload : List Byte}
    (hlength : (ntohs h.total_length).toNat = 20 + payload.length) :
    srTransportInput (PacketIp4.layout.enc h ++ payload) =
      some (PacketIp4.layout.enc h ++ payload) := by
  have hload : PacketIp4.layout.load 0 (PacketIp4.layout.enc h ++ payload) = h := by
    rw [Layout.load, List.drop_zero, PacketIp4.layout.dec_append]
  have htotal : (PacketIp4.layout.enc h ++ payload).length = 20 + payload.length := by
    rw [List.length_append, PacketIp4.layout.enc_length, PacketIp4.layout_size]
  rw [srTransportInput, hload, hlength, if_pos (Nat.le_of_eq htotal.symm), ← htotal, List.take_length]

/-! ## Output -/

/-- `struct pbuf`: the payload of a buffer and of those that `next` leads to. -/
structure Pbuf where
  tot_len : Nat
  payload : List Byte
  next : List (List Byte)

/-- The bytes of a segment. -/
def Pbuf.bytes (p : Pbuf) : List Byte := p.payload ++ p.next.flatten

/-- What nobody writes: the bytes that `malloc` returns, and of the packet on the stack the Ethernet
header and the identification; `interface` is what the null pointer stands for. -/
structure Unset where
  heap : Nat → Byte
  eth : PacketEthernet
  id : BitVec 16
  interface : Nat

/-- The header that `sr_integ_ip_output` writes. -/
def integIpHeader (id : BitVec 16) (len : Nat) (proto : Byte) (src dest : AddrIp) : PacketIp4 :=
  PacketIp4.updateChecksum
    { ihl := 5
      version := 4
      dscp_ecn := 0x10
      total_length := htons (BitVec.ofNat 16 (len + 20))
      id := id
      flags_fragmentoffset := htons 0x4000
      ttl := 64
      protocol := proto
      header_checksum := 0
      src_ip := src
      dst_ip := dest }

/-- `sr_integ_ip_output`. -/
def srIntegIpOutput (env : Env) (unset : Unset) (r : Router) (payload : List Byte) (proto : Byte)
    (src dest : AddrIp) : Option Router :=
  ipOnreceive env r (.ofParts unset.eth (integIpHeader unset.id payload.length proto src dest) payload
    unset.interface)

/-- The buffer that `sr_lwip_output` fills, `none` if a copy leaves it. -/
def srLwipPayload (unset : Unset) (p : Pbuf) : Option (List Byte) :=
  (memcpy 0 p.payload ((List.range p.tot_len).map unset.heap)).bind
    (memcpys (0 + p.payload.length) p.next)

/-- `sr_lwip_output`. -/
def srLwipOutput (env : Env) (unset : Unset) (r : Router) (p : Pbuf) (src dst : AddrIp)
    (proto : Byte) : Option Router :=
  (srLwipPayload unset p).bind fun payload => srIntegIpOutput env unset r payload proto src dst

/-- The chain is put together in order. -/
theorem srLwipPayload_eq (unset : Unset) {p : Pbuf} (h : p.tot_len = p.bytes.length) :
    srLwipPayload unset p = some p.bytes := by
  have hall := memcpys_append (p.payload :: p.next) [] ((List.range p.tot_len).map unset.heap)
    (by rw [List.length_map, List.length_range, h, Pbuf.bytes, List.flatten_cons])
  exact hall

/-- What a header says of the segment behind it. -/
structure PacketIp4.Carries (h : PacketIp4) (payload : List Byte) (src dst : AddrIp) (proto ttl : Byte) :
    Prop where
  src_ip : h.src_ip = src
  dst_ip : h.dst_ip = dst
  protocol : h.protocol = proto
  total_length : (ntohs h.total_length).toNat = 20 + payload.length
  ttl : h.ttl = ttl
  valid : ipHeaderCheck h = true

theorem integIpHeader_carries (id : BitVec 16) {payload : List Byte} (h : payload.length ≤ 65515)
    (proto : Byte) (src dst : AddrIp) :
    (integIpHeader id payload.length proto src dst).Carries payload src dst proto 64 := by
  have hlength : (ntohs (htons (BitVec.ofNat 16 (payload.length + 20)))).toNat =
      20 + payload.length := by
    rw [ntohs_htons, BitVec.toNat_ofNat]
    omega
  have hne : htons (BitVec.ofNat 16 (payload.length + 20)) ≠ 0 :=
    htons_ofNat_ne_zero (by omega) (by omega)
  have hflags : ntohs (htons 0x4000) &&& 0x3fff = 0 := by decide
  exact ⟨rfl, rfl, rfl, hlength, rfl, PacketIp4.ipHeaderCheck_fresh rfl rfl hne hflags⟩

theorem integIpHeader_hop_carries (id : BitVec 16) {payload : List Byte} (h : payload.length ≤ 65515)
    (proto : Byte) (src dst : AddrIp) :
    (integIpHeader id payload.length proto src dst).hop.Carries payload src dst proto 63 := by
  have hc := integIpHeader_carries id h proto src dst
  have httl : (64 : Byte) - 1 = 63 := by decide
  exact ⟨hc.src_ip, hc.dst_ip, hc.protocol, hc.total_length, httl,
    PacketIp4.ipHeaderCheck_hop hc.valid⟩

/-- A TCP packet for the router goes to the stack. -/
theorem ipVerdict_transport (env : Env) {r : Router} {pi : PacketInfo}
    (hheader : ipHeaderCheck pi.ipv4 = true) (hown : ¬ r.Foreign pi.ipv4.dst_ip)
    (httl : pi.ipv4.ttl ≠ 0) (htcp : pi.ipv4.protocol = ipTypeTcp) :
    ipVerdict env r pi = .transport := by
  have hicmp : pi.ipv4.protocol ≠ ipTypeIcmp := by rw [htcp]; decide
  have hospf : pi.ipv4.protocol ≠ ipTypeOspf := by rw [htcp]; decide
  obtain ⟨i, hi⟩ := Option.isSome_iff_exists.1 ((ownInterface_isSome_iff r _).2 hown)
  rw [ipVerdict, if_neg (not_not.2 hheader), if_neg fun h => hospf h.2, hi]
  simp only [deliverVerdict]
  rw [if_neg httl, if_neg hicmp, if_pos htcp]

section Output

variable (env : Env) (unset : Unset) (r : Router) {payload : List Byte} {proto : Byte}
  (src : AddrIp) {dst : AddrIp}

/-- To an own address, the datagram comes back to the stack. -/
theorem srIntegIpOutput_own (h : payload.length ≤ 65515) (hown : ¬ r.Foreign dst)
    (htcp : proto = ipTypeTcp) :
    srIntegIpOutput env unset r payload proto src dst = some { r with transport := r.transport ++
      [PacketIp4.layout.enc (integIpHeader unset.id payload.length proto src dst) ++ payload] } := by
  have hc := integIpHeader_carries unset.id h proto src dst
  have hdrop : (PacketInfo.ofParts unset.eth (integIpHeader unset.id payload.length proto src dst)
      payload unset.interface).packet.drop 14 =
      PacketIp4.layout.enc (integIpHeader unset.id payload.length proto src dst) ++ payload := by
    rw [PacketInfo.ofParts_packet]
    exact List.drop_left' (PacketEthernet.layout.enc_length _)
  have hverdict : ipVerdict env r (PacketInfo.ofParts unset.eth
      (integIpHeader unset.id payload.length proto src dst) payload unset.interface) = .transport := by
    apply ipVerdict_transport env <;> rw [PacketInfo.ofParts_ipv4]
    · exact hc.valid
    · rw [hc.dst_ip]
      exact hown
    · rw [hc.ttl]
      decide
    · rw [hc.protocol]
      exact htcp
  rw [srIntegIpOutput, ipOnreceive_perform, hverdict, Verdict.perform, hdrop]

/-- To another address with a route and a known next hop, the datagram is sent there. -/
theorem srIntegIpOutput_foreign (h : payload.length ≤ 65515) (hforeign : r.Foreign dst)
    (hspf : ¬ (dst = allSPFRouters ∧ proto = ipTypeOspf)) {n : Nat} {entry : RtableEntry}
    (hroute : ipLongestprefixmatch r.ip_table dst = some (n, entry)) {arp : ArpCacheEntry}
    (harp : arpGetcachebyip r.arp_cache (entry.nextHop dst) = some arp) :
    srIntegIpOutput env unset r payload proto src dst = some (r.output entry.interface
      (PacketInfo.ofParts ⟨arp.mac, (r.interface entry.interface).mac, htons ethIpType⟩
        (integIpHeader unset.id payload.length proto src dst).hop payload unset.interface).packet) := by
  have hc := integIpHeader_carries unset.id h proto src dst
  let pi : PacketInfo := .ofParts unset.eth (integIpHeader unset.id payload.length proto src dst)
    payload unset.interface
  have hip : pi.ipv4 = integIpHeader unset.id payload.length proto src dst :=
    PacketInfo.ofParts_ipv4 ..
  have hdst : pi.ipv4.dst_ip = dst := by rw [hip, hc.dst_ip]
  have htransit : r.Transit pi := by
    constructor
    · rw [hip]
      exact hc.valid
    · rwa [hdst]
    · rwa [hdst, hip, hc.protocol]
  have httl : 2 ≤ pi.ipv4.ttl := by
    rw [hip, hc.ttl]
    decide
  have hroute' : ipLongestprefixmatch r.ip_table pi.ipv4.dst_ip = some (n, entry) := by rwa [hdst]
  have harp' : arpGetcachebyip r.arp_cache (entry.nextHop pi.ipv4.dst_ip) = some arp := by rwa [hdst]
  have hpayload : pi.payload = payload := PacketInfo.ofParts_payload ..
  show ipOnreceive env r pi = _
  rw [htransit.forwardVia env httl hroute', forwardVia_known harp', forwardedFrame, hip, hpayload]
  rfl

end Output

/-- **TCP output is encapsulated correctly**, whatever the memory that nobody wrote holds: to an own
address it is handed to the stack again as one datagram, to another one with a route and a known next
hop it is sent in one frame. -/
theorem tcp_output_encapsulated (env : Env) (unset : Unset) (r : Router) (p : Pbuf) (src dst : AddrIp)
    (proto : Byte) (htot : p.tot_len = p.payload.length + p.next.flatten.length)
    (hle : p.tot_len ≤ 65515) :
    (¬ r.Foreign dst → proto = ipTypeTcp → ∃ h : PacketIp4,
      srLwipOutput env unset r p src dst proto = some { r with
        transport := r.transport ++ [PacketIp4.layout.enc h ++ (p.payload ++ p.next.flatten)] } ∧
      srTransportInput (PacketIp4.layout.enc h ++ (p.payload ++ p.next.flatten)) =
        some (PacketIp4.layout.enc h ++ (p.payload ++ p.next.flatten)) ∧
      h.Carries (p.payload ++ p.next.flatten) src dst proto 64) ∧
    (r.Foreign dst → ¬ (dst = allSPFRouters ∧ proto = ipTypeOspf) → ∀ n entry arp,
      ipLongestprefixmatch r.ip_table dst = some (n, entry) →
      arpGetcachebyip r.arp_cache (entry.nextHop dst) = some arp → ∃ frame : PacketInfo,
        srLwipOutput env unset r p src dst proto = some (r.output entry.interface frame.packet) ∧
        frame.payload = p.payload ++ p.next.flatten ∧
        frame.ipv4.Carries (p.payload ++ p.next.flatten) src dst proto 63) := by
  have hbytes : p.tot_len = p.bytes.length := by rw [htot, Pbuf.bytes, List.length_append]
  have hlen : p.bytes.length ≤ 65515 := hbytes ▸ hle
  have hpayload : srLwipOutput env unset r p src dst proto =
      srIntegIpOutput env unset r p.bytes proto src dst := by
    rw [srLwipOutput, srLwipPayload_eq unset hbytes, Option.bind_some]
  constructor
  · intro hown htcp
    have hc := integIpHeader_carries unset.id hlen proto src dst
    exact ⟨integIpHeader unset.id p.bytes.length proto src dst,
      hpayload.trans (srIntegIpOutput_own env unset r src hlen hown htcp),
      srTransportInput_whole hc.total_length, hc⟩
  · intro hforeign hspf n entry arp hroute harp
    refine ⟨_, hpayload.trans
      (srIntegIpOutput_foreign env unset r src hlen hforeign hspf hroute harp), ?_, ?_⟩
    · exact PacketInfo.ofParts_payload ..
    · rw [PacketInfo.ofParts_ipv4]
      exact integIpHeader_hop_carries unset.id hlen proto src dst

/-- A segment of two buffers to the router itself, and to a host whose MAC is known. -/
theorem tcp_output_sample :
    let unset : Unset := ⟨fun _ => 0, ⟨smallEth1.mac, smallEth1.mac, 0⟩, 7, 0⟩
    let known : Router := { smallRouter with arp_cache := [sampleArp] }
    (∃ h : PacketIp4,
      srLwipOutput smallEnv unset known ⟨3, [1, 2], [[3]]⟩ (ipConvert 192 168 1 1)
        (ipConvert 192 168 1 1) ipTypeTcp =
      some { known with transport := [PacketIp4.layout.enc h ++ [1, 2, 3]] }) ∧
    ∃ frame : PacketInfo,
      srLwipOutput smallEnv unset known ⟨3, [1, 2], [[3]]⟩ (ipConvert 192 168 1 1) sampleArp.ip
        ipTypeTcp = some (known.output 0 frame.packet) ∧
      frame.payload = [1, 2, 3] ∧
      frame.ipv4.Carries [1, 2, 3] (ipConvert 192 168 1 1) sampleArp.ip ipTypeTcp 63 := by
  intro unset known
  have hown : ¬ known.Foreign (ipConvert 192 168 1 1) := by
    rw [← ownInterface_isSome_iff]
    decide +kernel
  have hforeign : known.Foreign sampleArp.ip := by
    show smallRouter.Foreign (ipConvert 10 2 0 1)
    exact smallRouter_foreign (by decide) (by decide)
  have hroute : ipLongestprefixmatch known.ip_table sampleArp.ip = some (0, sampleRoute) := by
    decide +kernel
  constructor
  · obtain ⟨h, hout, _⟩ := (tcp_output_encapsulated smallEnv unset known ⟨3, [1, 2], [[3]]⟩
      (ipConvert 192 168 1 1) (ipConvert 192 168 1 1) ipTypeTcp rfl (by decide)).1 hown rfl
    exact ⟨h, hout⟩
  · exact (tcp_output_encapsulated smallEnv unset known ⟨3, [1, 2], [[3]]⟩ (ipConvert 192 168 1 1)
      sampleArp.ip ipTypeTcp rfl (by decide)).2 hforeign (by decide) 0 sampleRoute sampleArp hroute
      (by decide)

end BirRouter
