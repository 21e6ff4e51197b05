import BirRouter.Ip

/-!
# The forwarding path

What `ip_onreceive` does with a packet in transit: one that passes the header check and is for
neither the router nor all PWOSPF routers.

* `forwarding_contract` — with a route, a known next hop and a TTL of at least 2, exactly one frame
  leaves: the received one with new Ethernet addresses, TTL and header checksum.  With a smaller
  TTL no copy of the packet is sent or queued.
* `queued_forwarding_agrees` — a packet that waited for its next hop's MAC leaves as the same bytes
  on the same interface as if the MAC had been known at once.
-/

set_option autoImplicit false

namespace BirRouter

open ByteLayout

/-- The packets the router has to forward. -/
structure Router.Transit (r : Router) (pi : PacketInfo) : Prop where
  header : ipHeaderCheck pi.ipv4 = true
  foreign : r.Foreign pi.ipv4.dst_ip
  not_spf : ¬ (pi.ipv4.dst_ip = allSPFRouters ∧ pi.ipv4.protocol = ipTypeOspf)

theorem ownInterface_none {r : Router} {dst : AddrIp} (h : r.Foreign dst) :
    ownInterface r dst = none := by
  unfold ownInterface
  rw [List.find?_eq_none]
  intro i hi
  simp only [decide_eq_true_eq]
  exact fun he => h i (List.mem_range.1 hi) he.symm

theorem Router.Transit.forward {r : Router} {pi : PacketInfo} (h : r.Transit pi) (env : Env) :
    ipOnreceive env r pi = BirRouter.forward env (ipOnreceive env) r pi := by
  rw [ipOnreceive_unfold]
  unfold ipOnreceiveStep
  rw [if_neg (not_not.2 h.header), if_neg h.not_spf, ownInterface_none h.foreign]

/-- With a route and a TTL of at least 2 the packet goes on. -/
theorem Router.Transit.forwardVia {r : Router} {pi : PacketInfo} (h : r.Transit pi) (env : Env)
    (httl : 2 ≤ pi.ipv4.ttl) {n : Nat} {entry : RtableEntry}
    (hl : ipLongestprefixmatch r.ip_table pi.ipv4.dst_ip = some (n, entry)) :
    ipOnreceive env r pi = some (BirRouter.forwardVia env r pi entry) := by
  have hgt : ¬ pi.ipv4.ttl ≤ 1 := by
    rw [BitVec.le_def] at httl ⊢
    exact Nat.not_le.2 httl
  rw [h.forward]
  unfold BirRouter.forward
  rw [if_neg hgt, hl]

/-- The frame that leaves for a next hop with address `mac`. -/
def forwardedFrame (r : Router) (pi : PacketInfo) (entry : RtableEntry) (mac : AddrMac) :
    PacketInfo :=
  .ofParts ⟨mac, (r.interface entry.interface).mac, htons ethIpType⟩ pi.ipv4.hop pi.payload
    pi.interface

theorem forwardVia_known {env : Env} {r : Router} {pi : PacketInfo} {entry : RtableEntry}
    {arp : ArpCacheEntry}
    (h : arpGetcachebyip r.arp_cache (entry.nextHop pi.ipv4.dst_ip) = some arp) :
    forwardVia env r pi entry =
      r.output entry.interface (forwardedFrame r pi entry arp.mac).packet := by
  unfold forwardVia Router.ethernetPacketSend forwardedFrame
  simp only [h, PacketInfo.setIpv4_eq, PacketInfo.ofParts_setEth]

/-- Without a MAC for the next hop the packet waits as it is. -/
theorem forwardVia_unknown {env : Env} {r : Router} {pi : PacketInfo} {entry : RtableEntry}
    (h : arpGetcachebyip r.arp_cache (entry.nextHop pi.ipv4.dst_ip) = none) :
    forwardVia env r pi entry =
      r.arpQueueIppacket env pi entry.interface (entry.nextHop pi.ipv4.dst_ip) := by
  unfold forwardVia
  simp only [h]

/-! ## The packet itself -/

/-- The frame carries the packet on: any Ethernet header, the packet's IPv4 header up to the
checksum with its TTL kept or decremented, and its payload. -/
def CopyOf (pi : PacketInfo) (packet : List Byte) : Prop :=
  ∃ e ttl checksum, (ttl = pi.ipv4.ttl ∨ ttl = pi.ipv4.ttl - 1) ∧
    packet = PacketEthernet.layout.enc e ++ (PacketIp4.layout.enc
      { pi.ipv4 with ttl := ttl, header_checksum := checksum } ++ pi.payload)

/-- The IPv4 header of a copy. -/
theorem CopyOf.header {pi : PacketInfo} {packet : List Byte} (h : CopyOf pi packet) :
    ∃ ttl checksum, (ttl = pi.ipv4.ttl ∨ ttl = pi.ipv4.ttl - 1) ∧
      PacketIp4.layout.load 14 packet =
        { pi.ipv4 with ttl := ttl, header_checksum := checksum } := by
  obtain ⟨e, ttl, checksum, ht, rfl⟩ := h
  exact ⟨ttl, checksum, ht, PacketIp4.layout.load_append _ _ (PacketEthernet.layout.enc_length e)⟩

/-- A frame with a fresh TTL is no copy of an expiring packet. -/
theorem not_copyOf_of_ttl {pi pi' : PacketInfo} (h : pi.ipv4.ttl ≤ 1)
    (h' : pi'.ipv4.ttl = 64 ∨ pi'.ipv4.ttl = 65) : ¬ CopyOf pi pi'.packet := by
  intro hc
  obtain ⟨ttl, checksum, ht, hh⟩ := hc.header
  have httl : pi'.ipv4.ttl = ttl := congrArg PacketIp4.ttl hh
  rw [httl] at h'
  bv_omega

/-- An ARP frame is no copy of an IPv4 packet. -/
theorem not_copyOf_arpFrame {pi : PacketInfo} (h : ipHeaderCheck pi.ipv4 = true)
    (opcode : BitVec 16) (tip sip : AddrIp) (tmac smac : AddrMac) :
    ¬ CopyOf pi (Router.arpFrame opcode tip tmac sip smac) := by
  intro hc
  obtain ⟨ttl, checksum, _, hh⟩ := hc.header
  have hv : (PacketIp4.layout.load 14 (Router.arpFrame opcode tip tmac sip smac)).version = 0 := by
    show (nibbles.dec [(htons arpHtypeEth).extractLsb' 0 8]).2 = 0
    decide
  have hv' : pi.ipv4.version = 0 := by rw [hh] at hv; exact hv
  unfold ipHeaderCheck at h
  rw [hv'] at h
  simp at h

/-- What a step added to the frames sent and the packets waiting. -/
def Router.Adds (r r' : Router) (frames : List Sent) (waiting : List IparpBufferEntry) : Prop :=
  r'.sent = r.sent ++ frames ∧ r'.iparp_buffer = r.iparp_buffer ++ waiting

theorem arpQueueIppacket_adds (env : Env) (r : Router) (pi : PacketInfo) (intf : Nat)
    (dest : AddrIp) :
    r.Adds (r.arpQueueIppacket env pi intf dest)
      [⟨intf, Router.arpFrame arpOpcodeRequest dest AddrMac.broadcast (r.interface intf).ip
        (r.interface intf).mac⟩]
      [⟨pi, env.now, 1, intf, dest⟩] :=
  ⟨rfl, rfl⟩

/-- Nothing added is a copy of the packet. -/
def NoCopies (pi : PacketInfo) (frames : List Sent) (waiting : List IparpBufferEntry) : Prop :=
  (∀ f ∈ frames, ¬ CopyOf pi f.packet) ∧ ∀ q ∈ waiting, ¬ CopyOf pi q.packet_info.packet

/-- An ICMP error about an expiring packet carries no copy of it. -/
theorem receiveError_adds {env : Env} {r : Router} {pi pi' : PacketInfo}
    (hc : ipHeaderCheck pi.ipv4 = true) (httl : pi.ipv4.ttl ≤ 1) (he : ErrorPacket r pi') :
    ∃ frames waiting, r.Adds (receiveError env r pi') frames waiting ∧
      NoCopies pi frames waiting := by
  obtain ⟨n, entry, e, src, dest, type, rest, hl, _, hpi'⟩ := he.parts
  have h65 : pi'.ipv4.ttl = 65 := by rw [hpi', PacketInfo.ofParts_ipv4]; rfl
  have hdst : pi'.ipv4.dst_ip = dest := by rw [hpi', PacketInfo.ofParts_ipv4]; rfl
  unfold receiveError
  split
  · exact ⟨[], [], ⟨by simp, by simp⟩, by simp [NoCopies]⟩
  · rw [hdst, hl]
    show ∃ frames waiting, r.Adds (forwardVia env r pi' entry) frames waiting ∧ _
    cases ha : arpGetcachebyip r.arp_cache (entry.nextHop pi'.ipv4.dst_ip) with
    | some arp =>
      have h64 : (forwardedFrame r pi' entry arp.mac).ipv4.ttl = 64 := by
        unfold forwardedFrame
        rw [PacketInfo.ofParts_ipv4]
        show pi'.ipv4.ttl - 1 = 64
        rw [h65]
        rfl
      rw [forwardVia_known ha]
      refine ⟨[_], [], ⟨rfl, (List.append_nil _).symm⟩, ?_, by simp⟩
      intro f hf
      rw [List.mem_singleton.1 hf]
      exact not_copyOf_of_ttl httl (.inl h64)
    | none =>
      rw [forwardVia_unknown ha]
      refine ⟨_, _, arpQueueIppacket_adds .., ?_, ?_⟩
      · intro f hf
        rw [List.mem_singleton.1 hf]
        exact not_copyOf_arpFrame hc _ _ _ _ _
      · intro q hq
        rw [List.mem_singleton.1 hq]
        exact not_copyOf_of_ttl httl (.inr h65)

/-- An expiring packet only causes an ICMP error. -/
theorem Router.Transit.expire {r : Router} {pi : PacketInfo} (h : r.Transit pi) (env : Env)
    (httl : pi.ipv4.ttl ≤ 1) :
    ∃ r' frames waiting, ipOnreceive env r pi = some r' ∧ r.Adds r' frames waiting ∧
      NoCopies pi frames waiting := by
  rw [h.forward]
  unfold BirRouter.forward icmpTypeTimeExceeded icmpAllocateAndSend
  rw [if_pos httl]
  split
  · rename_i pi' hpi'
    have he : ErrorPacket r pi' :=
      ⟨_, _, _, _, _, .inr rfl, icmpErrorData_length env pi, hpi'⟩
    obtain ⟨frames, waiting, ha, hn⟩ := receiveError_adds h.header httl he
    exact ⟨_, frames, waiting, ipOnreceive_error he, ha, hn⟩
  · exact ⟨r, [], [], rfl, ⟨by simp, by simp⟩, by simp [NoCopies]⟩

/-! ## The contract -/

/-- The Ethernet header, the TTL and the header checksum are all that `frame` changes in `pi`. -/
structure ForwardedAs (r : Router) (pi : PacketInfo) (entry : RtableEntry) (mac : AddrMac)
    (frame : PacketInfo) : Prop where
  length : frame.packet.length = pi.packet.length
  eth : frame.eth = ⟨mac, (r.interface entry.interface).mac, htons ethIpType⟩
  ipv4 : frame.ipv4 = { pi.ipv4 with
    ttl := pi.ipv4.ttl - 1, header_checksum := frame.ipv4.header_checksum }
  payload : frame.payload = pi.payload
  header : ipHeaderCheck frame.ipv4 = true

theorem forwardedFrame_spec (r : Router) {pi : PacketInfo} (entry : RtableEntry) (mac : AddrMac)
    (h : ipHeaderCheck pi.ipv4 = true) :
    ForwardedAs r pi entry mac (forwardedFrame r pi entry mac) := by
  unfold forwardedFrame
  constructor
  · rw [PacketInfo.packet_length, PacketInfo.packet_length, PacketInfo.ofParts_payload]
  · rw [PacketInfo.ofParts_eth]
  · rw [PacketInfo.ofParts_ipv4]
    rfl
  · rw [PacketInfo.ofParts_payload]
  · rw [PacketInfo.ofParts_ipv4]
    exact PacketIp4.ipHeaderCheck_hop h

/-- **The forwarding contract.** -/
theorem forwarding_contract (env : Env) {r : Router} {pi : PacketInfo} (h : r.Transit pi) :
    (∀ n entry arp, 2 ≤ pi.ipv4.ttl →
      ipLongestprefixmatch r.ip_table pi.ipv4.dst_ip = some (n, entry) →
      arpGetcachebyip r.arp_cache (entry.nextHop pi.ipv4.dst_ip) = some arp →
      ∃ frame, ForwardedAs r pi entry arp.mac frame ∧
        ipOnreceive env r pi = some (r.output entry.interface frame.packet)) ∧
    (pi.ipv4.ttl ≤ 1 →
      ∃ r' frames waiting, ipOnreceive env r pi = some r' ∧ r.Adds r' frames waiting ∧
        NoCopies pi frames waiting) := by
  refine ⟨fun n entry arp httl hl ha => ?_, h.expire env⟩
  refine ⟨forwardedFrame r pi entry arp.mac, forwardedFrame_spec r entry arp.mac h.header, ?_⟩
  rw [h.forwardVia env httl hl, forwardVia_known ha]

/-- A packet from 192.168.1.7 to 10.2.0.1. -/
def samplePacket (ttl : Byte) : PacketInfo :=
  .ofParts ⟨smallEth1.mac, ⟨2, 0, 0, 0, 0, 9⟩, htons ethIpType⟩
    (PacketIp4.updateChecksum ⟨5, 4, 0, htons 23, 7, 0, ttl, 99, 0, ipConvert 192 168 1 7,
      ipConvert 10 2 0 1⟩) [1, 2, 3] 1

theorem samplePacket_ipv4 (ttl : Byte) :
    (samplePacket ttl).ipv4 = PacketIp4.updateChecksum
      ⟨5, 4, 0, htons 23, 7, 0, ttl, 99, 0, ipConvert 192 168 1 7, ipConvert 10 2 0 1⟩ :=
  PacketInfo.ofParts_ipv4 ..

theorem samplePacket_transit (cache : List ArpCacheEntry) (ttl : Byte) :
    { smallRouter with arp_cache := cache }.Transit (samplePacket ttl) := by
  refine ⟨?_, ?_, ?_⟩
  · have hlength : htons 23 ≠ 0 := by decide
    rw [samplePacket_ipv4]
    exact PacketIp4.ipHeaderCheck_fresh rfl rfl hlength unfragmented
  · rw [samplePacket_ipv4]
    show smallRouter.Foreign (ipConvert 10 2 0 1)
    exact smallRouter_foreign (by decide) (by decide)
  · rw [samplePacket_ipv4]
    show ¬ (ipConvert 10 2 0 1 = allSPFRouters ∧ (99 : Byte) = ipTypeOspf)
    decide

/-- The route it takes, and the MAC of its next hop. -/
def sampleRoute : RtableEntry := ⟨0, ipConvert 10 0 0 0, ipConvert 255 0 0 0, 0, 0, false, 0⟩

def sampleArp : ArpCacheEntry := ⟨ipConvert 10 2 0 1, ⟨2, 0, 0, 0, 1, 7⟩, 0⟩

/-- With TTL 64 the sample packet leaves by `eth0`, with TTL 1 it does not leave. -/
theorem forwarding_contract_sample :
    (∃ frame, ForwardedAs { smallRouter with arp_cache := [sampleArp] } (samplePacket 64)
        sampleRoute sampleArp.mac frame ∧
      ipOnreceive smallEnv { smallRouter with arp_cache := [sampleArp] } (samplePacket 64) =
        some ({ smallRouter with arp_cache := [sampleArp] }.output 0 frame.packet)) ∧
    ∃ r' frames waiting, ipOnreceive smallEnv { smallRouter with arp_cache := [sampleArp] }
        (samplePacket 1) = some r' ∧
      Router.Adds { smallRouter with arp_cache := [sampleArp] } r' frames waiting ∧
      NoCopies (samplePacket 1) frames waiting :=
  ⟨(forwarding_contract smallEnv (samplePacket_transit [sampleArp] 64)).1 0 sampleRoute sampleArp
      (by rw [samplePacket_ipv4]; decide) (by rw [samplePacket_ipv4]; decide)
      (by rw [samplePacket_ipv4]; decide),
    (forwarding_contract smallEnv (samplePacket_transit [sampleArp] 1)).2
      (by rw [samplePacket_ipv4]; decide)⟩

/-! ## Packets that waited -/

/-- The interfaces have the same addresses. -/
structure Router.SameAddresses (r r₁ : Router) : Prop where
  num_interfaces : r₁.num_interfaces = r.num_interfaces
  ip : ∀ i, (r₁.interface i).ip = (r.interface i).ip
  mac : ∀ i, (r₁.interface i).mac = (r.interface i).mac

theorem PacketInfo.renewed_ipv4 (pi : PacketInfo) :
    (pi.setIpv4 pi.ipv4.updateChecksum).ipv4 = pi.ipv4.updateChecksum := by
  rw [PacketInfo.setIpv4_eq, PacketInfo.ofParts_ipv4]

/-- A packet in transit stays in transit when it is received again with a renewed checksum. -/
theorem Router.Transit.again {r r₁ : Router} {pi : PacketInfo} (h : r.Transit pi)
    (hs : r.SameAddresses r₁) : r₁.Transit (pi.setIpv4 pi.ipv4.updateChecksum) := by
  have hip := pi.renewed_ipv4
  refine ⟨?_, ?_, ?_⟩
  · have hc := h.header
    rw [hip, PacketIp4.ipHeaderCheck_updateChecksum]
    unfold ipHeaderCheck at hc
    simp only [Bool.and_eq_true] at hc ⊢
    exact ⟨hc.1.1, hc.2⟩
  · intro i hi
    rw [hip, hs.ip i]
    exact h.foreign i (hs.num_interfaces ▸ hi)
  · rw [hip]
    exact h.not_spf

/-- The frame that leaves depends on the packet up to its checksum. -/
theorem forwardedFrame_again {r r₁ : Router} (hs : r.SameAddresses r₁) (pi : PacketInfo)
    (entry : RtableEntry) (mac : AddrMac) :
    (forwardedFrame r₁ (pi.setIpv4 pi.ipv4.updateChecksum) entry mac).packet =
      (forwardedFrame r pi entry mac).packet := by
  unfold forwardedFrame
  rw [PacketInfo.setIpv4_eq, PacketInfo.ofParts_ipv4, PacketInfo.ofParts_payload, hs.mac,
    PacketIp4.hop_updateChecksum, PacketInfo.ofParts_packet, PacketInfo.ofParts_packet]

/-- **Queued and direct forwarding agree.**  A packet queued because its next hop's MAC is unknown
waits unchanged.  Let `process_arpipqueue` find it at position `i` of the queue after `i`
iterations, in a state `r₁` with the same routing table and a MAC `m` for the next hop: the next
iteration takes it out and sends what `ip_onreceive` would have sent with `m` in its cache. -/
theorem queued_forwarding_agrees (env : Env) {r : Router} {pi : PacketInfo} (h : r.Transit pi)
    (httl : 2 ≤ pi.ipv4.ttl) {n : Nat} {entry : RtableEntry}
    (hl : ipLongestprefixmatch r.ip_table pi.ipv4.dst_ip = some (n, entry))
    (hnone : arpGetcachebyip r.arp_cache (entry.nextHop pi.ipv4.dst_ip) = none) :
    (∃ r' frames q, ipOnreceive env r pi = some r' ∧ r.Adds r' frames [q] ∧ q.packet_info = pi) ∧
    ∀ (env₁ : Env) (r₀ r₁ : Router) (i : Nat) (q : IparpBufferEntry) (arp arp₁ : ArpCacheEntry)
      (cache : List ArpCacheEntry),
      processArpipqueue env₁ (entry.nextHop pi.ipv4.dst_ip) i r₀ = some r₁ →
      r₁.iparp_buffer[i]? = some q → q.packet_info = pi →
      r₁.ip_table = r.ip_table → r.SameAddresses r₁ →
      arpGetcachebyip r₁.arp_cache (entry.nextHop pi.ipv4.dst_ip) = some arp₁ →
      arpGetcachebyip cache (entry.nextHop pi.ipv4.dst_ip) = some arp → arp.mac = arp₁.mac →
      ∃ packet,
        ipOnreceive env { r with arp_cache := cache } pi =
          some ({ r with arp_cache := cache }.output entry.interface packet) ∧
        processArpipqueue env₁ (entry.nextHop pi.ipv4.dst_ip) (i + 1) r₀ =
          some ({ r₁ with iparp_buffer := r₁.iparp_buffer.eraseIdx i }.output entry.interface
            packet) := by
  refine ⟨?_, ?_⟩
  · rw [h.forwardVia env httl hl, forwardVia_unknown hnone]
    exact ⟨_, _, _, rfl, arpQueueIppacket_adds .., rfl⟩
  · intro env₁ r₀ r₁ i q arp arp₁ cache hrun hq hpi htable hs ha₁ ha hmac
    refine ⟨(forwardedFrame r pi entry arp.mac).packet, ?_, ?_⟩
    · have hdirect : { r with arp_cache := cache }.Transit pi := ⟨h.header, h.foreign, h.not_spf⟩
      rw [hdirect.forwardVia env httl hl, forwardVia_known ha]
      rfl
    · -- the released packet runs through `ip_onreceive` once more
      rw [processArpipqueue, hrun, Option.bind_some, ← forwardedFrame_again hs, hmac]
      have hl₁ : ipLongestprefixmatch r₁.ip_table pi.ipv4.dst_ip = some (n, entry) := by
        rw [htable]
        exact hl
      unfold processArpipqueueAt
      simp only [hq, hpi, hl₁, if_true]
      have hagain : { r₁ with iparp_buffer := r₁.iparp_buffer.eraseIdx i }.Transit
          (pi.setIpv4 pi.ipv4.updateChecksum) := h.again ⟨hs.num_interfaces, hs.ip, hs.mac⟩
      have hip := pi.renewed_ipv4
      rw [hagain.forwardVia env₁ (by rw [hip]; exact httl) (by rw [hip]; exact hl₁),
        forwardVia_known (by rw [hip]; exact ha₁)]
      rfl

/-- The sample packet waits at the head of the queue when the reply to the ARP request arrives. -/
theorem queued_forwarding_agrees_sample :
    ∃ packet,
      ipOnreceive smallEnv { smallRouter with arp_cache := [sampleArp] } (samplePacket 64) =
        some ({ smallRouter with arp_cache := [sampleArp] }.output 0 packet) ∧
      processArpipqueue smallEnv (sampleRoute.nextHop (samplePacket 64).ipv4.dst_ip) 1
          { smallRouter with
            arp_cache := [sampleArp]
            iparp_buffer := [⟨samplePacket 64, 0, 1, 0, sampleArp.ip⟩] } =
        some ({ smallRouter with arp_cache := [sampleArp], iparp_buffer := [] }.output 0 packet) :=
  (queued_forwarding_agrees smallEnv (samplePacket_transit [] 64)
      (by rw [samplePacket_ipv4]; decide)
      (show _ = some (0, sampleRoute) by rw [samplePacket_ipv4]; decide)
      (by rw [samplePacket_ipv4]; decide)).2
    smallEnv _ _ 0 _ sampleArp sampleArp [sampleArp] rfl rfl rfl rfl
    ⟨rfl, fun _ => rfl, fun _ => rfl⟩ (by rw [samplePacket_ipv4]; decide)
    (by rw [samplePacket_ipv4]; decide) rfl

end BirRouter
