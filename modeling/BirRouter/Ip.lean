import BirRouter.IpTable
import BirRouter.Pwospf

/-!
# Receiving and forwarding IPv4 packets (`ip.c`, `icmp_type.c`, `sr_router.c`)

`ip_onreceive` checks the header, hands packets for the router itself to ICMP, TCP, PWOSPF or UDP,
and forwards everything else: longest prefix match, ARP lookup, one frame out — or the packet
waits for an ARP reply.  ICMP errors are built by `icmp_allocate_and_send` and go through
`ip_onreceive` themselves.

* `ipOnreceiveStep` — the body, with the function its ICMP errors are handed to as a parameter;
* `ipOnreceive` — two activations of the body, which is enough (`ipOnreceive_unfold`): an ICMP
  error never causes another one;
* `ReachesLink` — the packets that get as far as `pwospf_onreceive_link`;
* `processArpipqueue` — the release of waiting packets once an address is known.
-/

set_option autoImplicit false

namespace BirRouter

open ByteLayout

/-! `ICMP_TYPE_*` and `ICMP_CODE_*`. -/

def Icmp.typeReplay : Byte := 0
def Icmp.typeDstUnreach : Byte := 3
def Icmp.typeRequest : Byte := 8
def Icmp.typeTimeExceeded : Byte := 11
def Icmp.codeHostUnreach : Byte := 1
def Icmp.codeProtUnreach : Byte := 2
def Icmp.codePortUnreach : Byte := 3

def portDns : BitVec 16 := 53

/-- A packet buffer with the `n` bytes of memory behind it. -/
def PacketInfo.memory (env : Env) (pi : PacketInfo) (n : Nat) : List Byte :=
  pi.packet ++ (List.range n).map env.beyond

/-- The frame after a handler wrote to its memory behind the IPv4 header. -/
def PacketInfo.setMemory (pi : PacketInfo) (memory : List Byte) : PacketInfo where
  packet := pi.packet.take 34 ++ (memory.drop 34).take (pi.packet.length - 34)
  interface := pi.interface
  ip_fits := by
    have := pi.ip_fits
    rw [List.length_append, List.length_take]
    omega

/-! ## Replies -/

/-- `update_ip_packet_response`: the packet goes back where it came from. -/
def updateIpPacketResponse (r : Router) (pi : PacketInfo) (dst_ip src_ip : AddrIp) (ttl : Byte) :
    Router :=
  let ip := PacketIp4.updateChecksum
    { pi.ipv4 with
      dst_ip := dst_ip
      src_ip := src_ip
      ttl := ttl
      flags_fragmentoffset := 0
      id := htons r.ip_id }
  let r := { r with ip_id := r.ip_id + 1 }
  let pi := pi.setIpv4 ip
  (r.ethernetPacketSend pi.interface pi.eth.source_mac pi.eth.dest_mac (htons ethIpType) pi).1

/-- `icmp_type_echo_replay`: the checksum always covers `sizeof(packet_icmp_t)` bytes. -/
def icmpTypeEchoReplay (env : Env) (r : Router) (pi : PacketInfo) : Router :=
  let memory := pi.memory env 64
  let icmp := { PacketIcmp.layout.load 34 memory with type := Icmp.typeReplay, header_checksum := 0 }
  let memory := PacketIcmp.layout.store 34 icmp memory
  let checksum := generatechecksum ((memory.drop 34).take 64)
  let memory := PacketIcmp.layout.store 34 { icmp with header_checksum := checksum } memory
  let pi := pi.setMemory memory
  updateIpPacketResponse r pi pi.ipv4.src_ip pi.ipv4.dst_ip 64

/-! ## ICMP errors -/

/-- The header `packetinfo_ip_allocate` fills in. -/
def allocatedHeader (src dest : AddrIp) (protocol : Byte) (total_length : Nat) : PacketIp4 :=
  PacketIp4.updateChecksum
    { ihl := 5
      version := 4
      dscp_ecn := 0
      total_length := htons (BitVec.ofNat 16 total_length)
      id := 0
      flags_fragmentoffset := 0
      ttl := 65
      protocol := protocol
      header_checksum := 0
      src_ip := src
      dst_ip := dest }

/-- `packetinfo_ip_allocate`, with the `data` the caller fills in behind the header; a source of -1
stands for the outgoing interface. -/
def packetinfoIpAllocate (r : Router) (dest src : AddrIp) (protocol : Byte) (total_length : Nat)
    (data : List Byte) : Option PacketInfo :=
  match ipLongestprefixmatch r.ip_table dest with
  | some (_, entry) =>
    let f := r.interface entry.interface
    let dest_mac :=
      match arpGetcachebyip r.arp_cache dest with
      | some arpentry => arpentry.mac
      | none => AddrMac.broadcast
    let ip := allocatedHeader (if src = 0xffffffff then f.ip else src) dest protocol total_length
    some (PacketInfo.ofParts ⟨dest_mac, f.mac, htons ethIpType⟩ ip data entry.interface)
  | none => none

/-- The ICMP message with its checksum. -/
def icmpMessage (type code : Byte) (id seq_num : BitVec 16) (data : List Byte) : List Byte :=
  let icmp : PacketIcmp := ⟨type, code, 0, htons id, htons seq_num⟩
  PacketIcmp.layout.enc
      { icmp with header_checksum := generatechecksum (PacketIcmp.layout.enc icmp ++ data) } ++ data

/-- What `icmp_allocate_and_send` hands to `ip_onreceive`. -/
def icmpAllocate (r : Router) (ip : AddrIp) (code type : Byte) (id count : BitVec 16)
    (data : List Byte) (src : AddrIp) : Option PacketInfo :=
  packetinfoIpAllocate r ip src ipTypeIcmp (20 + 8 + data.length) (icmpMessage type code id count data)

/-- The 56 bytes an ICMP error carries: the IPv4 header, 8 bytes behind it, and what follows the
28-byte buffer on the stack. -/
def icmpErrorData (env : Env) (pi : PacketInfo) : List Byte :=
  PacketIp4.layout.enc pi.ipv4 ++
    (((pi.memory env 8).drop 34).take 8 ++ (List.range 28).map env.stack)

section Receive

variable (env : Env) (recv : Router → PacketInfo → Option Router)

/-- `icmp_allocate_and_send`; without a route to `ip` nothing happens. -/
def icmpAllocateAndSend (r : Router) (ip : AddrIp) (code type : Byte) (id count : BitVec 16)
    (data : List Byte) (src : AddrIp) : Option Router :=
  match icmpAllocate r ip code type id count data src with
  | some pi => recv r pi
  | none => some r

/-- `icmp_send`. -/
def icmpSend (r : Router) (pi : PacketInfo) (src : AddrIp) (type code : Byte) : Option Router :=
  icmpAllocateAndSend recv r pi.ipv4.src_ip code type 0 0 (icmpErrorData env pi) src

/-- `icmp_type_time_exceeded`. -/
def icmpTypeTimeExceeded (r : Router) (pi : PacketInfo) (src : AddrIp) : Option Router :=
  icmpAllocateAndSend recv r pi.ipv4.src_ip 0 Icmp.typeTimeExceeded 0 0 (icmpErrorData env pi) src

/-! ## Packets for the router -/

/-- The buffer `malloc_udp_pseudo_header` fills; `none` for a UDP length below 8, for which it
copies a negative number of bytes. -/
def udpPseudoHeader (pi : PacketInfo) (udp : PacketUdp) : Option (List Byte) :=
  let datasize : Int := (ntohs udp.length).toNat - 8
  if datasize < 0 then none
  else
    let n := datasize.toNat
    some (u32le.enc pi.ipv4.src_ip ++ u32le.enc pi.ipv4.dst_ip ++ [0, pi.ipv4.protocol] ++
      u16le.enc udp.length ++ PacketUdp.layout.enc udp ++ ((pi.memory env n).drop 42).take n)

/-- The UDP case of `ip_onreceive`. -/
def udpOnreceive (r : Router) (pi : PacketInfo) (src : AddrIp) : Option Router :=
  let unreachable := icmpSend env recv r pi src Icmp.typeDstUnreach Icmp.codePortUnreach
  if 42 ≤ pi.packet.length then
    let udp := PacketUdp.layout.load 34 pi.packet
    match udpPseudoHeader env pi udp with
    | none => none
    | some pseudo =>
      if udp.checksum ≠ 0 ∧ generatechecksum pseudo ≠ 0 then unreachable
      else if ntohs udp.destination_port = portDns then
        if 54 ≤ pi.packet.length then env.dnsOnreceive pi r else some r
      else unreachable
  else unreachable

/-- `pwospf_onreceive` for a frame that holds a PWOSPF header. -/
def ospfOnreceive (r : Router) (pi : PacketInfo) : Option Router :=
  if 58 ≤ pi.packet.length then pwospfOnreceive env r pi else some r

/-- A packet for interface `i` of the router itself. -/
def deliver (r : Router) (pi : PacketInfo) (i : Nat) : Option Router :=
  let ipv4 := pi.ipv4
  let own := (r.interface i).ip
  if ipv4.ttl = 0 then icmpTypeTimeExceeded env recv r pi own
  else if ipv4.protocol = ipTypeIcmp then
    let icmp := PacketIcmp.layout.load 34 (pi.memory env 8)
    if icmp.type = Icmp.typeRequest then some (icmpTypeEchoReplay env r pi)
    else if icmp.type = Icmp.typeReplay then
      if env.cliPingHandleReply ipv4.src_ip icmp.seq_num then some r
      else icmpSend env recv r pi own Icmp.typeDstUnreach Icmp.codePortUnreach
    else some r
  else if ipv4.protocol = ipTypeTcp then
    some { r with transport := r.transport ++ [pi.packet.drop 14] }
  else if ipv4.protocol = ipTypeOspf then ospfOnreceive env r pi
  else if ipv4.protocol = ipTypeUdp then udpOnreceive env recv r pi own
  else icmpSend env recv r pi own Icmp.typeDstUnreach Icmp.codeProtUnreach

/-! ## Packets for others -/

/-- A packet with a route: sent if the next hop's MAC is known, queued otherwise. -/
def forwardVia (r : Router) (pi : PacketInfo) (entry : RtableEntry) : Router :=
  let f := r.interface entry.interface
  let router_ip := entry.nextHop pi.ipv4.dst_ip
  match arpGetcachebyip r.arp_cache router_ip with
  | some arp_dest =>
    (r.ethernetPacketSend entry.interface arp_dest.mac f.mac (htons ethIpType)
      (pi.setIpv4 pi.ipv4.hop)).1
  | none => r.arpQueueIppacket env pi entry.interface router_ip

/-- The end of `ip_onreceive`, reached with the interface counter at `num_interfaces`. -/
def forward (r : Router) (pi : PacketInfo) : Option Router :=
  if pi.ipv4.ttl ≤ 1 then icmpTypeTimeExceeded env recv r pi 0xffffffff
  else
    match ipLongestprefixmatch r.ip_table pi.ipv4.dst_ip with
    | some (_, entry) => some (forwardVia env r pi entry)
    | none => icmpSend env recv r pi (r.interface r.num_interfaces).ip Icmp.typeDstUnreach
        Icmp.codeHostUnreach

/-! ## `ip_onreceive` -/

/-- The interface whose address is the packet's destination. -/
def ownInterface (r : Router) (dst : AddrIp) : Option Nat :=
  (List.range r.num_interfaces).find? fun i => dst = (r.interface i).ip

/-- The body of `ip_onreceive`. -/
def ipOnreceiveStep (r : Router) (pi : PacketInfo) : Option Router :=
  if ¬ ipHeaderCheck pi.ipv4 then some r
  else if pi.ipv4.dst_ip = allSPFRouters ∧ pi.ipv4.protocol = ipTypeOspf then
    ospfOnreceive env r pi
  else
    match ownInterface r pi.ipv4.dst_ip with
    | some i => deliver env recv r pi i
    | none => forward env recv r pi

end Receive

/-- At most `n` nested activations. -/
def ipOnreceiveN (env : Env) : Nat → Router → PacketInfo → Option Router
  | 0, _, _ => none
  | n + 1, r, pi => ipOnreceiveStep env (ipOnreceiveN env n) r pi

/-- `ip_onreceive`. -/
def ipOnreceive (env : Env) : Router → PacketInfo → Option Router := ipOnreceiveN env 2

/-! ## ICMP errors end there

An ICMP error is either for the router itself, which ignores its type, or has the route that was
found when it was allocated. -/

/-- The packets `ip_onreceive` hands to itself. -/
def ErrorPacket (r : Router) (pi : PacketInfo) : Prop :=
  ∃ ip code type data src, (type = Icmp.typeDstUnreach ∨ type = Icmp.typeTimeExceeded) ∧
    data.length = 56 ∧ icmpAllocate r ip code type 0 0 data src = some pi

theorem icmpErrorData_length (env : Env) (pi : PacketInfo) : (icmpErrorData env pi).length = 56 := by
  have hm : 8 ≤ ((pi.memory env 8).drop 34).length := by
    have := pi.ip_fits
    simp only [PacketInfo.memory, List.length_drop, List.length_append, List.length_map,
      List.length_range]
    omega
  unfold icmpErrorData
  simp only [List.length_append, Layout.enc_length, PacketIp4.layout_size, List.length_take,
    List.length_map, List.length_range]
  omega

/-- **What an ICMP error is**: its parts, and the route it was allocated with. -/
theorem ErrorPacket.parts {r : Router} {pi : PacketInfo} (h : ErrorPacket r pi) :
    ∃ n entry e src dest type rest, ipLongestprefixmatch r.ip_table dest = some (n, entry) ∧
      (type = Icmp.typeDstUnreach ∨ type = Icmp.typeTimeExceeded) ∧
      pi = .ofParts e (allocatedHeader src dest ipTypeIcmp 84) (type :: rest) entry.interface := by
  obtain ⟨ip, code, type, data, src, ht, hd, ha⟩ := h
  unfold icmpAllocate packetinfoIpAllocate at ha
  split at ha
  · rename_i n entry hl
    rw [hd] at ha
    cases ha
    exact ⟨n, entry, _, _, ip, type, _, hl, ht, rfl⟩
  · cases ha

theorem ipHeaderCheck_allocatedHeader (src dest : AddrIp) (protocol : Byte) :
    ipHeaderCheck (allocatedHeader src dest protocol 84) = true := by
  have hlength : htons (BitVec.ofNat 16 84) ≠ 0 := by decide
  exact PacketIp4.ipHeaderCheck_fresh rfl rfl hlength unfragmented

/-- What becomes of an ICMP error. -/
def receiveError (env : Env) (r : Router) (pi : PacketInfo) : Router :=
  match ownInterface r pi.ipv4.dst_ip with
  | some _ => r
  | none =>
    match ipLongestprefixmatch r.ip_table pi.ipv4.dst_ip with
    | some (_, entry) => forwardVia env r pi entry
    | none => r

/-- **An ICMP error causes no other**: the body does not call itself on it. -/
theorem ErrorPacket.step {r : Router} {pi : PacketInfo} (h : ErrorPacket r pi) (env : Env)
    (recv : Router → PacketInfo → Option Router) :
    ipOnreceiveStep env recv r pi = some (receiveError env r pi) := by
  obtain ⟨n, entry, e, src, dest, type, rest, hl, ht, rfl⟩ := h.parts
  have hdst : (allocatedHeader src dest ipTypeIcmp 84).dst_ip = dest := rfl
  have hproto : (allocatedHeader src dest ipTypeIcmp 84).protocol = ipTypeIcmp := rfl
  have httl : (allocatedHeader src dest ipTypeIcmp 84).ttl = 65 := rfl
  unfold ipOnreceiveStep receiveError
  simp only [PacketInfo.ofParts_ipv4, ipHeaderCheck_allocatedHeader, hdst, hproto]
  rw [if_neg (by decide), if_neg (by rintro ⟨_, hp⟩; exact absurd hp (by decide))]
  split
  · -- for the router itself: neither an echo request nor a reply
    have htype : (PacketIcmp.layout.load 34
        ((PacketInfo.ofParts e (allocatedHeader src dest ipTypeIcmp 84) (type :: rest)
          entry.interface).memory env 8)).type = type := rfl
    unfold deliver
    simp only [PacketInfo.ofParts_ipv4, httl, hproto, htype]
    rw [if_neg (by decide), if_pos trivial]
    rcases ht with rfl | rfl
    · rw [if_neg (by decide), if_neg (by decide)]
    · rw [if_neg (by decide), if_neg (by decide)]
  · unfold forward
    simp only [PacketInfo.ofParts_ipv4, httl, hdst, hl]
    rw [if_neg (by decide)]

section Congr

variable {env : Env} {recv recv' : Router → PacketInfo → Option Router} {r : Router}
  (h : ∀ pi, ErrorPacket r pi → recv r pi = recv' r pi)

include h

theorem icmpAllocateAndSend_congr (ip : AddrIp) (code : Byte) {type : Byte} {data : List Byte}
    (src : AddrIp) (ht : type = Icmp.typeDstUnreach ∨ type = Icmp.typeTimeExceeded)
    (hd : data.length = 56) :
    icmpAllocateAndSend recv r ip code type 0 0 data src =
      icmpAllocateAndSend recv' r ip code type 0 0 data src := by
  unfold icmpAllocateAndSend
  split
  · rename_i pi hpi
    exact h pi ⟨ip, code, type, data, src, ht, hd, hpi⟩
  · rfl

theorem icmpSend_congr (pi : PacketInfo) (src : AddrIp) (code : Byte) :
    icmpSend env recv r pi src Icmp.typeDstUnreach code =
      icmpSend env recv' r pi src Icmp.typeDstUnreach code :=
  icmpAllocateAndSend_congr h _ code src (.inl rfl) (icmpErrorData_length env pi)

theorem icmpTypeTimeExceeded_congr (pi : PacketInfo) (src : AddrIp) :
    icmpTypeTimeExceeded env recv r pi src = icmpTypeTimeExceeded env recv' r pi src :=
  icmpAllocateAndSend_congr h _ 0 src (.inr rfl) (icmpErrorData_length env pi)

/-- The body calls `recv` on ICMP errors only. -/
theorem ipOnreceiveStep_congr (pi : PacketInfo) :
    ipOnreceiveStep env recv r pi = ipOnreceiveStep env recv' r pi := by
  simp only [ipOnreceiveStep, deliver, udpOnreceive, forward, icmpSend_congr h,
    icmpTypeTimeExceeded_congr h]

end Congr

/-- **Two activations are enough**: `ipOnreceive` is the body that calls itself. -/
theorem ipOnreceive_unfold (env : Env) (r : Router) (pi : PacketInfo) :
    ipOnreceive env r pi = ipOnreceiveStep env (ipOnreceive env) r pi :=
  ipOnreceiveStep_congr (fun _ hpi => (hpi.step env _).trans (hpi.step env _).symm) pi

theorem ipOnreceive_error {env : Env} {r : Router} {pi : PacketInfo} (h : ErrorPacket r pi) :
    ipOnreceive env r pi = some (receiveError env r pi) := h.step env _

/-! ## LSUs on their way to the handler -/

/-- The packets `ip_onreceive` and `pwospf_onreceive` pass on to `pwospf_onreceive_link`. -/
structure ReachesLink (r : Router) (pi : PacketInfo) : Prop where
  header : ipHeaderCheck pi.ipv4 = true
  protocol : pi.ipv4.protocol = ipTypeOspf
  here : pi.ipv4.dst_ip = allSPFRouters ∨
    (∃ k < r.num_interfaces, (r.interface k).ip = pi.ipv4.dst_ip) ∧ pi.ipv4.ttl ≠ 0
  fits : 66 ≤ pi.packet.length
  version : pi.link.pwospf_header.version = 2
  area : ntohl pi.link.pwospf_header.area_id = r.pw_router.area_id
  auth_type : pi.link.pwospf_header.auth_type = 0
  type : pi.link.pwospf_header.type = ospfTypeLink

theorem ReachesLink.received {r : Router} {pi : PacketInfo} (h : ReachesLink r pi) (env : Env) :
    ipOnreceive env r pi = pwospfOnreceiveLink env r pi := by
  have hfits := h.fits
  have hheader : PwospfPacket.layout.load 34 pi.packet = pi.link.pwospf_header := rfl
  have hospf : ospfOnreceive env r pi = pwospfOnreceiveLink env r pi := by
    unfold ospfOnreceive pwospfOnreceive
    simp only [hheader, h.version, h.area, h.auth_type, h.type]
    rw [if_pos (by omega), if_neg (by decide), if_neg (fun hne => hne rfl), if_neg (by decide),
      if_neg (by decide), if_pos trivial, if_pos hfits]
  rw [ipOnreceive_unfold]
  unfold ipOnreceiveStep
  rw [if_neg (not_not.2 h.header), hospf]
  split
  · rfl
  · rename_i hunicast
    obtain ⟨⟨k, hk, hip⟩, httl⟩ := h.here.resolve_left fun hall => hunicast ⟨hall, h.protocol⟩
    obtain ⟨k', hk'⟩ : ∃ k', ownInterface r pi.ipv4.dst_ip = some k' :=
      Option.isSome_iff_exists.1
        (List.find?_isSome.2 ⟨k, List.mem_range.2 hk, decide_eq_true hip.symm⟩)
    rw [hk']
    show deliver env (ipOnreceive env) r pi k' = _
    unfold deliver
    simp only [h.protocol, hospf]
    rw [if_neg httl, if_neg (by decide), if_neg (by decide), if_pos trivial]

/-! ## Releasing waiting packets -/

/-- One iteration of `process_arpipqueue`, at position `i` of the queue, once the MAC of `ip` is
known.  The copy of the packet gets a new checksum and is received once more. -/
def processArpipqueueAt (env : Env) (ip : AddrIp) (r : Router) (i : Nat) : Option Router :=
  match r.iparp_buffer[i]? with
  | none => some r
  | some entry =>
    let ip_packet := entry.packet_info.ipv4
    match ipLongestprefixmatch r.ip_table ip_packet.dst_ip with
    | none => some r
    | some (_, dest_ip_entry) =>
      if ip = dest_ip_entry.nextHop ip_packet.dst_ip then
        ipOnreceive env { r with iparp_buffer := r.iparp_buffer.eraseIdx i }
          (entry.packet_info.setIpv4 ip_packet.updateChecksum)
      else some r

/-- `process_arpipqueue` after `n` iterations, or after its end if it made fewer.  The position
moves on after a removal too, so the entry behind a released one is not looked at. -/
def processArpipqueue (env : Env) (ip : AddrIp) : Nat → Router → Option Router
  | 0, r => some r
  | n + 1, r => (processArpipqueue env ip n r).bind fun r => processArpipqueueAt env ip r n

end BirRouter
