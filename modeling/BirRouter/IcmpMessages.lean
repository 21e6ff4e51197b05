import BirRouter.IpVerdict

/-!
# What an ICMP error is made of

`icmp_allocate_and_send` fills a freshly allocated buffer; what it copies behind the ICMP header is an
array of 28 bytes on the stack of its caller, 56 bytes long.

* `icmpAllocateIn` — the message as it is written into the buffer, field by field;
  `icmpAllocateIn_eq`: nothing of the buffer's former contents remains;
* `messageIn_eq_iff` — two messages for the same report are equal exactly if the 28 bytes behind the
  array are;
* `icmp_leak_iff` — so no message depends on the memory exactly if none is sent.
-/

set_option autoImplicit false

namespace BirRouter

open ByteLayout

/-! ## Writing into the buffer -/

namespace PacketInfo

/-- A fresh buffer of `size` bytes. -/
def allocate (heap : Nat → Byte) (size : Nat) (hsize : 34 ≤ size) (interface : Nat) : PacketInfo where
  packet := (List.range size).map heap
  interface := interface
  ip_fits := by
    rw [List.length_map, List.length_range]
    exact hsize

end PacketInfo

/-- `packetinfo_ip_allocate` with the buffer that `malloc` returns. -/
def packetinfoIpAllocateIn (heap : Nat → Byte) (size : Nat) (hsize : 34 ≤ size) (r : Router)
    (dest src : AddrIp) (protocol : Byte) (total_length : Nat) : Option PacketInfo :=
  match ipLongestprefixmatch r.ip_table dest with
  | some (_, entry) =>
    let f := r.interface entry.interface
    let dest_mac :=
      match arpGetcachebyip r.arp_cache dest with
      | some arpentry => arpentry.mac
      | none => AddrMac.broadcast
    let pi := PacketInfo.allocate heap size hsize entry.interface
    let pi := pi.setEth { pi.eth with source_mac := f.mac }
    let pi := pi.setEth { pi.eth with dest_mac := dest_mac }
    let pi := pi.setEth { pi.eth with type := htons ethIpType }
    let pi := pi.setIpv4
      { pi.ipv4 with
        ihl := 5
        version := 4
        dscp_ecn := 0
        total_length := htons (BitVec.ofNat 16 total_length)
        id := 0
        flags_fragmentoffset := 0
        ttl := 65
        protocol := protocol
        header_checksum := 0
        src_ip := if src = 0xffffffff then f.ip else src
        dst_ip := dest }
    some (pi.setIpv4 pi.ipv4.updateChecksum)
  | none => none

/-- The writes of `icmp_allocate_and_send` behind the IPv4 header. -/
def icmpFill (payload : List Byte) (code type : Byte) (id count : BitVec 16) (data : List Byte) :
    List Byte :=
  let icmp := { PacketIcmp.layout.load 0 payload with
    code := code, id := htons id, type := type, seq_num := htons count }
  let payload := PacketIcmp.layout.store 0 icmp payload
  -- `memcpy` to the data of the message
  let payload := payload.take 8 ++ (data ++ payload.drop (8 + data.length))
  let icmp := { icmp with header_checksum := 0 }
  let payload := PacketIcmp.layout.store 0 icmp payload
  let checksum := generatechecksum (payload.take (8 + data.length))
  PacketIcmp.layout.store 0 { icmp with header_checksum := checksum } payload

/-- What `icmp_allocate_and_send` hands to `ip_onreceive`, written into a buffer of
`sizeof(packet_ethernet_t) + sizeof(packet_ip4_t) + sizeof(packet_icmp_t)` bytes and cut to its length. -/
def icmpAllocateIn (heap : Nat → Byte) (r : Router) (ip : AddrIp) (code type : Byte)
    (id count : BitVec 16) (data : List Byte) (src : AddrIp) : Option PacketInfo :=
  (packetinfoIpAllocateIn heap 98 (by decide) r ip src ipTypeIcmp (20 + 8 + data.length)).map fun pi =>
    pi.setPayload ((icmpFill pi.payload code type id count data).take (8 + data.length))

section Fill

variable (heap : Nat → Byte) (r : Router)

/-- **The headers** keep nothing of the buffer. -/
theorem packetinfoIpAllocateIn_eq (size : Nat) (hsize : 34 ≤ size) (dest src : AddrIp)
    (protocol : Byte) (total_length : Nat) :
    packetinfoIpAllocateIn heap size hsize r dest src protocol total_length =
      packetinfoIpAllocate r dest src protocol total_length
        (((List.range size).map heap).drop 34) := by
  unfold packetinfoIpAllocateIn packetinfoIpAllocate
  cases ipLongestprefixmatch r.ip_table dest with
  | none => rfl
  | some route =>
    obtain ⟨n, entry⟩ := route
    simp only
    generalize hpi : PacketInfo.allocate heap size hsize entry.interface = pi
    have hpayload : ((List.range size).map heap).drop 34 = pi.payload := by rw [← hpi]; rfl
    have hinterface : entry.interface = pi.interface := by rw [← hpi]; rfl
    rw [hpayload]
    conv_lhs => rw [pi.eq_ofParts]
    simp only [PacketInfo.ofParts_setEth, PacketInfo.ofParts_eth, PacketInfo.ofParts_setIpv4,
      PacketInfo.ofParts_ipv4, ← hinterface]
    rfl

theorem icmp_store_zero (icmp : PacketIcmp) (payload : List Byte) :
    PacketIcmp.layout.store 0 icmp payload = PacketIcmp.layout.enc icmp ++ payload.drop 8 := by
  unfold Layout.store
  rw [List.take_zero, List.nil_append]
  rfl

/-- **The message** keeps nothing of what is behind the headers. -/
theorem icmpFill_eq (payload : List Byte) (code type : Byte) (id count : BitVec 16)
    (data : List Byte) :
    (icmpFill payload code type id count data).take (8 + data.length) =
      icmpMessage type code id count data := by
  have h8 : ∀ icmp : PacketIcmp, (PacketIcmp.layout.enc icmp).length = 8 := fun icmp =>
    PacketIcmp.layout.enc_length icmp
  have hcut : ∀ (icmp : PacketIcmp) (rest : List Byte),
      (PacketIcmp.layout.enc icmp ++ (data ++ rest)).take (8 + data.length) =
        PacketIcmp.layout.enc icmp ++ data := by
    intro icmp rest
    rw [← List.append_assoc]
    exact List.take_left' (by rw [List.length_append, h8])
  unfold icmpFill icmpMessage
  simp only [icmp_store_zero, List.take_left' (h8 _), List.drop_left' (h8 _), hcut]

/-- **The whole buffer** is written. -/
theorem icmpAllocateIn_eq (ip : AddrIp) (code type : Byte) (id count : BitVec 16) (data : List Byte)
    (src : AddrIp) :
    icmpAllocateIn heap r ip code type id count data src =
      icmpAllocate r ip code type id count data src := by
  unfold icmpAllocateIn icmpAllocate
  rw [packetinfoIpAllocateIn_eq]
  unfold packetinfoIpAllocate
  cases ipLongestprefixmatch r.ip_table ip with
  | none => rfl
  | some route =>
    simp only [Option.map_some, icmpFill_eq, PacketInfo.ofParts_setPayload]

end Fill

/-! ## Two runs -/

/-- The message of a call, with the memory it is written to. -/
def IcmpCall.messageIn (env : Env) (heap : Nat → Byte) (r : Router) (pi : PacketInfo)
    (call : IcmpCall) : Option PacketInfo :=
  icmpAllocateIn heap r pi.ipv4.src_ip call.code call.type 0 0 (icmpErrorData env pi)
    (r.sourceIp call.source)

/-- It is the message as it was without the memory. -/
theorem messageIn_eq (env : Env) (heap : Nat → Byte) (r : Router) (pi : PacketInfo) (call : IcmpCall) :
    call.messageIn env heap r pi = call.message env r pi := icmpAllocateIn_eq ..

/-- What an ICMP error should depend on is the same: the router's tables, the packet's IPv4 header and
the 8 bytes behind it. -/
structure SameReport (r : Router) (pi : PacketInfo) (r' : Router) (pi' : PacketInfo) : Prop where
  ip_table : r'.ip_table = r.ip_table
  arp_cache : r'.arp_cache = r.arp_cache
  interface : r'.interface = r.interface
  fits : 42 ≤ pi'.packet.length
  ipv4 : pi'.ipv4 = pi.ipv4
  payload : pi'.payload.take 8 = pi.payload.take 8

/-- The bytes behind the array on the stack that are copied all the same. -/
def Env.leaked (env : Env) : List Byte := (List.range 28).map env.stack

theorem icmpErrorData_eq (env : Env) {pi : PacketInfo} (h : 42 ≤ pi.packet.length) :
    icmpErrorData env pi = PacketIp4.layout.enc pi.ipv4 ++ (pi.payload.take 8 ++ env.leaked) := by
  have hbytes : ((pi.memory env 8).drop 34).take 8 = pi.payload.take 8 := by
    have hlen : 8 ≤ (pi.packet.drop 34).length := by
      rw [List.length_drop]
      omega
    unfold PacketInfo.memory PacketInfo.payload
    rw [List.drop_append_of_le_length pi.ip_fits, List.take_append_of_le_length hlen]
  unfold icmpErrorData
  rw [hbytes]
  rfl

/-- The data of a message can be read off it. -/
theorem icmpMessage_data (type code : Byte) (id seq_num : BitVec 16) (data : List Byte) :
    (icmpMessage type code id seq_num data).drop 8 = data :=
  List.drop_left' (PacketIcmp.layout.enc_length _)

section Runs

variable {r r' : Router} {pi pi' : PacketInfo} {call : IcmpCall}

/-- **Two messages for the same report** are equal exactly if the bytes behind the array are. -/
theorem messageIn_eq_iff (hsame : SameReport r pi r' pi') (h42 : 42 ≤ pi.packet.length)
    (hroute : (ipLongestprefixmatch r.ip_table pi.ipv4.src_ip).isSome = true) (env env' : Env)
    (heap heap' : Nat → Byte) :
    call.messageIn env heap r pi = call.messageIn env' heap' r' pi' ↔ env.leaked = env'.leaked := by
  have hsource : r'.sourceIp call.source = r.sourceIp call.source := by
    cases call.source with
    | outgoing => rfl
    | interface i => exact congrArg Interface.ip (congrFun hsame.interface i)
  rw [messageIn_eq, messageIn_eq]
  unfold IcmpCall.message
  rw [icmpErrorData_eq env h42, icmpErrorData_eq env' hsame.fits, hsame.ipv4, hsame.payload,
    hsource]
  unfold icmpAllocate packetinfoIpAllocate
  rw [hsame.ip_table, hsame.arp_cache, hsame.interface]
  obtain ⟨⟨n, entry⟩, hentry⟩ := Option.isSome_iff_exists.1 hroute
  simp only [hentry]
  constructor
  · intro heq
    have hpayload := congrArg PacketInfo.payload (Option.some.inj heq)
    rw [PacketInfo.ofParts_payload, PacketInfo.ofParts_payload] at hpayload
    have hdata := congrArg (List.drop 8) hpayload
    rw [icmpMessage_data, icmpMessage_data] at hdata
    exact List.append_cancel_left (List.append_cancel_left hdata)
  · intro heq
    rw [heq]

end Runs

/-- **ICMP errors leak nothing** exactly if there is no route to the sender, and no error is sent. -/
theorem icmp_leak_iff (r : Router) {pi : PacketInfo} (h42 : 42 ≤ pi.packet.length)
    (call : IcmpCall) :
    (∀ r' pi' env env' heap heap', SameReport r pi r' pi' →
      call.messageIn env heap r pi = call.messageIn env' heap' r' pi') ↔
    ipLongestprefixmatch r.ip_table pi.ipv4.src_ip = none := by
  constructor
  · intro hsame
    refine Option.not_isSome_iff_eq_none.1 fun hroute => ?_
    have hself : SameReport r pi r pi := ⟨rfl, rfl, rfl, h42, rfl, rfl⟩
    -- the same report with another byte on the stack
    have hleaked := (messageIn_eq_iff hself h42 hroute smallEnv { smallEnv with stack := fun _ => 1 }
      (fun _ => 0) (fun _ => 0)).1 (hsame r pi _ _ _ _ hself)
    exact absurd hleaked (by decide)
  · intro hnone r' pi' env env' heap heap' hreport
    have hnone' : ipLongestprefixmatch r'.ip_table pi'.ipv4.src_ip = none := by
      rw [hreport.ip_table, hreport.ipv4]
      exact hnone
    rw [messageIn_eq, messageIn_eq]
    unfold IcmpCall.message icmpAllocate packetinfoIpAllocate
    rw [hnone, hnone']

/-- A packet from 192.168.1.7 with 8 bytes of payload. -/
def longPacket : PacketInfo :=
  .ofParts ⟨smallEth1.mac, ⟨2, 0, 0, 0, 0, 9⟩, htons ethIpType⟩
    (PacketIp4.updateChecksum ⟨5, 4, 0, htons 28, 7, 0, 1, 99, 0, ipConvert 192 168 1 7,
      ipConvert 10 2 0 1⟩) [1, 2, 3, 4, 5, 6, 7, 8] 1

/-- A router without routes sends nothing. -/
theorem icmp_leak_without_routes :
    42 ≤ longPacket.packet.length ∧
    ∀ r' pi' env env' heap heap',
      SameReport { smallRouter with ip_table := [] } longPacket r' pi' →
        IcmpCall.messageIn env heap { smallRouter with ip_table := [] } longPacket
            ⟨.outgoing, Icmp.typeTimeExceeded, 0⟩ =
          IcmpCall.messageIn env' heap' r' pi' ⟨.outgoing, Icmp.typeTimeExceeded, 0⟩ :=
  ⟨by decide, (icmp_leak_iff { smallRouter with ip_table := [] } (by decide)
    ⟨.outgoing, Icmp.typeTimeExceeded, 0⟩).2 rfl⟩

/-- With another byte on the stack another message is sent for the same packet. -/
theorem icmp_leak_stack :
    42 ≤ longPacket.packet.length ∧
    IcmpCall.messageIn smallEnv (fun _ => 0) smallRouter longPacket
        ⟨.outgoing, Icmp.typeTimeExceeded, 0⟩ ≠
      IcmpCall.messageIn { smallEnv with stack := fun _ => 1 } (fun _ => 0) smallRouter longPacket
        ⟨.outgoing, Icmp.typeTimeExceeded, 0⟩ := by
  refine ⟨by decide, ?_⟩
  rw [Ne, messageIn_eq_iff ⟨rfl, rfl, rfl, by decide, rfl, rfl⟩ (by decide) (by decide +kernel)]
  decide

end BirRouter
