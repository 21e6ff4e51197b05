import BirRouter.IpVerdict

/-!
# Echo replies (`icmp_type.c`)

`icmp_type_echo_replay` turns the request into the reply where it lies: it changes the type, renews
the checksum and sends the frame back.  The checksum is computed over `sizeof(packet_icmp_t)` bytes,
which are 64, however long the message is.

* `icmpTypeEchoReplay_eq` — the frame that is sent, `echoFrame`, whatever the length;
* `icmp_checksum_iff` — a message with a checksum computed over other bytes;
* `echo_reply_iff` — the reply is valid exactly if the bytes that were not summed, or those behind
  the frame that were, add nothing to the sum.
-/

set_option autoImplicit false

namespace BirRouter

open ByteLayout OnesComplement

/-! ## Messages in memory -/

namespace PacketInfo

def icmp (pi : PacketInfo) : PacketIcmp := PacketIcmp.layout.load 34 pi.packet

theorem payload_icmp {pi : PacketInfo} (h : 8 ≤ pi.payload.length) :
    pi.payload = PacketIcmp.layout.enc pi.icmp ++ pi.payload.drop 8 := by
  have henc : PacketIcmp.layout.enc pi.icmp = pi.payload.take 8 := PacketIcmp.layout.enc_dec _ h
  rw [henc, List.take_append_drop]

theorem icmp_length {pi : PacketInfo} (h : 8 ≤ pi.payload.length) (icmp : PacketIcmp) :
    (PacketIcmp.layout.enc icmp ++ pi.payload.drop 8).length = pi.payload.length := by
  rw [List.length_append, PacketIcmp.layout.enc_length, PacketIcmp.layout_size, List.length_drop]
  omega

theorem take_length (pi : PacketInfo) : (pi.packet.take 34).length = 34 := by
  have := pi.ip_fits
  rw [List.length_take]
  omega

theorem memory_icmp (env : Env) {pi : PacketInfo} (h : 8 ≤ pi.payload.length) (n : Nat) :
    pi.memory env n = pi.packet.take 34 ++ (PacketIcmp.layout.enc pi.icmp ++
      (pi.payload.drop 8 ++ (List.range n).map env.beyond)) := by
  have hpacket : pi.packet.take 34 ++ pi.payload = pi.packet := List.take_append_drop 34 pi.packet
  rw [← List.append_assoc (PacketIcmp.layout.enc pi.icmp), ← payload_icmp h, ← List.append_assoc,
    hpacket]
  rfl

theorem setPayload_eq (pi : PacketInfo) (payload : List Byte) :
    pi.setPayload payload = ofParts pi.eth pi.ipv4 payload pi.interface :=
  calc pi.setPayload payload
      = (ofParts pi.eth pi.ipv4 pi.payload pi.interface).setPayload payload := by
        rw [← pi.eq_ofParts]
    _ = ofParts pi.eth pi.ipv4 payload pi.interface := ofParts_setPayload ..

/-- What a handler writes behind the frame does not get into it. -/
theorem setMemory_append (pi : PacketInfo) {payload : List Byte} (rest : List Byte)
    (h : payload.length = pi.payload.length) :
    pi.setMemory (pi.packet.take 34 ++ (payload ++ rest)) = pi.setPayload payload := by
  have hlen : payload.length = pi.packet.length - 34 := by
    rw [h, pi.packet_length]
    omega
  unfold setMemory setPayload
  simp only [List.drop_left' pi.take_length, List.take_left' hlen]

end PacketInfo

/-! ## The reply -/

/-- The message of the reply while its checksum is computed. -/
def PacketInfo.echoed (pi : PacketInfo) : List Byte :=
  PacketIcmp.layout.enc { pi.icmp with type := Icmp.typeReplay, header_checksum := 0 } ++
    pi.payload.drop 8

/-- The 64 bytes it is computed over. -/
def echoSummed (env : Env) (pi : PacketInfo) : List Byte :=
  (pi.echoed ++ (List.range 64).map env.beyond).take 64

def echoIcmp (env : Env) (pi : PacketInfo) : PacketIcmp :=
  { pi.icmp with
    type := Icmp.typeReplay
    header_checksum := generatechecksum (echoSummed env pi) }

/-- The header `update_ip_packet_response` leaves. -/
def responseHeader (r : Router) (h : PacketIp4) (dst_ip src_ip : AddrIp) (ttl : Byte) : PacketIp4 :=
  PacketIp4.updateChecksum
    { h with
      dst_ip := dst_ip
      src_ip := src_ip
      ttl := ttl
      flags_fragmentoffset := 0
      id := htons r.ip_id }

def echoFrame (env : Env) (r : Router) (pi : PacketInfo) : PacketInfo :=
  .ofParts ⟨pi.eth.source_mac, pi.eth.dest_mac, htons ethIpType⟩
    (responseHeader r pi.ipv4 pi.ipv4.src_ip pi.ipv4.dst_ip 64)
    (PacketIcmp.layout.enc (echoIcmp env pi) ++ pi.payload.drop 8) pi.interface

theorem updateIpPacketResponse_ofParts (r : Router) (e : PacketEthernet) (h : PacketIp4)
    (payload : List Byte) (interface : Nat) (dst_ip src_ip : AddrIp) (ttl : Byte) :
    updateIpPacketResponse r (.ofParts e h payload interface) dst_ip src_ip ttl =
      { r with ip_id := r.ip_id + 1 }.output interface
        (PacketInfo.ofParts ⟨e.source_mac, e.dest_mac, htons ethIpType⟩
          (responseHeader r h dst_ip src_ip ttl) payload interface).packet := by
  unfold updateIpPacketResponse Router.ethernetPacketSend responseHeader
  simp only [PacketInfo.ofParts_ipv4, PacketInfo.ofParts_setIpv4, PacketInfo.ofParts_eth,
    PacketInfo.ofParts_setEth, PacketInfo.ofParts_interface]

/-- A response to a valid header has a valid header. -/
theorem ipHeaderCheck_responseHeader {h : PacketIp4} (hc : ipHeaderCheck h = true) (r : Router)
    (dst_ip src_ip : AddrIp) (ttl : Byte) :
    ipHeaderCheck (responseHeader r h dst_ip src_ip ttl) = true := by
  unfold responseHeader
  rw [PacketIp4.ipHeaderCheck_updateChecksum]
  unfold ipHeaderCheck at hc
  simp only [Bool.and_eq_true] at hc ⊢
  exact ⟨hc.1.1, decide_eq_true unfragmented⟩

/-- **The frame that is sent back.** -/
theorem icmpTypeEchoReplay_eq (env : Env) (r : Router) {pi : PacketInfo}
    (h : 8 ≤ pi.payload.length) :
    icmpTypeEchoReplay env r pi =
      { r with ip_id := r.ip_id + 1 }.output pi.interface (echoFrame env r pi).packet := by
  unfold icmpTypeEchoReplay
  simp only [PacketInfo.memory_icmp env h, PacketIcmp.layout.load_append _ _ pi.take_length,
    PacketIcmp.layout.store_append _ _ _ pi.take_length, List.drop_left' pi.take_length]
  rw [← List.append_assoc (PacketIcmp.layout.enc _), ← List.append_assoc (PacketIcmp.layout.enc _),
    pi.setMemory_append _ (PacketInfo.icmp_length h _), pi.setPayload_eq,
    updateIpPacketResponse_ofParts, PacketInfo.ofParts_ipv4]
  rfl

/-! ## Its checksum -/

theorem PacketIcmp.enc_split (icmp : PacketIcmp) :
    PacketIcmp.layout.enc icmp = [icmp.type, icmp.code] ++ (u16le.enc icmp.header_checksum ++
      (u16le.enc icmp.id ++ u16le.enc icmp.seq_num)) := rfl

theorem wordSum_icmp (icmp : PacketIcmp) (c : BitVec 16) (data : List Byte) :
    wordSum (PacketIcmp.layout.enc { icmp with header_checksum := c } ++ data) =
      wordSum (PacketIcmp.layout.enc { icmp with header_checksum := 0 } ++ data) +
        (ntohs c).toNat := by
  have hsplit : ∀ c : BitVec 16,
      wordSum (PacketIcmp.layout.enc { icmp with header_checksum := c } ++ data) =
        wordSum [icmp.type, icmp.code] + ((ntohs c).toNat +
          wordSum (u16le.enc icmp.id ++ u16le.enc icmp.seq_num ++ data)) := by
    intro c
    rw [PacketIcmp.enc_split, List.append_assoc, List.append_assoc, wordSum_append _ _ (by simp),
      wordSum_append _ _ (by rw [u16le.enc_length]; rfl), wordSum_u16le]
  have hz : (ntohs (0 : BitVec 16)).toNat = 0 := rfl
  rw [hsplit c, hsplit 0, hz]
  omega

theorem icmpMessage_length (type code : Byte) (id seq_num : BitVec 16) (data : List Byte) :
    (icmpMessage type code id seq_num data).length = 8 + data.length := by
  unfold icmpMessage
  simp only [List.length_append, PacketIcmp.layout.enc_length, PacketIcmp.layout_size]

/-- The messages the router builds itself have the checksum of their own bytes. -/
theorem generatechecksum_icmpMessage (type code : Byte) (id seq_num : BitVec 16) {data : List Byte}
    (h : data.length ≤ 65507) : generatechecksum (icmpMessage type code id seq_num data) = 0 := by
  unfold icmpMessage
  simp only [PacketIcmp.enc_split, List.append_assoc]
  refine generatechecksum_store (by simp) ?_
  simp only [List.length_append, u16le.enc_length, List.length_cons, List.length_nil]
  have : u16le.size = 2 := rfl
  omega

/-- **A checksum computed over other bytes**, of a message that fits in an IPv4 packet. -/
theorem icmp_checksum_iff (icmp : PacketIcmp) {data summed : List Byte} (hdata : data.length ≤ 65507)
    (hsummed : summed.length ≤ 65515) :
    generatechecksum (PacketIcmp.layout.enc
        { icmp with header_checksum := generatechecksum summed } ++ data) = 0 ↔
      fold16 (wordSum (PacketIcmp.layout.enc { icmp with header_checksum := 0 } ++ data) +
        (65535 - fold16 (wordSum summed))) = 65535 := by
  have h1 := wordSum_le (PacketIcmp.layout.enc { icmp with header_checksum := 0 } ++ data)
  have h2 := wordSum_le summed
  rw [List.length_append, PacketIcmp.layout.enc_length, PacketIcmp.layout_size] at h1
  rw [generatechecksum_eq_zero, wordSum_icmp icmp, toNat_generatechecksum,
    Nat.mod_eq_of_lt (a := wordSum summed) (by omega), Nat.mod_eq_of_lt (by omega)]

/-- The sum of the memory behind a frame that completes a message of `n` bytes to 64. -/
def Env.beyondSum (env : Env) (n : Nat) : Nat :=
  wordSum (List.replicate n 0 ++ (List.range (64 - n)).map env.beyond)

theorem beyondSum_eq_zero (env : Env) {n : Nat} (h : 64 ≤ n) : env.beyondSum n = 0 := by
  unfold Env.beyondSum
  rw [wordSum_eq_zero_iff, Nat.sub_eq_zero_of_le h, List.range_zero, List.map_nil, List.append_nil]
  exact fun b hb => List.eq_of_mem_replicate hb

/-- What the checksum leaves out of a long message, and what it takes from behind a short one, is 0
modulo 65535.  If the rest of a short message is zero, only zeros are taken. -/
structure EchoSums (env : Env) (pi : PacketInfo) : Prop where
  left_out : wordSum (pi.payload.drop 64) % 65535 = 0
  beyond : env.beyondSum pi.payload.length % 65535 = 0
  zeros : pi.icmp.code = 0 ∧ (∀ b ∈ pi.payload.drop 4, b = 0) → env.beyondSum pi.payload.length = 0

theorem echoed_length {pi : PacketInfo} (h : 8 ≤ pi.payload.length) :
    pi.echoed.length = pi.payload.length := PacketInfo.icmp_length h _

/-- Apart from its first four bytes the message is that of the request. -/
theorem echoed_eq {pi : PacketInfo} (h : 8 ≤ pi.payload.length) :
    pi.echoed = [0, pi.icmp.code, 0, 0] ++ pi.payload.drop 4 := by
  have hdrop : pi.payload.drop 4 =
      u16le.enc pi.icmp.id ++ u16le.enc pi.icmp.seq_num ++ pi.payload.drop 8 := by
    conv_lhs => rw [PacketInfo.payload_icmp h, PacketIcmp.enc_split]
    rfl
  have hzero : u16le.enc 0 = [0, 0] := rfl
  unfold PacketInfo.echoed
  rw [hdrop, PacketIcmp.enc_split, hzero]
  rfl

theorem wordSum_echoed_eq_zero {pi : PacketInfo} (h : 8 ≤ pi.payload.length) :
    wordSum pi.echoed = 0 ↔ pi.icmp.code = 0 ∧ ∀ b ∈ pi.payload.drop 4, b = 0 := by
  rw [wordSum_eq_zero_iff, echoed_eq h, List.forall_mem_append]
  simp

/-- **A long message** is summed in part. -/
theorem echo_partial_iff (env : Env) {pi : PacketInfo} (h : 64 ≤ pi.payload.length)
    (hlen : pi.payload.length ≤ 65515) :
    fold16 (wordSum pi.echoed + (65535 - fold16 (wordSum (echoSummed env pi)))) = 65535 ↔
      EchoSums env pi := by
  have hbeyond := beyondSum_eq_zero env h
  have hecho := echoed_length (show 8 ≤ pi.payload.length by omega)
  have htake : echoSummed env pi = pi.echoed.take 64 := List.take_append_of_le_length (by omega)
  have hdrop : pi.echoed.drop 64 = pi.payload.drop 64 := by
    rw [echoed_eq (by omega)]
    exact List.drop_drop
  have hsum : wordSum pi.echoed = wordSum (pi.echoed.take 64) + wordSum (pi.payload.drop 64) := by
    rw [← hdrop, ← wordSum_append _ _ (by rw [List.length_take]; omega), List.take_append_drop]
  have hbound := wordSum_le pi.echoed
  rw [htake, hsum, fold16_partial_iff (by omega)]
  exact ⟨fun hrest => ⟨hrest, by rw [hbeyond], fun _ => hbeyond⟩, EchoSums.left_out⟩

/-- **A short message** is summed with what lies behind it. -/
theorem echo_excess_iff (env : Env) {pi : PacketInfo} (h8 : 8 ≤ pi.payload.length)
    (h : pi.payload.length < 64) :
    fold16 (wordSum pi.echoed + (65535 - fold16 (wordSum (echoSummed env pi)))) = 65535 ↔
      EchoSums env pi := by
  have hecho := echoed_length h8
  have htake : echoSummed env pi =
      pi.echoed ++ (List.range (64 - pi.payload.length)).map env.beyond := by
    unfold echoSummed
    rw [List.take_append, List.take_of_length_le (by omega), ← List.map_take, List.take_range,
      hecho, Nat.min_eq_left (by omega)]
  have hsum : wordSum (echoSummed env pi) =
      wordSum pi.echoed + env.beyondSum pi.payload.length := by
    rw [htake, wordSum_append_replicate, hecho]
    rfl
  have hbound := wordSum_le (echoSummed env pi)
  have h64 : (echoSummed env pi).length ≤ 64 := List.length_take_le ..
  have hrest : wordSum (pi.payload.drop 64) % 65535 = 0 := by
    rw [List.drop_of_length_le (by omega)]
    rfl
  rw [hsum, fold16_excess_iff (by omega), wordSum_echoed_eq_zero h8]
  exact ⟨fun hx => ⟨hrest, hx.1, hx.2⟩, fun hs => ⟨hs.beyond, hs.zeros⟩⟩

/-- **The checksum of the reply** is right exactly if what it misses or adds makes no difference. -/
theorem echoFrame_checksum_iff (env : Env) (r : Router) {pi : PacketInfo}
    (h8 : 8 ≤ pi.payload.length) (hlen : pi.payload.length ≤ 65515) :
    generatechecksum (echoFrame env r pi).payload = 0 ↔ EchoSums env pi := by
  have hdata : (pi.payload.drop 8).length ≤ 65507 := by
    rw [List.length_drop]
    omega
  have hsummed : (echoSummed env pi).length ≤ 65515 :=
    (List.length_take_le ..).trans (by decide)
  unfold echoFrame echoIcmp
  rw [PacketInfo.ofParts_payload,
    icmp_checksum_iff { pi.icmp with type := Icmp.typeReplay } hdata hsummed]
  rcases Nat.lt_or_ge pi.payload.length 64 with h64 | h64
  · exact echo_excess_iff env h8 h64
  · exact echo_partial_iff env h64 hlen

/-! ## Requests and replies -/

/-- A well-formed echo request to an address of the router. -/
structure EchoRequest (r : Router) (pi : PacketInfo) : Prop where
  header : ipHeaderCheck pi.ipv4 = true
  own : ¬ r.Foreign pi.ipv4.dst_ip
  ttl : 1 ≤ pi.ipv4.ttl
  protocol : pi.ipv4.protocol = ipTypeIcmp
  total_length : (ntohs pi.ipv4.total_length).toNat + 14 = pi.packet.length
  message : 28 ≤ (ntohs pi.ipv4.total_length).toNat
  type : pi.icmp.type = Icmp.typeRequest
  checksum : generatechecksum pi.payload = 0

/-- `frame` is a valid reply to the request `pi`. -/
structure EchoReply (pi frame : PacketInfo) : Prop where
  interface : frame.interface = pi.interface
  eth : frame.eth = ⟨pi.eth.source_mac, pi.eth.dest_mac, htons ethIpType⟩
  src_ip : frame.ipv4.src_ip = pi.ipv4.dst_ip
  dst_ip : frame.ipv4.dst_ip = pi.ipv4.src_ip
  protocol : frame.ipv4.protocol = pi.ipv4.protocol
  total_length : frame.ipv4.total_length = pi.ipv4.total_length
  header : ipHeaderCheck frame.ipv4 = true
  type : frame.icmp.type = Icmp.typeReplay
  id : frame.icmp.id = pi.icmp.id
  seq_num : frame.icmp.seq_num = pi.icmp.seq_num
  length : frame.payload.length = pi.payload.length
  data : frame.payload.drop 8 = pi.payload.drop 8
  checksum : generatechecksum frame.payload = 0

section Requests

variable {r : Router} {pi : PacketInfo}

theorem EchoRequest.payload_length (h : EchoRequest r pi) :
    8 ≤ pi.payload.length ∧ pi.payload.length ≤ 65515 := by
  have := pi.packet_length
  have := h.total_length
  have := h.message
  have := (ntohs pi.ipv4.total_length).isLt
  omega

theorem EchoRequest.verdict (h : EchoRequest r pi) (env : Env) :
    ipVerdict env r pi = .echoReplay := by
  obtain ⟨i, hi⟩ := Option.isSome_iff_exists.1 ((ownInterface_isSome_iff r _).2 h.own)
  have httl : pi.ipv4.ttl ≠ 0 := by
    have := h.ttl
    bv_omega
  have hicmp : PacketIcmp.layout.load 34 (pi.memory env 8) = pi.icmp := by
    rw [PacketInfo.memory_icmp env h.payload_length.1,
      PacketIcmp.layout.load_append _ _ pi.take_length]
  have hospf : ¬ (pi.ipv4.dst_ip = allSPFRouters ∧ pi.ipv4.protocol = ipTypeOspf) := by
    rw [h.protocol]
    exact fun hp => absurd hp.2 (by decide)
  unfold ipVerdict
  rw [if_neg (not_not.2 h.header), if_neg hospf, hi]
  simp only
  unfold deliverVerdict
  simp only [hicmp]
  rw [if_neg httl, if_pos h.protocol, if_pos h.type]

/-- **Every request is answered** with one frame on the interface it came from. -/
theorem EchoRequest.answered (h : EchoRequest r pi) (env : Env) :
    ipOnreceive env r pi = some ({ r with ip_id := r.ip_id + 1 }.output pi.interface
      (echoFrame env r pi).packet) := by
  rw [ipOnreceive_perform, h.verdict]
  unfold Verdict.perform
  rw [icmpTypeEchoReplay_eq env r h.payload_length.1]

/-- It is the only one. -/
theorem EchoRequest.frame_eq (h : EchoRequest r pi) {env : Env} {r' : Router} {frame : PacketInfo}
    (hr' : ipOnreceive env r pi = some r')
    (hsent : r'.sent = r.sent ++ [⟨frame.interface, frame.packet⟩]) :
    frame = echoFrame env r pi := by
  obtain ⟨packet, interface, hfits⟩ := frame
  rw [h.answered env] at hr'
  obtain rfl := Option.some.inj hr'
  have hframe : (⟨pi.interface, (echoFrame env r pi).packet⟩ : Sent) = ⟨interface, packet⟩ :=
    List.singleton_inj.1 (List.append_cancel_left hsent)
  obtain ⟨rfl, rfl⟩ := Sent.mk.inj hframe
  rfl

/-- Up to its checksum the answer is right. -/
theorem EchoRequest.echoReply_iff (h : EchoRequest r pi) (env : Env) :
    EchoReply pi (echoFrame env r pi) ↔ EchoSums env pi := by
  obtain ⟨h8, hlen⟩ := h.payload_length
  rw [← echoFrame_checksum_iff env r h8 hlen]
  have hpayload : (echoFrame env r pi).payload =
      PacketIcmp.layout.enc (echoIcmp env pi) ++ pi.payload.drop 8 := PacketInfo.ofParts_payload ..
  have hicmp : (echoFrame env r pi).icmp = echoIcmp env pi := by
    show PacketIcmp.layout.dec (echoFrame env r pi).payload = _
    rw [hpayload, PacketIcmp.layout.dec_append]
  have hip : (echoFrame env r pi).ipv4 =
      responseHeader r pi.ipv4 pi.ipv4.src_ip pi.ipv4.dst_ip 64 := PacketInfo.ofParts_ipv4 ..
  refine ⟨fun hreply => hreply.checksum, fun hsum => ?_⟩
  exact
    { interface := rfl
      eth := PacketInfo.ofParts_eth ..
      src_ip := by rw [hip]; rfl
      dst_ip := by rw [hip]; rfl
      protocol := by rw [hip]; rfl
      total_length := by rw [hip]; rfl
      header := by
        rw [hip]
        exact ipHeaderCheck_responseHeader h.header ..
      type := by rw [hicmp]; rfl
      id := by rw [hicmp]; rfl
      seq_num := by rw [hicmp]; rfl
      length := by
        rw [hpayload]
        exact PacketInfo.icmp_length h8 _
      data := by
        rw [hpayload]
        exact List.drop_left' (PacketIcmp.layout.enc_length _)
      checksum := hsum }

/-- **Echo replies** are valid for the requests whose missing or added words sum to nothing. -/
theorem echo_reply_iff (env : Env) (h : EchoRequest r pi) :
    (∃ r' frame, ipOnreceive env r pi = some r' ∧
      r'.sent = r.sent ++ [⟨frame.interface, frame.packet⟩] ∧ EchoReply pi frame) ↔
    EchoSums env pi := by
  rw [← h.echoReply_iff env]
  constructor
  · rintro ⟨r', frame, hr', hsent, hreply⟩
    rw [← h.frame_eq hr' hsent]
    exact hreply
  · intro hreply
    exact ⟨_, _, h.answered env, rfl, hreply⟩

end Requests

def pingHeader (n : Nat) : PacketIp4 :=
  PacketIp4.updateChecksum ⟨5, 4, 0, htons (BitVec.ofNat 16 (28 + n)), 7, 0, 64, ipTypeIcmp, 0,
    ipConvert 192 168 1 7, ipConvert 192 168 1 1⟩

/-- An echo request from 192.168.1.7 to the address of the interface it arrives on. -/
def ping (data : List Byte) : PacketInfo :=
  .ofParts ⟨smallEth1.mac, ⟨2, 0, 0, 0, 0, 9⟩, htons ethIpType⟩ (pingHeader data.length)
    (icmpMessage Icmp.typeRequest 0 1 1 data) 1

theorem pingHeader_length {n : Nat} (h : n ≤ 65507) :
    (ntohs (pingHeader n).total_length).toNat = 28 + n := by
  show (ntohs (htons (BitVec.ofNat 16 (28 + n)))).toNat = 28 + n
  rw [ntohs_htons, BitVec.toNat_ofNat]
  omega

theorem pingHeader_valid {n : Nat} (h : n ≤ 65507) : ipHeaderCheck (pingHeader n) = true := by
  have hlength : htons (BitVec.ofNat 16 (28 + n)) ≠ 0 := htons_ofNat_ne_zero (by omega) (by omega)
  exact PacketIp4.ipHeaderCheck_fresh rfl rfl hlength unfragmented

theorem ping_request {data : List Byte} (h : data.length ≤ 65507) :
    EchoRequest smallRouter (ping data) := by
  have hip : (ping data).ipv4 = pingHeader data.length := PacketInfo.ofParts_ipv4 ..
  have hpayload : (ping data).payload = icmpMessage Icmp.typeRequest 0 1 1 data :=
    PacketInfo.ofParts_payload ..
  have hicmp : (ping data).icmp.type = Icmp.typeRequest := by
    show (PacketIcmp.layout.dec (ping data).payload).type = _
    rw [hpayload]
    unfold icmpMessage
    simp only [PacketIcmp.layout.dec_append]
  have hlength := pingHeader_length h
  refine ⟨?_, ?_, ?_, ?_, ?_, ?_, hicmp, ?_⟩
  · rw [hip]
    exact pingHeader_valid h
  · rw [hip]
    exact fun hforeign => hforeign 1 (by decide) rfl
  · rw [hip]
    exact show (1 : Byte) ≤ 64 by decide
  · rw [hip]
    rfl
  · rw [hip, hlength, (ping data).packet_length, hpayload, icmpMessage_length]
    omega
  · rw [hip, hlength]
    omega
  · rw [hpayload]
    exact generatechecksum_icmpMessage _ _ _ _ h

/-- A request with 56 bytes of data is summed as a whole. -/
theorem echo_reply_ping :
    ∃ r' frame, ipOnreceive smallEnv smallRouter (ping (List.replicate 56 7)) = some r' ∧
      r'.sent = smallRouter.sent ++ [⟨frame.interface, frame.packet⟩] ∧
      EchoReply (ping (List.replicate 56 7)) frame :=
  (echo_reply_iff smallEnv (ping_request (by decide))).2
    ⟨by decide +kernel, by decide +kernel, fun _ => by decide +kernel⟩

/-- With two bytes more the reply has a wrong checksum. -/
theorem echo_reply_long :
    EchoRequest smallRouter (ping (List.replicate 58 7)) ∧
      ¬ ∃ r' frame, ipOnreceive smallEnv smallRouter (ping (List.replicate 58 7)) = some r' ∧
        r'.sent = smallRouter.sent ++ [⟨frame.interface, frame.packet⟩] ∧
        EchoReply (ping (List.replicate 58 7)) frame := by
  have h : EchoRequest smallRouter (ping (List.replicate 58 7)) := ping_request (by decide)
  refine ⟨h, ?_⟩
  rintro ⟨r', frame, hr', hsent, hreply⟩
  rw [h.frame_eq hr' hsent, h.echoReply_iff] at hreply
  exact absurd hreply.left_out (by decide +kernel)

end BirRouter
