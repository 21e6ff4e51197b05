import BirRouter.IpVerdict

/-!
# What is read of a received frame (`router_handle_packet`)

The handlers test the length of a frame with `PACKET_CAN_MARSHALL` before they look at a header.  Here
they are written out with reads that fail beyond the end of the frame.

* `packetCanMarshall` — the test, an unsigned difference; it says what it should once the frame is known
  to reach to the offset (`packetCanMarshall_iff`);
* `ipReads`, `routerHandlePacketReads` — the handlers, with the decision they come to;
* `ipReads_eq` — if no read fails, the decision is that of `ip_onreceive`, and a read fails only on an
  ICMP message for the router, whose header is not tested, and when `ip_print` prints a TCP header;
* `frame_reads_inside_iff` — the frames on which no read fails.
-/

set_option autoImplicit false

namespace BirRouter

open ByteLayout

/-! ## The length test -/

/-- `PACKET_CAN_MARSHALL`; the difference has type `size_t`. -/
def packetCanMarshall (size offset : Nat) (len : BitVec 32) : Bool :=
  BitVec.ofNat 64 size ≤ len.setWidth 64 - BitVec.ofNat 64 offset

theorem packetCanMarshall_iff {size offset : Nat} {len : BitVec 32} (hsize : size < 4294967296)
    (hoffset : offset ≤ len.toNat) :
    packetCanMarshall size offset len = true ↔ offset + size ≤ len.toNat := by
  have hlen := len.isLt
  rw [packetCanMarshall, decide_eq_true_iff, BitVec.le_def, BitVec.toNat_sub, BitVec.toNat_setWidth,
    BitVec.toNat_ofNat, BitVec.toNat_ofNat]
  omega

/-- A received frame, with a length that `pi->len` can hold. -/
structure Frame where
  packet : List Byte
  interface : Nat
  len_lt : packet.length < 4294967296

namespace Frame

def len (f : Frame) : BitVec 32 := BitVec.ofNat 32 f.packet.length

theorem toNat_len (f : Frame) : f.len.toNat = f.packet.length := by
  have := f.len_lt
  rw [len, BitVec.toNat_ofNat]
  omega

/-- The frame as an IP packet, if its IP header can be read. -/
def ip? (f : Frame) : Option PacketInfo :=
  if h : 34 ≤ f.packet.length then some ⟨f.packet, f.interface, h⟩ else none

end Frame

/-! ## The handlers -/

/-- `packet_tcp_t`; `flags` are the bit fields from `offset` to `FIN`. -/
structure PacketTcp where
  source_port : BitVec 16
  destination_port : BitVec 16
  sequence_number : BitVec 32
  ACK_number : BitVec 32
  flags : BitVec 16
  window_size : BitVec 16
  checksum : BitVec 16
  urgent_pointer : BitVec 16
  deriving DecidableEq, Repr

def PacketTcp.layout : Layout PacketTcp :=
  (u16le.seq (u16le.seq (u32le.seq (u32le.seq (u16le.seq (u16le.seq (u16le.seq u16le))))))).iso
    (fun (s, d, q, a, f, w, c, u) => ⟨s, d, q, a, f, w, c, u⟩)
    (fun t => (t.source_port, t.destination_port, t.sequence_number, t.ACK_number, t.flags,
      t.window_size, t.checksum, t.urgent_pointer))
    (fun _ => rfl) (fun _ => rfl)

section Reads

variable (env : Env) (r : Router) (echo : Nat) (print : Bool) (len : BitVec 32) (pi : PacketInfo)

/-- `pwospf_onreceive`, up to the headers of HELLO and LSU packets. -/
def pwospfReads : Option Verdict := do
  let packet ← PwospfPacket.layout.load? 34 pi.packet
  if packet.version ≠ 2 then some .pwospf
  else if ntohl packet.area_id ≠ r.pw_router.area_id then some .pwospf
  else if packet.auth_type ≠ 0 then some .pwospf
  else if packet.type = ospfTypeHello then
    if packetCanMarshall 32 34 len then do
      let _ ← PwospfPacketHello.layout.load? 34 pi.packet
      some .pwospf
    else some .pwospf
  else if packet.type = ospfTypeLink then
    if packetCanMarshall 32 34 len then do
      let _ ← PwospfPacketLink.layout.load? 34 pi.packet
      some .pwospf
    else some .pwospf
  else some .pwospf

def ospfReads : Option Verdict :=
  if packetCanMarshall 24 34 len then pwospfReads r len pi else some .pwospf

/-- The ICMP case of `ip_onreceive`, which does not test the length.  Of a request `echo` bytes are
read: 8 of them are the header, 64 are all of `packet_icmp_t`, over which the checksum of the answer
is computed. -/
def icmpReads (i : Nat) : Option Verdict := do
  let type ← u8.load? 34 pi.packet
  if type = Icmp.typeRequest then
    if 34 + echo ≤ pi.packet.length then some .echoReplay else none
  else if type = Icmp.typeReplay then do
    let seq_num ← u16le.load? 40 pi.packet
    if env.cliPingHandleReply pi.ipv4.src_ip seq_num then some .ignore
    else some (.error ⟨.interface i, Icmp.typeDstUnreach, Icmp.codePortUnreach⟩)
  else some .ignore

/-- The UDP case of `ip_onreceive`; the data of the datagram is not a header. -/
def udpReads (i : Nat) : Option Verdict :=
  if packetCanMarshall 8 34 len then do
    let _ ← PacketUdp.layout.load? 34 pi.packet
    some (udpVerdict env pi i)
  else some (.error ⟨.interface i, Icmp.typeDstUnreach, Icmp.codePortUnreach⟩)

def deliverReads (i : Nat) : Option Verdict :=
  if pi.ipv4.ttl = 0 then some (.error ⟨.interface i, Icmp.typeTimeExceeded, 0⟩)
  else if pi.ipv4.protocol = ipTypeIcmp then icmpReads env echo pi i
  else if pi.ipv4.protocol = ipTypeTcp then some .transport
  else if pi.ipv4.protocol = ipTypeOspf then ospfReads r len pi
  else if pi.ipv4.protocol = ipTypeUdp then udpReads env len pi i
  else some (.error ⟨.interface i, Icmp.typeDstUnreach, Icmp.codeProtUnreach⟩)

/-- `ip_print` of a packet whose header was rejected.  Of a TCP packet it prints the header without a
test; the data that it prints is not a header. -/
def ipPrintReads : Option Verdict :=
  if pi.ipv4.protocol = ipTypeTcp then do
    let _ ← PacketTcp.layout.load? 34 pi.packet
    some .ignore
  else some .ignore

/-- `ip_onreceive` for a frame whose IP header was read.  A rejected frame is followed up to the `FALSE`
of `ip_header_check`, or with `print` up to the `return`. -/
def ipReads : Option Verdict :=
  if ¬ ipHeaderCheck pi.ipv4 then if print then ipPrintReads pi else some .ignore
  else if pi.ipv4.dst_ip = allSPFRouters ∧ pi.ipv4.protocol = ipTypeOspf then ospfReads r len pi
  else
    match ownInterface r pi.ipv4.dst_ip with
    | some i => deliverReads env r echo len pi i
    | none => some (forwardVerdict r pi)

end Reads

/-- What `router_handle_packet` does with a frame. -/
inductive Handled
  | rejected
  | arp (arp : PacketArp)
  | ip (verdict : Verdict)

/-- `router_handle_packet`. -/
def routerHandlePacketReads (env : Env) (r : Router) (echo : Nat) (print : Bool) (f : Frame) :
    Option Handled :=
  if packetCanMarshall 14 0 f.len then do
    let eth ← PacketEthernet.layout.load? 0 f.packet
    if ntohs eth.type = ethArpType then
      if packetCanMarshall 28 14 f.len then do
        let arp ← PacketArp.layout.load? 14 f.packet
        some (.arp arp)
      else some .rejected
    else if ntohs eth.type = ethIpType then
      if packetCanMarshall 20 14 f.len then do
        let pi ← f.ip?
        let verdict ← ipReads env r echo print f.len pi
        some (.ip verdict)
      else some .rejected
    else some .rejected
  else some .rejected

/-! ## Headers that are tested -/

section Tested

variable {env : Env} {r : Router} {len : BitVec 32} {pi : PacketInfo}

/-- A header behind the IP header that is read only after the test. -/
theorem load?_tested {α : Type} (A : Layout α) {size : Nat} (hsize : A.size = size)
    (hsmall : size < 4294967296) (hlen : len.toNat = pi.packet.length)
    (h : packetCanMarshall size 34 len = true) :
    A.load? 34 pi.packet = some (A.load 34 pi.packet) := by
  have hfits := pi.ip_fits
  rw [packetCanMarshall_iff hsmall (by omega), hlen] at h
  exact A.load?_of_le (by omega)

theorem ite_tested {α : Type} (A : Layout α) {size : Nat} (hsize : A.size = size)
    (hsmall : size < 4294967296) (hlen : len.toNat = pi.packet.length) (v w : Verdict) :
    (if packetCanMarshall size 34 len then (do let _ ← A.load? 34 pi.packet; some v) else some w) =
      some (if packetCanMarshall size 34 len then v else w) := by
  split
  · rename_i h
    rw [load?_tested A hsize hsmall hlen h]
    rfl
  · rfl

theorem ospfReads_eq (hlen : len.toNat = pi.packet.length) : ospfReads r len pi = some .pwospf := by
  unfold ospfReads
  split
  · rename_i h
    unfold pwospfReads
    rw [load?_tested PwospfPacket.layout PwospfPacket.layout_size (by decide) hlen h]
    show (if _ then _ else _) = some Verdict.pwospf
    -- every branch comes to the same decision
    rw [ite_tested PwospfPacketHello.layout PwospfPacketHello.layout_size (by decide) hlen,
      ite_tested PwospfPacketLink.layout PwospfPacketLink.layout_size (by decide) hlen]
    simp only [ite_self]
  · rfl

theorem udpReads_eq (hlen : len.toNat = pi.packet.length) (i : Nat) :
    udpReads env len pi i = some (udpVerdict env pi i) := by
  have hfits := pi.ip_fits
  have htest : packetCanMarshall 8 34 len = true ↔ 42 ≤ pi.packet.length := by
    rw [packetCanMarshall_iff (by decide) (by omega), hlen]
  unfold udpReads
  rw [ite_tested PacketUdp.layout PacketUdp.layout_size (by decide) hlen]
  split
  · rfl
  · rename_i h
    unfold udpVerdict
    rw [if_neg (mt htest.2 h)]

end Tested

/-! ## ICMP messages for the router -/

/-- An ICMP message that is looked at. -/
structure IcmpToRouter (r : Router) (pi : PacketInfo) : Prop where
  header : ipHeaderCheck pi.ipv4 = true
  own : ¬ r.Foreign pi.ipv4.dst_ip
  ttl : pi.ipv4.ttl ≠ 0
  protocol : pi.ipv4.protocol = ipTypeIcmp

/-- The frame holds what is read of the message. -/
structure IcmpInside (echo : Nat) (pi : PacketInfo) : Prop where
  type : 35 ≤ pi.packet.length
  seq_num : u8.load 34 pi.packet = Icmp.typeReplay → 42 ≤ pi.packet.length
  request : u8.load 34 pi.packet = Icmp.typeRequest → 34 + echo ≤ pi.packet.length

section Messages

variable {env : Env} {r : Router} {echo : Nat} {pi : PacketInfo}

theorem memory_take (env : Env) (pi : PacketInfo) (n : Nat) :
    (pi.memory env n).take pi.packet.length = pi.packet := List.take_left

/-- A record that the frame holds is the one in the memory. -/
theorem load_memory {α : Type} (A : Layout α) {off : Nat} (h : off + A.size ≤ pi.packet.length)
    (n : Nat) : A.load off (pi.memory env n) = A.load off pi.packet := by
  refine A.load_of_take_eq (n := pi.packet.length) ?_ h ?_ (Nat.le_refl _)
  · rw [memory_take, List.take_length]
  · rw [PacketInfo.memory, List.length_append]
    omega

/-- The fields of the message in the memory. -/
theorem icmp_type_memory (memory : List Byte) :
    (PacketIcmp.layout.load 34 memory).type = u8.load 34 memory := rfl

theorem icmp_seq_num_memory (memory : List Byte) :
    (PacketIcmp.layout.load 34 memory).seq_num = u16le.load 40 memory := by
  have h40 : (((memory.drop 34).drop 1).drop 1).drop 2 = memory.drop 38 := by
    rw [List.drop_drop, List.drop_drop, List.drop_drop]
  show u16le.dec (((((memory.drop 34).drop 1).drop 1).drop 2).drop 2) = _
  rw [h40, List.drop_drop]
  rfl

theorem icmpReads_isSome (i : Nat) :
    (icmpReads env echo pi i).isSome = true ↔ IcmpInside echo pi := by
  unfold icmpReads
  by_cases h35 : 35 ≤ pi.packet.length
  · rw [u8.load?_of_le h35, Option.bind_eq_bind, Option.bind_some]
    split
    · rename_i hrequest
      have hne : u8.load 34 pi.packet ≠ Icmp.typeReplay := by rw [hrequest]; decide
      split
      · rename_i hin
        exact iff_of_true rfl ⟨h35, fun h => absurd h hne, fun _ => hin⟩
      · rename_i hout
        exact iff_of_false Bool.false_ne_true fun h => hout (h.request hrequest)
    · rename_i hrequest
      split
      · rename_i hreplay
        by_cases h42 : 42 ≤ pi.packet.length
        · rw [u16le.load?_of_le h42, Option.bind_eq_bind, Option.bind_some]
          refine iff_of_true ?_ ⟨h35, fun _ => h42, fun h => absurd h hrequest⟩
          split <;> rfl
        · rw [u16le.load?_of_lt (Nat.lt_of_not_le h42)]
          exact iff_of_false Bool.false_ne_true fun h => h42 (h.seq_num hreplay)
      · rename_i hreplay
        exact iff_of_true rfl ⟨h35, fun h => absurd h hreplay, fun h => absurd h hrequest⟩
  · rw [u8.load?_of_lt (Nat.lt_of_not_le h35)]
    exact iff_of_false Bool.false_ne_true fun h => h35 h.type

theorem icmpReads_of_inside (i : Nat) (httl : pi.ipv4.ttl ≠ 0)
    (hicmp : pi.ipv4.protocol = ipTypeIcmp) (h : IcmpInside echo pi) :
    icmpReads env echo pi i = some (deliverVerdict env pi i) := by
  have htype : u8.load 34 (pi.memory env 8) = u8.load 34 pi.packet := load_memory u8 h.type 8
  unfold icmpReads deliverVerdict
  rw [u8.load?_of_le h.type, Option.bind_eq_bind, Option.bind_some, if_neg httl, if_pos hicmp]
  simp only [icmp_type_memory, icmp_seq_num_memory, htype]
  by_cases hrequest : u8.load 34 pi.packet = Icmp.typeRequest
  · rw [if_pos hrequest, if_pos hrequest, if_pos (h.request hrequest)]
  · rw [if_neg hrequest, if_neg hrequest]
    by_cases hreplay : u8.load 34 pi.packet = Icmp.typeReplay
    · have h42 := h.seq_num hreplay
      rw [if_pos hreplay, if_pos hreplay, u16le.load?_of_le h42, Option.bind_eq_bind,
        Option.bind_some, load_memory u16le h42 8]
      split <;> rfl
    · rw [if_neg hreplay, if_neg hreplay]

end Messages

/-! ## The frames that are read inside -/

/-- The frame holds the headers that are read without a test: of an ICMP message for the router, and
with `print` of a TCP packet with a header that is rejected. -/
structure HeadersInside (r : Router) (echo : Nat) (print : Bool) (pi : PacketInfo) : Prop where
  icmp : IcmpToRouter r pi → IcmpInside echo pi
  tcp : print = true → ¬ ipHeaderCheck pi.ipv4 = true → pi.ipv4.protocol = ipTypeTcp →
    54 ≤ pi.packet.length

section Inside

variable {r : Router} {echo : Nat} {print : Bool} {len : BitVec 32} {pi : PacketInfo}

theorem ipPrintReads_isSome :
    (ipPrintReads pi).isSome = true ↔ (pi.ipv4.protocol = ipTypeTcp → 54 ≤ pi.packet.length) := by
  unfold ipPrintReads
  split
  · rename_i htcp
    rw [forall_prop_of_true htcp]
    by_cases h54 : 54 ≤ pi.packet.length
    · rw [PacketTcp.layout.load?_of_le h54]
      exact iff_of_true rfl h54
    · rw [PacketTcp.layout.load?_of_lt (Nat.lt_of_not_le h54)]
      exact iff_of_false Bool.false_ne_true h54
  · rename_i htcp
    exact iff_of_true rfl fun h => absurd h htcp

theorem ipPrintReads_ignores {v : Verdict} (h : ipPrintReads pi = some v) : v = .ignore := by
  unfold ipPrintReads at h
  split at h
  · obtain ⟨_, _, hv⟩ := Option.bind_eq_some_iff.1 h
    exact (Option.some.inj hv).symm
  · exact (Option.some.inj h).symm

theorem deliverReads_eq {env : Env} (i : Nat) (hlen : len.toNat = pi.packet.length)
    (h : pi.ipv4.ttl ≠ 0 → pi.ipv4.protocol ≠ ipTypeIcmp) :
    deliverReads env r echo len pi i = some (deliverVerdict env pi i) := by
  unfold deliverReads deliverVerdict
  rw [ospfReads_eq hlen, udpReads_eq hlen]
  by_cases httl : pi.ipv4.ttl = 0
  · simp only [if_pos httl]
  · simp only [if_neg httl, if_neg (h httl)]
    split
    · rfl
    · split
      · rfl
      · split <;> rfl

/-- A rejected header. -/
theorem ipReads_rejected (env : Env) (hheader : ¬ ipHeaderCheck pi.ipv4 = true) :
    ((ipReads env r echo print len pi).isSome = true ↔ HeadersInside r echo print pi) ∧
    ∀ v, ipReads env r echo print len pi = some v → ipVerdict env r pi = v := by
  have hverdict : ipVerdict env r pi = .ignore := by rw [ipVerdict, if_pos hheader]
  have hicmp : ¬ IcmpToRouter r pi := fun h => hheader h.header
  rw [ipReads, if_pos hheader, hverdict]
  split
  · rename_i hprint
    refine ⟨ipPrintReads_isSome.trans ?_, fun v hv => (ipPrintReads_ignores hv).symm⟩
    exact ⟨fun h => ⟨fun hi => absurd hi hicmp, fun _ _ => h⟩, fun h => h.tcp hprint hheader⟩
  · rename_i hprint
    exact ⟨iff_of_true rfl ⟨fun hi => absurd hi hicmp, fun h => absurd h hprint⟩,
      fun v hv => Option.some.inj hv⟩

/-- An ICMP message for the router. -/
theorem ipReads_icmp (env : Env) (hicmp : IcmpToRouter r pi) :
    ((ipReads env r echo print len pi).isSome = true ↔ IcmpInside echo pi) ∧
    ∀ v, ipReads env r echo print len pi = some v → ipVerdict env r pi = v := by
  have hspf : ¬ (pi.ipv4.dst_ip = allSPFRouters ∧ pi.ipv4.protocol = ipTypeOspf) := by
    rintro ⟨_, hospf⟩
    exact absurd (hicmp.protocol.symm.trans hospf) (by decide)
  obtain ⟨i, hi⟩ := Option.isSome_iff_exists.1 ((ownInterface_isSome_iff r _).2 hicmp.own)
  have hreads : ipReads env r echo print len pi = icmpReads env echo pi i := by
    rw [ipReads, if_neg (not_not.2 hicmp.header), if_neg hspf, hi]
    simp only [deliverReads]
    rw [if_neg hicmp.ttl, if_pos hicmp.protocol]
  have hverdict : ipVerdict env r pi = deliverVerdict env pi i := by
    rw [ipVerdict, if_neg (not_not.2 hicmp.header), if_neg hspf, hi]
  rw [hreads, hverdict]
  refine ⟨icmpReads_isSome i, fun v hv => ?_⟩
  have hinside := (icmpReads_isSome i).1 (by rw [hv]; rfl)
  rw [icmpReads_of_inside i hicmp.ttl hicmp.protocol hinside] at hv
  exact Option.some.inj hv

/-- Everything else is tested. -/
theorem ipReads_tested (env : Env) (hlen : len.toNat = pi.packet.length)
    (hheader : ipHeaderCheck pi.ipv4 = true) (hicmp : ¬ IcmpToRouter r pi) :
    ipReads env r echo print len pi = some (ipVerdict env r pi) := by
  rw [ipReads, ipVerdict, ospfReads_eq hlen, if_neg (not_not.2 hheader), if_neg (not_not.2 hheader)]
  by_cases hspf : pi.ipv4.dst_ip = allSPFRouters ∧ pi.ipv4.protocol = ipTypeOspf
  · rw [if_pos hspf, if_pos hspf]
  · rw [if_neg hspf, if_neg hspf]
    cases hown : ownInterface r pi.ipv4.dst_ip with
    | none => rfl
    | some i =>
      have hforeign := (ownInterface_isSome_iff r pi.ipv4.dst_ip).1 (by rw [hown]; rfl)
      exact deliverReads_eq i hlen fun httl hproto => hicmp ⟨hheader, hforeign, httl, hproto⟩

/-- **No read fails but in an ICMP message and in `ip_print`**, and if none does the decision is that of
`ip_onreceive`. -/
theorem ipReads_eq (env : Env) (hlen : len.toNat = pi.packet.length) :
    ((ipReads env r echo print len pi).isSome = true ↔ HeadersInside r echo print pi) ∧
    ∀ v, ipReads env r echo print len pi = some v → ipVerdict env r pi = v := by
  by_cases hheader : ipHeaderCheck pi.ipv4 = true
  · have htcp : ¬ ¬ ipHeaderCheck pi.ipv4 = true := not_not.2 hheader
    by_cases hicmp : IcmpToRouter r pi
    · refine ⟨(ipReads_icmp env hicmp).1.trans ?_, (ipReads_icmp env hicmp).2⟩
      exact ⟨fun h => ⟨fun _ => h, fun _ hn => absurd hn htcp⟩, fun h => h.icmp hicmp⟩
    · rw [ipReads_tested env hlen hheader hicmp]
      exact ⟨iff_of_true rfl ⟨fun h => absurd h hicmp, fun _ hn => absurd hn htcp⟩,
        fun v hv => Option.some.inj hv⟩
  · exact ipReads_rejected env hheader

end Inside

theorem Frame.ip?_eq_some {f : Frame} {pi : PacketInfo} (h : f.ip? = some pi) :
    pi.packet = f.packet ∧ 34 ≤ f.packet.length := by
  unfold Frame.ip? at h
  split at h
  · rename_i h34
    cases h
    exact ⟨rfl, h34⟩
  · cases h

/-- **The receive path stays inside the frame** on every frame but two kinds that are cut off.  Of an
ICMP message for the router the type is read without a test, and the rest of the header if it is looked
at; `echo` says how much of a request is counted, the header or also the data, which goes into the
checksum of the answer.  Of a TCP packet whose IP header is rejected the header is printed, which
counts with `print`. -/
theorem frame_reads_inside_iff (env : Env) (r : Router) (echo : Nat) (print : Bool) (f : Frame) :
    (routerHandlePacketReads env r echo print f).isSome = true ↔
      ∀ pi, f.ip? = some pi → ntohs pi.eth.type = ethIpType → HeadersInside r echo print pi := by
  have hlen := f.toNat_len
  have htest14 : packetCanMarshall 14 0 f.len = true ↔ 14 ≤ f.packet.length := by
    rw [packetCanMarshall_iff (by decide) (Nat.zero_le _), hlen, Nat.zero_add]
  unfold routerHandlePacketReads
  by_cases h14 : 14 ≤ f.packet.length
  · have htest : ∀ size, size < 4294967296 →
        (packetCanMarshall size 14 f.len = true ↔ 14 + size ≤ f.packet.length) := by
      intro size hsize
      rw [packetCanMarshall_iff hsize (by omega), hlen]
    have heth : ∀ pi, f.ip? = some pi → pi.eth = PacketEthernet.layout.load 0 f.packet := by
      intro pi hpi
      rw [← (Frame.ip?_eq_some hpi).1]
      rfl
    rw [if_pos (htest14.2 h14), PacketEthernet.layout.load?_of_le (by exact h14), Option.bind_eq_bind,
      Option.bind_some]
    split
    · rename_i harp
      refine iff_of_true ?_ fun pi hpi hip => ?_
      · split
        · rename_i h28
          rw [PacketArp.layout.load?_of_le ((htest 28 (by decide)).1 h28)]
          rfl
        · rfl
      · rw [heth pi hpi, harp] at hip
        exact absurd hip (by decide)
    · split
      · rename_i hip
        by_cases h34 : 34 ≤ f.packet.length
        · have hpi : f.ip? = some ⟨f.packet, f.interface, h34⟩ := dif_pos h34
          have hreads : (ipReads env r echo print f.len ⟨f.packet, f.interface, h34⟩).isSome = true ↔
              _ := (ipReads_eq env hlen).1
          have hbind : ∀ o : Option Verdict, (o.bind fun v => some (Handled.ip v)).isSome = o.isSome :=
            fun o => by cases o <;> rfl
          rw [if_pos ((htest 20 (by decide)).2 h34), hpi]
          show ((ipReads env r echo print f.len _).bind fun v => some (Handled.ip v)).isSome = true ↔ _
          rw [hbind, hreads]
          constructor
          · rintro h pi ⟨⟩ _
            exact h
          · intro h
            refine h _ rfl ?_
            rw [heth _ hpi]
            exact hip
        · rw [if_neg (mt (htest 20 (by decide)).1 h34)]
          exact iff_of_true rfl fun pi hpi => absurd (Frame.ip?_eq_some hpi).2 h34
      · rename_i hother
        exact iff_of_true rfl fun pi hpi hip => absurd (heth pi hpi ▸ hip) hother
  · rw [if_neg (mt htest14.1 h14)]
    refine iff_of_true rfl fun pi hpi => ?_
    have := (Frame.ip?_eq_some hpi).2
    omega

/-- An ICMP datagram to the router that ends with its IP header. -/
def cutIcmp : Frame where
  packet := PacketEthernet.layout.enc ⟨smallEth1.mac, ⟨2, 0, 0, 0, 0, 9⟩, htons ethIpType⟩ ++
    PacketIp4.layout.enc (PacketIp4.updateChecksum ⟨5, 4, 0, htons 20, 7, 0, 64, ipTypeIcmp, 0,
      ipConvert 192 168 1 7, ipConvert 192 168 1 1⟩)
  interface := 1
  len_lt := by decide

/-- A TCP packet that ends with its IP header, whose checksum is wrong. -/
def cutTcp : Frame where
  packet := PacketEthernet.layout.enc ⟨smallEth1.mac, ⟨2, 0, 0, 0, 0, 9⟩, htons ethIpType⟩ ++
    PacketIp4.layout.enc ⟨5, 4, 0, htons 20, 7, 0, 64, ipTypeTcp, 0, ipConvert 192 168 1 7,
      ipConvert 192 168 1 1⟩
  interface := 1
  len_lt := by decide

/-- The type of the one is read behind the end of the frame, and the ports of the other are printed. -/
theorem frame_reads_cutIcmp :
    (routerHandlePacketReads smallEnv smallRouter 8 false cutIcmp).isSome = false ∧
      (routerHandlePacketReads smallEnv smallRouter 8 true cutTcp).isSome = false := by
  decide +kernel

end BirRouter
