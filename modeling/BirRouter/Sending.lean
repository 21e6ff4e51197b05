import BirRouter.Pwospf
import Mathlib.Algebra.GroupWithZero.Nat
import Mathlib.Algebra.Order.BigOperators.Group.List
import Mathlib.Algebra.Order.Group.Nat
import Mathlib.Data.List.Forall2

/-!
# What the PWOSPF handlers send

Sending only adds frames and waiting packets: interfaces, neighbours and identity stay
(`Router.SameLinks`).

* `sendPwospfLsaPacket_effect`, `announce_effect` — the router's own LSUs;
* `pwospfReflood_adds` — reflooding, frame by frame: `refloodTargets` are the entries it goes to,
  `refloodFrames` what leaves for one of them, and `WaitsFor` what waits for one whose MAC is not known;
* `pwospfReflood_effect` — at most one frame for each entry, and the LSU wherever the MAC is known.
-/

set_option autoImplicit false

namespace BirRouter

open ByteLayout

/-! ## What sending leaves alone -/

/-- The same interfaces with the same neighbours, and the same router identity. -/
structure Router.SameLinks (r r' : Router) : Prop where
  interface : r'.interface = r.interface
  num_interfaces : r'.num_interfaces = r.num_interfaces
  pw_router : r'.pw_router = r.pw_router

namespace Router.SameLinks

theorem refl (r : Router) : r.SameLinks r := ⟨rfl, rfl, rfl⟩

theorem trans {r r' r'' : Router} (h : r.SameLinks r') (h' : r'.SameLinks r'') :
    r.SameLinks r'' :=
  ⟨h'.interface.trans h.interface, h'.num_interfaces.trans h.num_interfaces,
    h'.pw_router.trans h.pw_router⟩

end Router.SameLinks

/-- The frame is an LSU of the router itself for one of its immediate neighbours. -/
def OwnLsu (r : Router) (topology : List PwospfLsa) (f : Sent) : Prop :=
  ∃ hid i entry, i < r.num_interfaces ∧ entry ∈ (r.interface i).neighbours ∧
    entry.immediate_neighbour = 1 ∧
    f = ⟨i, (lsaFrame { r with hid := hid } topology i entry).packet⟩

/-- The LSU header of a frame, and the router id in it. -/
def Sent.link (f : Sent) : PwospfPacketLink := PwospfPacketLink.layout.load 34 f.packet

def Sent.originator (f : Sent) : BitVec 32 := f.link.pwospf_header.router_id

/-- The LSU header of a frame that was put together with one. -/
theorem PacketInfo.ofParts_link (e : PacketEthernet) (h : PacketIp4) (link : PwospfPacketLink)
    (rest : List Byte) (i : Nat) :
    (PacketInfo.ofParts e h (PwospfPacketLink.layout.enc link ++ rest) i).link = link := by
  have hd := PacketInfo.ofParts_payload e h (PwospfPacketLink.layout.enc link ++ rest) i
  unfold PacketInfo.link Layout.load
  unfold PacketInfo.payload at hd
  rw [hd, PwospfPacketLink.layout.dec_append]

theorem lsaFrame_link (r : Router) (topology : List PwospfLsa) (i : Nat)
    (entry : PwospfListEntry) :
    (lsaFrame r topology i entry).link =
      generatePwospfLinkHeader r.hid r.pw_router.router_id 0 topology (32 + topology.length * 12) :=
  PacketInfo.ofParts_link ..

theorem OwnLsu.originator {r : Router} {topology : List PwospfLsa} {f : Sent}
    (h : OwnLsu r topology f) : f.originator = r.pw_router.router_id := by
  obtain ⟨hid, i, entry, _, _, _, rfl⟩ := h
  exact congrArg (fun link => link.pwospf_header.router_id)
    (lsaFrame_link { r with hid := hid } topology i entry)

/-- A router that differs from `r` in the LSUs sent and the sequence number only. -/
def SentLsus (r : Router) (topology : List PwospfLsa) (r' : Router) : Prop :=
  ∃ frames hid, r' = { r with sent := r.sent ++ frames, hid := hid } ∧
    ∀ f ∈ frames, OwnLsu r topology f

theorem sentLsus_sendLsaTo {r r' : Router} {topology : List PwospfLsa} {i : Nat}
    {entry : PwospfListEntry} (hi : i < r.num_interfaces)
    (he : entry ∈ (r.interface i).neighbours) (h : SentLsus r topology r') :
    SentLsus r topology (sendLsaTo topology i r' entry) := by
  obtain ⟨frames, hid, rfl, hf⟩ := h
  unfold sendLsaTo
  split
  · rename_i himm
    refine ⟨frames ++ [⟨i, (lsaFrame { r with hid := hid } topology i entry).packet⟩], hid + 1, ?_, ?_⟩
    · rw [← List.append_assoc]
      rfl
    · intro f hf'
      rcases List.mem_append.1 hf' with hf' | hf'
      · exact hf f hf'
      · exact ⟨hid, i, entry, hi, he, himm, List.mem_singleton.1 hf'⟩
  · exact ⟨frames, hid, rfl, hf⟩

/-- **Sending LSUs** adds frames of the router's own and takes sequence numbers. -/
theorem sendPwospfLsaPacket_effect (env : Env) (r : Router) :
    ∃ frames hid last_lsu,
      sendPwospfLsaPacket env r =
        { r with sent := r.sent ++ frames, hid := hid, last_lsu := last_lsu } ∧
      ∀ f ∈ frames, OwnLsu r (getTopology r) f := by
  unfold sendPwospfLsaPacket
  simp only
  split
  · exact ⟨[], r.hid, r.last_lsu, by rw [List.append_nil], by simp⟩
  · have hstart : SentLsus r (getTopology r) r := ⟨[], r.hid, by rw [List.append_nil], by simp⟩
    have hsent : SentLsus r (getTopology r) ((List.range r.num_interfaces).foldl
        (fun r' i => (r'.interface i).neighbours.foldl (sendLsaTo (getTopology r) i) r') r) := by
      refine List.foldlRecOn _ _ hstart ?_
      intro r' hr' i hi
      have hint : r'.interface = r.interface := by
        obtain ⟨_, _, rfl, _⟩ := hr'
        rfl
      refine List.foldlRecOn _ _ hr' ?_
      intro r'' hr'' entry he
      rw [hint] at he
      exact sentLsus_sendLsaTo (List.mem_range.1 hi) he hr''
    obtain ⟨frames, hid, heq, hf⟩ := hsent
    rw [heq]
    exact ⟨frames, hid, env.now, rfl, hf⟩

theorem sendPwospfLsaPacket_links (env : Env) (r : Router) :
    r.SameLinks (sendPwospfLsaPacket env r) := by
  obtain ⟨frames, hid, last, heq, -⟩ := sendPwospfLsaPacket_effect env r
  rw [heq]
  exact ⟨rfl, rfl, rfl⟩

theorem sendPwospfHelloPacket_links (r : Router) : r.SameLinks (sendPwospfHelloPacket r) := by
  unfold sendPwospfHelloPacket
  refine List.foldlRecOn _ _ (Router.SameLinks.refl r) ?_
  intro r' h i _
  exact h.trans ⟨rfl, rfl, rfl⟩

theorem announce_effect (env : Env) (r : Router) :
    ∃ own, (announce env r).sent = r.sent ++ own ∧ r.SameLinks (announce env r) ∧
      (announce env r).iparp_buffer = r.iparp_buffer ∧ (announce env r).arp_cache = r.arp_cache ∧
      ∀ f ∈ own, OwnLsu r (getTopology r) f := by
  obtain ⟨frames, hid, last, heq, hf⟩ := sendPwospfLsaPacket_effect env (djikstraRecompute env r)
  unfold announce
  rw [heq]
  exact ⟨frames, rfl, ⟨rfl, rfl, rfl⟩, rfl, rfl, hf⟩

/-! ## Reflooding -/

/-- The entries an LSU is reflooded to, with their interfaces. -/
def refloodTargets (r : Router) (excluded_ip : AddrIp) (locked : Nat) : List (Nat × AddrIp) :=
  (List.range r.num_interfaces).flatMap fun i =>
    ((r.interface i).neighbours.filter fun entry =>
      i ≠ locked ∨ entry.neighbour_ip ≠ excluded_ip).map fun entry => (i, entry.neighbour_ip)

theorem pwospfReflood_eq (env : Env) (r : Router) (pi : PacketInfo) (excluded_ip : AddrIp)
    (locked : Nat) :
    pwospfReflood env r pi excluded_ip locked =
      (refloodTargets r excluded_ip locked).foldl (fun s t => pwospfRefloodTo env t.1 s t.2)
        (r, pi) := by
  unfold pwospfReflood refloodTargets
  simp only [List.foldl_flatMap, List.foldl_map, List.foldl_filter, decide_eq_true_eq]

/-- All neighbour entries of the router. -/
def Router.entries (r : Router) : Nat :=
  ((List.range r.num_interfaces).map fun i => (r.interface i).neighbours.length).sum

theorem refloodTargets_length (r : Router) (excluded_ip : AddrIp) (locked : Nat) :
    (refloodTargets r excluded_ip locked).length ≤ r.entries := by
  unfold refloodTargets Router.entries
  rw [List.length_flatMap]
  refine List.sum_le_sum ?_
  intro i _
  rw [List.length_map]
  exact List.length_filter_le ..

/-- The router with more frames sent and packets waiting. -/
def Router.adding (r : Router) (frames : List Sent) (waiting : List IparpBufferEntry) : Router :=
  { r with sent := r.sent ++ frames, iparp_buffer := r.iparp_buffer ++ waiting }

theorem Router.adding_nil (r : Router) : r.adding [] [] = r := by
  unfold Router.adding
  rw [List.append_nil, List.append_nil]

theorem Router.output_eq_adding (r : Router) (interface : Nat) (packet : List Byte) :
    r.output interface packet = r.adding [⟨interface, packet⟩] [] := by
  unfold Router.output Router.adding
  rw [List.append_nil]

theorem Router.adding_adding (r : Router) (f f' : List Sent) (w w' : List IparpBufferEntry) :
    (r.adding f w).adding f' w' = r.adding (f ++ f') (w ++ w') := by
  unfold Router.adding
  simp only [List.append_assoc]

/-- A frame of the same length with the same LSU header. -/
def Sent.Relays (pi : PacketInfo) (f : Sent) : Prop :=
  f.packet.length = pi.packet.length ∧ f.link = pi.link

/-- With other headers in front of the same payload it is still the LSU. -/
theorem relays_of_payload {pi pi' : PacketInfo} (h : pi'.payload = pi.payload) (i : Nat) :
    Sent.Relays pi ⟨i, pi'.packet⟩ := by
  refine ⟨?_, congrArg PwospfPacketLink.layout.dec h⟩
  show pi'.packet.length = pi.packet.length
  rw [PacketInfo.packet_length, PacketInfo.packet_length, h]

/-- A packet with the same payload and TTL, from the same interface. -/
structure Relayed (pi pi' : PacketInfo) : Prop where
  payload : pi'.payload = pi.payload
  interface : pi'.interface = pi.interface
  ttl : pi'.ipv4.ttl = pi.ipv4.ttl

/-- A header with other addresses and the checksum renewed. -/
def PacketIp4.readdress (h : PacketIp4) (dst src : AddrIp) : PacketIp4 :=
  { h with dst_ip := dst, src_ip := src }.updateChecksum

theorem PacketIp4.readdress_ttl (h : PacketIp4) (dst src : AddrIp) :
    (h.readdress dst src).ttl = h.ttl := rfl

theorem PacketIp4.readdress_readdress (h : PacketIp4) (dst src dst' src' : AddrIp) :
    (h.readdress dst src).readdress dst' src' = h.readdress dst' src' := rfl

theorem PacketIp4.ipHeaderCheck_readdress {h : PacketIp4} (hc : ipHeaderCheck h = true)
    (dst src : AddrIp) : ipHeaderCheck (h.readdress dst src) = true :=
  ipHeaderCheck_renewed hc rfl rfl rfl rfl

/-- The packet as it goes to a target whose MAC is known. -/
def refloodPacket (r : Router) (pi : PacketInfo) (t : Nat × AddrIp) (mac : AddrMac) : PacketInfo :=
  let f := r.interface t.1
  .ofParts ⟨mac, f.mac, htons ethIpType⟩ (pi.ipv4.readdress t.2 f.ip) pi.payload pi.interface

/-- The frames for one target: the packet, nothing if its TTL is 0, or an ARP request. -/
def refloodFrames (r : Router) (pi : PacketInfo) (t : Nat × AddrIp) : List Sent :=
  let f := r.interface t.1
  match arpGetcachebyip r.arp_cache t.2 with
  | some arp => if pi.ipv4.ttl < 1 then [] else [⟨t.1, (refloodPacket r pi t arp.mac).packet⟩]
  | none => [⟨t.1, Router.arpFrame arpOpcodeRequest t.2 AddrMac.broadcast f.ip f.mac⟩]

/-- The packet as a reflooding loop hands it on, compared with the one it began with: readdressed, it
is the same packet. -/
structure Readdressed (pi pi' : PacketInfo) : Prop where
  relayed : Relayed pi pi'
  header : ∀ dst src, pi'.ipv4.readdress dst src = pi.ipv4.readdress dst src

/-- So is one with other Ethernet and IPv4 headers of the same kind. -/
theorem readdressed_ofParts (pi : PacketInfo) (e : PacketEthernet) {h : PacketIp4}
    (httl : h.ttl = pi.ipv4.ttl) (hh : ∀ dst src, h.readdress dst src = pi.ipv4.readdress dst src) :
    Readdressed pi (.ofParts e h pi.payload pi.interface) := by
  refine ⟨⟨PacketInfo.ofParts_payload .., rfl, ?_⟩, ?_⟩
  · rw [PacketInfo.ofParts_ipv4, httl]
  · intro dst src
    rw [PacketInfo.ofParts_ipv4, hh]

theorem refloodPacket_readdressed (r : Router) (pi : PacketInfo) (t : Nat × AddrIp)
    (mac : AddrMac) : Readdressed pi (refloodPacket r pi t mac) :=
  readdressed_ofParts pi _ (PacketIp4.readdress_ttl ..)
    fun _ _ => PacketIp4.readdress_readdress ..

/-- The MAC of the target is not known. -/
def Router.unknownMac (r : Router) (t : Nat × AddrIp) : Bool :=
  (arpGetcachebyip r.arp_cache t.2).isNone

/-- What waits for the MAC of a target: the packet, readdressed to it. -/
structure WaitsFor (pi : PacketInfo) (t : Nat × AddrIp) (entry : IparpBufferEntry) : Prop where
  intf : entry.intf = t.1
  dest : entry.dest = t.2
  dst_ip : entry.packet_info.ipv4.dst_ip = t.2
  payload : entry.packet_info.payload = pi.payload

/-- **One target**: its frames, and a packet that waits if its MAC is not known. -/
theorem pwospfRefloodTo_eq (env : Env) (intf : Nat) (r : Router) (pi : PacketInfo)
    (dest : AddrIp) : ∃ waiting pi',
      pwospfRefloodTo env intf (r, pi) dest =
        (r.adding (refloodFrames r pi (intf, dest)) waiting, pi') ∧
      List.Forall₂ (WaitsFor pi) ([(intf, dest)].filter r.unknownMac) waiting ∧
      Readdressed pi pi' := by
  have hparts : ∀ {h : PacketIp4}, h.ttl = pi.ipv4.ttl →
      (∀ dst src, h.readdress dst src = pi.ipv4.readdress dst src) →
      Readdressed pi (pi.setIpv4 h) := by
    intro h httl hh
    rw [PacketInfo.setIpv4_eq]
    exact readdressed_ofParts pi pi.eth httl hh
  unfold pwospfRefloodTo refloodFrames
  simp only
  cases harp : arpGetcachebyip r.arp_cache dest with
  | none =>
    have hunknown : r.unknownMac (intf, dest) = true := by
      unfold Router.unknownMac
      rw [harp]
      rfl
    rw [List.filter_cons_of_pos hunknown]
    refine ⟨[_], _, rfl, .cons ⟨rfl, rfl, ?_, ?_⟩ .nil, hparts rfl fun _ _ => rfl⟩
    · rw [PacketInfo.setIpv4_eq, PacketInfo.ofParts_ipv4]
    · rw [PacketInfo.setIpv4_eq, PacketInfo.ofParts_payload]
  | some arp =>
    have hknown : ¬ r.unknownMac (intf, dest) = true := by
      unfold Router.unknownMac
      rw [harp]
      exact Bool.false_ne_true
    rw [List.filter_cons_of_neg hknown]
    generalize hip : PacketIp4.updateChecksum
      { pi.ipv4 with dst_ip := dest, src_ip := (r.interface intf).ip } = ip
    have hip : pi.ipv4.readdress dest (r.interface intf).ip = ip := hip
    have httl : ip.ttl = pi.ipv4.ttl := by rw [← hip, PacketIp4.readdress_ttl]
    have hh : ∀ dst src, ip.readdress dst src = pi.ipv4.readdress dst src := by
      intro dst src
      rw [← hip, PacketIp4.readdress_readdress]
    simp only [httl]
    by_cases hlt : pi.ipv4.ttl < 1
    · rw [if_pos hlt, if_pos hlt]
      exact ⟨[], _, Prod.ext r.adding_nil.symm rfl, .nil, hparts httl hh⟩
    · have hset : (pi.setIpv4 ip).setEth ⟨arp.mac, (r.interface intf).mac, htons ethIpType⟩ =
          refloodPacket r pi (intf, dest) arp.mac := by
        rw [PacketInfo.setIpv4_eq, PacketInfo.ofParts_setEth, ← hip]
        rfl
      rw [if_neg hlt, if_neg hlt]
      refine ⟨[], refloodPacket r pi (intf, dest) arp.mac, ?_, .nil, refloodPacket_readdressed ..⟩
      unfold Router.ethernetPacketSend
      simp only [hset, Router.output_eq_adding]

/-- The packet handed on leads to the same frames. -/
theorem refloodFrames_congr {r : Router} {pi pi' : PacketInfo} (h : Readdressed pi pi')
    (frames : List Sent) (waiting : List IparpBufferEntry) :
    refloodFrames (r.adding frames waiting) pi' = refloodFrames r pi := by
  funext t
  unfold refloodFrames refloodPacket
  simp only [h.relayed.ttl, h.header, h.relayed.payload, h.relayed.interface]
  rfl

/-- **Reflooding**, target by target. -/
theorem refloodTo_eq (env : Env) : ∀ (targets : List (Nat × AddrIp)) (r : Router)
    (pi : PacketInfo), ∃ waiting pi',
      targets.foldl (fun s t => pwospfRefloodTo env t.1 s t.2) (r, pi) =
        (r.adding (targets.flatMap (refloodFrames r pi)) waiting, pi') ∧
      List.Forall₂ (WaitsFor pi) (targets.filter r.unknownMac) waiting
  | [], r, pi => ⟨[], pi, Prod.ext r.adding_nil.symm rfl, .nil⟩
  | t :: targets, r, pi => by
    obtain ⟨waiting, pi', heq, hwait, hread⟩ := pwospfRefloodTo_eq env t.1 r pi t.2
    obtain ⟨waiting', pi'', heq', hwait'⟩ :=
      refloodTo_eq env targets (r.adding (refloodFrames r pi t) waiting) pi'
    have hrest : List.Forall₂ (WaitsFor pi) (targets.filter r.unknownMac) waiting' :=
      hwait'.imp fun _ _ h => ⟨h.intf, h.dest, h.dst_ip, h.payload.trans hread.relayed.payload⟩
    refine ⟨waiting ++ waiting', pi'', ?_, ?_⟩
    · rw [List.foldl_cons, heq, heq', Router.adding_adding, refloodFrames_congr hread,
        List.flatMap_cons]
    · rw [← List.singleton_append, List.filter_append]
      exact List.rel_append hwait hrest

theorem pwospfReflood_adds (env : Env) (r : Router) (pi : PacketInfo) (excluded_ip : AddrIp)
    (locked : Nat) : ∃ waiting, (pwospfReflood env r pi excluded_ip locked).1 =
      r.adding ((refloodTargets r excluded_ip locked).flatMap (refloodFrames r pi)) waiting ∧
      List.Forall₂ (WaitsFor pi) ((refloodTargets r excluded_ip locked).filter r.unknownMac)
        waiting := by
  obtain ⟨waiting, pi', heq, hwait⟩ := refloodTo_eq env (refloodTargets r excluded_ip locked) r pi
  rw [pwospfReflood_eq, heq]
  exact ⟨waiting, rfl, hwait⟩

/-- What reflooding a packet does: at most one frame for each of `targets`, each of them an ARP
request or the LSU, and the LSU wherever the MAC is known. -/
structure RefloodEffect (r : Router) (pi : PacketInfo) (targets : List (Nat × AddrIp))
    (frames : List Sent) : Prop where
  length : frames.length ≤ targets.length
  relays : ∀ f ∈ frames, f.Relays pi ∨ f.packet.length = 42
  known : ¬ pi.ipv4.ttl < 1 → ∀ t ∈ targets, (arpGetcachebyip r.arp_cache t.2).isSome →
    ∃ pi', Relayed pi pi' ∧ ⟨t.1, pi'.packet⟩ ∈ frames

theorem refloodFrames_length (r : Router) (pi : PacketInfo) (t : Nat × AddrIp) :
    (refloodFrames r pi t).length ≤ 1 := by
  unfold refloodFrames
  simp only
  split
  · split
    · exact Nat.zero_le 1
    · exact Nat.le_refl 1
  · exact Nat.le_refl 1

theorem refloodFrames_relays {r : Router} {pi : PacketInfo} {t : Nat × AddrIp} {f : Sent}
    (hf : f ∈ refloodFrames r pi t) : f.Relays pi ∨ f.packet.length = 42 := by
  unfold refloodFrames at hf
  simp only at hf
  split at hf
  · split at hf
    · cases hf
    · rw [List.mem_singleton.1 hf]
      exact .inl (relays_of_payload (refloodPacket_readdressed ..).relayed.payload t.1)
  · rw [List.mem_singleton.1 hf]
    exact .inr rfl

theorem refloodFrames_known {r : Router} {pi : PacketInfo} {t : Nat × AddrIp} {arp : ArpCacheEntry}
    (harp : arpGetcachebyip r.arp_cache t.2 = some arp) (httl : ¬ pi.ipv4.ttl < 1) :
    refloodFrames r pi t = [⟨t.1, (refloodPacket r pi t arp.mac).packet⟩] := by
  unfold refloodFrames
  rw [harp]
  simp only
  rw [if_neg httl]

theorem refloodEffect_flatMap (r : Router) (pi : PacketInfo) (targets : List (Nat × AddrIp)) :
    RefloodEffect r pi targets (targets.flatMap (refloodFrames r pi)) := by
  refine ⟨?_, ?_, ?_⟩
  · induction targets with
    | nil => exact Nat.le_refl 0
    | cons t targets ih =>
      have hone := refloodFrames_length r pi t
      rw [List.flatMap_cons, List.length_append, List.length_cons]
      omega
  · intro f hf
    obtain ⟨t, _, hf⟩ := List.mem_flatMap.1 hf
    exact refloodFrames_relays hf
  · intro httl t ht hsome
    obtain ⟨arp, harp⟩ := Option.isSome_iff_exists.1 hsome
    refine ⟨_, (refloodPacket_readdressed r pi t arp.mac).relayed, List.mem_flatMap.2 ⟨t, ht, ?_⟩⟩
    rw [refloodFrames_known harp httl]
    exact List.mem_singleton.2 rfl

theorem pwospfReflood_effect (env : Env) (r : Router) (pi : PacketInfo) (excluded_ip : AddrIp)
    (locked : Nat) : ∃ frames waiting,
      (pwospfReflood env r pi excluded_ip locked).1 = r.adding frames waiting ∧
      RefloodEffect r pi (refloodTargets r excluded_ip locked) frames := by
  obtain ⟨waiting, heq, _⟩ := pwospfReflood_adds env r pi excluded_ip locked
  exact ⟨_, waiting, heq, refloodEffect_flatMap ..⟩

/-- Every entry of another interface is a target. -/
theorem mem_refloodTargets {r : Router} {excluded_ip : AddrIp} {locked i : Nat}
    {entry : PwospfListEntry} (hi : i < r.num_interfaces) (hne : i ≠ locked)
    (he : entry ∈ (r.interface i).neighbours) :
    (i, entry.neighbour_ip) ∈ refloodTargets r excluded_ip locked := by
  unfold refloodTargets
  refine List.mem_flatMap.2 ⟨i, List.mem_range.2 hi, List.mem_map.2 ⟨entry, ?_, rfl⟩⟩
  exact List.mem_filter.2 ⟨he, decide_eq_true (.inl hne)⟩

/-- A PWOSPF packet is ignored, or handled as a HELLO or an LSU. -/
theorem pwospfOnreceive_cases (env : Env) (r : Router) (pi : PacketInfo) :
    pwospfOnreceive env r pi = some r ∨
      pwospfOnreceive env r pi = some (pwospfOnreceiveHello env r pi) ∨
      pwospfOnreceive env r pi = pwospfOnreceiveLink env r pi := by
  unfold pwospfOnreceive
  simp only
  split_ifs <;> simp only [true_or, or_true]

end BirRouter
