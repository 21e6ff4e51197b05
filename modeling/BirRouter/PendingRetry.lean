import BirRouter.IpVerdict
import BirRouter.Lib.Trace

/-!
# Retrying ARP requests (`thread_arpipqueue_maintain` of `arp.c`)

A thread looks through the queue of waiting packets: an entry gets another ARP request, or after the
third it is removed and its sender told that the host is unreachable.

* `maintainAt` — one round of the loop, `arpipqueueMaintain` — a pass;
* `Followed` — the router, and one packet followed through its queue: where it is, and the rounds at its
  place, each with the router before and after it.  The ARP requests and the messages for the packet
  are the frames and the queued packets by which the two routers differ;
* `retry_discipline_iff` — these keep their distance and their number exactly in the runs that come to
  the packet's place more than two seconds after its last attempt each time, and find a way back to its
  sender the third time.  The thread itself does not see to either: the comparison of times is an
  argument of `difftime`, and the clock is read only once, when the thread starts.
-/

set_option autoImplicit false

namespace BirRouter

open ByteLayout Trace

/-- `ARPIP_QUEUE_TIMEOUT`, `ARPIP_QUEUE_MAXARPREQUESTS`. -/
def arpipQueueTimeout : Nat := 2
def arpipQueueMaxarprequests : Int := 3

/-! ## The thread -/

namespace IparpBufferEntry

/-- `difftime(now.tv_sec, entry->reception_time.tv_sec > ARPIP_QUEUE_TIMEOUT)` is not 0; `now` is the
time at which the thread started. -/
def due (started : Nat) (entry : IparpBufferEntry) : Bool :=
  (started : Int) - (if entry.reception_time > arpipQueueTimeout then 1 else 0) ≠ 0

/-- The entry after another ARP request. -/
def retry (now : Nat) (entry : IparpBufferEntry) : IparpBufferEntry :=
  { entry with sent_arps_count := entry.sent_arps_count + 1, reception_time := now }

/-- The entry is removed when the thread looks at it. -/
def timesOut (started : Nat) (entry : IparpBufferEntry) : Bool :=
  entry.due started && decide (¬ entry.sent_arps_count < arpipQueueMaxarprequests)

/-- A thread that started after the first two seconds of time acts on every entry. -/
theorem due_of_started {started : Nat} (h : 2 ≤ started) (entry : IparpBufferEntry) :
    entry.due started = true := by
  unfold due
  split
  · exact decide_eq_true (by omega)
  · exact decide_eq_true (by omega)

end IparpBufferEntry

/-- One round of the loop, at position `i` of the queue. -/
def maintainAt (env : Env) (started : Nat) (r : Router) (i : Nat) : Option Router :=
  match r.iparp_buffer[i]? with
  | none => some r
  | some entry =>
    if entry.due started then
      if entry.sent_arps_count < arpipQueueMaxarprequests then
        let r := { r with iparp_buffer := r.iparp_buffer.set i (entry.retry env.now) }
        some (r.arpSendRequest entry.intf entry.dest)
      else
        -- the position in the queue also picks the interface
        icmpSend env (ipOnreceive env) { r with iparp_buffer := r.iparp_buffer.eraseIdx i }
          entry.packet_info (r.interface i).ip Icmp.typeDstUnreach Icmp.codeHostUnreach
    else some r

/-- `n` rounds of a pass, or the whole pass if it has fewer; `clock` is what each of them finds outside
the router. -/
def arpipqueueMaintain (clock : Nat → Env) (started : Nat) : Nat → Router → Option Router
  | 0, r => some r
  | n + 1, r => (arpipqueueMaintain clock started n r).bind fun r => maintainAt (clock n) started r n

/-- The call of `icmp_send` for the entry at position `i`. -/
def unreachableCall (i : Nat) : IcmpCall := ⟨.interface i, Icmp.typeDstUnreach, Icmp.codeHostUnreach⟩

/-! ## One round -/

/-- There is a message if there is a route to the sender. -/
theorem message_isSome (env : Env) (r : Router) (pi : PacketInfo) (call : IcmpCall) :
    (call.message env r pi).isSome = (ipLongestprefixmatch r.ip_table pi.ipv4.src_ip).isSome := by
  unfold IcmpCall.message icmpAllocate packetinfoIpAllocate
  cases ipLongestprefixmatch r.ip_table pi.ipv4.src_ip with
  | none => rfl
  | some route => rfl

/-! ## Requests and messages -/

/-- An ARP request for `dest` on `intf`. -/
def Sent.isRequest (intf : Nat) (dest : AddrIp) (f : Sent) : Bool :=
  let arp := PacketArp.layout.load 14 f.packet
  f.interface = intf ∧ (PacketEthernet.layout.load 0 f.packet).type = htons ethArpType ∧
    arp.opcode = htons arpOpcodeRequest ∧ arp.target_ip = dest

/-- The ICMP message to `dst` that a host is unreachable. -/
def isUnreachable (dst : AddrIp) (packet : List Byte) : Bool :=
  let ip := PacketIp4.layout.load 14 packet
  let icmp := PacketIcmp.layout.load 34 packet
  (PacketEthernet.layout.load 0 packet).type = htons ethIpType ∧ ip.protocol = ipTypeIcmp ∧
    ip.dst_ip = dst ∧ icmp.type = Icmp.typeDstUnreach ∧ icmp.code = Icmp.codeHostUnreach

/-- The requests for `dest` among the frames, without the first ones of packets queued with them. -/
def requestsIn (intf : Nat) (dest : AddrIp) (frames : List Sent) (waiting : List IparpBufferEntry) :
    Nat :=
  frames.countP (Sent.isRequest intf dest) -
    waiting.countP fun entry => entry.intf = intf ∧ entry.dest = dest

/-- The messages to `dst`, sent or waiting for the MAC of their own next hop. -/
def messagesIn (dst : AddrIp) (frames : List Sent) (waiting : List IparpBufferEntry) : Nat :=
  frames.countP (fun f => isUnreachable dst f.packet) +
    waiting.countP fun entry => isUnreachable dst entry.packet_info.packet

/-- A packet for `dst` finds a way: it has a route, and is not for the router itself. -/
def Router.Answerable (r : Router) (dst : AddrIp) : Prop :=
  (ipLongestprefixmatch r.ip_table dst).isSome = true ∧ r.Foreign dst

instance (r : Router) (dst : AddrIp) : Decidable (r.Foreign dst) :=
  inferInstanceAs (Decidable (∀ i < r.num_interfaces, _))

instance (r : Router) (dst : AddrIp) : Decidable (r.Answerable dst) :=
  inferInstanceAs (Decidable (_ ∧ _))

/-- The frame of `arp_send_request`. -/
def requestFrame (r : Router) (intf : Nat) (dest : AddrIp) : Sent :=
  ⟨intf, Router.arpFrame arpOpcodeRequest dest AddrMac.broadcast (r.interface intf).ip
    (r.interface intf).mac⟩

section Frames

variable {r : Router} {intf : Nat} {dest : AddrIp}

theorem requestFrame_eth (r : Router) (intf : Nat) (dest : AddrIp) :
    (PacketEthernet.layout.load 0 (requestFrame r intf dest).packet).type = htons ethArpType := by
  have heth : PacketEthernet.layout.load 0 (requestFrame r intf dest).packet =
      ⟨AddrMac.broadcast, (r.interface intf).mac, htons ethArpType⟩ :=
    PacketEthernet.layout.load_append _ _ (rfl : ([] : List Byte).length = 0)
  rw [heth]

theorem requestFrame_isRequest (r : Router) (i intf : Nat) (target dest : AddrIp) :
    (requestFrame r i target).isRequest intf dest = decide (i = intf ∧ target = dest) := by
  have harp : PacketArp.layout.load 14 (requestFrame r i target).packet =
      ⟨htons arpHtypeEth, htons arpPtypeIp, 6, 4, htons arpOpcodeRequest, (r.interface i).mac,
        (r.interface i).ip, AddrMac.broadcast, target⟩ := by
    have h := PacketArp.layout.load_append
      (⟨htons arpHtypeEth, htons arpPtypeIp, 6, 4, htons arpOpcodeRequest, (r.interface i).mac,
        (r.interface i).ip, AddrMac.broadcast, target⟩ : PacketArp) []
      (PacketEthernet.layout.enc_length
        ⟨AddrMac.broadcast, (r.interface i).mac, htons ethArpType⟩)
    rw [List.append_nil] at h
    exact h
  unfold Sent.isRequest
  simp only [harp, requestFrame_eth]
  exact decide_eq_decide.2 ⟨fun h => ⟨h.1, h.2.2.2⟩, fun h => ⟨h.1, trivial, trivial, h.2⟩⟩

/-- An ARP request is no ICMP message. -/
theorem requestFrame_not_unreachable (r : Router) (intf : Nat) (dest dst : AddrIp) :
    isUnreachable dst (requestFrame r intf dest).packet = false := by
  unfold isUnreachable
  rw [requestFrame_eth]
  exact decide_eq_false fun h => absurd h.1 (by decide)

/-- An IPv4 packet is no ARP request. -/
theorem ofParts_not_request (mac mac' : AddrMac) (h : PacketIp4) (payload : List Byte)
    (i j intf : Nat) (dest : AddrIp) :
    Sent.isRequest intf dest
      ⟨i, (PacketInfo.ofParts ⟨mac, mac', htons ethIpType⟩ h payload j).packet⟩ = false := by
  have heth : PacketEthernet.layout.load 0
      (PacketInfo.ofParts ⟨mac, mac', htons ethIpType⟩ h payload j).packet =
        ⟨mac, mac', htons ethIpType⟩ := PacketInfo.ofParts_eth ..
  unfold Sent.isRequest
  simp only [heth]
  exact decide_eq_false fun h => absurd h.2.1 (by decide)

theorem ofParts_isUnreachable {h : PacketIp4} (hproto : h.protocol = ipTypeIcmp) (mac mac' : AddrMac)
    (data : List Byte) (j : Nat) :
    isUnreachable h.dst_ip (PacketInfo.ofParts ⟨mac, mac', htons ethIpType⟩ h
      (icmpMessage Icmp.typeDstUnreach Icmp.codeHostUnreach 0 0 data) j).packet = true := by
  have heth : PacketEthernet.layout.load 0 (PacketInfo.ofParts ⟨mac, mac', htons ethIpType⟩ h
      (icmpMessage Icmp.typeDstUnreach Icmp.codeHostUnreach 0 0 data) j).packet =
        ⟨mac, mac', htons ethIpType⟩ := PacketInfo.ofParts_eth ..
  have hip : PacketIp4.layout.load 14 (PacketInfo.ofParts ⟨mac, mac', htons ethIpType⟩ h
      (icmpMessage Icmp.typeDstUnreach Icmp.codeHostUnreach 0 0 data) j).packet = h :=
    PacketInfo.ofParts_ipv4 ..
  unfold isUnreachable
  simp only [heth, hip]
  exact decide_eq_true ⟨trivial, hproto, trivial, rfl, rfl⟩

end Frames

/-- The message about a packet, on its way to the sender. -/
theorem unreachable_message {env : Env} {r : Router} {pi e : PacketInfo} {i : Nat}
    (h : (unreachableCall i).message env r pi = some e) :
    ∃ n route mac mac' ip data, ipLongestprefixmatch r.ip_table pi.ipv4.src_ip = some (n, route) ∧
      e = .ofParts ⟨mac, mac', htons ethIpType⟩ ip
        (icmpMessage Icmp.typeDstUnreach Icmp.codeHostUnreach 0 0 data) route.interface ∧
      ip.protocol = ipTypeIcmp ∧ ip.dst_ip = pi.ipv4.src_ip := by
  unfold IcmpCall.message icmpAllocate packetinfoIpAllocate at h
  split at h
  · rename_i n route hroute
    cases h
    exact ⟨n, route, _, _, _, _, hroute, rfl, rfl, rfl⟩
  · cases h

/-- What a call of `icmp_send` leaves: one message to `dst` if there is a way, which may have to wait
for the MAC of its own next hop. -/
structure Reported (r r' : Router) (dst : AddrIp) (frames : List Sent)
    (waiting : List IparpBufferEntry) : Prop where
  adds : r.Adds r' frames waiting
  length : waiting.length ≤ 1
  fresh : ∀ entry ∈ waiting, entry.sent_arps_count = 1
  requests : ∀ intf dest, requestsIn intf dest frames waiting = 0
  messages : messagesIn dst frames waiting = if r.Answerable dst then 1 else 0

/-- **A forwarded message** is sent, or waits behind an ARP request of its own. -/
theorem forwardVia_reported (env : Env) {r : Router} {ip : PacketIp4}
    (hproto : ip.protocol = ipTypeIcmp) (hanswer : r.Answerable ip.dst_ip) (mac mac' : AddrMac)
    (data : List Byte) (j : Nat) (route : RtableEntry) :
    ∃ frames waiting, Reported r (forwardVia env r (.ofParts ⟨mac, mac', htons ethIpType⟩ ip
        (icmpMessage Icmp.typeDstUnreach Icmp.codeHostUnreach 0 0 data) j) route) ip.dst_ip frames
      waiting := by
  let e : PacketInfo := .ofParts ⟨mac, mac', htons ethIpType⟩ ip
    (icmpMessage Icmp.typeDstUnreach Icmp.codeHostUnreach 0 0 data) j
  have hip : e.ipv4 = ip := PacketInfo.ofParts_ipv4 ..
  cases harp : arpGetcachebyip r.arp_cache (route.nextHop e.ipv4.dst_ip) with
  | some arp =>
    have hframe : forwardedFrame r e route arp.mac =
        .ofParts ⟨arp.mac, (r.interface route.interface).mac, htons ethIpType⟩ ip.hop
          (icmpMessage Icmp.typeDstUnreach Icmp.codeHostUnreach 0 0 data) j := by
      unfold forwardedFrame
      rw [hip]
      show PacketInfo.ofParts _ _ e.payload _ = _
      rw [PacketInfo.ofParts_payload]
      rfl
    have hmessage := ofParts_isUnreachable (h := ip.hop) hproto arp.mac
      (r.interface route.interface).mac data j
    rw [forwardVia_known harp, hframe]
    refine ⟨[_], [], ⟨rfl, (List.append_nil _).symm⟩, Nat.zero_le 1, nofun, fun intf dest => ?_, ?_⟩
    · unfold requestsIn
      rw [List.countP_singleton, ofParts_not_request]
      rfl
    · unfold messagesIn
      rw [List.countP_singleton, if_pos hanswer, show ip.dst_ip = ip.hop.dst_ip from rfl, hmessage]
      rfl
  | none =>
    have hmessage : isUnreachable ip.dst_ip e.packet = true :=
      ofParts_isUnreachable hproto mac mac' data j
    rw [forwardVia_unknown harp]
    refine ⟨_, _, arpQueueIppacket_adds .., Nat.le_refl 1, List.forall_mem_singleton.2 rfl,
      fun intf dest => ?_, ?_⟩
    · have hrequest := requestFrame_isRequest r route.interface intf (route.nextHop e.ipv4.dst_ip) dest
      unfold requestFrame at hrequest
      unfold requestsIn
      rw [List.countP_singleton, List.countP_singleton, hrequest]
      exact Nat.sub_self _
    · have hnot := requestFrame_not_unreachable r route.interface (route.nextHop e.ipv4.dst_ip)
        ip.dst_ip
      unfold requestFrame at hnot
      unfold messagesIn
      rw [List.countP_singleton, List.countP_singleton, if_pos hanswer, hnot, hmessage]
      rfl

/-- **The message to the sender** of a packet that is given up. -/
theorem icmpSend_reported (env : Env) (r : Router) (pi : PacketInfo) (i : Nat) :
    ∃ r' frames waiting, icmpSend env (ipOnreceive env) r pi (r.sourceIp (unreachableCall i).source)
        (unreachableCall i).type (unreachableCall i).code = some r' ∧
      Reported r r' pi.ipv4.src_ip frames waiting := by
  have hquiet : ¬ r.Answerable pi.ipv4.src_ip → Reported r r pi.ipv4.src_ip [] [] := fun hnot =>
    ⟨⟨(List.append_nil _).symm, (List.append_nil _).symm⟩, Nat.zero_le 1, nofun, fun _ _ => rfl,
      (if_neg hnot).symm⟩
  rw [icmpSend_message]
  cases he : (unreachableCall i).message env r pi with
  | none =>
    refine ⟨r, [], [], rfl, hquiet fun hanswer => ?_⟩
    have hroute := message_isSome env r pi (unreachableCall i)
    rw [he, hanswer.1] at hroute
    exact absurd hroute (by decide)
  | some e =>
    have herror := (unreachableCall i).message_errorPacket (.inl rfl) he
    obtain ⟨n, route, mac, mac', ip, data, hroute, rfl, hproto, hdst⟩ := unreachable_message he
    rw [Option.elim_some, ipOnreceive_error herror]
    unfold receiveError
    rw [PacketInfo.ofParts_ipv4, hdst, hroute]
    cases hown : ownInterface r pi.ipv4.src_ip with
    | some j =>
      refine ⟨r, [], [], rfl, hquiet fun hanswer => ?_⟩
      rw [ownInterface_none hanswer.2] at hown
      cases hown
    | none =>
      have hanswer : r.Answerable pi.ipv4.src_ip :=
        ⟨by rw [hroute]; rfl, foreign_of_ownInterface_none hown⟩
      rw [← hdst] at hanswer ⊢
      obtain ⟨frames, waiting, h⟩ :=
        forwardVia_reported env hproto hanswer mac mac' data route.interface route
      exact ⟨_, frames, waiting, rfl, h⟩

/-! ## One packet in the queue -/

/-- A round at the packet's place. -/
structure Look where
  time : Nat
  before : Router
  after : Router
  /-- The round removes the packet. -/
  removes : Bool

namespace Look

def frames (l : Look) : List Sent := l.after.sent.drop l.before.sent.length

/-- The packets that the round queues. -/
def waiting (l : Look) : List IparpBufferEntry :=
  l.after.iparp_buffer.drop (l.before.iparp_buffer.length - if l.removes then 1 else 0)

/-- Something happens to the packet. -/
def acts (l : Look) : Bool := l.frames ≠ [] || l.removes

def requests (intf : Nat) (dest : AddrIp) (l : Look) : Nat := requestsIn intf dest l.frames l.waiting

def messages (dst : AddrIp) (l : Look) : Nat := messagesIn dst l.frames l.waiting

end Look

/-- The router, and one packet of its queue. -/
structure Followed where
  router : Router
  /-- Where the packet is, until it is removed. -/
  place : Option Nat
  /-- The frames sent when it was queued. -/
  first : List Sent
  looks : List Look

inductive RetryOp where
  /-- `arp_queue_ippacket_for_send_on_arp_request_response`, for another packet. -/
  | queue (env : Env) (pi : PacketInfo) (intf : Nat) (dest : AddrIp)
  /-- A round of the thread. -/
  | round (env : Env) (i : Nat)
  /-- Anything else but a received ARP packet: all but the queue may change. -/
  | other (r : Router)

/-- Where the entry at `k` is after the round at `i`. -/
def placeAfter (started : Nat) (queue : List IparpBufferEntry) (i k : Nat) : Option Nat :=
  if (queue[i]?).any (·.timesOut started) then
    if i = k then none else some (if i < k then k - 1 else k)
  else some k

namespace Followed

/-- The packet is queued. -/
def start (r : Router) (env : Env) (pi : PacketInfo) (intf : Nat) (dest : AddrIp) : Followed where
  router := r.arpQueueIppacket env pi intf dest
  place := some r.iparp_buffer.length
  first := (r.arpQueueIppacket env pi intf dest).sent.drop r.sent.length
  looks := []

def exec (started : Nat) (f : Followed) : RetryOp → Option Followed
  | .queue env pi intf dest => some { f with router := f.router.arpQueueIppacket env pi intf dest }
  | .round env i =>
    (maintainAt env started f.router i).map fun r =>
      { f with
        router := r
        place := f.place.bind (placeAfter started f.router.iparp_buffer i)
        looks := f.looks ++ if f.place = some i then
          [⟨env.now, f.router, r, (placeAfter started f.router.iparp_buffer i i).isNone⟩] else [] }
  | .other r => some { f with router := { r with iparp_buffer := f.router.iparp_buffer } }

def Step (started : Nat) (f : Followed) (op : RetryOp) (f' : Followed) : Prop :=
  f.exec started op = some f'

/-- All ARP requests for the packet. -/
def requests (intf : Nat) (dest : AddrIp) (f : Followed) : Nat :=
  f.first.countP (Sent.isRequest intf dest) + (f.looks.map (Look.requests intf dest)).sum

/-- All messages to its sender. -/
def messages (dst : AddrIp) (f : Followed) : Nat := (f.looks.map (Look.messages dst)).sum

/-- The packet is at its place as long as it has one. -/
def Keeps (pi : PacketInfo) (intf : Nat) (dest : AddrIp) (f : Followed) : Prop :=
  ∀ k, f.place = some k → ∃ entry, f.router.iparp_buffer[k]? = some entry ∧
    entry.packet_info = pi ∧ entry.intf = intf ∧ entry.dest = dest

end Followed

/-! ### Rounds and places -/

section Places

variable {env : Env} {started : Nat} {r r' : Router} {i k : Nat} {entry : IparpBufferEntry}

/-- **What a round does**: nothing, another request, or a removal. -/
theorem maintainAt_cases (env : Env) (started : Nat) (r : Router) (i : Nat) :
    (maintainAt env started r i = some r ∧ (r.iparp_buffer[i]?).any (·.timesOut started) = false ∧
      ∀ entry, r.iparp_buffer[i]? = some entry → ¬ entry.due started = true) ∨
    ∃ entry, r.iparp_buffer[i]? = some entry ∧
      (entry.sent_arps_count < arpipQueueMaxarprequests ∧ entry.timesOut started = false ∧
          maintainAt env started r i =
            some ({ r with iparp_buffer := r.iparp_buffer.set i (entry.retry env.now) }.arpSendRequest
              entry.intf entry.dest) ∨
        ¬ entry.sent_arps_count < arpipQueueMaxarprequests ∧ entry.timesOut started = true ∧
          ∃ r' frames waiting, maintainAt env started r i = some r' ∧
            Reported { r with iparp_buffer := r.iparp_buffer.eraseIdx i } r'
              entry.packet_info.ipv4.src_ip frames waiting) := by
  unfold maintainAt
  cases hi : r.iparp_buffer[i]? with
  | none => exact .inl ⟨rfl, rfl, nofun⟩
  | some entry =>
    by_cases hdue : entry.due started = true
    · refine .inr ⟨entry, rfl, ?_⟩
      unfold IparpBufferEntry.timesOut
      simp only [hdue, if_true, Bool.true_and]
      by_cases hcount : entry.sent_arps_count < arpipQueueMaxarprequests
      · exact .inl ⟨hcount, decide_eq_false (not_not.2 hcount), if_pos hcount⟩
      · obtain ⟨r', frames, waiting, hsend, hreported⟩ := icmpSend_reported env
          { r with iparp_buffer := r.iparp_buffer.eraseIdx i } entry.packet_info i
        exact .inr ⟨hcount, decide_eq_true hcount, r', frames, waiting,
          (if_neg hcount).trans hsend, hreported⟩
    · refine .inl ⟨if_neg hdue, ?_, ?_⟩
      · show (entry.due started && _) = false
        rw [Bool.eq_false_iff.2 hdue, Bool.false_and]
      · rintro _ ⟨⟩
        exact hdue

theorem maintainAt_total (env : Env) (started : Nat) (r : Router) (i : Nat) :
    ∃ r', maintainAt env started r i = some r' := by
  rcases maintainAt_cases env started r i with ⟨h, _⟩ | ⟨_, _, ⟨_, _, h⟩ | ⟨_, _, r', _, _, h, _⟩⟩
  · exact ⟨_, h⟩
  · exact ⟨_, h⟩
  · exact ⟨r', h⟩

/-- **A round at another place** leaves the entry as it is. -/
theorem maintainAt_elsewhere (hne : i ≠ k) (hk : r.iparp_buffer[k]? = some entry)
    (h : maintainAt env started r i = some r') :
    ∃ k', placeAfter started r.iparp_buffer i k = some k' ∧ r'.iparp_buffer[k']? = some entry := by
  unfold placeAfter
  rcases maintainAt_cases env started r i with
    ⟨hr, hnot, _⟩ | ⟨e, hi, ⟨_, htimes, hr⟩ | ⟨_, htimes, r₁, frames, waiting, hr, hreported⟩⟩
  · cases hr.symm.trans h
    rw [hnot]
    exact ⟨k, rfl, hk⟩
  · cases hr.symm.trans h
    rw [hi, Option.any_some, htimes]
    exact ⟨k, rfl, (List.getElem?_set_ne hne).trans hk⟩
  · cases hr.symm.trans h
    rw [hi, Option.any_some, htimes, if_pos rfl, if_neg hne]
    refine ⟨_, rfl, ?_⟩
    have hlen : i < r.iparp_buffer.length := (List.getElem?_eq_some_iff.1 hi).1
    have hklen : k < r.iparp_buffer.length := (List.getElem?_eq_some_iff.1 hk).1
    have herased := List.length_eraseIdx_of_lt hlen
    rw [hreported.adds.2]
    split
    · rename_i hlt
      rw [List.getElem?_append_left (by simp only [herased]; omega),
        List.getElem?_eraseIdx_of_ge (by omega), Nat.sub_add_cancel (by omega), hk]
    · rename_i hge
      rw [List.getElem?_append_left (by simp only [herased]; omega),
        List.getElem?_eraseIdx_of_lt (by omega), hk]

end Places

/-! ## Looks -/

section Looks

variable {r r' : Router} {i : Nat} {entry : IparpBufferEntry}

/-- **A retry** is seen as one ARP request. -/
theorem retry_look (now : Nat) (r : Router) (i : Nat) (entry : IparpBufferEntry) :
    let l : Look := ⟨now, r,
      { r with iparp_buffer := r.iparp_buffer.set i (entry.retry now) }.arpSendRequest entry.intf
        entry.dest, false⟩
    l.acts = true ∧ l.requests entry.intf entry.dest = 1 ∧ ∀ dst, l.messages dst = 0 := by
  intro l
  have hframes : l.frames = [requestFrame r entry.intf entry.dest] := List.drop_left
  have hwaiting : l.waiting = [] :=
    List.drop_eq_nil_of_le (Nat.le_of_eq List.length_set)
  unfold Look.acts Look.requests Look.messages
  rw [hframes, hwaiting]
  refine ⟨rfl, ?_, fun dst => ?_⟩
  · unfold requestsIn
    rw [List.countP_singleton, requestFrame_isRequest, decide_eq_true ⟨rfl, rfl⟩]
    rfl
  · unfold messagesIn
    rw [List.countP_singleton, requestFrame_not_unreachable]
    rfl

/-- **A removal** is seen by what it adds. -/
theorem removal_look (now : Nat) {frames : List Sent} {waiting : List IparpBufferEntry}
    (hi : r.iparp_buffer[i]? = some entry)
    (h : Router.Adds { r with iparp_buffer := r.iparp_buffer.eraseIdx i } r' frames waiting) :
    let l : Look := ⟨now, r, r', true⟩
    l.acts = true ∧ (∀ intf dest, l.requests intf dest = requestsIn intf dest frames waiting) ∧
      ∀ dst, l.messages dst = messagesIn dst frames waiting := by
  intro l
  have hlen : i < r.iparp_buffer.length := (List.getElem?_eq_some_iff.1 hi).1
  have hframes : l.frames = frames := by
    show r'.sent.drop r.sent.length = frames
    rw [h.1]
    exact List.drop_left
  have hwaiting : l.waiting = waiting := by
    show r'.iparp_buffer.drop (r.iparp_buffer.length - 1) = waiting
    rw [h.2]
    exact List.drop_left' (List.length_eraseIdx_of_lt hlen)
  unfold Look.requests Look.messages
  rw [hframes, hwaiting]
  exact ⟨Bool.or_true _, fun _ _ => rfl, fun _ => rfl⟩

end Looks

/-! ## Runs -/

section Runs

variable {started : Nat} {pi : PacketInfo} {intf : Nat} {dest : AddrIp} {f f' : Followed}
  {op : RetryOp}

/-- What is known of the packet while it waits: its entry counts the requests. -/
structure Followed.Waits (pi : PacketInfo) (intf : Nat) (dest : AddrIp) (f : Followed) (k : Nat) :
    Prop where
  entry : ∃ entry, f.router.iparp_buffer[k]? = some entry ∧ entry.packet_info = pi ∧
    entry.intf = intf ∧ entry.dest = dest ∧ entry.sent_arps_count = f.looks.length + 1
  few : f.looks.length ≤ 2
  requests : f.requests intf dest = f.looks.length + 1
  messages : f.messages pi.ipv4.src_ip = 0

/-- What is known of it once it is removed. -/
structure Followed.Removed (pi : PacketInfo) (intf : Nat) (dest : AddrIp) (f : Followed) : Prop where
  looks : f.looks.length = 3
  requests : f.requests intf dest = 3
  messages : ∀ l, f.looks[2]? = some l →
    f.messages pi.ipv4.src_ip = if l.before.Answerable pi.ipv4.src_ip then 1 else 0

structure Followed.Inv (pi : PacketInfo) (intf : Nat) (dest : AddrIp) (f : Followed) : Prop where
  acts : ∀ l ∈ f.looks, l.acts = true
  waits : ∀ k, f.place = some k → f.Waits pi intf dest k
  removed : f.place = none → f.Removed pi intf dest

theorem start_inv (r : Router) (env : Env) (pi : PacketInfo) (intf : Nat) (dest : AddrIp) :
    (Followed.start r env pi intf dest).Inv pi intf dest := by
  refine ⟨nofun, ?_, nofun⟩
  rintro _ ⟨⟩
  have hfirst : (Followed.start r env pi intf dest).first = [requestFrame r intf dest] :=
    List.drop_left
  refine ⟨⟨_, List.getElem?_concat_length, rfl, rfl, rfl, rfl⟩, Nat.zero_le 2, ?_, rfl⟩
  unfold Followed.requests
  rw [hfirst, List.countP_singleton, requestFrame_isRequest, decide_eq_true ⟨rfl, rfl⟩]
  rfl

/-- A step that makes no look and keeps the entry keeps what is known. -/
theorem Followed.Inv.unseen (h : f.Inv pi intf dest) {place : Option Nat} {r : Router}
    (hentry : ∀ k entry, f.place = some k → f.router.iparp_buffer[k]? = some entry →
      ∃ k', place = some k' ∧ r.iparp_buffer[k']? = some entry)
    (hnone : f.place = none → place = none) :
    Followed.Inv pi intf dest { f with router := r, place := place } := by
  cases hplace : f.place with
  | none =>
    rw [hnone hplace]
    obtain ⟨hlooks, hrequests, hmessages⟩ := h.removed hplace
    exact ⟨h.acts, nofun, fun _ => ⟨hlooks, hrequests, hmessages⟩⟩
  | some k =>
    obtain ⟨⟨entry, hk, hof⟩, hfew, hrequests, hmessages⟩ := h.waits k hplace
    obtain ⟨k', rfl, hk'⟩ := hentry k entry hplace hk
    refine ⟨h.acts, ?_, nofun⟩
    rintro _ ⟨⟩
    exact ⟨⟨entry, hk', hof⟩, hfew, hrequests, hmessages⟩

theorem requests_look (f : Followed) (l : Look) (router : Router) (place : Option Nat) :
    Followed.requests intf dest ⟨router, place, f.first, f.looks ++ [l]⟩ =
      f.requests intf dest + l.requests intf dest := by
  unfold Followed.requests
  rw [List.map_append, List.sum_append, Nat.add_assoc]
  rfl

theorem messages_look (f : Followed) (l : Look) (router : Router) (place : Option Nat) (dst : AddrIp) :
    Followed.messages dst ⟨router, place, f.first, f.looks ++ [l]⟩ =
      f.messages dst + l.messages dst := by
  unfold Followed.messages
  rw [List.map_append, List.sum_append]
  rfl

/-- **A look** makes the next request, or removes the packet after the third. -/
theorem Followed.Inv.look (hstarted : 2 ≤ started) (h : f.Inv pi intf dest) {env : Env} {k : Nat}
    {r : Router} (hplace : f.place = some k) (hr : maintainAt env started f.router k = some r) :
    let place := placeAfter started f.router.iparp_buffer k k
    Followed.Inv pi intf dest
      ⟨r, place, f.first, f.looks ++ [⟨env.now, f.router, r, place.isNone⟩]⟩ := by
  obtain ⟨⟨entry, hk, rfl, rfl, rfl, hcounted⟩, hfew, hrequests, hmessages⟩ := h.waits k hplace
  have hacts : ∀ l, l.acts = true → ∀ l' ∈ f.looks ++ [l], l'.acts = true := by
    intro l hl l' hl'
    rcases List.mem_append.1 hl' with hl' | hl'
    · exact h.acts l' hl'
    · rw [List.mem_singleton.1 hl']
      exact hl
  unfold placeAfter
  rw [hk, Option.any_some, if_pos rfl]
  rcases maintainAt_cases env started f.router k with ⟨_, _, hidle⟩ | ⟨e, he, hcases⟩
  · exact absurd (entry.due_of_started hstarted) (hidle entry hk)
  · cases hk.symm.trans he
    rcases hcases with
      ⟨hcount, htimes, hretry⟩ | ⟨hcount, htimes, r', frames, waiting, hr', hreported⟩
    · -- another request
      cases hretry.symm.trans hr
      unfold arpipQueueMaxarprequests at hcount
      have hlt : k < f.router.iparp_buffer.length := (List.getElem?_eq_some_iff.1 hk).1
      obtain ⟨hact, hrequest, hmessage⟩ := retry_look env.now f.router k entry
      rw [htimes, if_neg Bool.false_ne_true]
      refine ⟨hacts _ hact, ?_, nofun⟩
      rintro _ ⟨⟩
      refine ⟨⟨entry.retry env.now, List.getElem?_set_self hlt, rfl, rfl, rfl, ?_⟩, ?_, ?_, ?_⟩
      · show entry.sent_arps_count + 1 = _
        rw [hcounted, List.length_append]
        rfl
      · show (f.looks ++ [_]).length ≤ 2
        rw [List.length_append, List.length_singleton]
        omega
      · rw [requests_look, hrequests, List.length_append]
        exact congrArg _ hrequest
      · rw [messages_look, hmessages]
        exact (Nat.zero_add _).trans (hmessage _)
    · -- the end, with the message
      cases hr'.symm.trans hr
      unfold arpipQueueMaxarprequests at hcount
      have htwo : f.looks.length = 2 := by omega
      obtain ⟨hact, hrequest, hmessage⟩ := removal_look env.now hk hreported.adds
      rw [htimes, if_pos rfl]
      refine ⟨hacts _ hact, nofun, fun _ => ⟨?_, ?_, ?_⟩⟩
      · show (f.looks ++ [_]).length = 3
        rw [List.length_append, htwo]
        rfl
      · rw [requests_look, hrequests, htwo]
        exact congrArg (3 + ·) ((hrequest ..).trans (hreported.requests ..))
      · intro l hl
        have hlast : l = ⟨env.now, f.router, r, true⟩ := by
          rw [← htwo] at hl
          exact (Option.some.inj (List.getElem?_concat_length.symm.trans hl)).symm
        rw [messages_look, hmessages, Nat.zero_add, hlast]
        exact (hmessage _).trans hreported.messages

/-- **One step keeps the invariant.** -/
theorem Followed.Inv.step (hstarted : 2 ≤ started) (h : f.Inv pi intf dest)
    (hs : f.Step started op f') : f'.Inv pi intf dest := by
  cases op with
  | queue env pi' intf' dest' =>
    cases hs
    refine h.unseen (fun k entry hplace hk => ⟨k, hplace, ?_⟩) id
    exact (List.getElem?_append_left (List.getElem?_eq_some_iff.1 hk).1).trans hk
  | other r =>
    cases hs
    exact h.unseen (fun k entry hplace hk => ⟨k, hplace, hk⟩) id
  | round env i =>
    obtain ⟨r, hr, rfl⟩ := Option.map_eq_some_iff.1 hs
    by_cases hplace : f.place = some i
    · rw [if_pos hplace, hplace]
      exact h.look hstarted hplace hr
    · rw [if_neg hplace, List.append_nil]
      refine h.unseen (fun k entry hk hentry => ?_) fun hnone => by rw [hnone]; rfl
      have hne : i ≠ k := fun hik => hplace (hik ▸ hk)
      rw [hk]
      exact maintainAt_elsewhere hne hentry hr

end Runs

/-! ## Discipline -/

/-- More than `ARPIP_QUEUE_TIMEOUT` seconds apart. -/
def Apart (t t' : Nat) : Prop := t + arpipQueueTimeout < t'

instance (t t' : Nat) : Decidable (Apart t t') := inferInstanceAs (Decidable (_ < _))

/-- What happens to a packet for `dest`, queued at time `queued` with the sender `src`. -/
structure Followed.Disciplined (src : AddrIp) (intf : Nat) (dest : AddrIp) (queued : Nat)
    (f : Followed) : Prop where
  /-- A request and the removal come more than the timeout after the attempt before. -/
  spaced : (queued :: (f.looks.filter Look.acts).map Look.time).IsChain Apart
  requests : f.requests intf dest ≤ 3
  waits : f.place ≠ none → f.messages src = 0
  /-- The packet is removed after three requests, with one message to its sender. -/
  removed : f.place = none → f.requests intf dest = 3 ∧ f.messages src = 1

/-- **The schedule**: the thread looks at the packet more than the timeout after it was queued or last
looked at, and the third time there is a way back to the sender. -/
structure OnTime (src : AddrIp) (queued : Nat) (looks : List Look) : Prop where
  spaced : (queued :: looks.map Look.time).IsChain Apart
  answerable : ∀ l, looks[2]? = some l → l.before.Answerable src

theorem Followed.Inv.disciplined_iff {pi : PacketInfo} {intf : Nat} {dest : AddrIp} {f : Followed}
    (h : f.Inv pi intf dest) (queued : Nat) :
    f.Disciplined pi.ipv4.src_ip intf dest queued ↔ OnTime pi.ipv4.src_ip queued f.looks := by
  have hacts : f.looks.filter Look.acts = f.looks := List.filter_eq_self.2 h.acts
  cases hplace : f.place with
  | some k =>
    obtain ⟨_, hfew, hrequests, hmessages⟩ := h.waits k hplace
    constructor
    · intro hd
      refine ⟨hacts ▸ hd.spaced, fun l hl => ?_⟩
      have hthree := (List.getElem?_eq_some_iff.1 hl).1
      omega
    · intro ht
      exact ⟨hacts.symm ▸ ht.spaced, by omega, fun _ => hmessages,
        fun hnone => absurd (hplace.symm.trans hnone) nofun⟩
  | none =>
    obtain ⟨hlooks, hrequests, hmessages⟩ := h.removed hplace
    obtain ⟨l, hl⟩ : ∃ l, f.looks[2]? = some l :=
      ⟨_, List.getElem?_eq_getElem (by omega)⟩
    have hone : f.messages pi.ipv4.src_ip = 1 ↔ l.before.Answerable pi.ipv4.src_ip := by
      rw [hmessages l hl]
      split
      · exact iff_of_true rfl ‹_›
      · exact iff_of_false nofun ‹_›
    constructor
    · intro hd
      refine ⟨hacts ▸ hd.spaced, fun l' hl' => ?_⟩
      cases hl.symm.trans hl'
      exact hone.1 (hd.removed hplace).2
    · intro ht
      exact ⟨hacts.symm ▸ ht.spaced, Nat.le_of_eq hrequests, fun hne => absurd hplace hne,
        fun _ => ⟨hrequests, hone.2 (ht.answerable l hl)⟩⟩

/-- **The retry discipline**, for every packet and every run of a thread started after the first two
seconds of time: the packet is where it is followed, and its requests and messages are as they should
be exactly if the run comes to it on time. -/
theorem retry_discipline_iff {started : Nat} (hstarted : 2 ≤ started) (r : Router) (env : Env)
    (pi : PacketInfo) (intf : Nat) (dest : AddrIp) {ops : List RetryOp} {f : Followed}
    (h : Exec (Followed.Step started) (.start r env pi intf dest) ops f) :
    f.Keeps pi intf dest ∧
      (f.Disciplined pi.ipv4.src_ip intf dest env.now ↔ OnTime pi.ipv4.src_ip env.now f.looks) := by
  have hinv : f.Inv pi intf dest :=
    h.invariant (start_inv r env pi intf dest) fun hi hs => hi.step hstarted hs
  refine ⟨fun k hk => ?_, hinv.disciplined_iff env.now⟩
  obtain ⟨entry, hentry, hpi, hintf, hdest, _⟩ := (hinv.waits k hk).entry
  exact ⟨entry, hentry, hpi, hintf, hdest⟩

/-! ## The thread's passes -/

theorem exec_total (started : Nat) (f : Followed) (op : RetryOp) : ∃ f', f.Step started op f' := by
  cases op with
  | queue env pi intf dest => exact ⟨_, rfl⟩
  | other r => exact ⟨_, rfl⟩
  | round env i =>
    obtain ⟨r, hr⟩ := maintainAt_total env started f.router i
    exact ⟨_, Option.map_eq_some_iff.2 ⟨r, hr, rfl⟩⟩

/-- **A pass is a run of rounds.** -/
theorem pass_is_run (clock : Nat → Env) (started n : Nat) (f : Followed) :
    ∃ f', Exec (Followed.Step started) f ((List.range n).map fun i => .round (clock i) i) f' ∧
      arpipqueueMaintain clock started n f.router = some f'.router := by
  induction n with
  | zero => exact ⟨f, .nil, rfl⟩
  | succ n ih =>
    obtain ⟨f₁, hrun, hpass⟩ := ih
    obtain ⟨f₂, hstep⟩ := exec_total started f₁ (.round (clock n) n)
    refine ⟨f₂, ?_, ?_⟩
    · rw [List.range_succ, List.map_append]
      exact hrun.snoc hstep
    · obtain ⟨r, hr, rfl⟩ := Option.map_eq_some_iff.1 hstep
      rw [arpipqueueMaintain, hpass]
      exact hr

/-! ## Samples -/

/-- A run as a function. -/
def Followed.run (started : Nat) (f : Followed) (ops : List RetryOp) : Followed :=
  ops.foldl (fun f op => (f.exec started op).getD f) f

theorem run_exec (started : Nat) (f : Followed) (ops : List RetryOp) :
    Exec (Followed.Step started) f ops (f.run started ops) := by
  refine .of_foldl (Followed.Step started) _ (fun f op => ?_) f ops
  obtain ⟨f', hstep⟩ := exec_total started f op
  have hexec : f.exec started op = some f' := hstep
  show f.exec started op = some ((f.exec started op).getD f)
  rw [hexec, Option.getD_some]

def envAt (now : Nat) : Env := { smallEnv with now := now }

/-- A packet from 192.168.1.7 is queued at 10, behind another one. -/
def sampleStart : Followed :=
  .start (smallRouter.arpQueueIppacket (envAt 9) (samplePacket 64) 0 (ipConvert 10 2 0 9)) (envAt 10)
    (samplePacket 64) 0 (ipConvert 10 2 0 1)

/-- Four passes; the third removes the packet in front and queues the message about it, and does not
look at the packet that moves to its place. -/
def patientRun : List RetryOp :=
  [.round (envAt 20) 0, .round (envAt 20) 1, .round (envAt 30) 0, .round (envAt 30) 1,
    .round (envAt 40) 0, .round (envAt 40) 1, .round (envAt 50) 0, .round (envAt 50) 1]

theorem retry_discipline_patient :
    (sampleStart.run 5 patientRun).place = none ∧
      (sampleStart.run 5 patientRun).Disciplined (samplePacket 64).ipv4.src_ip 0 (ipConvert 10 2 0 1)
        10 := by
  refine ⟨by decide +kernel, (retry_discipline_iff (by decide) _ (envAt 10) _ _ _
    (run_exec 5 sampleStart patientRun)).2.2 ⟨by decide +kernel, ?_⟩⟩
  have hthird : ((sampleStart.run 5 patientRun).looks[2]?).all
      (fun l => decide (l.before.Answerable (samplePacket 64).ipv4.src_ip)) = true := by
    decide +kernel
  intro l hl
  rw [hl] at hthird
  exact of_decide_eq_true hthird

/-- A pass one second after the packet was queued. -/
def hastyRun : List RetryOp := [.round (envAt 11) 0, .round (envAt 11) 1]

/-- It asks again. -/
theorem retry_discipline_hasty :
    Exec (Followed.Step 5) sampleStart hastyRun (sampleStart.run 5 hastyRun) ∧
      (sampleStart.run 5 hastyRun).requests 0 (ipConvert 10 2 0 1) = 2 ∧
      ¬ (sampleStart.run 5 hastyRun).Disciplined (samplePacket 64).ipv4.src_ip 0 (ipConvert 10 2 0 1)
        10 := by
  refine ⟨run_exec .., by decide +kernel, fun hd => ?_⟩
  have htimes : ((sampleStart.run 5 hastyRun).looks.filter Look.acts).map Look.time = [11] := by
    decide +kernel
  have hspaced := hd.spaced
  rw [htimes] at hspaced
  exact absurd hspaced (by decide)

end BirRouter
