import BirRouter.DnsReceive
import BirRouter.Forwarding
import BirRouter.Sending

/-!
# What becomes of a received packet

`ip_onreceive` first decides about a packet, then acts once.

* `ipVerdict` — the decision, with the arguments of the call that creates an ICMP error;
* `ipOnreceiveStep_perform` — the body of `ip_onreceive` carries the decision out;
* `activations` — the packets that nested activations of `ip_onreceive` are called with: two at most
  (`activations_length`);
* `Router.Forwardable` — the packets that are forwarded, and that wait for their next hop's MAC;
* `Router.Sends` — frames that were sent, with no more packets left waiting than frames;
* `ipOnreceive_cases` — what a packet does that is not PWOSPF;
* `ipVerdict_copyNegative_iff`, `ipVerdict_dns_iff` — the datagrams that end the process, and those that
  go to the DNS server.
-/

set_option autoImplicit false

namespace BirRouter

open ByteLayout

/-! ## Decisions -/

/-- What `icmp_send` and `icmp_type_time_exceeded` get as `src`: -1, or the address that is read from
`router->interface[i]`. -/
inductive IcmpSource where
  | outgoing
  | interface (i : Nat)
  deriving DecidableEq, Repr

def Router.sourceIp (r : Router) : IcmpSource → AddrIp
  | .outgoing => 0xffffffff
  | .interface i => (r.interface i).ip

/-- A call of `icmp_send` or `icmp_type_time_exceeded`. -/
structure IcmpCall where
  source : IcmpSource
  type : Byte
  code : Byte
  deriving DecidableEq, Repr

inductive Verdict where
  | ignore
  | error (call : IcmpCall)
  | echoReplay
  | transport
  | pwospf
  | dns
  /-- `malloc_udp_pseudo_header` copies a negative number of bytes. -/
  | copyNegative
  | forward (entry : RtableEntry)
  deriving DecidableEq, Repr

section Verdicts

variable (env : Env)

def udpVerdict (pi : PacketInfo) (i : Nat) : Verdict :=
  let unreachable := .error ⟨.interface i, Icmp.typeDstUnreach, Icmp.codePortUnreach⟩
  if 42 ≤ pi.packet.length then
    let udp := PacketUdp.layout.load 34 pi.packet
    match udpPseudoHeader env pi udp with
    | none => .copyNegative
    | some pseudo =>
      if udp.checksum ≠ 0 ∧ generatechecksum pseudo ≠ 0 then unreachable
      else if ntohs udp.destination_port = portDns then
        if 54 ≤ pi.packet.length then .dns else .ignore
      else unreachable
  else unreachable

/-- A packet for interface `i` of the router itself. -/
def deliverVerdict (pi : PacketInfo) (i : Nat) : Verdict :=
  let ipv4 := pi.ipv4
  if ipv4.ttl = 0 then .error ⟨.interface i, Icmp.typeTimeExceeded, 0⟩
  else if ipv4.protocol = ipTypeIcmp then
    let icmp := PacketIcmp.layout.load 34 (pi.memory env 8)
    if icmp.type = Icmp.typeRequest then .echoReplay
    else if icmp.type = Icmp.typeReplay then
      if env.cliPingHandleReply ipv4.src_ip icmp.seq_num then .ignore
      else .error ⟨.interface i, Icmp.typeDstUnreach, Icmp.codePortUnreach⟩
    else .ignore
  else if ipv4.protocol = ipTypeTcp then .transport
  else if ipv4.protocol = ipTypeOspf then .pwospf
  else if ipv4.protocol = ipTypeUdp then udpVerdict env pi i
  else .error ⟨.interface i, Icmp.typeDstUnreach, Icmp.codeProtUnreach⟩

/-- A packet for others; without a route the interface counter is at `num_interfaces`. -/
def forwardVerdict (r : Router) (pi : PacketInfo) : Verdict :=
  if pi.ipv4.ttl ≤ 1 then .error ⟨.outgoing, Icmp.typeTimeExceeded, 0⟩
  else
    match ipLongestprefixmatch r.ip_table pi.ipv4.dst_ip with
    | some (_, entry) => .forward entry
    | none => .error ⟨.interface r.num_interfaces, Icmp.typeDstUnreach, Icmp.codeHostUnreach⟩

def ipVerdict (r : Router) (pi : PacketInfo) : Verdict :=
  if ¬ ipHeaderCheck pi.ipv4 then .ignore
  else if pi.ipv4.dst_ip = allSPFRouters ∧ pi.ipv4.protocol = ipTypeOspf then .pwospf
  else
    match ownInterface r pi.ipv4.dst_ip with
    | some i => deliverVerdict env pi i
    | none => forwardVerdict r pi

end Verdicts

/-- Carrying a decision out. -/
def Verdict.perform (env : Env) (recv : Router → PacketInfo → Option Router) (r : Router)
    (pi : PacketInfo) : Verdict → Option Router
  | .ignore => some r
  | .error call => icmpSend env recv r pi (r.sourceIp call.source) call.type call.code
  | .echoReplay => some (icmpTypeEchoReplay env r pi)
  | .transport => some { r with transport := r.transport ++ [pi.packet.drop 14] }
  | .pwospf => ospfOnreceive env r pi
  | .dns => env.dnsOnreceive pi r
  | .copyNegative => none
  | .forward entry => some (forwardVia env r pi entry)

section Perform

variable (env : Env) (recv : Router → PacketInfo → Option Router) (r : Router) (pi : PacketInfo)

theorem udpOnreceive_perform (i : Nat) :
    udpOnreceive env recv r pi (r.interface i).ip = (udpVerdict env pi i).perform env recv r pi := by
  unfold udpOnreceive udpVerdict
  simp only
  split
  · cases udpPseudoHeader env pi (PacketUdp.layout.load 34 pi.packet) with
    | none => rfl
    | some pseudo =>
      simp only
      split
      · rfl
      · split
        · split
          · rfl
          · rfl
        · rfl
  · rfl

theorem deliver_perform (i : Nat) :
    deliver env recv r pi i = (deliverVerdict env pi i).perform env recv r pi := by
  unfold deliver deliverVerdict
  simp only
  split
  · rfl
  · split
    · split
      · rfl
      · split
        · split
          · rfl
          · rfl
        · rfl
    · split
      · rfl
      · split
        · rfl
        · split
          · exact udpOnreceive_perform env recv r pi i
          · rfl

theorem forward_perform :
    forward env recv r pi = (forwardVerdict r pi).perform env recv r pi := by
  unfold forward forwardVerdict
  split
  · rfl
  · cases ipLongestprefixmatch r.ip_table pi.ipv4.dst_ip with
    | none => rfl
    | some route => rfl

/-- **The body of `ip_onreceive` decides and acts.** -/
theorem ipOnreceiveStep_perform :
    ipOnreceiveStep env recv r pi = (ipVerdict env r pi).perform env recv r pi := by
  unfold ipOnreceiveStep ipVerdict
  split
  · rfl
  · split
    · rfl
    · cases ownInterface r pi.ipv4.dst_ip with
      | none => exact forward_perform env recv r pi
      | some i => exact deliver_perform env recv r pi i

theorem ipOnreceive_perform :
    ipOnreceive env r pi = (ipVerdict env r pi).perform env (ipOnreceive env) r pi := by
  rw [ipOnreceive_unfold, ipOnreceiveStep_perform]

end Perform

/-! ## Packets in transit -/

theorem ownInterface_isSome_iff (r : Router) (dst : AddrIp) :
    (ownInterface r dst).isSome = true ↔ ¬ r.Foreign dst := by
  unfold ownInterface Router.Foreign
  rw [List.find?_isSome]
  simp only [List.mem_range, decide_eq_true_eq]
  push Not
  exact exists_congr fun i => and_congr_right fun _ => eq_comm

theorem foreign_of_ownInterface_none {r : Router} {dst : AddrIp} (h : ownInterface r dst = none) :
    r.Foreign dst := by
  refine not_not.1 fun hown => ?_
  rw [← ownInterface_isSome_iff, h] at hown
  cases hown

theorem two_le_ttl {ttl : Byte} (h : ¬ ttl ≤ 1) : 2 ≤ ttl := by
  rw [BitVec.le_def] at h ⊢
  exact Nat.not_le.1 h

/-- Packets that may be forwarded: in transit, with a TTL of at least 2. -/
structure Router.Forwardable (r : Router) (pi : PacketInfo) : Prop where
  transit : r.Transit pi
  ttl : 2 ≤ pi.ipv4.ttl

/-! ## ICMP errors -/

section Errors

variable {env : Env} {r : Router} {pi : PacketInfo} {call : IcmpCall}

theorem udpVerdict_error {i : Nat} (h : udpVerdict env pi i = .error call) :
    call = ⟨.interface i, Icmp.typeDstUnreach, Icmp.codePortUnreach⟩ := by
  unfold udpVerdict at h
  simp only at h
  split at h
  · split at h
    · cases h
    · split at h
      · cases h
        rfl
      · split at h
        · split at h
          · cases h
          · cases h
        · cases h
          rfl
  · cases h
    rfl

theorem deliverVerdict_error {i : Nat} (h : deliverVerdict env pi i = .error call) :
    call.source = .interface i ∧
      (call.type = Icmp.typeDstUnreach ∨ call.type = Icmp.typeTimeExceeded) := by
  unfold deliverVerdict at h
  simp only at h
  split at h
  · cases h
    exact ⟨rfl, .inr rfl⟩
  · split at h
    · split at h
      · cases h
      · split at h
        · split at h
          · cases h
          · cases h
            exact ⟨rfl, .inl rfl⟩
        · cases h
    · split at h
      · cases h
      · split at h
        · cases h
        · split at h
          · rw [udpVerdict_error h]
            exact ⟨rfl, .inl rfl⟩
          · cases h
            exact ⟨rfl, .inl rfl⟩

theorem forwardVerdict_error (h : forwardVerdict r pi = .error call) :
    (pi.ipv4.ttl ≤ 1 ∧ call = ⟨.outgoing, Icmp.typeTimeExceeded, 0⟩) ∨
      (¬ pi.ipv4.ttl ≤ 1 ∧ ipLongestprefixmatch r.ip_table pi.ipv4.dst_ip = none ∧
        call = ⟨.interface r.num_interfaces, Icmp.typeDstUnreach, Icmp.codeHostUnreach⟩) := by
  unfold forwardVerdict at h
  split at h
  · rename_i httl
    cases h
    exact .inl ⟨httl, rfl⟩
  · rename_i httl
    split at h
    · cases h
    · rename_i hnone
      cases h
      exact .inr ⟨httl, hnone, rfl⟩

/-- **Where ICMP errors come from.** -/
theorem ipVerdict_error (h : ipVerdict env r pi = .error call) :
    (∃ i, ownInterface r pi.ipv4.dst_ip = some i ∧ call.source = .interface i ∧
      (call.type = Icmp.typeDstUnreach ∨ call.type = Icmp.typeTimeExceeded)) ∨
    (pi.ipv4.ttl ≤ 1 ∧ call = ⟨.outgoing, Icmp.typeTimeExceeded, 0⟩) ∨
    (r.Forwardable pi ∧ ipLongestprefixmatch r.ip_table pi.ipv4.dst_ip = none ∧
      call = ⟨.interface r.num_interfaces, Icmp.typeDstUnreach, Icmp.codeHostUnreach⟩) := by
  unfold ipVerdict at h
  split at h
  · cases h
  · rename_i hheader
    split at h
    · cases h
    · rename_i hspf
      split at h
      · rename_i i hown
        exact .inl ⟨i, hown, deliverVerdict_error h⟩
      · rename_i hown
        refine .inr ((forwardVerdict_error h).imp_right fun ⟨httl, hnone, hcall⟩ => ?_)
        have htransit : r.Transit pi :=
          ⟨not_not.1 hheader, foreign_of_ownInterface_none hown, hspf⟩
        exact ⟨⟨htransit, two_le_ttl httl⟩, hnone, hcall⟩

theorem ipVerdict_error_type (h : ipVerdict env r pi = .error call) :
    call.type = Icmp.typeDstUnreach ∨ call.type = Icmp.typeTimeExceeded := by
  rcases ipVerdict_error h with ⟨_, _, _, htype⟩ | ⟨_, rfl⟩ | ⟨_, _, rfl⟩
  · exact htype
  · exact .inr rfl
  · exact .inl rfl

end Errors

/-- The message that a call creates, none without a route to the sender of the packet. -/
def IcmpCall.message (env : Env) (r : Router) (pi : PacketInfo) (call : IcmpCall) :
    Option PacketInfo :=
  icmpAllocate r pi.ipv4.src_ip call.code call.type 0 0 (icmpErrorData env pi)
    (r.sourceIp call.source)

theorem IcmpCall.message_errorPacket {env : Env} {r : Router} {pi e : PacketInfo} (call : IcmpCall)
    (htype : call.type = Icmp.typeDstUnreach ∨ call.type = Icmp.typeTimeExceeded)
    (h : call.message env r pi = some e) : ErrorPacket r e :=
  ⟨_, _, _, _, _, htype, icmpErrorData_length env pi, h⟩

theorem icmpSend_message (env : Env) (recv : Router → PacketInfo → Option Router) (r : Router)
    (pi : PacketInfo) (call : IcmpCall) :
    icmpSend env recv r pi (r.sourceIp call.source) call.type call.code =
      (call.message env r pi).elim (some r) (recv r) := by
  unfold icmpSend icmpAllocateAndSend IcmpCall.message
  cases icmpAllocate r pi.ipv4.src_ip call.code call.type 0 0 (icmpErrorData env pi)
    (r.sourceIp call.source) with
  | none => rfl
  | some e => rfl

/-- The ICMP error that an activation of `ip_onreceive` creates. -/
def icmpError (env : Env) (r : Router) (pi : PacketInfo) : Option PacketInfo :=
  match ipVerdict env r pi with
  | .error call => call.message env r pi
  | _ => none

section Activations

variable {env : Env} {r : Router} {pi : PacketInfo}

theorem icmpError_errorPacket {e : PacketInfo} (h : icmpError env r pi = some e) :
    ErrorPacket r e := by
  unfold icmpError at h
  split at h
  · rename_i call hcall
    exact call.message_errorPacket (ipVerdict_error_type hcall) h
  · cases h

/-- **The body calls itself on the ICMP error that it creates, and otherwise not.** -/
theorem ipOnreceiveStep_calls (env : Env) (recv : Router → PacketInfo → Option Router) (r : Router)
    (pi : PacketInfo) :
    ipOnreceiveStep env recv r pi = (icmpError env r pi).elim
      ((ipVerdict env r pi).perform env (fun r _ => some r) r pi) (recv r) := by
  rw [ipOnreceiveStep_perform]
  unfold icmpError
  cases ipVerdict env r pi with
  | error call =>
    show icmpSend env recv r pi _ _ _ = (call.message env r pi).elim (icmpSend env _ r pi _ _ _) _
    rw [icmpSend_message, icmpSend_message]
    cases call.message env r pi with
    | none => rfl
    | some e => rfl
  | _ => rfl

/-- An ICMP error causes no other. -/
theorem ErrorPacket.icmpError_none (h : ErrorPacket r pi) (env : Env) : icmpError env r pi = none := by
  have hstep := h.step env fun _ _ => none
  rw [ipOnreceiveStep_calls] at hstep
  cases he : icmpError env r pi with
  | none => rfl
  | some e =>
    rw [he] at hstep
    cases hstep

/-- The packets that nested activations of `ip_onreceive` are called with, the received one first, up
to a depth of `n`. -/
def activations (env : Env) : Nat → Router → PacketInfo → List PacketInfo
  | 0, _, _ => []
  | n + 1, r, pi => pi :: (icmpError env r pi).elim [] (activations env n r)

/-- **At most two activations**, whatever depth is allowed. -/
theorem activations_length (env : Env) (n : Nat) (r : Router) (pi : PacketInfo) :
    (activations env n r pi).length ≤ 2 := by
  cases n with
  | zero => exact Nat.zero_le 2
  | succ n =>
    rw [activations, List.length_cons]
    cases he : icmpError env r pi with
    | none => exact Nat.le_succ 1
    | some e =>
      cases n with
      | zero => exact Nat.le_succ 1
      | succ n =>
        show (activations env (n + 1) r e).length + 1 ≤ 2
        rw [activations, (icmpError_errorPacket he).icmpError_none]
        exact Nat.le_refl 2

end Activations

/-! ## Frames -/

/-- Frames were sent, and no more packets left waiting than frames sent. -/
structure Router.Sends (r r' : Router) (frames : List Sent) : Prop where
  sent : r'.sent = r.sent ++ frames
  waiting : ∃ waiting, r'.iparp_buffer = r.iparp_buffer ++ waiting ∧ waiting.length ≤ frames.length

namespace Router.Sends

theorem of_same {r r' : Router} (hs : r'.sent = r.sent) (hb : r'.iparp_buffer = r.iparp_buffer) :
    r.Sends r' [] :=
  ⟨by rw [hs, List.append_nil], [], by rw [hb, List.append_nil], Nat.le_refl 0⟩

theorem refl (r : Router) : r.Sends r [] := of_same rfl rfl

theorem trans {r r' r'' : Router} {frames frames' : List Sent} (h : r.Sends r' frames)
    (h' : r'.Sends r'' frames') : r.Sends r'' (frames ++ frames') := by
  obtain ⟨waiting, hb, hlen⟩ := h.waiting
  obtain ⟨waiting', hb', hlen'⟩ := h'.waiting
  refine ⟨?_, waiting ++ waiting', ?_, ?_⟩
  · rw [h'.sent, h.sent, List.append_assoc]
  · rw [hb', hb, List.append_assoc]
  · rw [List.length_append, List.length_append]
    omega

theorem output (r : Router) (i : Nat) (packet : List Byte) :
    r.Sends (r.output i packet) [⟨i, packet⟩] :=
  ⟨rfl, [], (List.append_nil _).symm, Nat.zero_le _⟩

theorem queue (env : Env) (r : Router) (pi : PacketInfo) (intf : Nat) (dest : AddrIp) :
    ∃ frame, r.Sends (r.arpQueueIppacket env pi intf dest) [frame] :=
  ⟨_, rfl, [_], rfl, Nat.le_refl 1⟩

end Router.Sends

theorem forwardVia_sends (env : Env) (r : Router) (pi : PacketInfo) (entry : RtableEntry) :
    ∃ frame, r.Sends (forwardVia env r pi entry) [frame] := by
  cases h : arpGetcachebyip r.arp_cache (entry.nextHop pi.ipv4.dst_ip) with
  | none =>
    rw [forwardVia_unknown h]
    exact Router.Sends.queue ..
  | some arp =>
    rw [forwardVia_known h]
    exact ⟨_, Router.Sends.output ..⟩

/-! ### PWOSPF -/

section Pwospf

variable (env : Env) {r r' : Router} {pi : PacketInfo}

theorem pwospfRefloodTo_sends (intf : Nat) (s : Router × PacketInfo) (dest : AddrIp) :
    ∃ frames, s.1.Sends (pwospfRefloodTo env intf s dest).1 frames := by
  unfold pwospfRefloodTo
  simp only
  split
  · split
    · exact ⟨[], .refl _⟩
    · exact ⟨_, .output ..⟩
  · obtain ⟨frame, h⟩ := Router.Sends.queue env s.1 _ intf dest
    exact ⟨[frame], h⟩

theorem pwospfReflood_sends (r : Router) (pi : PacketInfo) (excluded_ip : AddrIp) (locked : Nat) :
    ∃ frames, r.Sends (pwospfReflood env r pi excluded_ip locked).1 frames := by
  rw [pwospfReflood_eq]
  refine List.foldlRecOn _ _ (motive := fun (s : Router × PacketInfo) =>
    ∃ frames, r.Sends s.1 frames) ⟨[], .refl r⟩ ?_
  rintro s ⟨frames, h⟩ t _
  obtain ⟨frames', h'⟩ := pwospfRefloodTo_sends env t.1 s t.2
  exact ⟨frames ++ frames', h.trans h'⟩

theorem announce_sends (r : Router) : ∃ frames, r.Sends (announce env r) frames := by
  obtain ⟨own, hsent, _, hbuffer, _⟩ := announce_effect env r
  exact ⟨own, hsent, [], by rw [hbuffer, List.append_nil], Nat.zero_le _⟩

/-- Neighbours are of no concern. -/
theorem Router.Sends.setNeighbours {frames : List Sent} (h : r.Sends r' frames)
    (i : Nat) (l : List PwospfListEntry) : r.Sends (r'.setNeighbours i l) frames :=
  ⟨h.sent, h.waiting⟩

theorem pwospfOnreceiveHello_sends (r : Router) (pi : PacketInfo) :
    ∃ frames, r.Sends (pwospfOnreceiveHello env r pi) frames := by
  have hset : ∀ l, r.Sends (r.setNeighbours pi.interface l) [] := fun l =>
    (Router.Sends.refl r).setNeighbours pi.interface l
  have hann : ∀ l, ∃ frames, r.Sends (announce env (r.setNeighbours pi.interface l)) frames := by
    intro l
    obtain ⟨frames, h⟩ := announce_sends env (r.setNeighbours pi.interface l)
    exact ⟨[] ++ frames, (hset l).trans h⟩
  unfold pwospfOnreceiveHello
  simp only
  split
  · exact ⟨[], .refl r⟩
  · split
    · split
      · exact hann _
      · exact ⟨[], hset _⟩
    · exact hann _

theorem onreceiveLinkKnown_sends {n : Nat} {neighbour : PwospfListEntry}
    (h : onreceiveLinkKnown env r pi n neighbour = some r') : ∃ frames, r.Sends r' frames := by
  obtain ⟨frames, hreflood⟩ := pwospfReflood_sends env r pi neighbour.neighbour_ip pi.interface
  unfold onreceiveLinkKnown at h
  simp only at h
  split at h
  · cases h
    exact ⟨[], .refl _⟩
  · split at h
    · cases h
    · split at h
      · cases h
        exact ⟨frames, hreflood.setNeighbours ..⟩
      · cases h
        obtain ⟨own, hown⟩ := announce_sends env _
        exact ⟨frames ++ own, (hreflood.setNeighbours ..).trans hown⟩

theorem onreceiveLinkNew_sends
    (h : onreceiveLinkNew env r pi = some r') : ∃ frames, r.Sends r' frames := by
  unfold onreceiveLinkNew at h
  simp only at h
  split at h
  · cases h
  · cases h
    split
    · obtain ⟨frames, hreflood⟩ := pwospfReflood_sends env (r.setNeighbours pi.interface _) _ _ _
      obtain ⟨own, hown⟩ := announce_sends env _
      exact ⟨_, (((Router.Sends.refl r).setNeighbours ..).trans hreflood).trans hown⟩
    · obtain ⟨own, hown⟩ := announce_sends env _
      exact ⟨_, ((Router.Sends.refl r).setNeighbours ..).trans hown⟩

theorem pwospfOnreceiveLink_sends
    (h : pwospfOnreceiveLink env r pi = some r') : ∃ frames, r.Sends r' frames := by
  unfold pwospfOnreceiveLink at h
  simp only at h
  split at h
  · cases h
    exact ⟨[], .refl _⟩
  · split at h
    · cases h
      exact ⟨[], .refl _⟩
    · split at h
      · exact onreceiveLinkKnown_sends env h
      · exact onreceiveLinkNew_sends env h

theorem pwospfOnreceive_sends
    (h : pwospfOnreceive env r pi = some r') : ∃ frames, r.Sends r' frames := by
  rcases pwospfOnreceive_cases env r pi with heq | heq | heq
  · cases heq.symm.trans h
    exact ⟨[], .refl r⟩
  · cases heq.symm.trans h
    exact pwospfOnreceiveHello_sends env r pi
  · exact pwospfOnreceiveLink_sends env (heq.symm.trans h)

theorem ospfOnreceive_sends (h : ospfOnreceive env r pi = some r') :
    ∃ frames, r.Sends r' frames := by
  unfold ospfOnreceive at h
  split at h
  · exact pwospfOnreceive_sends env h
  · cases h
    exact ⟨[], .refl _⟩

end Pwospf

/-! ### Other packets -/

section Received

variable {env : Env} {r r' : Router} {pi : PacketInfo}

/-- An ICMP error is for the router, or is forwarded. -/
theorem ErrorPacket.received (h : ErrorPacket r pi) (env : Env) :
    ipOnreceive env r pi = some r ∨
      ∃ entry, r.Forwardable pi ∧ ipOnreceive env r pi = some (forwardVia env r pi entry) := by
  rw [ipOnreceive_error h]
  obtain ⟨n, entry, e, src, dest, type, rest, hl, _, hpi⟩ := h.parts
  have hip : pi.ipv4 = allocatedHeader src dest ipTypeIcmp 84 := by
    rw [hpi, PacketInfo.ofParts_ipv4]
  unfold receiveError
  cases hown : ownInterface r pi.ipv4.dst_ip with
  | some i => exact .inl rfl
  | none =>
    have hroute : ipLongestprefixmatch r.ip_table pi.ipv4.dst_ip = some (n, entry) := by
      rw [hip]
      exact hl
    refine .inr ⟨entry, ⟨⟨?_, foreign_of_ownInterface_none hown, ?_⟩, ?_⟩, by rw [hroute]⟩
    · rw [hip]
      exact ipHeaderCheck_allocatedHeader src dest ipTypeIcmp
    · rintro ⟨_, hospf⟩
      rw [hip] at hospf
      exact absurd (show ipTypeIcmp = ipTypeOspf from hospf) (by decide)
    · rw [hip]
      show (2 : Byte) ≤ 65
      decide

theorem udpVerdict_ne {i : Nat} {v : Verdict}
    (hv : v = .pwospf ∨ ∃ entry, v = .forward entry) : udpVerdict env pi i ≠ v := by
  unfold udpVerdict
  simp only
  repeat' split
  all_goals rcases hv with rfl | ⟨entry, rfl⟩ <;> exact nofun

/-- Packets for the router are not forwarded, and only those of its protocol go to PWOSPF. -/
theorem deliverVerdict_ne {i : Nat} {v : Verdict}
    (hv : v = .pwospf ∧ pi.ipv4.protocol ≠ ipTypeOspf ∨ ∃ entry, v = .forward entry) :
    deliverVerdict env pi i ≠ v := by
  have hother : ∀ {w : Verdict}, w ≠ .pwospf → (∀ entry, w ≠ .forward entry) → w ≠ v := by
    intro w hp hf
    rcases hv with ⟨rfl, _⟩ | ⟨entry, rfl⟩
    · exact hp
    · exact hf entry
  unfold deliverVerdict
  simp only
  split
  · exact hother nofun nofun
  · split
    · repeat' split
      all_goals exact hother nofun nofun
    · split
      · exact hother nofun nofun
      · split
        · rename_i hospf
          rcases hv with ⟨_, hne⟩ | ⟨entry, rfl⟩
          · exact absurd hospf hne
          · exact nofun
        · split
          · exact udpVerdict_ne (hv.imp_left And.left)
          · exact hother nofun nofun

theorem ipVerdict_forward {entry : RtableEntry}
    (h : ipVerdict env r pi = .forward entry) : r.Forwardable pi := by
  unfold ipVerdict at h
  split at h
  · cases h
  · rename_i hheader
    split at h
    · cases h
    · rename_i hspf
      split at h
      · exact absurd h (deliverVerdict_ne (.inr ⟨entry, rfl⟩))
      · rename_i hown
        unfold forwardVerdict at h
        split at h
        · cases h
        · rename_i httl
          exact ⟨⟨not_not.1 hheader, foreign_of_ownInterface_none hown, hspf⟩, two_le_ttl httl⟩

/-- An ICMP error is dropped, kept or forwarded. -/
theorem icmpSend_cases {call : IcmpCall}
    (htype : call.type = Icmp.typeDstUnreach ∨ call.type = Icmp.typeTimeExceeded)
    (h : icmpSend env (ipOnreceive env) r pi (r.sourceIp call.source) call.type call.code = some r') :
    r' = r ∨ ∃ e entry, r.Forwardable e ∧ r' = forwardVia env r e entry := by
  rw [icmpSend_message] at h
  cases he : call.message env r pi with
  | none =>
    rw [he] at h
    cases h
    exact .inl rfl
  | some e =>
    rw [he] at h
    rcases (call.message_errorPacket htype he).received env with hself | ⟨entry, hforward, hvia⟩
    · cases hself.symm.trans h
      exact .inl rfl
    · cases hvia.symm.trans h
      exact .inr ⟨e, entry, hforward, rfl⟩

/-- **What a packet does that does not go to PWOSPF**: nothing is queued and at most one frame is sent,
or a packet is forwarded, itself or the ICMP error about it. -/
theorem ipOnreceive_cases (env : Env) (d : DnsEnv)
    (h : ipVerdict (env.withDns d) r pi ≠ .pwospf)
    (hr : ipOnreceive (env.withDns d) r pi = some r') :
    (r'.iparp_buffer = r.iparp_buffer ∧ ∃ frames, r'.sent = r.sent ++ frames ∧ frames.length ≤ 1) ∨
      ∃ e entry, r.Forwardable e ∧ r' = forwardVia (env.withDns d) r e entry := by
  have hquiet : ∀ {t : Router}, t.iparp_buffer = r.iparp_buffer → t.sent = r.sent →
      t.iparp_buffer = r.iparp_buffer ∧ ∃ frames, t.sent = r.sent ++ frames ∧ frames.length ≤ 1 :=
    fun hb hs => ⟨hb, [], by rw [hs, List.append_nil], Nat.zero_le 1⟩
  rw [ipOnreceive_perform] at hr
  cases hv : ipVerdict (env.withDns d) r pi with
  | ignore =>
    rw [hv] at hr
    cases hr
    exact .inl (hquiet rfl rfl)
  | error call =>
    rw [hv] at hr
    rcases icmpSend_cases (ipVerdict_error_type hv) hr with rfl | hforward
    · exact .inl (hquiet rfl rfl)
    · exact .inr hforward
  | echoReplay =>
    rw [hv] at hr
    cases hr
    exact .inl ⟨rfl, _, rfl, Nat.le_refl 1⟩
  | transport =>
    rw [hv] at hr
    cases hr
    exact .inl (hquiet rfl rfl)
  | pwospf => exact absurd hv h
  | dns =>
    rw [hv] at hr
    rcases dnsOnreceive_effect hr with rfl | ⟨packet, rfl⟩
    · exact .inl (hquiet rfl rfl)
    · exact .inl ⟨rfl, _, rfl, Nat.le_refl 1⟩
  | copyNegative =>
    rw [hv] at hr
    cases hr
  | forward entry =>
    rw [hv] at hr
    cases hr
    exact .inr ⟨pi, entry, ipVerdict_forward hv, rfl⟩

/-- **At most one frame.** -/
theorem ipOnreceive_sends_one (env : Env) (d : DnsEnv)
    (h : ipVerdict (env.withDns d) r pi ≠ .pwospf)
    (hr : ipOnreceive (env.withDns d) r pi = some r') :
    ∃ frames, r.Sends r' frames ∧ frames.length ≤ 1 := by
  rcases ipOnreceive_cases env d h hr with ⟨hbuffer, frames, hsent, hone⟩ | ⟨e, entry, _, rfl⟩
  · exact ⟨frames, ⟨hsent, [], by rw [hbuffer, List.append_nil], Nat.zero_le _⟩, hone⟩
  · obtain ⟨frame, hsends⟩ := forwardVia_sends (env.withDns d) r e entry
    exact ⟨[frame], hsends, Nat.le_refl 1⟩

/-- **No packet is left waiting without a frame.** -/
theorem ipOnreceive_sends (env : Env) (d : DnsEnv)
    (h : ipOnreceive (env.withDns d) r pi = some r') : ∃ frames, r.Sends r' frames := by
  by_cases hospf : ipVerdict (env.withDns d) r pi = .pwospf
  · rw [ipOnreceive_perform, hospf] at h
    exact ospfOnreceive_sends (env.withDns d) h
  · obtain ⟨frames, hsends, _⟩ := ipOnreceive_sends_one env d hospf h
    exact ⟨frames, hsends⟩

end Received

/-! ## Datagrams for the router -/

def PacketInfo.udp (pi : PacketInfo) : PacketUdp := PacketUdp.layout.load 34 pi.packet

/-- A UDP datagram for the router with its header in the frame. -/
structure UdpToRouter (r : Router) (pi : PacketInfo) : Prop where
  header : ipHeaderCheck pi.ipv4 = true
  own : ¬ r.Foreign pi.ipv4.dst_ip
  ttl : pi.ipv4.ttl ≠ 0
  protocol : pi.ipv4.protocol = ipTypeUdp
  fits : 42 ≤ pi.packet.length

/-- One with a length field below the size of the UDP header. -/
structure ShortUdp (r : Router) (pi : PacketInfo) : Prop extends UdpToRouter r pi where
  short : (ntohs pi.udp.length).toNat < 8

/-- One that `dns_onreceive` gets. -/
structure DnsQuery (env : Env) (r : Router) (pi : PacketInfo) : Prop extends UdpToRouter r pi where
  whole : 8 ≤ (ntohs pi.udp.length).toNat
  checksum : pi.udp.checksum = 0 ∨ (udpPseudoHeader env pi pi.udp).map generatechecksum = some 0
  port : ntohs pi.udp.destination_port = portDns
  dns_fits : 54 ≤ pi.packet.length

section Datagrams

variable {env : Env} {r : Router} {pi : PacketInfo} {i : Nat} {v : Verdict}

theorem udpVerdict_copyNegative_iff : udpVerdict env pi i = .copyNegative ↔
    42 ≤ pi.packet.length ∧ (ntohs pi.udp.length).toNat < 8 := by
  rw [← Nat.not_le, ← udpPseudoHeader_isSome env pi]
  unfold udpVerdict PacketInfo.udp
  simp only
  cases udpPseudoHeader env pi (PacketUdp.layout.load 34 pi.packet) with
  | none => simp
  | some pseudo =>
    simp only [Option.isSome_some, not_true_eq_false, and_false, iff_false]
    repeat' split
    all_goals simp

theorem udpVerdict_dns_iff : udpVerdict env pi i = .dns ↔
    54 ≤ pi.packet.length ∧ 8 ≤ (ntohs pi.udp.length).toNat ∧
      (pi.udp.checksum = 0 ∨ (udpPseudoHeader env pi pi.udp).map generatechecksum = some 0) ∧
      ntohs pi.udp.destination_port = portDns := by
  rw [← udpPseudoHeader_isSome env pi]
  unfold udpVerdict PacketInfo.udp
  simp only
  cases udpPseudoHeader env pi (PacketUdp.layout.load 34 pi.packet) with
  | none =>
    simp only [Option.isSome_none, Bool.false_eq_true, false_and, and_false, iff_false]
    split
    · exact nofun
    · exact nofun
  | some pseudo =>
    simp only [Option.isSome_some, Option.map_some, Option.some.injEq, true_and]
    split
    · split
      · rename_i hbad
        exact iff_of_false nofun fun h => h.2.1.elim hbad.1 hbad.2
      · rename_i hgood
        have hor := or_iff_not_imp_left.2 fun h => not_not.1 fun h' => hgood ⟨h, h'⟩
        split
        · rename_i hport
          split
          · rename_i hfits
            exact iff_of_true rfl ⟨hfits, hor, hport⟩
          · rename_i hfits
            exact iff_of_false nofun fun h => hfits h.1
        · rename_i hport
          exact iff_of_false nofun fun h => hport h.2.2
    · rename_i hfits
      exact iff_of_false nofun fun h => hfits (by omega)

/-- Only UDP datagrams are dropped by a copy or go to DNS. -/
theorem deliverVerdict_udp_iff (hv : v = .copyNegative ∨ v = .dns) :
    deliverVerdict env pi i = v ↔
      pi.ipv4.ttl ≠ 0 ∧ pi.ipv4.protocol = ipTypeUdp ∧ udpVerdict env pi i = v := by
  by_cases hudp : pi.ipv4.protocol = ipTypeUdp
  · have hicmp : ipTypeUdp ≠ ipTypeIcmp := by decide
    have htcp : ipTypeUdp ≠ ipTypeTcp := by decide
    have hospf : ipTypeUdp ≠ ipTypeOspf := by decide
    unfold deliverVerdict
    simp only [hudp, if_neg hicmp, if_neg htcp, if_neg hospf, if_true, true_and]
    split
    · rename_i httl
      refine iff_of_false ?_ fun h => h.1 httl
      rcases hv with rfl | rfl <;> exact nofun
    · rename_i httl
      exact ⟨fun h => ⟨httl, h⟩, fun h => h.2⟩
  · refine iff_of_false ?_ fun h => hudp h.2.1
    unfold deliverVerdict
    simp only [if_neg hudp]
    repeat' split
    all_goals rcases hv with rfl | rfl <;> exact nofun

theorem ipVerdict_udp_iff (hv : v = .copyNegative ∨ v = .dns) :
    ipVerdict env r pi = v ↔ ipHeaderCheck pi.ipv4 = true ∧ pi.ipv4.ttl ≠ 0 ∧
      pi.ipv4.protocol = ipTypeUdp ∧
      ∃ i, ownInterface r pi.ipv4.dst_ip = some i ∧ udpVerdict env pi i = v := by
  unfold ipVerdict
  split
  · rename_i hbad
    refine iff_of_false ?_ fun h => hbad h.1
    rcases hv with rfl | rfl <;> exact nofun
  · rename_i hheader
    split
    · rename_i hspf
      refine iff_of_false ?_ fun h => absurd (hspf.2.symm.trans h.2.2.1) (by decide)
      rcases hv with rfl | rfl <;> exact nofun
    · cases hown : ownInterface r pi.ipv4.dst_ip with
      | none =>
        refine iff_of_false ?_ fun h => ?_
        · show forwardVerdict r pi ≠ v
          unfold forwardVerdict
          repeat' split
          all_goals rcases hv with rfl | rfl <;> exact nofun
        · obtain ⟨_, _, _, _, hsome, _⟩ := h
          cases hsome
      | some i =>
        show deliverVerdict env pi i = v ↔ _
        rw [deliverVerdict_udp_iff hv]
        simp only [not_not] at hheader
        simp [hheader]

theorem ipVerdict_copyNegative_iff (env : Env) :
    ipVerdict env r pi = .copyNegative ↔ ShortUdp r pi := by
  rw [ipVerdict_udp_iff (.inl rfl)]
  simp only [udpVerdict_copyNegative_iff]
  constructor
  · rintro ⟨hheader, httl, hudp, i, hown, hfits, hshort⟩
    have hsome := (ownInterface_isSome_iff r pi.ipv4.dst_ip).1 (by rw [hown]; rfl)
    exact ⟨⟨hheader, hsome, httl, hudp, hfits⟩, hshort⟩
  · intro h
    obtain ⟨i, hown⟩ := Option.isSome_iff_exists.1
      ((ownInterface_isSome_iff r pi.ipv4.dst_ip).2 h.own)
    exact ⟨h.header, h.ttl, h.protocol, i, hown, h.fits, h.short⟩

theorem ipVerdict_dns_iff : ipVerdict env r pi = .dns ↔ DnsQuery env r pi := by
  rw [ipVerdict_udp_iff (.inr rfl)]
  simp only [udpVerdict_dns_iff]
  constructor
  · rintro ⟨hheader, httl, hudp, i, hown, hfits, hwhole, hsum, hport⟩
    have hsome := (ownInterface_isSome_iff r pi.ipv4.dst_ip).1 (by rw [hown]; rfl)
    exact ⟨⟨hheader, hsome, httl, hudp, by omega⟩, hwhole, hsum, hport, hfits⟩
  · intro h
    obtain ⟨i, hown⟩ := Option.isSome_iff_exists.1
      ((ownInterface_isSome_iff r pi.ipv4.dst_ip).2 h.own)
    exact ⟨h.header, h.ttl, h.protocol, i, hown, h.dns_fits, h.whole, h.checksum, h.port⟩

end Datagrams

/-! ## Packets that are not PWOSPF -/

theorem ipVerdict_ne_pwospf {env : Env} {r : Router} {pi : PacketInfo}
    (h : pi.ipv4.protocol ≠ ipTypeOspf) : ipVerdict env r pi ≠ .pwospf := by
  unfold ipVerdict
  rw [if_neg (c := _ ∧ _) fun hspf => h hspf.2]
  split
  · exact nofun
  · split
    · exact deliverVerdict_ne (.inl ⟨rfl, h⟩)
    · unfold forwardVerdict
      split
      · exact nofun
      · split
        · exact nofun
        · exact nofun

end BirRouter
