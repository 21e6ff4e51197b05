import BirRouter.Lib.Sweep
import BirRouter.PendingRetry

/-!
# The source addresses of ICMP errors

Every call of `icmp_send` and `icmp_type_time_exceeded` gets -1 or an address that it reads from
`router->interface[i]`.  What `i` is differs: the interface a packet was for, the end of the search for
that interface, or the position of a waiting packet in the queue.

* `icmpCalls`, `passCalls` — the calls that a received packet and a pass over the queue lead to;
* `passCalls_eq` — those of a pass: one for every entry it removes, with the entry's position;
* `icmp_sources_iff` — no index is out of range exactly if a packet to be forwarded has a route, and no
  entry is removed from a position that is no interface.
-/

set_option autoImplicit false

namespace BirRouter

open ByteLayout Sweep

/-- The source is the outgoing interface's address or that of an interface of the router. -/
def IcmpCall.Proper (r : Router) (call : IcmpCall) : Prop :=
  call.source = .outgoing ∨ ∃ i < r.num_interfaces, call.source = .interface i

theorem not_proper_of_le {r : Router} {call : IcmpCall} {i : Nat} (h : call.source = .interface i)
    (hi : r.num_interfaces ≤ i) : ¬ call.Proper r := by
  rintro (hout | ⟨j, hj, hsource⟩)
  · rw [h] at hout
    cases hout
  · rw [h] at hsource
    cases hsource
    exact absurd hj (Nat.not_lt.2 hi)

/-! ## Received packets -/

/-- The call that a decision leads to. -/
def Verdict.call : Verdict → Option IcmpCall
  | .error call => some call
  | _ => none

/-- The calls of `n` nested activations of `ip_onreceive`. -/
def icmpCalls (env : Env) (n : Nat) (r : Router) (pi : PacketInfo) : List IcmpCall :=
  (activations env n r pi).filterMap fun pi => (ipVerdict env r pi).call

theorem verdict_call_eq_some {v : Verdict} {call : IcmpCall} :
    v.call = some call ↔ v = .error call := by
  cases v <;> simp [Verdict.call]

section Received

variable {env : Env} {r : Router} {pi : PacketInfo} {call : IcmpCall}

/-- No call is made for an ICMP error. -/
theorem ErrorPacket.verdict_call (h : ErrorPacket r pi) (env : Env) :
    (ipVerdict env r pi).call = none := by
  obtain ⟨n, entry, e, src, dest, type, rest, hl, htype, hpi⟩ := h.parts
  have hip : pi.ipv4 = allocatedHeader src dest ipTypeIcmp 84 := by
    rw [hpi, PacketInfo.ofParts_ipv4]
  have hload : (PacketIcmp.layout.load 34 (pi.memory env 8)).type = type := by
    rw [hpi]
    rfl
  have hdst : (allocatedHeader src dest ipTypeIcmp 84).dst_ip = dest := rfl
  have hproto : (allocatedHeader src dest ipTypeIcmp 84).protocol = ipTypeIcmp := rfl
  have httl : (allocatedHeader src dest ipTypeIcmp 84).ttl = 65 := rfl
  unfold ipVerdict
  rw [hip, if_neg (not_not.2 (ipHeaderCheck_allocatedHeader src dest ipTypeIcmp)), hproto, hdst,
    if_neg fun hspf => absurd hspf.2 (by decide)]
  cases ownInterface r dest with
  | some i =>
    -- neither an echo request nor a reply
    show (deliverVerdict env pi i).call = none
    unfold deliverVerdict
    simp only [hip, httl, hproto, hload]
    rw [if_neg (by decide), if_pos trivial]
    rcases htype with rfl | rfl
    · rfl
    · rfl
  | none =>
    show (forwardVerdict r pi).call = none
    unfold forwardVerdict
    rw [hip, httl, hdst, hl, if_neg (by decide)]
    rfl

/-- The calls are those for the packet itself. -/
theorem mem_icmpCalls (n : Nat) :
    call ∈ icmpCalls env n r pi ↔ n ≠ 0 ∧ ipVerdict env r pi = .error call := by
  cases n with
  | zero => exact iff_of_false nofun fun h => h.1 rfl
  | succ n =>
    have hrest : ((icmpError env r pi).elim [] (activations env n r)).filterMap
        (fun pi => (ipVerdict env r pi).call) = [] := by
      cases he : icmpError env r pi with
      | none => rfl
      | some e =>
        have herr := icmpError_errorPacket he
        cases n with
        | zero => rfl
        | succ n =>
          show (e :: (icmpError env r e).elim [] (activations env n r)).filterMap _ = []
          rw [herr.icmpError_none, List.filterMap_cons, herr.verdict_call env]
          rfl
    have hiff : n + 1 ≠ 0 ∧ ipVerdict env r pi = .error call ↔ (ipVerdict env r pi).call = some call := by
      rw [verdict_call_eq_some]
      exact and_iff_right (Nat.succ_ne_zero n)
    rw [hiff]
    unfold icmpCalls
    rw [activations, List.filterMap_cons, hrest]
    cases (ipVerdict env r pi).call with
    | none => simp
    | some c => simp [eq_comm]

theorem ownInterface_lt {dst : AddrIp} {i : Nat} (h : ownInterface r dst = some i) :
    i < r.num_interfaces :=
  List.mem_range.1 (List.mem_of_find?_eq_some h)

/-- A packet without a route is reported with the index behind the last interface. -/
theorem ipVerdict_unroutable (env : Env) (h : r.Forwardable pi)
    (hnone : ipLongestprefixmatch r.ip_table pi.ipv4.dst_ip = none) :
    ipVerdict env r pi =
      .error ⟨.interface r.num_interfaces, Icmp.typeDstUnreach, Icmp.codeHostUnreach⟩ := by
  have httl : ¬ pi.ipv4.ttl ≤ 1 := by
    have h2 := h.ttl
    rw [BitVec.le_def] at h2 ⊢
    exact Nat.not_le.2 h2
  unfold ipVerdict
  rw [if_neg (not_not.2 h.transit.header), if_neg h.transit.not_spf,
    ownInterface_none h.transit.foreign]
  show forwardVerdict r pi = _
  unfold forwardVerdict
  rw [if_neg httl, hnone]

/-- **Calls for a received packet.** -/
theorem icmpCalls_proper_iff :
    (∀ n, ∀ call ∈ icmpCalls env n r pi, call.Proper r) ↔
      (r.Forwardable pi → (ipLongestprefixmatch r.ip_table pi.ipv4.dst_ip).isSome = true) := by
  constructor
  · intro hproper hforward
    by_contra hroute
    have hnone := Option.not_isSome_iff_eq_none.1 hroute
    have hcall := (mem_icmpCalls 1).2
      ⟨Nat.one_ne_zero, ipVerdict_unroutable env hforward hnone⟩
    exact not_proper_of_le rfl (Nat.le_refl _) (hproper 1 _ hcall)
  · intro hroute n call hcall
    rcases ipVerdict_error ((mem_icmpCalls n).1 hcall).2 with
      ⟨i, hown, hsource, _⟩ | ⟨_, rfl⟩ | ⟨hforward, hnone, _⟩
    · exact .inr ⟨i, ownInterface_lt hown, hsource⟩
    · exact .inl rfl
    · rw [hnone] at hroute
      cases hroute hforward

end Received

/-- The calls that the message of a call leads to: none. -/
def IcmpCall.nested (env : Env) (r : Router) (pi : PacketInfo) (call : IcmpCall) : List IcmpCall :=
  (call.message env r pi).elim [] (icmpCalls env 2 r)

theorem nested_eq_nil (env : Env) (r : Router) (pi : PacketInfo) {call : IcmpCall}
    (htype : call.type = Icmp.typeDstUnreach ∨ call.type = Icmp.typeTimeExceeded) :
    call.nested env r pi = [] := by
  unfold IcmpCall.nested
  cases he : call.message env r pi with
  | none => rfl
  | some e =>
    have herr := call.message_errorPacket htype he
    refine List.eq_nil_iff_forall_not_mem.2 fun c hc => ?_
    have hv := ((mem_icmpCalls 2).1 hc).2
    rw [← verdict_call_eq_some, herr.verdict_call env] at hv
    cases hv

/-! ## Maintenance passes -/

/-- The calls of a round: one for an entry that is removed, and those that receiving the message leads
to. -/
def maintainCalls (env : Env) (started : Nat) (r : Router) (i : Nat) : List IcmpCall :=
  match r.iparp_buffer[i]? with
  | none => []
  | some entry =>
    if entry.timesOut started then
      unreachableCall i :: (unreachableCall i).nested env
        { r with iparp_buffer := r.iparp_buffer.eraseIdx i } entry.packet_info
    else []

/-- The calls of `n` rounds of a pass. -/
def passCalls (clock : Nat → Env) (started : Nat) : Nat → Router → List IcmpCall
  | 0, _ => []
  | n + 1, r => passCalls clock started n r ++
      (arpipqueueMaintain clock started n r).elim [] fun r => maintainCalls (clock n) started r n

/-- The call for an entry that is removed from a position. -/
def removalCall (x : Nat × IparpBufferEntry) : IcmpCall := unreachableCall x.1

section Pass

variable {started : Nat}

theorem not_timesOut_of_fresh {entry : IparpBufferEntry} (h : entry.sent_arps_count = 1) :
    ¬ entry.timesOut started = true := by
  unfold IparpBufferEntry.timesOut
  rw [h]
  exact fun htimes => absurd (Bool.and_eq_true_iff.1 htimes).2 (by decide)

/-- The entry behind a removed one moves to its position, and what is appended is not removed. -/
theorem taken_after_removal {l waiting : List IparpBufferEntry} {i : Nat} (hi : i ≤ l.length)
    (hfresh : ∀ entry ∈ waiting, entry.sent_arps_count = 1) :
    taken (·.timesOut started) (i + 1) ((l.eraseIdx i ++ waiting).drop (i + 1)) =
      taken (·.timesOut started) (i + 1) ((l.drop (i + 1)).drop 1) := by
  have hnot : ∀ entry ∈ waiting, ¬ entry.timesOut started = true := fun entry he =>
    not_timesOut_of_fresh (hfresh entry he)
  have htake : (l.take i).length = i := List.length_take_of_le hi
  have hdrop : (l.eraseIdx i ++ waiting).drop (i + 1) = (l.drop (i + 1) ++ waiting).drop 1 := by
    rw [List.eraseIdx_eq_take_drop_succ, List.append_assoc, ← List.drop_drop,
      List.drop_left' htake]
  rw [hdrop]
  cases l.drop (i + 1) with
  | nil => rw [List.nil_append, List.drop_nil, taken_nil,
      taken_eq_nil (i + 1) fun entry he => hnot entry (List.mem_of_mem_drop he)]
  | cons b rest => exact taken_append (i + 1) hnot

/-- **One round**: the queue gets no longer, and the calls still to come are those for the entries at
the positions still to come. -/
theorem maintain_round (env : Env) (r : Router) (i : Nat) :
    ∃ r', maintainAt env started r i = some r' ∧ r'.iparp_buffer.length ≤ r.iparp_buffer.length ∧
      maintainCalls env started r i ++
        (taken (·.timesOut started) (i + 1) (r'.iparp_buffer.drop (i + 1))).map removalCall =
      (taken (·.timesOut started) i (r.iparp_buffer.drop i)).map removalCall := by
  have hcons : ∀ entry, r.iparp_buffer[i]? = some entry →
      r.iparp_buffer.drop i = entry :: r.iparp_buffer.drop (i + 1) := by
    intro entry hi
    obtain ⟨hlt, hentry⟩ := List.getElem?_eq_some_iff.1 hi
    rw [List.drop_eq_getElem_cons hlt, hentry]
  unfold maintainCalls
  rcases maintainAt_cases env started r i with
    ⟨hr, hnot, _⟩ | ⟨entry, hi, ⟨_, htimes, hr⟩ | ⟨_, htimes, r', frames, waiting, hr, hreported⟩⟩
  · refine ⟨r, hr, Nat.le_refl _, ?_⟩
    cases hi : r.iparp_buffer[i]? with
    | none =>
      have hlen := List.getElem?_eq_none_iff.1 hi
      rw [List.drop_of_length_le hlen, List.drop_of_length_le (Nat.le_succ_of_le hlen)]
      rfl
    | some entry =>
      rw [hi, Option.any_some] at hnot
      rw [hcons entry hi, taken_of_neg i (Bool.eq_false_iff.1 hnot)]
      simp only [hnot, Bool.false_eq_true, if_false, List.nil_append]
  · -- another request
    refine ⟨_, hr, Nat.le_of_eq List.length_set, ?_⟩
    rw [hcons entry hi, taken_of_neg i (Bool.eq_false_iff.1 htimes)]
    simp only [hi, htimes, Bool.false_eq_true, if_false, List.nil_append]
    exact congrArg (fun l => (taken _ (i + 1) l).map removalCall)
      (List.drop_set_of_lt (Nat.lt_succ_self i))
  · -- a removal
    have hlt := (List.getElem?_eq_some_iff.1 hi).1
    have hbuffer : r'.iparp_buffer = r.iparp_buffer.eraseIdx i ++ waiting := hreported.adds.2
    refine ⟨r', hr, ?_, ?_⟩
    · have hone := hreported.length
      rw [hbuffer, List.length_append, List.length_eraseIdx_of_lt hlt]
      omega
    · rw [hcons entry hi, hbuffer, taken_after_removal (Nat.le_of_lt hlt) hreported.fresh,
        taken_cons_of_pos _ i htimes]
      simp only [hi, if_pos htimes]
      rw [nested_eq_nil env _ _ (.inl rfl)]
      rfl

/-- **The calls of a pass**: one for every entry that is removed, with its position. -/
theorem passCalls_eq (started : Nat) (clock : Nat → Env) (r : Router) (n : Nat) :
    ∃ r', arpipqueueMaintain clock started n r = some r' ∧
      r'.iparp_buffer.length ≤ r.iparp_buffer.length ∧
      passCalls clock started n r ++
        (taken (·.timesOut started) n (r'.iparp_buffer.drop n)).map removalCall =
      (taken (·.timesOut started) 0 r.iparp_buffer).map removalCall := by
  induction n with
  | zero => exact ⟨r, rfl, Nat.le_refl _, rfl⟩
  | succ n ih =>
    obtain ⟨r₁, hrun, hlen, hcalls⟩ := ih
    obtain ⟨r', hr', hlen', hround⟩ := maintain_round (clock n) r₁ n
    refine ⟨r', ?_, Nat.le_trans hlen' hlen, ?_⟩
    · rw [arpipqueueMaintain, hrun]
      exact hr'
    · rw [← hcalls, ← hround, passCalls, hrun, List.append_assoc]
      rfl

theorem passCalls_proper_iff (clock : Nat → Env) (r : Router) :
    (∀ n, ∀ call ∈ passCalls clock started n r, call.Proper r) ↔
      ∀ x ∈ taken (·.timesOut started) 0 r.iparp_buffer, x.1 < r.num_interfaces := by
  constructor
  · intro hproper x hx
    -- after as many rounds as there are entries the pass is over
    obtain ⟨r', _, hlen, hcalls⟩ := passCalls_eq started clock r r.iparp_buffer.length
    rw [List.drop_of_length_le hlen, taken_nil, List.map_nil, List.append_nil] at hcalls
    have hcall : removalCall x ∈ passCalls clock started r.iparp_buffer.length r := by
      rw [hcalls]
      exact List.mem_map_of_mem hx
    rcases Nat.lt_or_ge x.1 r.num_interfaces with hlt | hge
    · exact hlt
    · exact absurd (hproper _ _ hcall) (not_proper_of_le rfl hge)
  · intro hpositions n call hcall
    obtain ⟨r', _, _, hcalls⟩ := passCalls_eq started clock r n
    have hmem : call ∈ (taken (·.timesOut started) 0 r.iparp_buffer).map removalCall := by
      rw [← hcalls]
      exact List.mem_append_left _ hcall
    obtain ⟨x, hx, rfl⟩ := List.mem_map.1 hmem
    exact .inr ⟨x.1, hpositions x hx, rfl⟩

end Pass

/-- **ICMP errors come from a router address** exactly if a packet to be forwarded has a route, and a
pass removes entries only from positions that are interfaces. -/
theorem icmp_sources_iff (env : Env) (clock : Nat → Env) (started : Nat) (r : Router)
    (pi : PacketInfo) :
    ((∀ n, ∀ call ∈ icmpCalls env n r pi, call.Proper r) ↔
      (r.Forwardable pi → (ipLongestprefixmatch r.ip_table pi.ipv4.dst_ip).isSome = true)) ∧
    ((∀ n, ∀ call ∈ passCalls clock started n r, call.Proper r) ↔
      ∀ x ∈ taken (·.timesOut started) 0 r.iparp_buffer, x.1 < r.num_interfaces) :=
  ⟨icmpCalls_proper_iff, passCalls_proper_iff clock r⟩

/-- A packet from 192.168.1.7 to 20.0.0.1, for which the small router has no route. -/
def strayPacket : PacketInfo :=
  .ofParts ⟨smallEth1.mac, ⟨2, 0, 0, 0, 0, 9⟩, htons ethIpType⟩
    (PacketIp4.updateChecksum ⟨5, 4, 0, htons 23, 7, 0, 64, 99, 0, ipConvert 192 168 1 7,
      ipConvert 20 0 0 1⟩) [1, 2, 3] 1

/-- The small router with three packets waiting, the last of them for the last time. -/
def crowdedRouter : Router :=
  { smallRouter with iparp_buffer :=
      [⟨samplePacket 64, 10, 1, 0, sampleArp.ip⟩, ⟨samplePacket 64, 10, 1, 0, sampleArp.ip⟩,
        ⟨samplePacket 64, 10, 3, 0, sampleArp.ip⟩] }

/-- Both lead to a call that reads the third of two interfaces. -/
theorem icmp_sources_beyond :
    (∃ call ∈ icmpCalls smallEnv 1 smallRouter strayPacket, ¬ call.Proper smallRouter) ∧
    ∃ call ∈ passCalls (fun _ => smallEnv) 5 3 crowdedRouter, ¬ call.Proper crowdedRouter :=
  ⟨⟨unreachableCall 2, by decide +kernel, not_proper_of_le rfl (Nat.le_refl 2)⟩,
    ⟨unreachableCall 2, by decide +kernel, not_proper_of_le rfl (Nat.le_refl 2)⟩⟩

end BirRouter
