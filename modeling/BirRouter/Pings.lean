import BirRouter.CliPing
import BirRouter.EchoReply
import BirRouter.IpVerdict
import BirRouter.Lib.Distinct
import BirRouter.Lib.Trace

/-!
# Pings: replies, expiry and sleep

* `ping_reply_iff` — a reply removes the first ping it answers and says so to the client.  The value
  returned says whether there was one exactly if the list is not just that ping: it is computed from
  the list after the removal, and an empty list counts as one without a match.  `ip_onreceive` then
  sends a port unreachable error in return.
* `pings_tracked` — after any requests, replies and passes the list is what `outstanding` says, in
  order of expiry, and all other pings were reported.
* `scrubber_sleeps_iff` — the time to sleep is computed as the clock minus the expiry.  It makes sense
  if the two are equal, or if the difference of the microseconds is so large that it is replaced by
  100 ms and there is that much time.
-/

set_option autoImplicit false

namespace BirRouter

open ByteLayout Linked Trace

/-! ## Replies -/

/-- The pings that `ip_onreceive` finds outstanding. -/
def Env.withPings (env : Env) (n : Nat) (s : PingState) : Env :=
  { env with
    cliPingHandleReply := fun ip seq =>
      match BirRouter.cliPingHandleReply n false s ip seq with
      | some (worked, _) => worked ≠ 0
      | none => false }

/-- An accepted echo reply to an address of the router. -/
structure EchoReplied (env : Env) (r : Router) (pi : PacketInfo) (ip : AddrIp) (seq : BitVec 16) :
    Prop where
  header : ipHeaderCheck pi.ipv4 = true
  own : ¬ r.Foreign pi.ipv4.dst_ip
  ttl : pi.ipv4.ttl ≠ 0
  protocol : pi.ipv4.protocol = ipTypeIcmp
  type : (PacketIcmp.layout.load 34 (pi.memory env 8)).type = Icmp.typeReplay
  src_ip : pi.ipv4.src_ip = ip
  seq_num : (PacketIcmp.layout.load 34 (pi.memory env 8)).seq_num = seq

/-- `ip_onreceive` decides to answer with a port unreachable error. -/
def PortUnreachable (env : Env) (r : Router) (pi : PacketInfo) : Prop :=
  ∃ i, ipVerdict env r pi = .error ⟨.interface i, Icmp.typeDstUnreach, Icmp.codePortUnreach⟩

theorem EchoReplied.portUnreachable_iff {env : Env} {r : Router} {pi : PacketInfo} {ip : AddrIp}
    {seq : BitVec 16} (h : EchoReplied env r pi ip seq) :
    PortUnreachable env r pi ↔ env.cliPingHandleReply ip seq = false := by
  obtain ⟨i, hi⟩ := Option.isSome_iff_exists.1 ((ownInterface_isSome_iff ..).2 h.own)
  have hospf : ¬ (pi.ipv4.dst_ip = allSPFRouters ∧ pi.ipv4.protocol = ipTypeOspf) := by
    rw [h.protocol]
    simp [ipTypeIcmp, ipTypeOspf]
  have hrequest : ¬ Icmp.typeReplay = Icmp.typeRequest := by simp [Icmp.typeReplay, Icmp.typeRequest]
  have hverdict : ipVerdict env r pi = if env.cliPingHandleReply ip seq then .ignore
      else .error ⟨.interface i, Icmp.typeDstUnreach, Icmp.codePortUnreach⟩ := by
    simp only [ipVerdict, h.header, not_true, if_false, if_neg hospf, hi, deliverVerdict,
      if_neg h.ttl, if_pos h.protocol, h.type, if_neg hrequest, if_true, h.src_ip, h.seq_num]
  rw [PortUnreachable, hverdict]
  cases env.cliPingHandleReply ip seq <;> simp

/-- The list is the one ping that the reply is for. -/
def OnlyAnswered (ip : AddrIp) (seq : BitVec 16) (l : List (Nat × Ping)) : Prop :=
  ∃ x, l = [x] ∧ answeredBy ip seq x = true

theorem eraseP_eq_nil_iff {ip : AddrIp} {seq : BitVec 16} {l : List (Nat × Ping)}
    (h : ∃ x ∈ l, answeredBy ip seq x = true) :
    l.eraseP (answeredBy ip seq) = [] ↔ OnlyAnswered ip seq l := by
  obtain ⟨x, hx, hm⟩ := h
  constructor
  · intro hnil
    have hlength := List.length_eraseP_of_mem hx hm
    have hpos := List.length_pos_of_mem hx
    rw [hnil, List.length_nil] at hlength
    obtain ⟨y, rfl⟩ := List.length_eq_one_iff.1 (show l.length = 1 by omega)
    exact ⟨y, rfl, List.mem_singleton.1 hx ▸ hm⟩
  · rintro ⟨y, rfl, hy⟩
    simp [hy]

theorem not_onlyAnswered {ip : AddrIp} {seq : BitVec 16} {l : List (Nat × Ping)}
    (h : ¬ ∃ x ∈ l, answeredBy ip seq x = true) : ¬ OnlyAnswered ip seq l := by
  rintro ⟨x, rfl, hx⟩
  exact h ⟨x, List.mem_singleton_self x, hx⟩

/-- What the call returns is right exactly if the list is not the answered ping alone. -/
theorem worked_iff {ip : AddrIp} {seq : BitVec 16} {l : List (Nat × Ping)} :
    (l.eraseP (answeredBy ip seq) ≠ [] ∧ (∃ x ∈ l, answeredBy ip seq x = true) ↔
      ∃ x ∈ l, answeredBy ip seq x = true) ↔ ¬ OnlyAnswered ip seq l := by
  by_cases hsome : ∃ x ∈ l, answeredBy ip seq x = true
  · simp only [hsome, and_true, iff_true, ne_eq, eraseP_eq_nil_iff hsome]
  · simp only [hsome, and_false, not_onlyAnswered hsome, not_false_eq_true]

/-- **Ping replies.**  Whatever the pings outstanding, a reply removes the first one with its address
and sequence number, and tells the client; without one it changes nothing.  Exactly if the answered
ping was not the only one, the value returned says whether there was one, and a port unreachable
error is sent only if there was none. -/
theorem ping_reply_iff (env : Env) {n : Nat} {s : PingState} {l : List (Nat × Ping)}
    (h : s.Holds l) (hn : l.length < n) (ip : AddrIp) (seq : BitVec 16) :
    ∃ worked s', cliPingHandleReply n false s ip seq = some (worked, s') ∧
      (s'.Holds (l.eraseP (answeredBy ip seq)) ∧
        s'.feedback = s.feedback ++ told true (l.find? (answeredBy ip seq)).toList ∧
        ((∀ x ∈ l, ¬ answeredBy ip seq x = true) → s' = s)) ∧
      ((worked = 1 ↔ ∃ x ∈ l, answeredBy ip seq x = true) ↔ ¬ OnlyAnswered ip seq l) ∧
      ∀ r pi, EchoReplied env r pi ip seq →
        ((PortUnreachable (env.withPings n s) r pi → ¬ ∃ x ∈ l, answeredBy ip seq x = true) ↔
          ¬ OnlyAnswered ip seq l) := by
  obtain ⟨s', hcall, hholds, hfeed, -, hsame⟩ := cliPingHandleReply_holds h hn ip seq
  refine ⟨_, s', hcall, ⟨hholds, hfeed, hsame⟩, ?_, ?_⟩
  · rw [← worked_iff]
    simp only [ite_eq_left_iff, zero_ne_one, imp_false, not_not]
  · intro r pi hpi
    have hpi' : EchoReplied (env.withPings n s) r pi ip seq :=
      ⟨hpi.header, hpi.own, hpi.ttl, hpi.protocol, hpi.type, hpi.src_ip, hpi.seq_num⟩
    have hresult : (env.withPings n s).cliPingHandleReply ip seq = false ↔
        ¬ (l.eraseP (answeredBy ip seq) ≠ [] ∧ ∃ x ∈ l, answeredBy ip seq x = true) := by
      simp only [Env.withPings, hcall]
      simp
    rw [hpi'.portUnreachable_iff, hresult, ← worked_iff, not_imp_not]
    exact ⟨fun himp => ⟨And.right, himp⟩, fun hiff => hiff.2⟩

/-- A ping sent at 10 s. -/
def smallPing (dst_ip : AddrIp) (seq : BitVec 16) : Ping := ⟨5, dst_ip, seq, ⟨10, 0⟩, ⟨11, 0⟩⟩

/-- One ping to 192.168.1.7 is outstanding. -/
def onePing : PingState where
  mem p := if p = 1 then some ⟨smallPing (ipConvert 192 168 1 7) 0, none, none⟩ else none
  ping_list := some 1
  ping_count := 1
  feedback := []

theorem onePing_holds : onePing.Holds [(1, smallPing (ipConvert 192 168 1 7) 0)] where
  nodup := List.nodup_singleton _
  head := rfl
  linked := segment_singleton.2 ⟨_, rfl, rfl, rfl, fun _ e => nomatch e⟩

/-- Another one, to 192.168.1.8, is outstanding behind it. -/
def twoPings : PingState where
  mem p :=
    if p = 1 then some ⟨smallPing (ipConvert 192 168 1 7) 0, none, some 2⟩
    else if p = 2 then some ⟨smallPing (ipConvert 192 168 1 8) (htons 1), some 1, none⟩
    else none
  ping_list := some 1
  ping_count := 2
  feedback := []

theorem twoPings_holds : twoPings.Holds
    [(1, smallPing (ipConvert 192 168 1 7) 0), (2, smallPing (ipConvert 192 168 1 8) (htons 1))] where
  nodup := by simp
  head := rfl
  linked := ⟨⟨_, rfl, rfl, rfl, fun _ e => nomatch e⟩,
    segment_singleton.2 ⟨_, rfl, rfl, rfl, fun _ e => e⟩⟩

/-- The reply of 192.168.1.7 to ping number 0. -/
def pingReply : PacketInfo :=
  .ofParts ⟨smallEth1.mac, ⟨2, 0, 0, 0, 0, 9⟩, htons ethIpType⟩ (pingHeader 0)
    (icmpMessage Icmp.typeReplay 0 3 0 []) 1

theorem pingReply_replied : EchoReplied smallEnv smallRouter pingReply (ipConvert 192 168 1 7) 0 := by
  have hip : pingReply.ipv4 = pingHeader 0 := PacketInfo.ofParts_ipv4 ..
  refine ⟨?_, ?_, ?_, ?_, by decide +kernel, ?_, by decide +kernel⟩
  · rw [hip]
    exact pingHeader_valid (Nat.zero_le _)
  · rw [hip]
    exact fun hforeign => hforeign 1 (by decide) rfl
  · rw [hip]
    exact show (64 : Byte) ≠ 0 by decide
  · rw [hip]
    rfl
  · rw [hip]
    rfl

/-- With another ping outstanding the reply is recognised. -/
theorem ping_reply_recognised :
    (∃ s', cliPingHandleReply 3 false twoPings (ipConvert 192 168 1 7) 0 = some (1, s') ∧
      s'.Holds [(2, smallPing (ipConvert 192 168 1 8) (htons 1))]) ∧
    ¬ PortUnreachable (smallEnv.withPings 3 twoPings) smallRouter pingReply := by
  obtain ⟨worked, s', hcall, ⟨hholds, -⟩, hworked, hunreachable⟩ :=
    ping_reply_iff smallEnv twoPings_holds (show 2 < 3 by decide) (ipConvert 192 168 1 7) 0
  have hfirst : ∃ x ∈ [(1, smallPing (ipConvert 192 168 1 7) 0),
      (2, smallPing (ipConvert 192 168 1 8) (htons 1))],
      answeredBy (ipConvert 192 168 1 7) 0 x = true := by simp [answeredBy, smallPing]
  have honly : ¬ OnlyAnswered (ipConvert 192 168 1 7) 0 [(1, smallPing (ipConvert 192 168 1 7) 0),
      (2, smallPing (ipConvert 192 168 1 8) (htons 1))] := by simp [OnlyAnswered]
  rw [(hworked.2 honly).2 hfirst] at hcall
  exact ⟨⟨s', hcall, hholds⟩, fun hu =>
    (hunreachable _ _ pingReply_replied).2 honly hu hfirst⟩

/-- Without, it is removed and reported as answered, but the call returns 0 and the reply is answered
with an error. -/
theorem ping_reply_only :
    onePing.Holds [(1, smallPing (ipConvert 192 168 1 7) 0)] ∧
      answeredBy (ipConvert 192 168 1 7) 0 (1, smallPing (ipConvert 192 168 1 7) 0) = true ∧
      (cliPingHandleReply 2 false onePing (ipConvert 192 168 1 7) 0).map
          (fun r => (r.1, r.2.ping_list, r.2.feedback)) =
        some (0, none, [(smallPing (ipConvert 192 168 1 7) 0, true)]) ∧
      EchoReplied smallEnv smallRouter pingReply (ipConvert 192 168 1 7) 0 ∧
      PortUnreachable (smallEnv.withPings 2 onePing) smallRouter pingReply :=
  ⟨onePing_holds, by decide, by decide, pingReply_replied, 1, by decide +kernel⟩

/-! ## Runs -/

inductive PingEvent
  | request (p_new : Nat) (junk : PingNode) (fd : Int) (ip : AddrIp) (send_time now : Timeval)
  | reply (ip : AddrIp) (seq : BitVec 16)
  | scrub (now : Timeval)

/-- A successful request, a reply before shutdown, or a pass of the scrubber. -/
inductive PingStep : PingState → PingEvent → PingState → Prop
  | request {s s' : PingState} {n p_new : Nat} {junk : PingNode} {fd : Int} {ip : AddrIp}
      {send_time now : Timeval} (fresh : s.mem p_new = none)
      (h : cliPingRequest n s true p_new junk fd ip send_time now = some s') :
      PingStep s (.request p_new junk fd ip send_time now) s'
  | reply {s s' : PingState} {n : Nat} {ip : AddrIp} {seq : BitVec 16} {worked : Int}
      (h : cliPingHandleReply n false s ip seq = some (worked, s')) :
      PingStep s (.reply ip seq) s'
  | scrub {s s' : PingState} {n : Nat} {now : Timeval} {timeout : Option Timeval}
      (h : scrubberPass n s now = some (s', timeout)) : PingStep s (.scrub now) s'

/-- What the list is for, with the number of the next request and all pings requested so far. -/
structure Outstanding where
  ping_count : BitVec 16
  pings : List (Nat × Ping)
  requested : List Ping

/-- A request adds its ping, a reply removes the first one it answers, and a pass those that have
expired. -/
def Outstanding.after (a : Outstanding) : PingEvent → Outstanding
  | .request p_new _ fd ip send_time now =>
    let ping : Ping :=
      ⟨fd, ip, htons a.ping_count, send_time, timeAddUsec now pingMaxWaitForReplyUsec⟩
    { ping_count := a.ping_count + 1
      pings := insertPing (p_new, ping) a.pings
      requested := a.requested ++ [ping] }
  | .reply ip seq => { a with pings := a.pings.eraseP (answeredBy ip seq) }
  | .scrub now => { a with pings := a.pings.filter fun x => !isLater now x.2.expire_time }

/-- Earliest expiry first. -/
def ByExpiry (l : List (Nat × Ping)) : Prop :=
  l.Pairwise fun x y => x.2.expire_time.key ≤ y.2.expire_time.key

theorem insertPing_byExpiry {l : List (Nat × Ping)} (h : ByExpiry l) (x : Nat × Ping) :
    ByExpiry (insertPing x l) :=
  Distinct.pairwise_orderedInsert (f := fun x : Nat × Ping => x.2.expire_time.key)
    (fun _ => isLater_iff ..) h

theorem insertPing_perm (x : Nat × Ping) (l : List (Nat × Ping)) : (insertPing x l).Perm (x :: l) :=
  List.perm_orderedInsert ..

/-- The expired pings are a front part of the list. -/
theorem ByExpiry.expired_front {l : List (Nat × Ping)} (h : ByExpiry l) (now : Timeval) :
    l.Pairwise fun x y => isLater now y.2.expire_time = true → isLater now x.2.expire_time = true := by
  refine h.imp fun {x y} hxy hy => ?_
  rw [isLater_iff] at hy ⊢
  exact lt_of_le_of_lt hxy hy

/-- The nodes hold the outstanding pings in order of expiry, and every other ping requested was
reported, as answered or as timed out. -/
structure PingState.Tracks (s : PingState) (a : Outstanding) : Prop where
  holds : s.Holds a.pings
  ping_count : s.ping_count = a.ping_count
  sorted : ByExpiry a.pings
  reported : (a.pings.map Prod.snd ++ s.feedback.map Prod.fst).Perm a.requested

section

variable {s s' : PingState} {a : Outstanding} {e : PingEvent}

/-- The pings that leave the list are those the clients are told of. -/
theorem perm_reported {l l' gone : List (Nat × Ping)} {feedback : List (Ping × Bool)}
    {requested : List Ping} {worked : Bool} (h : (l' ++ gone).Perm l)
    (hl : (l.map Prod.snd ++ feedback.map Prod.fst).Perm requested) :
    (l'.map Prod.snd ++ (feedback ++ told worked gone).map Prod.fst).Perm requested := by
  have hgone : (told worked gone).map Prod.fst = gone.map Prod.snd := by simp [told]
  have hswap : (l'.map Prod.snd ++ (feedback.map Prod.fst ++ gone.map Prod.snd)).Perm
      (l'.map Prod.snd ++ (gone.map Prod.snd ++ feedback.map Prod.fst)) :=
    List.Perm.append_left _ List.perm_append_comm
  have hjoin : l'.map Prod.snd ++ (gone.map Prod.snd ++ feedback.map Prod.fst) =
      (l' ++ gone).map Prod.snd ++ feedback.map Prod.fst := by
    rw [List.map_append, List.append_assoc]
  rw [List.map_append, hgone]
  rw [hjoin] at hswap
  exact hswap.trans (((h.map Prod.snd).append_right _).trans hl)

theorem eraseP_append_find?_perm (l : List (Nat × Ping)) (p : Nat × Ping → Bool) :
    (l.eraseP p ++ (l.find? p).toList).Perm l := by
  induction l with
  | nil => simp
  | cons x l ih =>
    by_cases hx : p x = true
    · rw [List.eraseP_cons_of_pos hx, List.find?_cons_of_pos hx]
      exact List.perm_append_comm
    · rw [List.eraseP_cons_of_neg hx, List.find?_cons_of_neg hx]
      exact ih.cons x

theorem PingState.Tracks.step (h : s.Tracks a) (hs : PingStep s e s') : s'.Tracks (a.after e) := by
  cases hs with
  | @request _ n p_new junk fd ip send_time now fresh hr =>
    obtain ⟨s₁, hs₁, hl, hc, hf⟩ := cliPingRequest_holds h.holds fresh
      (Nat.lt_of_lt_of_le (Nat.lt_succ_self _) (Nat.le_max_right n _)) junk fd ip send_time now
    cases (cliPingRequest_of_le hr (Nat.le_max_left ..)).symm.trans hs₁
    have hping : s.requested fd ip send_time now =
        ⟨fd, ip, htons a.ping_count, send_time, timeAddUsec now pingMaxWaitForReplyUsec⟩ := by
      rw [PingState.requested, h.ping_count]
    rw [hping] at hl
    refine ⟨hl, by rw [hc, h.ping_count]; rfl, insertPing_byExpiry h.sorted _, ?_⟩
    rw [hf]
    refine (((insertPing_perm _ a.pings).map Prod.snd).append_right _).trans ?_
    exact (h.reported.cons _).trans (List.perm_append_singleton _ _).symm
  | @reply _ n ip seq worked hr =>
    obtain ⟨s₁, hs₁, hl, hf, hc, -⟩ := cliPingHandleReply_holds h.holds
      (Nat.lt_of_lt_of_le (Nat.lt_succ_self _) (Nat.le_max_right n _)) ip seq
    cases (cliPingHandleReply_of_le hr (Nat.le_max_left ..)).symm.trans hs₁
    refine ⟨hl, hc.trans h.ping_count, h.sorted.sublist List.eraseP_sublist, ?_⟩
    rw [hf]
    exact perm_reported (eraseP_append_find?_perm ..) h.reported
  | @scrub _ n now timeout hr =>
    obtain ⟨s₁, hs₁, hl, hf, hc⟩ := scrubberPass_holds now h.holds (Nat.le_max_right n _)
    cases (scrubberPass_of_le hr (Nat.le_max_left ..)).symm.trans hs₁
    have hfront := h.sorted.expired_front now
    rw [Distinct.dropWhile_eq_filter hfront] at hl
    rw [Distinct.takeWhile_eq_filter hfront] at hf
    refine ⟨hl, hc.trans h.ping_count, h.sorted.sublist List.filter_sublist, ?_⟩
    rw [hf]
    refine perm_reported ?_ h.reported
    exact List.perm_append_comm.trans (List.filter_append_perm ..)

/-- What `malloc` may return for a request. -/
def PingEvent.Possible (s : PingState) : PingEvent → Prop
  | .request p_new .. => s.mem p_new = none
  | _ => True

/-- The loops end, and no pointer to nothing is followed. -/
theorem PingState.Tracks.exists_step (h : s.Tracks a) (he : e.Possible s) :
    ∃ s', PingStep s e s' := by
  cases e with
  | request p_new junk fd ip send_time now =>
    obtain ⟨s', hs', -⟩ := cliPingRequest_holds h.holds he (Nat.lt_succ_self _) junk fd ip send_time
      now
    exact ⟨s', .request he hs'⟩
  | reply ip seq =>
    obtain ⟨s', hs', -⟩ := cliPingHandleReply_holds h.holds (Nat.lt_succ_self _) ip seq
    exact ⟨s', .reply hs'⟩
  | scrub now =>
    obtain ⟨s', hs', -⟩ := scrubberPass_holds now h.holds (Nat.le_refl _)
    exact ⟨s', .scrub hs'⟩

end

theorem cliPingInit_tracks (mem : Heap PingNode) (ping_count : BitVec 16) :
    (cliPingInit mem ping_count).Tracks ⟨ping_count, [], []⟩ :=
  ⟨⟨List.nodup_nil, rfl, trivial⟩, rfl, List.Pairwise.nil, List.Perm.refl []⟩

/-- **The list of pings.**  After any requests, replies and passes, at any times: the nodes reachable
from `ping_list` hold the pings that `Outstanding.after` leaves, each behind the first linked back to
the one in front of it; they are in order of expiry; every ping requested is either outstanding or was
reported; and the next event can happen. -/
theorem pings_tracked (mem : Heap PingNode) (ping_count : BitVec 16) {events : List PingEvent}
    {s : PingState} (h : Exec PingStep (cliPingInit mem ping_count) events s) :
    let a := events.foldl Outstanding.after ⟨ping_count, [], []⟩
    s.Holds a.pings ∧ ByExpiry a.pings ∧
      (a.pings.map Prod.snd ++ s.feedback.map Prod.fst).Perm a.requested ∧
      ∀ e : PingEvent, e.Possible s → ∃ s', PingStep s e s' ∧ s'.Holds (a.after e).pings := by
  intro a
  have htracks : s.Tracks a := h.refines (cliPingInit_tracks mem ping_count) fun ht hs => ht.step hs
  refine ⟨htracks.holds, htracks.sorted, htracks.reported, fun e he => ?_⟩
  obtain ⟨s', hs'⟩ := htracks.exists_step he
  exact ⟨s', hs', (htracks.step hs').holds⟩

/-- A ping is requested at 10 s and answered. -/
theorem pings_tracked_answered :
    ∃ s, Exec PingStep (cliPingInit (fun _ => none) 0)
        [.request 1 ⟨smallPing 0 0, none, none⟩ 5 (ipConvert 192 168 1 7) ⟨10, 0⟩ ⟨10, 0⟩,
          .reply (ipConvert 192 168 1 7) 0] s ∧ s.Holds [] := by
  obtain ⟨s₁, h₁⟩ := (cliPingInit_tracks (fun _ => none) 0).exists_step
    (show (PingEvent.request 1 ⟨smallPing 0 0, none, none⟩ 5 (ipConvert 192 168 1 7) ⟨10, 0⟩
      ⟨10, 0⟩).Possible _ from rfl)
  have hrun := Exec.nil.snoc h₁
  obtain ⟨s₂, h₂⟩ := ((cliPingInit_tracks (fun _ => none) 0).step h₁).exists_step
    (show (PingEvent.reply (ipConvert 192 168 1 7) 0).Possible _ from trivial)
  have htracked := pings_tracked (fun _ => none) 0 (hrun.snoc h₂)
  exact ⟨s₂, hrun.snoc h₂, htracked.1⟩

/-! ## Sleep -/

/-- A reading of the clock. -/
def Timeval.Normalised (t : Timeval) : Prop := 0 ≤ t.tv_usec ∧ t.tv_usec < 1000000

theorem timeAddUsec_normalised (t : Timeval) (usec : Nat) : (timeAddUsec t usec).Normalised := by
  simp only [timeAddUsec, Timeval.Normalised]
  omega

/-- The pings of a run expire at normalised times. -/
theorem expiry_normalised (ping_count : BitVec 16) (events : List PingEvent) :
    ∀ x ∈ (events.foldl Outstanding.after ⟨ping_count, [], []⟩).pings,
      x.2.expire_time.Normalised := by
  apply List.foldlRecOn (motive := fun a : Outstanding => ∀ x ∈ a.pings, x.2.expire_time.Normalised)
  · simp
  · intro a ha e _ x hx
    cases e with
    | request p_new junk fd ip send_time now =>
      rcases List.mem_cons.1 ((insertPing_perm ..).mem_iff.1 hx) with rfl | hx
      · exact timeAddUsec_normalised ..
      · exact ha x hx
    | reply ip seq => exact ha x (List.mem_of_mem_eraseP hx)
    | scrub now => exact ha x (List.mem_of_mem_filter hx)

/-- The time in microseconds. -/
def Timeval.total (t : Timeval) : Int := t.tv_sec * 1000000 + t.tv_usec

/-- A pass that leaves pings is to sleep for a valid time of at most 100 ms, and not longer than any of
them has. -/
structure Sleeps (now timeout : Timeval) (l : List (Nat × Ping)) : Prop where
  tv_sec : 0 ≤ timeout.tv_sec
  tv_usec : timeout.Normalised
  short : timeout.total ≤ 100000
  inTime : ∀ x ∈ l, timeout.total ≤ x.2.expire_time.total - now.total

/-- The clock is at the expiry, or its microseconds are more than 100000 above those of the expiry and
there are at least 100 ms left. -/
def SleepsRight (now expire_time : Timeval) : Prop :=
  now = expire_time ∨
    (now.tv_usec - expire_time.tv_usec > 100000 ∧ 100000 ≤ expire_time.total - now.total)

theorem Timeval.total_le_total {t u : Timeval} (ht : t.Normalised) (hu : u.Normalised)
    (h : t.key ≤ u.key) : t.total ≤ u.total := by
  have hle := not_lt.2 h
  rw [← isLater_iff] at hle
  obtain ⟨ht0, ht1⟩ := ht
  obtain ⟨hu0, hu1⟩ := hu
  simp only [isLater, Bool.or_eq_true, Bool.and_eq_true, decide_eq_true_eq, beq_iff_eq] at hle
  simp only [Timeval.total]
  omega

theorem scrubberTimeout_iff {now expire_time : Timeval} (hnow : now.Normalised)
    (hexpire : expire_time.Normalised) (hleft : ¬ isLater now expire_time = true) :
    (0 ≤ (scrubberTimeout now expire_time).tv_sec ∧ (scrubberTimeout now expire_time).Normalised ∧
      (scrubberTimeout now expire_time).total ≤ 100000 ∧
      (scrubberTimeout now expire_time).total ≤ expire_time.total - now.total) ↔
    SleepsRight now expire_time := by
  obtain ⟨s, u⟩ := now
  obtain ⟨s', u'⟩ := expire_time
  simp only [isLater, Bool.or_eq_true, Bool.and_eq_true, decide_eq_true_eq, beq_iff_eq] at hleft
  simp only [Timeval.Normalised] at hnow hexpire
  by_cases hclamp : s - s' > 0 ∨ u - u' > 100000
  · have htimeout : scrubberTimeout ⟨s, u⟩ ⟨s', u'⟩ = ⟨0, 100000⟩ := if_pos hclamp
    rw [htimeout]
    simp only [SleepsRight, Timeval.Normalised, Timeval.total, Timeval.mk.injEq]
    omega
  · have htimeout : scrubberTimeout ⟨s, u⟩ ⟨s', u'⟩ = ⟨s - s', u - u'⟩ := if_neg hclamp
    rw [htimeout]
    simp only [SleepsRight, Timeval.Normalised, Timeval.total, Timeval.mk.injEq]
    omega

/-- **The sleep of the scrubber.**  After a pass that leaves pings, the time passed to `select` is valid,
short and not longer than any ping has, exactly if the clock and the first expiry are as in
`SleepsRight`. -/
theorem scrubber_sleeps_iff {n : Nat} {s : PingState} {l rest : List (Nat × Ping)} {x : Nat × Ping}
    {now : Timeval} (h : s.Holds l) (hsorted : ByExpiry l)
    (hexpire : ∀ y ∈ l, y.2.expire_time.Normalised) (hnow : now.Normalised) (hn : l.length ≤ n)
    (hleft : l.filter (fun y => !isLater now y.2.expire_time) = x :: rest) :
    ∃ s' timeout, scrubberPass n s now = some (s', some timeout) ∧ s'.Holds (x :: rest) ∧
      (Sleeps now timeout (x :: rest) ↔ SleepsRight now x.2.expire_time) := by
  obtain ⟨s', hpass, hholds, -⟩ := scrubberPass_holds now h hn
  have hmem : ∀ y ∈ x :: rest, y ∈ l ∧ ¬ isLater now y.2.expire_time = true := by
    intro y hy
    rw [← hleft, List.mem_filter] at hy
    simpa using hy
  rw [Distinct.dropWhile_eq_filter (hsorted.expired_front now), hleft] at hpass hholds
  have hx := hmem x List.mem_cons_self
  refine ⟨s', _, hpass, hholds, ?_⟩
  rw [← scrubberTimeout_iff hnow (hexpire x hx.1) hx.2]
  constructor
  · intro hs
    exact ⟨hs.tv_sec, hs.tv_usec, hs.short, hs.inTime x List.mem_cons_self⟩
  · rintro ⟨hsec, husec, hshort, hfirst⟩
    refine ⟨hsec, husec, hshort, fun y hy => hfirst.trans ?_⟩
    -- the first of the pings left is the one that expires first
    have hle : x.2.expire_time.total ≤ y.2.expire_time.total := by
      rcases List.mem_cons.1 hy with rfl | hrest
      · exact le_refl _
      · have hpair : ByExpiry (x :: rest) := hleft ▸ hsorted.sublist List.filter_sublist
        exact Timeval.total_le_total (hexpire x hx.1) (hexpire y (hmem y hy).1)
          (List.rel_of_pairwise_cons hpair hrest)
    omega

/-- Half a second after the request the scrubber sleeps for 100 ms. -/
theorem scrubber_sleeps_half : ∃ s' timeout,
    scrubberPass 1 onePing ⟨10, 500000⟩ = some (s', some timeout) ∧
      Sleeps ⟨10, 500000⟩ timeout [(1, smallPing (ipConvert 192 168 1 7) 0)] := by
  have hnow : Timeval.Normalised ⟨10, 500000⟩ := by simp [Timeval.Normalised]
  have hleft : [(1, smallPing (ipConvert 192 168 1 7) 0)].filter
      (fun y => !isLater ⟨10, 500000⟩ y.2.expire_time) =
        (1, smallPing (ipConvert 192 168 1 7) 0) :: [] := by decide
  obtain ⟨s', timeout, hpass, -, hiff⟩ := scrubber_sleeps_iff onePing_holds
    (List.pairwise_singleton ..) (by simp [smallPing, Timeval.Normalised]) hnow (Nat.le_refl 1) hleft
  exact ⟨s', timeout, hpass, hiff.2 (Or.inr (by simp [smallPing, Timeval.total]))⟩

/-- Right after the request it calls `select` with a negative time. -/
theorem scrubber_sleeps_negative :
    onePing.Holds [(1, smallPing (ipConvert 192 168 1 7) 0)] ∧
      (scrubberPass 1 onePing ⟨10, 0⟩).map Prod.snd = some (some ⟨-1, 0⟩) ∧
      ¬ Sleeps ⟨10, 0⟩ ⟨-1, 0⟩ [(1, smallPing (ipConvert 192 168 1 7) 0)] :=
  ⟨onePing_holds, by decide, fun h => absurd h.tv_sec (by decide)⟩

end BirRouter
