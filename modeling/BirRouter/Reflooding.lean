import BirRouter.LsuChecks
import BirRouter.Neighbours

/-!
# Passing LSUs on (`pwospf.c`)

Which frames `pwospf_onreceive_link` refloods, and where they go.

* `reflooded` — the frames, `awaited` — the targets for whose MAC a copy waits, and
  `pwospfOnreceiveLink_adds` — they are what is sent before the router's own LSUs, and what is queued;
* `sentBack_iff` — the excluded address is that of the originator's entry, so an LSU goes back to its
  sender where the entry was made by another one;
* `lsu_not_sent_back_iff` — the same of whole runs.
-/

set_option autoImplicit false

namespace BirRouter

open ByteLayout FirstMatch Trace

/-! ## The frames -/

/-- The address that gets nothing on the receiving interface. -/
def Router.excludedIp (r : Router) (pi : PacketInfo) : AddrIp :=
  match entryOf (r.interface pi.interface).neighbours pi.link.pwospf_header.router_id with
  | some entry => entry.neighbour_ip
  | none => pi.ipv4.src_ip

/-- The frames reflooded while an LSU that is not dropped is handled.  With a negative count the LSU
of a new originator ends the process before any of them. -/
def reflooded (r : Router) (pi : PacketInfo) : List Sent :=
  if pi.link.payloadCount < 0 ∧
      entryOf (r.interface pi.interface).neighbours pi.link.pwospf_header.router_id = none then []
  else (refloodTargets r (r.excludedIp pi) pi.interface).flatMap (refloodFrames r (r.passedOn pi))

section SetNeighbours

variable (r : Router) (j : Nat) (l : List PwospfListEntry)

theorem Router.setNeighbours_ip (i : Nat) :
    ((r.setNeighbours j l).interface i).ip = (r.interface i).ip := by
  by_cases h : i = j
  · subst h
    show (Function.update r.interface i _ i).ip = _
    rw [Function.update_self]
  · rw [Router.setNeighbours_of_ne _ _ _ h]

theorem Router.setNeighbours_mac (i : Nat) :
    ((r.setNeighbours j l).interface i).mac = (r.interface i).mac := by
  by_cases h : i = j
  · subst h
    show (Function.update r.interface i _ i).mac = _
    rw [Function.update_self]
  · rw [Router.setNeighbours_of_ne _ _ _ h]

/-- Frames do not depend on the neighbours. -/
theorem refloodFrames_setNeighbours (pi : PacketInfo) :
    refloodFrames (r.setNeighbours j l) pi = refloodFrames r pi := by
  funext t
  unfold refloodFrames refloodPacket
  simp only [Router.setNeighbours_ip, Router.setNeighbours_mac]
  rfl

/-- A new entry with the excluded address is no target. -/
theorem refloodTargets_append {entry : PwospfListEntry} (ip : AddrIp) (h : entry.neighbour_ip = ip) :
    refloodTargets (r.setNeighbours j ((r.interface j).neighbours ++ [entry])) ip j =
      refloodTargets r ip j := by
  unfold refloodTargets
  refine List.flatMap_congr fun i _ => ?_
  by_cases hi : i = j
  · subst hi
    rw [Router.setNeighbours_self, List.filter_append]
    simp [h]
  · rw [Router.setNeighbours_of_ne _ _ _ hi]

end SetNeighbours

section Sent

variable {env : Env} {r : Router} {pi : PacketInfo}

/-- What reflooding adds to the router, once the LSU is recorded. -/
structure RefloodAdds (r : Router) (pi : PacketInfo) (r' : Router) : Prop where
  sent : r'.sent = r.sent ++
    (refloodTargets r (r.excludedIp pi) pi.interface).flatMap (refloodFrames r (r.passedOn pi))
  queued : ∃ waiting, r'.iparp_buffer = r.iparp_buffer ++ waiting ∧
    List.Forall₂ (WaitsFor (r.passedOn pi))
      ((refloodTargets r (r.excludedIp pi) pi.interface).filter r.unknownMac) waiting
  pw_router : r'.pw_router = r.pw_router

theorem recordedNew_adds
    (he : entryOf (r.interface pi.interface).neighbours pi.link.pwospf_header.router_id = none) :
    RefloodAdds r pi (recordedNew env r pi) := by
  have happend : recordLsu env pi (r.interface pi.interface).neighbours =
      (r.interface pi.interface).neighbours ++ [newLinkEntry env pi.link pi.ipv4.src_ip pi.lsu] :=
    upsert_of_find?_none he
  have hex : r.excludedIp pi = pi.ipv4.src_ip := by
    unfold Router.excludedIp
    rw [he]
  unfold recordedNew
  obtain ⟨waiting, heq, hwait⟩ := pwospfReflood_adds env (r.setNeighbours pi.interface
    (recordLsu env pi (r.interface pi.interface).neighbours)) (r.passedOn pi) pi.ipv4.src_ip
    pi.interface
  have hip : (newLinkEntry env pi.link pi.ipv4.src_ip pi.lsu).neighbour_ip = pi.ipv4.src_ip := rfl
  have htargets := refloodTargets_append r pi.interface pi.ipv4.src_ip hip
  rw [happend, htargets] at hwait
  rw [heq, happend, refloodFrames_setNeighbours, htargets]
  refine ⟨?_, ⟨waiting, rfl, ?_⟩, rfl⟩
  · rw [hex]
    rfl
  · rw [hex]
    exact hwait

theorem recordedKnown_adds {entry : PwospfListEntry}
    (he : entryOf (r.interface pi.interface).neighbours pi.link.pwospf_header.router_id = some entry) :
    RefloodAdds r pi (recordedKnown env r pi entry) := by
  have hex : r.excludedIp pi = entry.neighbour_ip := by
    unfold Router.excludedIp
    rw [he]
  have hout := passedOn_known he
  unfold recordedKnown
  obtain ⟨waiting, heq, hwait⟩ := pwospfReflood_adds env r pi entry.neighbour_ip pi.interface
  rw [heq]
  refine ⟨?_, ⟨waiting, rfl, ?_⟩, rfl⟩
  · rw [hex, hout]
    rfl
  · rw [hex, hout]
    exact hwait

/-- The targets for whose MAC a copy of the LSU waits. -/
def awaited (r : Router) (pi : PacketInfo) : List (Nat × AddrIp) :=
  if pi.link.payloadCount < 0 ∧
      entryOf (r.interface pi.interface).neighbours pi.link.pwospf_header.router_id = none then []
  else (refloodTargets r (r.excludedIp pi) pi.interface).filter r.unknownMac

/-- **What an LSU makes the router do**: it sends the reflooded frames and then LSUs of its own, and puts
copies for the other targets in the queue. -/
theorem pwospfOnreceiveLink_adds {r' : Router} (h : Refloods r pi)
    (hr : pwospfOnreceiveLink env r pi = some r') :
    ∃ own waiting, r'.sent = r.sent ++ (reflooded r pi ++ own) ∧
      (∀ f ∈ own, f.originator = r.pw_router.router_id) ∧
      r'.iparp_buffer = r.iparp_buffer ++ waiting ∧
      List.Forall₂ (WaitsFor (r.passedOn pi)) (awaited r pi) waiting := by
  have hcount : 0 ≤ pi.link.payloadCount := by
    by_contra hneg
    rw [pwospfOnreceiveLink_died h (Int.not_le.1 hneg)] at hr
    cases hr
  have hall : reflooded r pi = (refloodTargets r (r.excludedIp pi) pi.interface).flatMap
      (refloodFrames r (r.passedOn pi)) := if_neg fun hneg => absurd hneg.1 (by omega)
  have hawaited : awaited r pi = (refloodTargets r (r.excludedIp pi) pi.interface).filter
      r.unknownMac := if_neg fun hneg => absurd hneg.1 (by omega)
  rw [hall, hawaited]
  have hannounce : ∀ {r₁ : Router}, RefloodAdds r pi r₁ → ∃ own waiting,
      (announce env r₁).sent = r.sent ++ ((refloodTargets r (r.excludedIp pi) pi.interface).flatMap
        (refloodFrames r (r.passedOn pi)) ++ own) ∧
      (∀ f ∈ own, f.originator = r.pw_router.router_id) ∧
      (announce env r₁).iparp_buffer = r.iparp_buffer ++ waiting ∧
      List.Forall₂ (WaitsFor (r.passedOn pi))
        ((refloodTargets r (r.excludedIp pi) pi.interface).filter r.unknownMac) waiting := by
    intro r₁ hadds
    obtain ⟨waiting, hqueue, hwait⟩ := hadds.queued
    obtain ⟨own, hs, _, hb, _, hown⟩ := announce_effect env r₁
    refine ⟨own, waiting, by rw [hs, hadds.sent, List.append_assoc], fun f hf => ?_,
      hb.trans hqueue, hwait⟩
    rw [(hown f hf).originator, hadds.pw_router]
  cases he : entryOf (r.interface pi.interface).neighbours pi.link.pwospf_header.router_id with
  | some entry =>
    have hadds : RefloodAdds r pi (recordedKnown env r pi entry) := recordedKnown_adds he
    rw [pwospfOnreceiveLink_known h hcount he] at hr
    split at hr
    · cases hr
      obtain ⟨waiting, hqueue, hwait⟩ := hadds.queued
      exact ⟨[], waiting, by rw [List.append_nil, hadds.sent], by simp, hqueue, hwait⟩
    · cases hr
      exact hannounce hadds
  | none =>
    rw [pwospfOnreceiveLink_new h hcount he] at hr
    cases hr
    exact hannounce (recordedNew_adds he)

/-- **What an LSU makes the router send**: the reflooded frames, then LSUs of its own. -/
theorem pwospfOnreceiveLink_sent {r' : Router} (h : Refloods r pi)
    (hr : pwospfOnreceiveLink env r pi = some r') :
    ∃ own, r'.sent = r.sent ++ (reflooded r pi ++ own) ∧
      ∀ f ∈ own, f.originator = r.pw_router.router_id := by
  obtain ⟨own, _, hsent, hown, _⟩ := pwospfOnreceiveLink_adds h hr
  exact ⟨own, hsent, hown⟩

end Sent

/-! ## Where they go -/

/-- The frame is an IPv4 packet for `dst`. -/
def Sent.ToIp (dst : AddrIp) (f : Sent) : Prop :=
  (PacketEthernet.layout.load 0 f.packet).type = htons ethIpType ∧
    (PacketIp4.layout.load 14 f.packet).dst_ip = dst

/-- The frame goes out where the LSU came in, to its sender. -/
def SentBack (pi : PacketInfo) (f : Sent) : Prop := f.interface = pi.interface ∧ f.ToIp pi.ipv4.src_ip

/-- The packet waits to go out where the LSU came in, to its sender. -/
def QueuedBack (pi : PacketInfo) (entry : IparpBufferEntry) : Prop :=
  entry.intf = pi.interface ∧ entry.packet_info.ipv4.dst_ip = pi.ipv4.src_ip

/-- The originator's entry has another address than the sender, and the sender is a neighbour on the
interface.  With a TTL of 0 the packet is dropped if the sender's MAC is known. -/
def Returns (r : Router) (pi : PacketInfo) : Prop :=
  (∃ entry,
      entryOf (r.interface pi.interface).neighbours pi.link.pwospf_header.router_id = some entry ∧
      entry.neighbour_ip ≠ pi.ipv4.src_ip) ∧
    pi.ipv4.src_ip ∈ (r.interface pi.interface).neighbours.map PwospfListEntry.neighbour_ip ∧
    (pi.ipv4.ttl < 1 → r.unknownMac (pi.interface, pi.ipv4.src_ip) = true)

theorem refloodPacket_toIp (r : Router) (pi : PacketInfo) (t : Nat × AddrIp) (mac : AddrMac)
    (i : Nat) (dst : AddrIp) : Sent.ToIp dst ⟨i, (refloodPacket r pi t mac).packet⟩ ↔ t.2 = dst := by
  have heth : PacketEthernet.layout.load 0 (refloodPacket r pi t mac).packet =
      ⟨mac, (r.interface t.1).mac, htons ethIpType⟩ := PacketInfo.ofParts_eth ..
  have hip : PacketIp4.layout.load 14 (refloodPacket r pi t mac).packet =
      pi.ipv4.readdress t.2 (r.interface t.1).ip := PacketInfo.ofParts_ipv4 ..
  unfold Sent.ToIp
  rw [heth, hip]
  exact and_iff_right rfl

/-- ARP requests are no IPv4 packets. -/
theorem arpFrame_not_toIp (opcode : BitVec 16) (target_ip : AddrIp) (target_mac : AddrMac)
    (source_ip : AddrIp) (source_mac : AddrMac) (i : Nat) (dst : AddrIp) :
    ¬ Sent.ToIp dst ⟨i, Router.arpFrame opcode target_ip target_mac source_ip source_mac⟩ := by
  have heth : PacketEthernet.layout.load 0
      (Router.arpFrame opcode target_ip target_mac source_ip source_mac) =
        ⟨target_mac, source_mac, htons ethArpType⟩ :=
    PacketEthernet.layout.load_append _ _ (rfl : ([] : List Byte).length = 0)
  have hne : htons ethArpType ≠ htons ethIpType := by decide
  rintro ⟨htype, -⟩
  rw [heth] at htype
  exact hne htype

/-- **One target** gets an IPv4 packet exactly if its MAC is known and the TTL is not 0. -/
theorem refloodFrames_toIp {r : Router} {pi : PacketInfo} {t : Nat × AddrIp} {i : Nat}
    {dst : AddrIp} : (∃ f ∈ refloodFrames r pi t, f.interface = i ∧ f.ToIp dst) ↔
      t = (i, dst) ∧ (arpGetcachebyip r.arp_cache dst).isSome ∧ ¬ pi.ipv4.ttl < 1 := by
  obtain ⟨intf, ip⟩ := t
  constructor
  · rintro ⟨f, hf, hi, hto⟩
    cases harp : arpGetcachebyip r.arp_cache ip with
    | none =>
      unfold refloodFrames at hf
      simp only [harp] at hf
      rw [List.mem_singleton.1 hf] at hto
      exact (arpFrame_not_toIp _ _ _ _ _ _ _ hto).elim
    | some arp =>
      by_cases httl : pi.ipv4.ttl < 1
      · unfold refloodFrames at hf
        simp only [harp, if_pos httl] at hf
        cases hf
      · rw [refloodFrames_known harp httl] at hf
        rw [List.mem_singleton.1 hf] at hto hi
        obtain rfl := (refloodPacket_toIp ..).1 hto
        obtain rfl : intf = i := hi
        exact ⟨rfl, by rw [harp]; rfl, httl⟩
  · rintro ⟨heq, hsome, httl⟩
    cases heq
    obtain ⟨arp, harp⟩ := Option.isSome_iff_exists.1 hsome
    refine ⟨_, ?_, rfl, (refloodPacket_toIp r pi (i, dst) arp.mac i dst).2 rfl⟩
    rw [refloodFrames_known harp httl]
    exact List.mem_singleton.2 rfl

theorem mem_refloodTargets_iff {r : Router} {excluded_ip : AddrIp} {locked : Nat} {i : Nat}
    {ip : AddrIp} : (i, ip) ∈ refloodTargets r excluded_ip locked ↔ i < r.num_interfaces ∧
      ip ∈ (r.interface i).neighbours.map PwospfListEntry.neighbour_ip ∧
      (i ≠ locked ∨ ip ≠ excluded_ip) := by
  unfold refloodTargets
  simp only [List.mem_flatMap, List.mem_range, List.mem_map, List.mem_filter, decide_eq_true_eq,
    Prod.mk.injEq]
  constructor
  · rintro ⟨i', hi, entry, ⟨he, hex⟩, rfl, rfl⟩
    exact ⟨hi, ⟨entry, he, rfl⟩, hex⟩
  · rintro ⟨hi, ⟨entry, he, rfl⟩, hex⟩
    exact ⟨i, hi, entry, ⟨he, hex⟩, rfl, rfl⟩

/-- A target gets the packet, or a copy waits for it, unless its MAC is known and the TTL is 0. -/
theorem refloodFrames_or_waits {r : Router} {out : PacketInfo} {excluded_ip : AddrIp} {locked i : Nat}
    {dst : AddrIp} :
    ((∃ f ∈ (refloodTargets r excluded_ip locked).flatMap (refloodFrames r out),
        f.interface = i ∧ f.ToIp dst) ∨
      (i, dst) ∈ (refloodTargets r excluded_ip locked).filter r.unknownMac) ↔
    (i, dst) ∈ refloodTargets r excluded_ip locked ∧
      (out.ipv4.ttl < 1 → r.unknownMac (i, dst) = true) := by
  have hknown : (arpGetcachebyip r.arp_cache dst).isSome = true ↔ ¬ r.unknownMac (i, dst) = true := by
    unfold Router.unknownMac
    cases arpGetcachebyip r.arp_cache dst <;> simp
  constructor
  · rintro (⟨f, hf, hto⟩ | hwaits)
    · obtain ⟨t, ht, hf⟩ := List.mem_flatMap.1 hf
      obtain ⟨rfl, _, httl⟩ := refloodFrames_toIp.1 ⟨f, hf, hto⟩
      exact ⟨ht, fun hlow => absurd hlow httl⟩
    · obtain ⟨ht, hunknown⟩ := List.mem_filter.1 hwaits
      exact ⟨ht, fun _ => hunknown⟩
  · rintro ⟨ht, httl⟩
    by_cases hunknown : r.unknownMac (i, dst) = true
    · exact .inr (List.mem_filter.2 ⟨ht, hunknown⟩)
    · obtain ⟨f, hf, hto⟩ := refloodFrames_toIp.2
        ⟨rfl, hknown.2 hunknown, fun hlow => hunknown (httl hlow)⟩
      exact .inl ⟨f, List.mem_flatMap.2 ⟨_, ht, hf⟩, hto⟩

/-- **When an LSU is sent back**, or a copy waits to be. -/
theorem sentBack_iff {r : Router} {pi : PacketInfo} (hi : pi.interface < r.num_interfaces) :
    ((∃ f ∈ reflooded r pi, SentBack pi f) ∨ (pi.interface, pi.ipv4.src_ip) ∈ awaited r pi) ↔
      Returns r pi := by
  unfold Returns reflooded awaited Router.excludedIp Router.passedOn
  cases he : entryOf (r.interface pi.interface).neighbours pi.link.pwospf_header.router_id with
  | some entry =>
    rw [if_neg (by simp), if_neg (by simp)]
    have hiff := @refloodFrames_or_waits r pi entry.neighbour_ip pi.interface pi.interface
      pi.ipv4.src_ip
    refine hiff.trans ?_
    rw [mem_refloodTargets_iff]
    simp only [Option.some.injEq, exists_eq_left', ne_eq, not_true_eq_false, false_or]
    constructor
    · rintro ⟨⟨_, hmem, hne⟩, httl⟩
      exact ⟨Ne.symm hne, hmem, httl⟩
    · rintro ⟨hne, hmem, httl⟩
      exact ⟨⟨hi, hmem, Ne.symm hne⟩, httl⟩
  | none =>
    -- the sender itself is excluded
    refine iff_of_false ?_ fun h => nomatch h.1.choose_spec.1
    by_cases hcount : pi.link.payloadCount < 0
    · rw [if_pos ⟨hcount, rfl⟩, if_pos ⟨hcount, rfl⟩]
      simp
    · rw [if_neg fun h => hcount h.1, if_neg fun h => hcount h.1]
      intro h
      have htarget := (refloodFrames_or_waits.1 h).1
      exact (mem_refloodTargets_iff.1 htarget).2.2.elim (fun h => h rfl) fun h => h rfl

/-! ## Runs -/

inductive LinkEvent where
  | hello (env : Env) (pi : PacketInfo)
  | lsu (env : Env) (pi : PacketInfo)
  | expire (env : Env)
  | other

/-- HELLOs, LSUs and rounds of expiry, and anything that leaves the neighbour queues alone, such as
ARP or forwarding. -/
inductive LinkStep : Router → LinkEvent → Router → Prop
  | hello {r : Router} {env : Env} {pi : PacketInfo} : pi.interface < r.num_interfaces →
      LinkStep r (.hello env pi) (pwospfOnreceiveHello env r pi)
  | lsu {r r' : Router} {env : Env} {pi : PacketInfo} : pi.interface < r.num_interfaces →
      pwospfOnreceiveLink env r pi = some r' → LinkStep r (.lsu env pi) r'
  | expire {r : Router} {env : Env} : LinkStep r (.expire env) (expirePass env r)
  | other {r r' : Router} : r.SameLinks r' → LinkStep r .other r'

/-- The condition on the LSUs that are not dropped. -/
def StaysAway (r : Router) : LinkEvent → Prop
  | .lsu _ pi => Refloods r pi → ¬ Returns r pi
  | _ => True

/-- What the step sends are reflooded frames, none of which is sent back, and then LSUs of the router's
own; and none of the packets that it puts in the queue waits to be sent back. -/
def NotSentBack (r : Router) (e : LinkEvent) (r' : Router) : Prop :=
  match e with
  | .lsu _ pi => Refloods r pi → ∃ own waiting,
      r'.sent = r.sent ++ (reflooded r pi ++ own) ∧
      (∀ f ∈ own, f.originator = r.pw_router.router_id) ∧
      r'.iparp_buffer = r.iparp_buffer ++ waiting ∧
      (∀ f ∈ reflooded r pi, ¬ SentBack pi f) ∧ ∀ entry ∈ waiting, ¬ QueuedBack pi entry
  | _ => True

theorem waits_targets {out : PacketInfo} {targets : List (Nat × AddrIp)}
    {waiting : List IparpBufferEntry} (h : List.Forall₂ (WaitsFor out) targets waiting) :
    waiting.map (fun entry => (entry.intf, entry.packet_info.ipv4.dst_ip)) = targets := by
  induction h with
  | nil => rfl
  | cons hwait _ ih => rw [List.map_cons, ih, hwait.intf, hwait.dst_ip]

/-- A packet for the sender waits exactly if the sender is awaited. -/
theorem queuedBack_iff {r : Router} {pi out : PacketInfo} {waiting : List IparpBufferEntry}
    (h : List.Forall₂ (WaitsFor out) (awaited r pi) waiting) :
    (∃ entry ∈ waiting, QueuedBack pi entry) ↔ (pi.interface, pi.ipv4.src_ip) ∈ awaited r pi := by
  rw [← waits_targets h, List.mem_map]
  simp only [QueuedBack, Prod.mk.injEq]

/-- **LSUs are not sent back**, exactly in the runs whose LSUs meet the condition. -/
theorem lsu_not_sent_back_iff (r₀ r : Router) (events : List LinkEvent) :
    Exec (Restrict StaysAway LinkStep) r₀ events r ↔
      Exec (Ensure NotSentBack LinkStep) r₀ events r := by
  apply Exec.restrict_iff_ensure (I := fun _ => True)
  · trivial
  · intro t e u _ hs
    cases hs with
    | lsu hi hr =>
      have hiff := sentBack_iff hi
      constructor
      · intro hok hrefl
        obtain ⟨own, waiting, hsent, hown, hqueue, hwait⟩ := pwospfOnreceiveLink_adds hrefl hr
        refine ⟨own, waiting, hsent, hown, hqueue, fun f hf hback => ?_, fun entry he hback => ?_⟩
        · exact hok hrefl (hiff.1 (.inl ⟨f, hf, hback⟩))
        · exact hok hrefl (hiff.1 (.inr ((queuedBack_iff hwait).1 ⟨entry, he, hback⟩)))
      · intro hgood hrefl hret
        obtain ⟨_, waiting', _, _, hqueue', hstays, hqueued⟩ := hgood hrefl
        obtain ⟨_, waiting, _, _, hqueue, hwait⟩ := pwospfOnreceiveLink_adds hrefl hr
        obtain rfl := List.append_cancel_left (hqueue.symm.trans hqueue')
        rcases hiff.2 hret with ⟨f, hf, hback⟩ | hawaited
        · exact hstays f hf hback
        · obtain ⟨entry, he, hback⟩ := (queuedBack_iff hwait).2 hawaited
          exact hqueued entry he hback
    | hello => exact Iff.rfl
    | expire => exact Iff.rfl
    | other => exact Iff.rfl
  · intro t e u _ _ _
    trivial

/-! The receiver knows the small router's MAC, hears a HELLO of it, an LSU of the far router through a
third router, and then an LSU of the far router through the small one. -/

/-- The third router, as the sender of the far router's LSU with another sequence number. -/
def thirdRouter : Router :=
  { farRouter with
    interface := fun i => { farRouter.interface i with ip := ipConvert 192 168 1 3 }
    hid := 1 }

def thirdLsu : PacketInfo := lsaFrame thirdRouter farTopology 1 smallNeighbour

def knowingReceiver : Router :=
  { smallReceiver with arp_cache := [⟨smallEth1.ip, smallEth1.mac, 120⟩] }

theorem thirdLsu_packet :
    thirdLsu.packet = (lsaFrame thirdRouter farTopology 1 smallNeighbour).packet := rfl

theorem thirdLsu_id : thirdLsu.link.pwospf_header.router_id = ipConvert 10 9 9 9 := by
  rw [arrival_link thirdLsu_packet]
  rfl

/-- What the HELLO and the first LSU leave in the queue. -/
def heardEntry : PwospfListEntry := newHelloEntry smallEnv smallHello.hello smallHello.ipv4.src_ip
def thirdEntry : PwospfListEntry :=
  newLinkEntry smallEnv thirdLsu.link thirdLsu.ipv4.src_ip thirdLsu.lsu

/-- The receiver with these entries. -/
structure ReceiverWith (queue : List PwospfListEntry) (r : Router) : Prop where
  queue : (r.interface 1).neighbours = queue
  num_interfaces : r.num_interfaces = 2
  pw_router : r.pw_router = smallReceiver.pw_router
  arp_cache : r.arp_cache = knowingReceiver.arp_cache

theorem heard_small : ReceiverWith [heardEntry]
    (pwospfOnreceiveHello smallEnv knowingReceiver smallHello) := by
  have hacc : helloAccepted (knowingReceiver.interface smallHello.interface) smallHello = true :=
    smallHello_accepted rfl rfl
  have hlinks : (knowingReceiver.setNeighbours 1 [heardEntry]).SameLinks
      (pwospfOnreceiveHello smallEnv knowingReceiver smallHello) := pwospfOnreceiveHello_links hacc
  refine ⟨?_, hlinks.num_interfaces, hlinks.pw_router, pwospfOnreceiveHello_arp_cache ..⟩
  rw [hlinks.interface, Router.setNeighbours_self]

theorem entryOf_heard : entryOf [heardEntry] thirdLsu.link.pwospf_header.router_id = none := by
  have hid : heardEntry.neighbour_id = ipConvert 10 0 0 1 :=
    congrArg (fun hello => hello.pwospf_header.router_id) (arrival_hello rfl).1
  have hne : ¬ decide (heardEntry.neighbour_id = thirdLsu.link.pwospf_header.router_id) = true := by
    rw [hid, thirdLsu_id]
    decide
  exact List.find?_cons_of_neg hne

theorem third_recorded {r : Router} (h : ReceiverWith [heardEntry] r) :
    ∃ r', pwospfOnreceiveLink smallEnv r thirdLsu = some r' ∧
      ReceiverWith [heardEntry, thirdEntry] r' := by
  have hnone : entryOf (r.interface thirdLsu.interface).neighbours
      thirdLsu.link.pwospf_header.router_id = none := by
    show entryOf (r.interface 1).neighbours _ = none
    rw [h.queue]
    exact entryOf_heard
  have hcount : thirdLsu.link.payloadCount = 1 := arrival_count thirdLsu_packet (by decide)
  have hrefl : Refloods r thirdLsu := by
    refine ⟨arrival_intact thirdLsu_packet (by decide), ?_, fun entry he => ?_⟩
    · rw [thirdLsu_id, h.pw_router]
      decide
    · rw [hnone] at he
      cases he
  obtain ⟨r', hr', heffect⟩ : ∃ r', pwospfOnreceiveLink smallEnv r thirdLsu = some r' ∧
      Refloods.Effect smallEnv r thirdLsu r' := pwospfOnreceiveLink_spec hrefl (by omega)
  refine ⟨r', hr', ?_, ?_, ?_, heffect.arp_cache.trans h.arp_cache⟩
  · have hrec : (r'.interface 1).neighbours =
        recordLsu smallEnv thirdLsu (r.interface 1).neighbours := by
      rw [heffect.links.interface]
      exact Router.setNeighbours_self ..
    rw [hrec, h.queue]
    exact upsert_of_find?_none entryOf_heard
  · exact heffect.links.num_interfaces.trans h.num_interfaces
  · exact heffect.links.pw_router.trans h.pw_router

theorem farLsu_returns {r : Router} (h : ReceiverWith [heardEntry, thirdEntry] r) :
    Refloods r farLsu ∧ Returns r farLsu := by
  have hfar : farLsu.packet = (lsaFrame farRouter farTopology 1 smallNeighbour).packet := rfl
  have hentry : entryOf (r.interface farLsu.interface).neighbours
      farLsu.link.pwospf_header.router_id = some thirdEntry := by
    have hthird : entryOf [thirdEntry] thirdLsu.link.pwospf_header.router_id = some thirdEntry :=
      List.find?_cons_of_pos (decide_eq_true rfl)
    have happend : entryOf ([heardEntry] ++ [thirdEntry]) thirdLsu.link.pwospf_header.router_id =
        (entryOf [heardEntry] thirdLsu.link.pwospf_header.router_id).or
          (entryOf [thirdEntry] thirdLsu.link.pwospf_header.router_id) := List.find?_append
    rw [entryOf_heard, hthird] at happend
    show entryOf (r.interface 1).neighbours _ = _
    rw [h.queue, farLsu_id, ← thirdLsu_id]
    exact happend
  refine ⟨⟨farLsu_intact, farLsu_foreign h.pw_router, fun entry he hdup => ?_⟩,
    ⟨thirdEntry, hentry, ?_⟩, ?_, ?_⟩
  · rw [hentry] at he
    cases he
    have hseq : thirdLsu.link.seq = farLsu.link.seq := hdup.2
    rw [arrival_link thirdLsu_packet, arrival_link hfar] at hseq
    exact absurd hseq (by decide)
  · show thirdLsu.ipv4.src_ip ≠ _
    rw [arrival_ipv4 thirdLsu_packet, farLsu_src_ip]
    decide
  · have hsrc : heardEntry.neighbour_ip = smallEth1.ip := (arrival_hello rfl).2.1
    show _ ∈ (r.interface 1).neighbours.map _
    rw [h.queue, farLsu_src_ip, ← hsrc]
    exact List.mem_cons_self
  · intro hlow
    rw [arrival_ipv4 hfar] at hlow
    exact absurd hlow (by decide)

/-- **The LSU goes back** to the small router: the far router's entry has the third one's address. -/
theorem lsu_sent_back :
    (∀ j < knowingReceiver.num_interfaces, (knowingReceiver.interface j).neighbours = []) ∧
      ∃ r, Exec LinkStep knowingReceiver [.hello smallEnv smallHello, .lsu smallEnv thirdLsu] r ∧
        Refloods r farLsu ∧ ∃ f ∈ reflooded r farLsu, SentBack farLsu f := by
  obtain ⟨r, hr, h⟩ := third_recorded heard_small
  obtain ⟨hrefl, hret⟩ := farLsu_returns h
  have hstep : LinkStep knowingReceiver (.hello smallEnv smallHello)
      (pwospfOnreceiveHello smallEnv knowingReceiver smallHello) := .hello (by decide)
  have hin : thirdLsu.interface <
      (pwospfOnreceiveHello smallEnv knowingReceiver smallHello).num_interfaces := by
    rw [heard_small.num_interfaces]
    decide
  have hlt : farLsu.interface < r.num_interfaces := by
    rw [h.num_interfaces]
    decide
  refine ⟨fun _ _ => rfl, r, .cons hstep (.cons (.lsu hin hr) .nil), hrefl, ?_⟩
  refine ((sentBack_iff hlt).2 hret).resolve_right fun hawaited => ?_
  -- its MAC is known, so nothing waits for it
  have hunknown : r.unknownMac (farLsu.interface, farLsu.ipv4.src_ip) = true := by
    unfold awaited at hawaited
    split at hawaited
    · cases hawaited
    · exact (List.mem_filter.1 hawaited).2
  rw [Router.unknownMac, h.arp_cache, farLsu_src_ip] at hunknown
  cases hunknown

end BirRouter
