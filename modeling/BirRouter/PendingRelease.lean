import BirRouter.ArpReceive
import BirRouter.IpVerdict

/-!
# Releasing the packets that wait for an address

`arp_onreceive` ends with `process_arpipqueue`, which takes the packets with a given next hop out of
the queue and hands them to `ip_onreceive` again.  Its counter moves on after a removal too.

* `processArpipqueue_sweeps` — the loop on packets that `ip_onreceive` queued: it is a `sweep`, and
  every packet taken out leaves as one frame;
* `pending_release_iff` — all packets for an address are released exactly if no two of them stand next
  to each other;
* `arp_flush_iff` — packets that wait for the sender of an accepted ARP packet are looked for unless the
  packet was answered: the answer overwrites the address;
* `arp_rejected_iff` — a rejected ARP packet has no effect exactly if no packet waits for its sender.
-/

set_option autoImplicit false

namespace BirRouter

open ByteLayout Sweep

/-! ## One round -/

/-- The packet's next hop, by the routing table as it is now, is `ip`. -/
def Router.waitsFor (r : Router) (ip : AddrIp) (entry : IparpBufferEntry) : Bool :=
  match ipLongestprefixmatch r.ip_table entry.packet_info.ipv4.dst_ip with
  | some (_, dest) => ip = dest.nextHop entry.packet_info.ipv4.dst_ip
  | none => false

/-- The packet as `process_arpipqueue` hands it on. -/
def IparpBufferEntry.renewed (entry : IparpBufferEntry) : PacketInfo :=
  entry.packet_info.setIpv4 entry.packet_info.ipv4.updateChecksum

section Rounds

variable {env : Env} {r : Router} {ip : AddrIp} {i : Nat} {entry : IparpBufferEntry}

theorem waitsFor_route (h : r.waitsFor ip entry = true) :
    ∃ n dest, ipLongestprefixmatch r.ip_table entry.packet_info.ipv4.dst_ip = some (n, dest) ∧
      ip = dest.nextHop entry.packet_info.ipv4.dst_ip := by
  unfold Router.waitsFor at h
  split at h
  · rename_i n dest hl
    exact ⟨n, dest, hl, of_decide_eq_true h⟩
  · cases h

theorem processArpipqueueAt_waiting (hi : r.iparp_buffer[i]? = some entry)
    (h : r.waitsFor ip entry = true) :
    processArpipqueueAt env ip r i =
      ipOnreceive env { r with iparp_buffer := r.iparp_buffer.eraseIdx i } entry.renewed := by
  obtain ⟨n, dest, hl, hip⟩ := waitsFor_route h
  unfold processArpipqueueAt
  simp only [hi, hl, if_pos hip]
  rfl

theorem processArpipqueueAt_other (hi : r.iparp_buffer[i]? = some entry)
    (h : ¬ r.waitsFor ip entry = true) : processArpipqueueAt env ip r i = some r := by
  unfold Router.waitsFor at h
  unfold processArpipqueueAt
  simp only [hi]
  split
  · rfl
  · rename_i hl
    rw [hl] at h
    rw [if_neg fun heq => h (decide_eq_true heq)]

theorem processArpipqueueAt_over (hi : r.iparp_buffer[i]? = none) :
    processArpipqueueAt env ip r i = some r := by
  unfold processArpipqueueAt
  rw [hi]

/-- Without a packet for the address the loop does nothing. -/
theorem processArpipqueue_unmatched (h : ∀ entry ∈ r.iparp_buffer, ¬ r.waitsFor ip entry = true)
    (n : Nat) : processArpipqueue env ip n r = some r := by
  induction n with
  | zero => rfl
  | succ n ih =>
    rw [processArpipqueue, ih, Option.bind_some]
    cases hn : r.iparp_buffer[n]? with
    | none => exact processArpipqueueAt_over hn
    | some entry => exact processArpipqueueAt_other hn (h entry (List.mem_of_getElem? hn))

end Rounds

/-! ## The whole queue -/

/-- What `ip_onreceive` leaves in the queue may be forwarded. -/
theorem ipOnreceive_queues (env : Env) (d : DnsEnv) {r r' : Router} {pi : PacketInfo}
    (h : ipVerdict (env.withDns d) r pi ≠ .pwospf)
    (hr : ipOnreceive (env.withDns d) r pi = some r') {entry : IparpBufferEntry}
    (he : entry ∈ r'.iparp_buffer) : entry ∈ r.iparp_buffer ∨ r.Forwardable entry.packet_info := by
  rcases ipOnreceive_cases env d h hr with ⟨hbuffer, _⟩ | ⟨e, dest, hforward, rfl⟩
  · rw [hbuffer] at he
    exact .inl he
  · cases harp : arpGetcachebyip r.arp_cache (dest.nextHop e.ipv4.dst_ip) with
    | some arp =>
      rw [forwardVia_known harp] at he
      exact .inl he
    | none =>
      rw [forwardVia_unknown harp] at he
      rcases List.mem_append.1 he with he | he
      · exact .inl he
      · rw [List.mem_singleton.1 he]
        exact .inr hforward

/-- The frame a waiting packet leaves in. -/
def Router.releasedFrame (r : Router) (mac : AddrMac) (entry : IparpBufferEntry) : Option Sent :=
  (ipLongestprefixmatch r.ip_table entry.packet_info.ipv4.dst_ip).map fun (_, dest) =>
    ⟨dest.interface, (forwardedFrame r entry.packet_info dest mac).packet⟩

section Release

variable {env : Env} {r : Router} {ip : AddrIp} {arp : ArpCacheEntry}

/-- **One packet**: out of the queue, and one frame. -/
theorem processArpipqueueAt_releases (env : Env) {i : Nat} {entry : IparpBufferEntry}
    (harp : arpGetcachebyip r.arp_cache ip = some arp) (hi : r.iparp_buffer[i]? = some entry)
    (hw : r.waitsFor ip entry = true) (hq : r.Forwardable entry.packet_info) :
    ∃ frame, r.releasedFrame arp.mac entry = some frame ∧
      processArpipqueueAt env ip r i = some { r with
        iparp_buffer := r.iparp_buffer.eraseIdx i, sent := r.sent ++ [frame] } := by
  obtain ⟨n, dest, hl, rfl⟩ := waitsFor_route hw
  have hsame : r.SameAddresses { r with iparp_buffer := r.iparp_buffer.eraseIdx i } :=
    ⟨rfl, fun _ => rfl, fun _ => rfl⟩
  have hip : entry.renewed.ipv4 = entry.packet_info.ipv4.updateChecksum :=
    entry.packet_info.renewed_ipv4
  have hagain : { r with iparp_buffer := r.iparp_buffer.eraseIdx i }.Transit entry.renewed :=
    hq.transit.again hsame
  refine ⟨⟨dest.interface, (forwardedFrame r entry.packet_info dest arp.mac).packet⟩,
    by rw [Router.releasedFrame, hl]; rfl, ?_⟩
  rw [processArpipqueueAt_waiting hi hw,
    hagain.forwardVia env (by rw [hip]; exact hq.ttl) (by rw [hip]; exact hl),
    forwardVia_known (by rw [hip]; exact harp), ← forwardedFrame_again hsame]
  rfl

/-- **The loop sweeps** the queue, and sends what it takes out. -/
theorem processArpipqueue_sweeps (env : Env) (harp : arpGetcachebyip r.arp_cache ip = some arp)
    (hq : ∀ entry ∈ r.iparp_buffer, r.Forwardable entry.packet_info) (n : Nat) :
    ∃ passed coming removed frames,
      Round (r.waitsFor ip) r.iparp_buffer n passed coming removed ∧
      (∀ entry ∈ coming, r.Forwardable entry.packet_info) ∧
      frames.map some = (removed.map Prod.snd).map (r.releasedFrame arp.mac) ∧
      processArpipqueue env ip n r =
        some { r with iparp_buffer := passed ++ coming, sent := r.sent ++ frames } := by
  induction n with
  | zero =>
    refine ⟨[], r.iparp_buffer, [], [], .start .., hq, rfl, ?_⟩
    rw [processArpipqueue, List.append_nil]
    rfl
  | succ n ih =>
    obtain ⟨passed, coming, removed, frames, hround, hcoming, hframes, hrun⟩ := ih
    rw [processArpipqueue, hrun, Option.bind_some]
    cases coming with
    | nil =>
      refine ⟨passed, [], removed, frames, hround.ended, hcoming, hframes, ?_⟩
      refine processArpipqueueAt_over (List.getElem?_eq_none_iff.2 ?_)
      rw [List.append_nil]
      exact hround.place.1
    | cons entry coming =>
      have hat : (passed ++ entry :: coming)[n]? = some entry := by
        rw [← hround.length_eq]
        simp
      have hrest : ∀ entry ∈ coming, r.Forwardable entry.packet_info := fun e he =>
        hcoming e (List.mem_cons_of_mem entry he)
      by_cases hw : r.waitsFor ip entry = true
      · have hf := hcoming entry List.mem_cons_self
        obtain ⟨frame, hframe, hstep⟩ := processArpipqueueAt_releases env
          (r := { r with iparp_buffer := passed ++ entry :: coming, sent := r.sent ++ frames })
          harp hat hw ⟨⟨hf.transit.header, hf.transit.foreign, hf.transit.not_spf⟩, hf.ttl⟩
        have hframe' : some frame = r.releasedFrame arp.mac entry := hframe.symm
        have herase : (passed ++ entry :: coming).eraseIdx n =
            passed ++ coming.take 1 ++ coming.drop 1 := by
          rw [List.append_assoc, List.take_append_drop, ← hround.length_eq,
            List.eraseIdx_append_of_length_le (Nat.le_refl _), Nat.sub_self]
          rfl
        refine ⟨_, _, _, frames ++ [frame], hround.remove hw,
          fun e he => hrest e (List.mem_of_mem_drop he), ?_, ?_⟩
        · simp only [List.map_append, hframes, hframe', List.map_cons, List.map_nil]
        · rw [hstep]
          simp only [herase, List.append_assoc]
      · refine ⟨passed ++ [entry], coming, removed, frames, hround.skip hw, hrest, hframes, ?_⟩
        rw [List.append_assoc]
        exact processArpipqueueAt_other hat hw

/-- All packets for `ip` left as one frame each, in their order, and the others stayed. -/
structure ReleasedAll (r : Router) (ip : AddrIp) (mac : AddrMac) (r' : Router) : Prop where
  queue : r'.iparp_buffer = r.iparp_buffer.filter fun entry => !r.waitsFor ip entry
  sent : ∃ frames, r'.sent = r.sent ++ frames ∧
    frames.map some = (r.iparp_buffer.filter (r.waitsFor ip)).map (r.releasedFrame mac)

/-- `process_arpipqueue` at its end. -/
theorem processArpipqueue_end (harp : arpGetcachebyip r.arp_cache ip = some arp)
    (hq : ∀ entry ∈ r.iparp_buffer, r.Forwardable entry.packet_info) {n : Nat} {r' : Router}
    (hrun : processArpipqueue env ip n r = some r') (hend : r'.iparp_buffer.length ≤ n) :
    r'.iparp_buffer = sweep (r.waitsFor ip) r.iparp_buffer ∧
    ∃ frames, r'.sent = r.sent ++ frames ∧
      frames.map some =
        ((taken (r.waitsFor ip) 0 r.iparp_buffer).map Prod.snd).map (r.releasedFrame arp.mac) := by
  obtain ⟨passed, coming, removed, frames, hround, _, hframes, hrun'⟩ :=
    processArpipqueue_sweeps env harp hq n
  cases hrun.symm.trans hrun'
  obtain ⟨rfl, rfl, rfl⟩ := hround.finish hend
  exact ⟨List.append_nil _, frames, rfl, hframes⟩

/-- As many rounds as there are packets are enough. -/
theorem processArpipqueue_returns (env : Env) (harp : arpGetcachebyip r.arp_cache ip = some arp)
    (hq : ∀ entry ∈ r.iparp_buffer, r.Forwardable entry.packet_info) :
    ∃ n r', processArpipqueue env ip n r = some r' ∧ r'.iparp_buffer.length ≤ n := by
  obtain ⟨passed, coming, removed, frames, hround, _, _, hrun⟩ :=
    processArpipqueue_sweeps env harp hq r.iparp_buffer.length
  refine ⟨_, _, hrun, ?_⟩
  show (passed ++ coming).length ≤ _
  rw [List.length_append]
  exact hround.length_le

end Release

/-- **Pending packets are released completely** exactly if no two packets for the address stand next to
each other in the queue: the one behind a released packet is not looked at. -/
theorem pending_release_iff (env : Env) {r : Router} {ip : AddrIp} {arp : ArpCacheEntry}
    (harp : arpGetcachebyip r.arp_cache ip = some arp)
    (hq : ∀ entry ∈ r.iparp_buffer, r.Forwardable entry.packet_info) :
    (∃ n r', processArpipqueue env ip n r = some r' ∧ r'.iparp_buffer.length ≤ n ∧
      ReleasedAll r ip arp.mac r') ↔ Apart (r.waitsFor ip) r.iparp_buffer := by
  constructor
  · rintro ⟨n, r', hrun, hend, hall⟩
    have hqueue := (processArpipqueue_end harp hq hrun hend).1
    exact (sweep_eq_filter_iff _).1 (hqueue.symm.trans hall.queue)
  · intro hapart
    obtain ⟨n, r', hrun, hend⟩ := processArpipqueue_returns env harp hq
    obtain ⟨hqueue, frames, hsent, hframes⟩ := processArpipqueue_end harp hq hrun hend
    refine ⟨n, r', hrun, hend, ?_, frames, hsent, ?_⟩
    · rw [hqueue]
      exact (sweep_eq_filter_iff _).2 hapart
    · rw [hframes, taken_of_apart 0 hapart]

/-- The sample packet, waiting, and one for another host. -/
def sampleEntry : IparpBufferEntry := ⟨samplePacket 64, 0, 1, 0, sampleArp.ip⟩

def otherPacket : PacketInfo :=
  .ofParts ⟨smallEth1.mac, ⟨2, 0, 0, 0, 0, 9⟩, htons ethIpType⟩
    (PacketIp4.updateChecksum ⟨5, 4, 0, htons 23, 7, 0, 64, 99, 0, ipConvert 192 168 1 7,
      ipConvert 10 2 0 9⟩) [1, 2, 3] 1

def otherEntry : IparpBufferEntry := ⟨otherPacket, 0, 1, 0, ipConvert 10 2 0 9⟩

/-- A router with these packets waiting, which has just learned the MAC of the sample packet's next
hop. -/
def waitingRouter (queue : List IparpBufferEntry) : Router :=
  { smallRouter with arp_cache := [sampleArp], iparp_buffer := queue }

theorem sampleEntry_forwardable (queue : List IparpBufferEntry) :
    (waitingRouter queue).Forwardable sampleEntry.packet_info := by
  have h := samplePacket_transit [sampleArp] 64
  refine ⟨⟨h.header, h.foreign, h.not_spf⟩, ?_⟩
  show 2 ≤ (samplePacket 64).ipv4.ttl
  rw [samplePacket_ipv4]
  decide

theorem otherEntry_forwardable (queue : List IparpBufferEntry) :
    (waitingRouter queue).Forwardable otherEntry.packet_info := by
  have hdst : otherPacket.ipv4.dst_ip = ipConvert 10 2 0 9 := by decide +kernel
  refine ⟨⟨by decide +kernel, ?_, by decide +kernel⟩, by decide +kernel⟩
  show smallRouter.Foreign otherPacket.ipv4.dst_ip
  rw [hdst]
  exact smallRouter_foreign (by decide) (by decide)

/-- Two packets are released, with another between them. -/
theorem pending_release_spread : ∃ n r',
    processArpipqueue smallEnv sampleArp.ip n (waitingRouter [sampleEntry, otherEntry, sampleEntry]) =
        some r' ∧
      r'.iparp_buffer.length ≤ n ∧
      ReleasedAll (waitingRouter [sampleEntry, otherEntry, sampleEntry]) sampleArp.ip sampleArp.mac
        r' := by
  refine (pending_release_iff smallEnv (by decide) ?_).2 (by decide +kernel)
  exact List.forall_mem_cons.2 ⟨sampleEntry_forwardable _, List.forall_mem_cons.2
    ⟨otherEntry_forwardable _, List.forall_mem_singleton.2 (sampleEntry_forwardable _)⟩⟩

/-- Of two packets next to each other one stays. -/
theorem pending_release_two :
    (arpGetcachebyip (waitingRouter [sampleEntry, sampleEntry]).arp_cache sampleArp.ip =
        some sampleArp ∧
      ∀ entry ∈ (waitingRouter [sampleEntry, sampleEntry]).iparp_buffer,
        (waitingRouter [sampleEntry, sampleEntry]).Forwardable entry.packet_info) ∧
    ¬ ∃ n r', processArpipqueue smallEnv sampleArp.ip n (waitingRouter [sampleEntry, sampleEntry]) =
        some r' ∧
      r'.iparp_buffer.length ≤ n ∧
      ReleasedAll (waitingRouter [sampleEntry, sampleEntry]) sampleArp.ip sampleArp.mac r' := by
  have harp : arpGetcachebyip (waitingRouter [sampleEntry, sampleEntry]).arp_cache sampleArp.ip =
      some sampleArp := by decide
  have hforwardable : ∀ entry ∈ (waitingRouter [sampleEntry, sampleEntry]).iparp_buffer,
      (waitingRouter [sampleEntry, sampleEntry]).Forwardable entry.packet_info :=
    List.forall_mem_cons.2 ⟨sampleEntry_forwardable _,
      List.forall_mem_singleton.2 (sampleEntry_forwardable _)⟩
  refine ⟨⟨harp, hforwardable⟩, ?_⟩
  rintro ⟨n, r', hrun, hend, hall⟩
  have hqueue := (processArpipqueue_end harp hforwardable hrun hend).1
  have hlen := congrArg List.length (hqueue.symm.trans hall.queue)
  revert hlen
  decide +kernel

/-! ## After an accepted ARP packet -/

namespace ArpRouter

/-- The address that `arp_onreceive` passes to `process_arpipqueue`. -/
def flushedIp (env : Env) (s : ArpRouter) (pi : PacketInfo) : AddrIp :=
  (s.arpOnreceiveSwitch env pi).2.arp.sender_ip

/-- `process_arpipqueue` for `ip` returns with `s'`. -/
def Flushes (env : Env) (ip : AddrIp) (s s' : ArpRouter) : Prop :=
  ∃ n r, processArpipqueue env ip n s.router = some r ∧ r.iparp_buffer.length ≤ n ∧
    s' = { s with router := r }

theorem arpOnreceive_flushes (env : Env) (s s' : ArpRouter) {pi : PacketInfo}
    (h : supported pi.arp = true) :
    s.ArpOnreceive env pi s' ↔
      Flushes env (s.flushedIp env pi) (s.arpOnreceiveSwitch env pi).1 s' := by
  unfold ArpOnreceive
  rw [if_pos h]
  rfl

end ArpRouter

theorem PacketInfo.setArp_setEth_arp (pi : PacketInfo) (arp : PacketArp) (e : PacketEthernet) :
    ((pi.setArp arp).setEth e).arp = arp := by
  have hfits := pi.ip_fits
  have h14 : (pi.packet.take 14).length = 14 := by
    rw [List.length_take]
    omega
  have hpacket : ((pi.setArp arp).setEth e).packet =
      PacketEthernet.layout.enc e ++ (PacketArp.layout.enc arp ++ pi.packet.drop (14 + 28)) := by
    show (pi.setArp arp).packet.take 0 ++ (PacketEthernet.layout.enc e ++
      (pi.packet.take 14 ++ (PacketArp.layout.enc arp ++ pi.packet.drop (14 + 28))).drop 14) = _
    rw [List.take_zero, List.nil_append, List.drop_left' h14]
  unfold PacketInfo.arp
  rw [hpacket]
  exact PacketArp.layout.load_append arp _ (PacketEthernet.layout.enc_length e)

/-- The answer to a request for the router's own address leaves that address in the packet. -/
theorem flushedIp_eq (env : Env) (s : ArpRouter) (pi : PacketInfo) :
    s.flushedIp env pi =
      if ntohs pi.arp.opcode = arpOpcodeRequest ∧
        pi.arp.target_ip = (s.router.interface pi.interface).ip
      then (s.router.interface pi.interface).ip else pi.arp.sender_ip := by
  unfold ArpRouter.flushedIp ArpRouter.arpOnreceiveSwitch
  simp only
  by_cases hreq : ntohs pi.arp.opcode = arpOpcodeRequest
  · by_cases hown : pi.arp.target_ip = (s.router.interface pi.interface).ip
    · rw [if_pos hreq, if_pos hown, if_pos ⟨hreq, hown⟩]
      exact congrArg PacketArp.sender_ip (PacketInfo.setArp_setEth_arp pi _ _)
    · rw [if_pos hreq, if_neg hown, if_neg fun h => hown h.2]
  · rw [if_neg hreq, if_neg (c := _ ∧ _) fun h => hreq h.1]
    split
    · split
      · rfl
      · rfl
    · rfl

/-- **Learning an address flushes its packets**, for every accepted packet but a request for the
router's own address: `arp_send` has overwritten the sender by then. -/
theorem arp_flush_iff (env : Env) (s : ArpRouter) (pi : PacketInfo)
    (h : (arpLearns (s.router.interface pi.interface) pi.arp).isSome = true) :
    (∀ s', s.ArpOnreceive env pi s' ↔
      ArpRouter.Flushes env (s.flushedIp env pi) (s.arpOnreceiveSwitch env pi).1 s') ∧
    (s.flushedIp env pi = pi.arp.sender_ip ↔
      ¬ (ntohs pi.arp.opcode = arpOpcodeRequest ∧
          pi.arp.target_ip = (s.router.interface pi.interface).ip) ∨
        pi.arp.sender_ip = (s.router.interface pi.interface).ip) := by
  have hsup : ArpRouter.supported pi.arp = true := by
    refine not_not.1 fun hsup => ?_
    unfold arpLearns at h
    rw [if_neg hsup] at h
    cases h
  refine ⟨fun s' => ArpRouter.arpOnreceive_flushes env s s' hsup, ?_⟩
  rw [flushedIp_eq]
  split
  · rename_i hreq
    exact ⟨fun heq => .inr heq.symm, fun hor => (hor.resolve_left (not_not.2 hreq)).symm⟩
  · rename_i hreq
    exact iff_of_true rfl (.inl hreq)

/-- An ARP packet of 10.2.0.1 for the router. -/
def sampleArpPacket (opcode : BitVec 16) : PacketInfo where
  packet := Router.arpFrame opcode smallEth0.ip smallEth0.mac sampleArp.ip sampleArp.mac
  interface := 0
  ip_fits := show 34 ≤ 42 by decide

/-- The router with a packet that waits for 10.2.0.1. -/
def waitingState : ArpRouter where
  router := { smallRouter with iparp_buffer := [sampleEntry] }
  arp_nf := ⟨fun _ => 0, fun _ => 0, 0, 0, fun _ _ => 0⟩

/-- A reply flushes the packets for its sender. -/
theorem arp_flush_reply :
    waitingState.flushedIp smallEnv (sampleArpPacket arpOpcodeReplay) =
      (sampleArpPacket arpOpcodeReplay).arp.sender_ip :=
  (arp_flush_iff smallEnv waitingState (sampleArpPacket arpOpcodeReplay) (by decide)).2.2
    (.inl (by decide))

/-- After a request the sender is known, and the packet for it still waits. -/
theorem arp_flush_request :
    (arpLearns smallEth0 (sampleArpPacket arpOpcodeRequest).arp).isSome = true ∧
    waitingState.flushedIp smallEnv (sampleArpPacket arpOpcodeRequest) ≠
      (sampleArpPacket arpOpcodeRequest).arp.sender_ip ∧
    ∀ s', waitingState.ArpOnreceive smallEnv (sampleArpPacket arpOpcodeRequest) s' →
      s'.router.arp_cache = [⟨ipConvert 10 2 0 1, ⟨2, 0, 0, 0, 1, 7⟩, 120⟩] ∧
        s'.router.iparp_buffer = [sampleEntry] := by
  refine ⟨by decide, by decide, ?_⟩
  intro s' h
  obtain ⟨n, r, hrun, _, rfl⟩ := (ArpRouter.arpOnreceive_flushes smallEnv waitingState s'
    (show ArpRouter.supported (sampleArpPacket arpOpcodeRequest).arp = true by decide)).1 h
  rw [processArpipqueue_unmatched (by decide +kernel)] at hrun
  cases hrun
  exact ⟨by decide +kernel, by decide +kernel⟩

/-! ## After a rejected ARP packet -/

section Balance

variable (env : Env) (d : DnsEnv) {ip : AddrIp}

/-- A round that finds a packet has more packets leave than it has frames sent for. -/
theorem processArpipqueueAt_balance {r r' : Router} {i : Nat}
    (h : processArpipqueueAt (env.withDns d) ip r i = some r') :
    (r' = r ∧ ∀ entry, r.iparp_buffer[i]? = some entry → ¬ r.waitsFor ip entry = true) ∨
      r'.iparp_buffer.length + r.sent.length < r.iparp_buffer.length + r'.sent.length := by
  cases hi : r.iparp_buffer[i]? with
  | none =>
    rw [processArpipqueueAt_over hi] at h
    cases h
    exact .inl ⟨rfl, nofun⟩
  | some entry =>
    by_cases hw : r.waitsFor ip entry = true
    · rw [processArpipqueueAt_waiting hi hw] at h
      obtain ⟨frames, hsends⟩ := ipOnreceive_sends env d h
      obtain ⟨waiting, hbuffer, hle⟩ := hsends.waiting
      have hlt : i < r.iparp_buffer.length := (List.getElem?_eq_some_iff.1 hi).1
      have hsent : r'.sent = r.sent ++ frames := hsends.sent
      right
      rw [hbuffer, hsent, List.length_append, List.length_append, List.length_eraseIdx_of_lt hlt]
      omega
    · rw [processArpipqueueAt_other hi hw] at h
      cases h
      refine .inl ⟨rfl, ?_⟩
      rintro _ ⟨⟩
      exact hw

/-- So has a call that finds one. -/
theorem processArpipqueue_balance {r : Router} (n : Nat) {r' : Router}
    (h : processArpipqueue (env.withDns d) ip n r = some r') :
    (r' = r ∧ ∀ i < n, ∀ entry, r.iparp_buffer[i]? = some entry → ¬ r.waitsFor ip entry = true) ∨
      r'.iparp_buffer.length + r.sent.length < r.iparp_buffer.length + r'.sent.length := by
  induction n generalizing r' with
  | zero =>
    cases h
    exact .inl ⟨rfl, nofun⟩
  | succ n ih =>
    obtain ⟨r₁, hrun, hat⟩ := Option.bind_eq_some_iff.1 h
    have hstep := processArpipqueueAt_balance env d hat
    rcases ih hrun with ⟨rfl, hnone⟩ | hlt
    · refine hstep.imp_left ?_
      rintro ⟨rfl, hn⟩
      refine ⟨rfl, fun i hi => ?_⟩
      rcases Nat.lt_succ_iff_lt_or_eq.1 hi with hi | rfl
      · exact hnone i hi
      · exact hn
    · refine .inr ?_
      rcases hstep with ⟨rfl, _⟩ | hlt'
      · exact hlt
      · omega

end Balance

/-- Neither the cache nor its hardware copy nor the queue nor the frames sent changed. -/
structure Unaffected (s s' : ArpRouter) : Prop where
  arp_cache : s'.router.arp_cache = s.router.arp_cache
  arp_nf : s'.arp_nf = s.arp_nf
  iparp_buffer : s'.router.iparp_buffer = s.router.iparp_buffer
  sent : s'.router.sent = s.router.sent

theorem arpOnreceiveSwitch_rejected (env : Env) (s : ArpRouter) {pi : PacketInfo}
    (hsup : ArpRouter.supported pi.arp = true)
    (h : arpLearns (s.router.interface pi.interface) pi.arp = none) :
    s.arpOnreceiveSwitch env pi = (s, pi) := by
  unfold arpLearns at h
  rw [if_pos hsup] at h
  split at h
  · cases h
  · rename_i hreq
    split at h
    · cases h
    · rename_i hrep
      unfold ArpRouter.arpOnreceiveSwitch
      simp only
      rw [if_neg hreq]
      split
      · rename_i hop
        rw [if_neg fun hown => hrep ⟨hop, hown⟩]
      · rfl

theorem arpOnreceive_rejected (env : Env) (s s' : ArpRouter) {pi : PacketInfo}
    (hsup : ArpRouter.supported pi.arp = true)
    (h : arpLearns (s.router.interface pi.interface) pi.arp = none) :
    s.ArpOnreceive env pi s' ↔ ArpRouter.Flushes env pi.arp.sender_ip s s' := by
  rw [ArpRouter.arpOnreceive_flushes env s s' hsup, ArpRouter.flushedIp,
    arpOnreceiveSwitch_rejected env s hsup h]

/-- **A rejected ARP packet has no effect** exactly if it is of another kind of network or no packet
waits for its sender: the packets that do are processed all the same. -/
theorem arp_rejected_iff (env : Env) (d : DnsEnv) (s : ArpRouter) (pi : PacketInfo)
    (h : arpLearns (s.router.interface pi.interface) pi.arp = none) :
    ((∃ s', s.ArpOnreceive (env.withDns d) pi s') ∧
      ∀ s', s.ArpOnreceive (env.withDns d) pi s' → Unaffected s s') ↔
    (ArpRouter.supported pi.arp = true →
      ∀ entry ∈ s.router.iparp_buffer, ¬ s.router.waitsFor pi.arp.sender_ip entry = true) := by
  by_cases hsup : ArpRouter.supported pi.arp = true
  · simp only [arpOnreceive_rejected _ s _ hsup h]
    constructor
    · rintro ⟨⟨_, n, r, hrun, hend, rfl⟩, hall⟩ - entry he
      have hun := hall _ ⟨n, r, hrun, hend, rfl⟩
      have hbuffer : r.iparp_buffer = s.router.iparp_buffer := hun.iparp_buffer
      have hsent : r.sent = s.router.sent := hun.sent
      rcases processArpipqueue_balance env d n hrun with ⟨_, hnone⟩ | hlt
      · obtain ⟨i, hi⟩ := List.mem_iff_getElem?.1 he
        have hlt : i < s.router.iparp_buffer.length := (List.getElem?_eq_some_iff.1 hi).1
        rw [hbuffer] at hend
        exact hnone i (Nat.lt_of_lt_of_le hlt hend) entry hi
      · rw [hbuffer, hsent] at hlt
        exact absurd hlt (Nat.lt_irrefl _)
    · intro hnone
      have hrun : ∀ n, processArpipqueue (env.withDns d) pi.arp.sender_ip n s.router =
          some s.router := processArpipqueue_unmatched (hnone hsup)
      refine ⟨⟨s, _, s.router, hrun _, Nat.le_refl _, rfl⟩, ?_⟩
      rintro _ ⟨n, r, hr, _, rfl⟩
      rw [hrun n] at hr
      cases hr
      exact ⟨rfl, rfl, rfl, rfl⟩
  · have hself : ∀ s', s.ArpOnreceive (env.withDns d) pi s' ↔ s' = s := by
      intro s'
      unfold ArpRouter.ArpOnreceive
      rw [if_neg hsup]
    simp only [hself]
    refine iff_of_true ⟨⟨s, rfl⟩, ?_⟩ fun hsup' => absurd hsup' hsup
    rintro _ rfl
    exact ⟨rfl, rfl, rfl, rfl⟩

/-- An unknown opcode does nothing while only a packet for another host waits. -/
theorem arp_rejected_other :
    (∃ s', ArpRouter.ArpOnreceive (smallEnv.withDns noDns)
      ⟨waitingRouter [otherEntry], waitingState.arp_nf⟩ (sampleArpPacket 9) s') ∧
    ∀ s', ArpRouter.ArpOnreceive (smallEnv.withDns noDns)
      ⟨waitingRouter [otherEntry], waitingState.arp_nf⟩ (sampleArpPacket 9) s' →
        Unaffected ⟨waitingRouter [otherEntry], waitingState.arp_nf⟩ s' := by
  refine (arp_rejected_iff smallEnv noDns ⟨waitingRouter [otherEntry], waitingState.arp_nf⟩
    (sampleArpPacket 9) (by decide)).2 fun _ => ?_
  show ∀ entry ∈ [otherEntry], ¬ (waitingRouter [otherEntry]).waitsFor _ entry = true
  decide +kernel

/-- The packet that waits for the sender is queued anew, and another request for it is sent. -/
theorem arp_rejected_waiting :
    arpLearns smallEth0 (sampleArpPacket 9).arp = none ∧
    ¬ ((∃ s', waitingState.ArpOnreceive (smallEnv.withDns noDns) (sampleArpPacket 9) s') ∧
      ∀ s', waitingState.ArpOnreceive (smallEnv.withDns noDns) (sampleArpPacket 9) s' →
        Unaffected waitingState s') := by
  refine ⟨by decide, ?_⟩
  rintro ⟨-, hall⟩
  have hrun : (processArpipqueue (smallEnv.withDns noDns) (sampleArpPacket 9).arp.sender_ip 1
      waitingState.router).map (fun r => (r.iparp_buffer.length, r.sent.length)) = some (1, 1) := by
    decide +kernel
  obtain ⟨r, hr, hlengths⟩ := Option.map_eq_some_iff.1 hrun
  obtain ⟨hlen, hsent⟩ := Prod.mk.injEq .. ▸ hlengths
  have hun := hall _ ((arpOnreceive_rejected _ waitingState { waitingState with router := r }
    (by decide) (by decide)).2 ⟨1, r, hr, Nat.le_of_eq hlen, rfl⟩)
  have hnone : r.sent = [] := hun.sent
  rw [hnone] at hsent
  cases hsent

end BirRouter
