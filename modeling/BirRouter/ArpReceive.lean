import BirRouter.ArpCache
import BirRouter.DnsReceive
import BirRouter.LinkState

/-!
# Receiving ARP packets (`arp.c`)

`arp_onreceive` puts the sender of every request, and of every reply that is addressed to the
interface, into the cache, answers requests for the interface's address, and releases the packets
that waited for the sender.

* `ArpRouter.ArpOnreceive` — the handler, as a relation: it says what a call that returns has done;
* `arpOnreceive_cache` — of all this only the insertion changes the cache (`arpLearns`);
* `static_entry_kept_iff` — a static entry persists exactly in the runs in which no inserted sender
  has its MAC, and none with an unknown MAC is found at it by its address: insertions from the network
  overwrite static entries as they do others.
-/

set_option autoImplicit false

namespace BirRouter

open ByteLayout FirstMatch Sweep Trace

/-! ## The handler -/

/-- `ARP_OPCODE_REPLAY`, also `ARP_OP_REPLY`. -/
def arpOpcodeReplay : BitVec 16 := 2

/-- `ARP_CACHE_TIMEOUT_REQUEST`, `ARP_CACHE_TIMEOUT_BROADCAST`. -/
def arpCacheTimeoutRequest : Int := 120
def arpCacheTimeoutBroadcast : Int := 60

namespace PacketInfo

def arp (pi : PacketInfo) : PacketArp := PacketArp.layout.load 14 pi.packet

def setArp (pi : PacketInfo) (arp : PacketArp) : PacketInfo where
  packet := PacketArp.layout.store 14 arp pi.packet
  interface := pi.interface
  ip_fits := by
    have := pi.ip_fits
    unfold Layout.store
    rw [List.length_append, List.length_append, Layout.enc_length, List.length_take,
      PacketArp.layout_size]
    omega

end PacketInfo

/-- `arp_send`: the fields are overwritten in place, and so is the Ethernet header. -/
def arpSend (r : Router) (intf : Nat) (pi : PacketInfo) (opcode : BitVec 16) (target_ip : AddrIp)
    (target_mac : AddrMac) (source_ip : AddrIp) (source_mac : AddrMac) : Router × PacketInfo :=
  let arp : PacketArp :=
    { hardwaretype := htons arpHtypeEth
      protocoltype := htons arpPtypeIp
      hardwareaddresslength := 6
      protocoladdresslength := 4
      opcode := htons opcode
      sender_mac := source_mac
      sender_ip := source_ip
      target_mac := target_mac
      target_ip := target_ip }
  r.ethernetPacketSend intf target_mac source_mac (htons ethArpType) (pi.setArp arp)

/-- The router and the hardware's ARP table. -/
structure ArpRouter where
  router : Router
  arp_nf : TableRegs 3

namespace ArpRouter

def cache (s : ArpRouter) : ArpState := ⟨s.router.arp_cache, s.arp_nf⟩

def setCache (s : ArpRouter) (c : ArpState) : ArpRouter :=
  ⟨{ s.router with arp_cache := c.arp_cache }, c.nf⟩

/-- `arp_putincache` of the sender of a packet. -/
def putSender (env : Env) (s : ArpRouter) (arp : PacketArp) (timeout : Int) : ArpRouter :=
  s.setCache (arpPutincache s.cache arp.sender_ip arp.sender_mac timeout env.now)

/-- The `switch` of `arp_onreceive`, with the packet as it is left behind. -/
def arpOnreceiveSwitch (env : Env) (s : ArpRouter) (pi : PacketInfo) : ArpRouter × PacketInfo :=
  let arp := pi.arp
  let f := s.router.interface pi.interface
  let opcode := ntohs arp.opcode
  if opcode = arpOpcodeRequest then
    if arp.target_ip = f.ip then
      let s := s.putSender env arp arpCacheTimeoutRequest
      let (r, pi) := arpSend s.router pi.interface pi arpOpcodeReplay arp.sender_ip arp.sender_mac
        f.ip f.mac
      ({ s with router := r }, pi)
    else (s.putSender env arp arpCacheTimeoutBroadcast, pi)
  else if opcode = arpOpcodeReplay then
    if arp.target_ip = f.ip ∧ arp.target_mac = f.mac then
      (s.putSender env arp arpCacheTimeoutRequest, pi)
    else (s, pi)
  else (s, pi)

/-- The addresses are those of Ethernet and IPv4. -/
def supported (arp : PacketArp) : Bool :=
  ntohs arp.hardwaretype = arpHtypeEth && ntohs arp.protocoltype = arpPtypeIp &&
    arp.hardwareaddresslength = 6 && arp.protocoladdresslength = 4

/-- `arp_onreceive` returns with `s'`.  The packets that are released are those waiting for the
sender address as the packet holds it then, which is the router's own after an answer. -/
def ArpOnreceive (env : Env) (s : ArpRouter) (pi : PacketInfo) (s' : ArpRouter) : Prop :=
  if supported pi.arp then
    let (s₁, pi₁) := s.arpOnreceiveSwitch env pi
    ∃ n r, processArpipqueue env pi₁.arp.sender_ip n s₁.router = some r ∧ r.iparp_buffer.length ≤ n ∧
      s' = { s₁ with router := r }
  else s' = s

end ArpRouter

/-! ## Receiving an IPv4 packet does not touch the cache -/

/-- The DNS server leaves the cache. -/
def Env.DnsLeavesCache (env : Env) : Prop :=
  ∀ pi r r', env.dnsOnreceive pi r = some r' → r'.arp_cache = r.arp_cache

/-- `dns_onreceive` does, since it only answers. -/
theorem withDns_leavesCache (env : Env) (d : DnsEnv) : (env.withDns d).DnsLeavesCache := by
  intro pi r r' h
  rcases dnsOnreceive_effect h with rfl | ⟨packet, rfl⟩
  · rfl
  · rfl

/-- What a handler returns has the cache of `r`. -/
structure KeepsCache (r : Router) (o : Option Router) : Prop where
  arp_cache : ∀ r', o = some r' → r'.arp_cache = r.arp_cache

theorem keepsCache_some {r r' : Router} (h : r'.arp_cache = r.arp_cache) : KeepsCache r (some r') := by
  constructor
  rintro r'' ⟨⟩
  exact h

theorem pwospfOnreceiveLink_keeps (env : Env) (r : Router) (pi : PacketInfo) :
    KeepsCache r (pwospfOnreceiveLink env r pi) := by
  constructor
  intro r' h
  rcases pwospfOnreceiveLink_cases h with ⟨_, heffect⟩ | ⟨_, rfl⟩
  · exact heffect.arp_cache
  · rfl

theorem ospfOnreceive_keeps (env : Env) (r : Router) (pi : PacketInfo) :
    KeepsCache r (ospfOnreceive env r pi) := by
  unfold ospfOnreceive
  split
  · rcases pwospfOnreceive_cases env r pi with heq | heq | heq
    · exact heq ▸ keepsCache_some rfl
    · exact heq ▸ keepsCache_some (pwospfOnreceiveHello_arp_cache ..)
    · exact heq ▸ pwospfOnreceiveLink_keeps ..
  · exact keepsCache_some rfl

section Receive

variable {env : Env} {recv : Router → PacketInfo → Option Router} (hdns : env.DnsLeavesCache)
  (hrecv : ∀ r pi, KeepsCache r (recv r pi))

include hrecv

theorem icmpAllocateAndSend_keeps (r : Router) (ip : AddrIp) (code type : Byte)
    (id count : BitVec 16) (data : List Byte) (src : AddrIp) :
    KeepsCache r (icmpAllocateAndSend recv r ip code type id count data src) := by
  unfold icmpAllocateAndSend
  split
  · exact hrecv r _
  · exact keepsCache_some rfl

theorem forward_keeps (r : Router) (pi : PacketInfo) : KeepsCache r (forward env recv r pi) := by
  unfold forward
  split
  · exact icmpAllocateAndSend_keeps hrecv ..
  · split
    · refine keepsCache_some ?_
      unfold forwardVia
      simp only
      split
      · rfl
      · rfl
    · exact icmpAllocateAndSend_keeps hrecv ..

include hdns

theorem udpOnreceive_keeps (r : Router) (pi : PacketInfo) (src : AddrIp) :
    KeepsCache r (udpOnreceive env recv r pi src) := by
  have hself : KeepsCache r (some r) := keepsCache_some rfl
  have hunreach := icmpAllocateAndSend_keeps hrecv r pi.ipv4.src_ip Icmp.codePortUnreach
    Icmp.typeDstUnreach 0 0 (icmpErrorData env pi) src
  unfold udpOnreceive
  simp only
  split
  · split
    · exact ⟨fun r' h => nomatch h⟩
    · split
      · exact hunreach
      · split
        · split
          · exact ⟨fun r' h => hdns pi r r' h⟩
          · exact hself
        · exact hunreach
  · exact hunreach

theorem deliver_keeps (r : Router) (pi : PacketInfo) (i : Nat) :
    KeepsCache r (deliver env recv r pi i) := by
  unfold deliver
  simp only
  split
  · exact icmpAllocateAndSend_keeps hrecv ..
  · split
    · split
      · exact keepsCache_some rfl
      · split
        · split
          · exact keepsCache_some rfl
          · exact icmpAllocateAndSend_keeps hrecv ..
        · exact keepsCache_some rfl
    · split
      · exact keepsCache_some rfl
      · split
        · exact ospfOnreceive_keeps ..
        · split
          · exact udpOnreceive_keeps hdns hrecv ..
          · exact icmpAllocateAndSend_keeps hrecv ..

theorem ipOnreceiveStep_keeps (r : Router) (pi : PacketInfo) :
    KeepsCache r (ipOnreceiveStep env recv r pi) := by
  unfold ipOnreceiveStep
  split
  · exact keepsCache_some rfl
  · split
    · exact ospfOnreceive_keeps ..
    · split
      · exact deliver_keeps hdns hrecv ..
      · exact forward_keeps hrecv ..

end Receive

section Queue

variable {env : Env} (hdns : env.DnsLeavesCache)

include hdns

theorem ipOnreceive_keeps (r : Router) (pi : PacketInfo) : KeepsCache r (ipOnreceive env r pi) := by
  have hN : ∀ n r pi, KeepsCache r (ipOnreceiveN env n r pi) := by
    intro n
    induction n with
    | zero =>
      intro r pi
      exact ⟨fun r' h => nomatch h⟩
    | succ n ih =>
      intro r pi
      exact ipOnreceiveStep_keeps hdns ih r pi
  exact hN 2 r pi

/-- Releasing waiting packets leaves the cache. -/
theorem processArpipqueue_keeps (ip : AddrIp) (n : Nat) (r : Router) :
    KeepsCache r (processArpipqueue env ip n r) := by
  induction n with
  | zero => exact keepsCache_some rfl
  | succ n ih =>
    constructor
    intro r' h
    obtain ⟨r₁, h₁, h₂⟩ := Option.bind_eq_some_iff.1 h
    rw [← ih.arp_cache r₁ h₁]
    have hat : KeepsCache r₁ (processArpipqueueAt env ip r₁ n) := by
      unfold processArpipqueueAt
      split
      · exact keepsCache_some rfl
      · simp only
        split
        · exact keepsCache_some rfl
        · split
          · exact ⟨(ipOnreceive_keeps hdns _ _).arp_cache⟩
          · exact keepsCache_some rfl
    exact hat.arp_cache r' h₂

end Queue

/-! ## What a packet does to the cache -/

/-- The timeout with which the sender of a packet is inserted, if it is. -/
def arpLearns (f : Interface) (arp : PacketArp) : Option Int :=
  if ArpRouter.supported arp then
    if ntohs arp.opcode = arpOpcodeRequest then
      some (if arp.target_ip = f.ip then arpCacheTimeoutRequest else arpCacheTimeoutBroadcast)
    else if ntohs arp.opcode = arpOpcodeReplay ∧ arp.target_ip = f.ip ∧ arp.target_mac = f.mac then
      some arpCacheTimeoutRequest
    else none
  else none

theorem arpLearns_pos {f : Interface} {arp : PacketArp} {timeout : Int}
    (h : arpLearns f arp = some timeout) : 0 < timeout := by
  unfold arpLearns at h
  split at h
  · split at h
    · cases h
      split
      · decide
      · decide
    · split at h
      · cases h
        decide
      · cases h
  · cases h

/-- The cache after a packet. -/
def ArpRouter.learned (env : Env) (s : ArpRouter) (pi : PacketInfo) : List ArpCacheEntry :=
  match arpLearns (s.router.interface pi.interface) pi.arp with
  | some timeout =>
    (arpPutincache s.cache pi.arp.sender_ip pi.arp.sender_mac timeout env.now).arp_cache
  | none => s.router.arp_cache

theorem arpOnreceiveSwitch_cache (env : Env) (s : ArpRouter) {pi : PacketInfo}
    (h : ArpRouter.supported pi.arp = true) :
    (s.arpOnreceiveSwitch env pi).1.router.arp_cache = s.learned env pi := by
  unfold ArpRouter.arpOnreceiveSwitch ArpRouter.learned arpLearns
  simp only [h, if_true]
  by_cases hreq : ntohs pi.arp.opcode = arpOpcodeRequest
  · simp only [if_pos hreq]
    split
    · rfl
    · rfl
  · simp only [if_neg hreq]
    by_cases hrep : ntohs pi.arp.opcode = arpOpcodeReplay
    · simp only [hrep, if_true, true_and]
      by_cases hown : pi.arp.target_ip = (s.router.interface pi.interface).ip ∧
          pi.arp.target_mac = (s.router.interface pi.interface).mac
      · rw [if_pos hown, if_pos hown]
        rfl
      · rw [if_neg hown, if_neg hown]
    · simp only [hrep, false_and, if_false]

/-- **Only the insertion changes the cache.** -/
theorem arpOnreceive_cache {env : Env} (hdns : env.DnsLeavesCache) {s s' : ArpRouter}
    {pi : PacketInfo} (h : s.ArpOnreceive env pi s') :
    s'.router.arp_cache = s.learned env pi := by
  unfold ArpRouter.ArpOnreceive at h
  split at h
  · rename_i hsup
    obtain ⟨n, r, hr, _, rfl⟩ := h
    exact ((processArpipqueue_keeps hdns _ n _).arp_cache r hr).trans
      (arpOnreceiveSwitch_cache env s hsup)
  · rename_i hsup
    subst h
    unfold ArpRouter.learned arpLearns
    rw [if_neg hsup]

/-! ## Static entries -/

/-- What `arp_add_static` leaves. -/
def staticArpEntry (ip : AddrIp) (mac : AddrMac) : ArpCacheEntry := ⟨ip, mac, -1⟩

/-- The operation is about the entry, or clears all static ones. -/
def ArpOp.Touches (ip : AddrIp) (mac : AddrMac) : ArpOp → Prop
  | .putincache ip' mac' _ _ | .addStatic ip' mac' _ => ip' = ip ∨ mac' = mac
  | .removeIpMac ip' mac' => ip' = ip ∧ mac' = mac
  | .removeStaticIp ip' => ip' = ip
  | .clearStatic | .clearAll => True
  | .clearDynamic | .maintainCache _ => False

theorem mem_eraseIdx_of_ne {l : List ArpCacheEntry} {i : Nat} {e e' : ArpCacheEntry}
    (h : l[i]? = some e') (hne : e ≠ e') (he : e ∈ l) : e ∈ l.eraseIdx i := by
  obtain ⟨j, hj⟩ := List.mem_iff_getElem?.1 he
  refine List.mem_eraseIdx_iff_getElem?.2 ⟨j, ?_, hj⟩
  rintro rfl
  rw [h] at hj
  cases hj
  exact hne rfl

theorem mem_arpSweep {expired : Nat → ArpCacheEntry → Bool} {e : ArpCacheEntry}
    (h : ∀ i, expired i e = false) (n : Nat) :
    ∀ (i : Nat) (c : List ArpCacheEntry × Bool), e ∈ c.1 → e ∈ (arpSweep expired n i c).1 := by
  induction n with
  | zero =>
    intro i c he
    exact he
  | succ n ih =>
    intro i c he
    obtain ⟨cache, changed⟩ := c
    unfold arpSweep
    split
    · exact he
    · rename_i entry hentry
      split
      · rename_i hexp
        refine ih _ _ (mem_eraseIdx_of_ne hentry ?_ he)
        rintro rfl
        rw [h i] at hexp
        cases hexp
      · exact ih _ _ he

section Static

variable {s : ArpState} {ip : AddrIp} {mac : AddrMac} (he : staticArpEntry ip mac ∈ s.arp_cache)

include he

/-- **An insertion** overwrites the static entry if it has its MAC, or if it has none of the cache's
MACs and its address leads to the static entry. -/
theorem insert_keeps_static_iff (hmacs : (s.arp_cache.map ArpCacheEntry.mac).Nodup) (ip' : AddrIp)
    (mac' : AddrMac) {timeout now : Int} (hdead : arpDeadline timeout now ≠ -1) :
    staticArpEntry ip mac ∈ (arpPutincache s ip' mac' timeout now).arp_cache ↔
      mac' ≠ mac ∧ (mac' ∉ s.arp_cache.map ArpCacheEntry.mac →
        arpGetcachebyip s.arp_cache ip' ≠ some (staticArpEntry ip mac)) := by
  have hne : staticArpEntry ip mac ≠ insertedEntry ip' mac' timeout now := by
    intro heq
    exact hdead (congrArg ArpCacheEntry.tv_sec heq).symm
  have hnodup := hmacs.of_map
  have hmem : mac ∈ s.arp_cache.map ArpCacheEntry.mac := List.mem_map.2 ⟨_, he, rfl⟩
  rw [arpPutincache_cache]
  by_cases hin : mac' ∈ s.arp_cache.map ArpCacheEntry.mac
  · rw [if_pos hin, mem_upsert_const_iff hnodup he hne]
    constructor
    · intro hfind
      refine ⟨?_, fun hnot => absurd hin hnot⟩
      rintro rfl
      -- the MACs are distinct, so the entry that is found is the static one
      exact hfind (find?_key_of_mem hmacs he)
    · rintro ⟨hdiff, _⟩ hfind
      have hp := List.find?_some hfind
      exact hdiff (of_decide_eq_true hp).symm
  · rw [if_neg hin, mem_upsert_const_iff hnodup he hne]
    constructor
    · intro hfind
      exact ⟨fun heq => hin (heq ▸ hmem), fun _ => hfind⟩
    · intro hfind
      exact hfind.2 hin

/-- **Every operation that does not touch the entry** leaves it, and so does an expiry pass. -/
theorem exec_keeps_static {op : ArpOp} (hop : ¬ op.Touches ip mac) :
    staticArpEntry ip mac ∈ (s.exec op).arp_cache := by
  have hother : ∀ {ip' : AddrIp} {mac' : AddrMac} (timeout now : Int), ¬ (ip' = ip ∨ mac' = mac) →
      staticArpEntry ip mac ∈ (arpPutincache s ip' mac' timeout now).arp_cache := by
    intro ip' mac' timeout now hno
    have hip : ¬ decide (ip = ip') = true := fun h => hno (.inl (of_decide_eq_true h).symm)
    have hmac : ¬ decide (mac = mac') = true := fun h => hno (.inr (of_decide_eq_true h).symm)
    rw [arpPutincache_cache]
    split
    · exact mem_upsert_of_neg hmac he
    · exact mem_upsert_of_neg hip he
  cases op with
  | putincache ip' mac' timeout now => exact hother timeout now hop
  | addStatic ip' mac' now => exact hother (-1) now hop
  | removeIpMac ip' mac' =>
    show _ ∈ (arpRemoveIpMac s ip' mac').arp_cache
    unfold arpRemoveIpMac
    split
    · rename_i id entry hpos
      obtain ⟨hentry, hp⟩ := arpPosition_some hpos
      refine mem_eraseIdx_of_ne hentry ?_ he
      rintro rfl
      have hp := of_decide_eq_true hp
      exact hop ⟨hp.1.symm, hp.2.symm⟩
    · exact he
  | removeStaticIp ip' =>
    show _ ∈ (arpRemoveStaticIp s ip').arp_cache
    rw [arpRemoveStaticIp_cache]
    refine (mem_sweep_of_neg ?_).2 he
    intro hp
    unfold ArpCacheEntry.isStaticFor at hp
    exact hop (of_decide_eq_true (Bool.and_eq_true_iff.1 hp).1).symm
  | clearStatic => exact absurd trivial hop
  | clearAll => exact absurd trivial hop
  | clearDynamic =>
    show _ ∈ (arpClearDynamic s).arp_cache
    rw [arpClearDynamic_cache]
    exact (mem_sweep_of_neg (by simp [ArpCacheEntry.isDynamic, staticArpEntry])).2 he
  | maintainCache clock =>
    show _ ∈ (arpMaintainCache s clock).arp_cache
    have hmem : staticArpEntry ip mac ∈ (arpSweepAll
        (fun i entry => entry.tv_sec ≠ -1 && entry.tv_sec - clock i ≤ 0) s.arp_cache).1 :=
      mem_arpSweep (fun i => by simp [staticArpEntry]) s.arp_cache.length 0 (s.arp_cache, false) he
    rw [arpMaintainCache_eq]
    simp only
    split
    · exact hmem
    · exact hmem

end Static

/-! ## Runs -/

inductive ArpEvent where
  | received (env : Env) (d : DnsEnv) (pi : PacketInfo)
  | op (op : ArpOp)

/-- The cache changes by received packets, and by operations that do not touch the entry. -/
inductive ArpStep (ip : AddrIp) (mac : AddrMac) : ArpRouter → ArpEvent → ArpRouter → Prop
  | received {env : Env} {d : DnsEnv} {pi : PacketInfo} {s s' : ArpRouter} :
      42 ≤ pi.packet.length → s.ArpOnreceive (env.withDns d) pi s' →
      ArpStep ip mac s (.received env d pi) s'
  | op {op : ArpOp} {s : ArpRouter} : ¬ op.Touches ip mac →
      ArpStep ip mac s (.op op) (s.setCache (s.cache.exec op))

/-- The condition on the packets: an inserted sender has another MAC than the entry, and if its MAC
is new, its address is not looked up at the entry. -/
def LeavesAlone (ip : AddrIp) (mac : AddrMac) (s : ArpRouter) : ArpEvent → Prop
  | .received _ _ pi =>
    (arpLearns (s.router.interface pi.interface) pi.arp).isSome →
      pi.arp.sender_mac ≠ mac ∧
        (pi.arp.sender_mac ∉ s.router.arp_cache.map ArpCacheEntry.mac →
          arpGetcachebyip s.router.arp_cache pi.arp.sender_ip ≠ some (staticArpEntry ip mac))
  | .op _ => True

/-- No MAC comes twice, and the static entry is there. -/
structure HoldsStatic (ip : AddrIp) (mac : AddrMac) (s : ArpRouter) : Prop where
  macs : (s.router.arp_cache.map ArpCacheEntry.mac).Nodup
  entry : staticArpEntry ip mac ∈ s.router.arp_cache

section Steps

variable {ip : AddrIp} {mac : AddrMac} {s s' : ArpRouter} {e : ArpEvent}

theorem learned_macs_nodup (env : Env) (pi : PacketInfo)
    (h : (s.router.arp_cache.map ArpCacheEntry.mac).Nodup) :
    ((s.learned env pi).map ArpCacheEntry.mac).Nodup := by
  unfold ArpRouter.learned
  split
  · rename_i timeout _
    exact ArpState.exec_macs_nodup (s := s.cache)
      (.putincache pi.arp.sender_ip pi.arp.sender_mac timeout env.now) h
  · exact h

/-- **Step lemma**: the entry is there after a step exactly if the step leaves it alone. -/
theorem arpStep_keeps_iff (h : HoldsStatic ip mac s) (hs : ArpStep ip mac s e s') :
    LeavesAlone ip mac s e ↔ staticArpEntry ip mac ∈ s'.router.arp_cache := by
  cases hs with
  | @received env d pi _ _ _ hrecv =>
    rw [arpOnreceive_cache (withDns_leavesCache env d) hrecv]
    unfold LeavesAlone ArpRouter.learned
    cases hl : arpLearns (s.router.interface pi.interface) pi.arp with
    | none => exact ⟨fun _ => h.entry, fun _ hsome => by rw [hl] at hsome; cases hsome⟩
    | some timeout =>
      have hpos := arpLearns_pos hl
      have hdead : arpDeadline timeout env.now ≠ -1 := by
        unfold arpDeadline
        rw [if_pos (by omega)]
        omega
      have hiff := insert_keeps_static_iff (s := s.cache) h.entry h.macs pi.arp.sender_ip
        pi.arp.sender_mac hdead
      constructor
      · intro halone
        exact hiff.2 (halone (by rw [hl]; rfl))
      · intro hmem _
        exact hiff.1 hmem
  | op hop =>
    have hmem := exec_keeps_static (s := s.cache) h.entry hop
    exact ⟨fun _ => hmem, fun _ => trivial⟩

theorem arpStep_holds (h : HoldsStatic ip mac s) (hok : LeavesAlone ip mac s e)
    (hs : ArpStep ip mac s e s') : HoldsStatic ip mac s' := by
  refine ⟨?_, (arpStep_keeps_iff h hs).1 hok⟩
  cases hs with
  | @received env d pi _ _ _ hrecv =>
    rw [arpOnreceive_cache (withDns_leavesCache env d) hrecv]
    exact learned_macs_nodup (env.withDns d) pi h.macs
  | @op op _ hop => exact ArpState.exec_macs_nodup (s := s.cache) op h.macs

end Steps

/-- The router right after `arp_add_static`, on a cache that any operations have made. -/
def addedStatic (r : Router) (nf : TableRegs 3) (history : List ArpOp) (ip : AddrIp) (mac : AddrMac)
    (now : Int) : ArpRouter :=
  ArpRouter.setCache ⟨r, nf⟩ ((history.foldl ArpState.exec ⟨[], nf⟩).exec (.addStatic ip mac now))

theorem addedStatic_holds (r : Router) (nf : TableRegs 3) (history : List ArpOp) (ip : AddrIp)
    (mac : AddrMac) (now : Int) : HoldsStatic ip mac (addedStatic r nf history ip mac now) := by
  have hmacs : ((history.foldl ArpState.exec ⟨[], nf⟩).arp_cache.map ArpCacheEntry.mac).Nodup := by
    refine List.foldlRecOn
      (motive := fun (s : ArpState) => (s.arp_cache.map ArpCacheEntry.mac).Nodup) _ _
      List.nodup_nil ?_
    intro s hs op _
    exact ArpState.exec_macs_nodup op hs
  exact ⟨ArpState.exec_macs_nodup (.addStatic ip mac now) hmacs,
    ArpState.insertedEntry_mem _ ip mac (-1) now⟩

/-- **Static entries.**  After `arp_add_static`, the runs in which every received packet leaves the
entry alone are exactly those in which it is there after every step. -/
theorem static_entry_kept_iff (r : Router) (nf : TableRegs 3) (history : List ArpOp) (ip : AddrIp)
    (mac : AddrMac) (now : Int) (events : List ArpEvent) (s : ArpRouter) :
    Exec (Restrict (LeavesAlone ip mac) (ArpStep ip mac)) (addedStatic r nf history ip mac now)
        events s ↔
      Exec (Ensure (fun _ _ s' => staticArpEntry ip mac ∈ s'.router.arp_cache) (ArpStep ip mac))
        (addedStatic r nf history ip mac now) events s := by
  apply Exec.restrict_iff_ensure (I := HoldsStatic ip mac)
  · exact addedStatic_holds r nf history ip mac now
  · intro t e u ht hs
    exact arpStep_keeps_iff ht hs
  · intro t e u ht hok hs
    exact arpStep_holds ht hok hs

/-- An ARP request of 10.0.0.2 for the router's address. -/
def sampleArpRequest : PacketInfo where
  packet := Router.arpFrame arpOpcodeRequest smallEth0.ip AddrMac.broadcast (ipConvert 10 0 0 2)
    ⟨2, 0, 0, 0, 0, 2⟩
  interface := 0
  ip_fits := by decide

/-- The host of a static entry asks for the router's MAC, and its entry is dynamic from then on. -/
theorem static_entry_lost :
    staticArpEntry (ipConvert 10 0 0 2) ⟨2, 0, 0, 0, 0, 2⟩ ∈
        (addedStatic smallRouter emptyArp.nf [] (ipConvert 10 0 0 2) ⟨2, 0, 0, 0, 0, 2⟩
          0).router.arp_cache ∧
      ∃ s, ArpStep (ipConvert 10 0 0 2) ⟨2, 0, 0, 0, 0, 2⟩
          (addedStatic smallRouter emptyArp.nf [] (ipConvert 10 0 0 2) ⟨2, 0, 0, 0, 0, 2⟩ 0)
          (.received smallEnv noDns sampleArpRequest) s ∧
        s.router.arp_cache = [⟨ipConvert 10 0 0 2, ⟨2, 0, 0, 0, 0, 2⟩, 120⟩] := by
  refine ⟨(addedStatic_holds ..).entry, ((addedStatic smallRouter emptyArp.nf [] (ipConvert 10 0 0 2)
    ⟨2, 0, 0, 0, 0, 2⟩ 0).arpOnreceiveSwitch (smallEnv.withDns noDns) sampleArpRequest).1,
    .received (by decide) ?_, ?_⟩
  · unfold ArpRouter.ArpOnreceive
    rw [if_pos (by decide)]
    exact ⟨0, _, rfl, by decide, rfl⟩
  · decide

end BirRouter
