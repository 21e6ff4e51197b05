import BirRouter.LsuRoundTrip
import BirRouter.Relaying

/-!
# Runs of a flooded network

What flooding comes to in any network and in any order of deliveries.

* `lsu_flooding` — on one interface no LSU is reflooded twice in a row; LSUs of one originator that
  arrive in order are reflooded at most once for each interface, in boundedly many frames;
* `chase`, `chase_rounds` — two LSUs of one originator on a cycle of two routers;
* `lsu_flooding_endless` — there one LSU is reflooded twice by one router, on its two interfaces, and
  two LSUs chase each other for ever.
-/

set_option autoImplicit false

namespace BirRouter

open ByteLayout Trace Network

/-! ## Two routers joined by two cables

Interface 1 of each router is wired to interface 0 of the other.  Interface 2 of router `false` leads
to the small router, whose LSAs are stored on every interface. -/

def ringLink (a : Bool) (i : Nat) : List (Bool × Nat) :=
  if i = 0 then [(!a, 1)] else if i = 1 then [(!a, 0)] else []

def ringIp (a : Bool) (i : Nat) : AddrIp :=
  if i = 0 then ipConvert 10 (if a then 1 else 2) 0 2
  else if i = 1 then ipConvert 10 (if a then 2 else 1) 0 1
  else smallNeighbour.neighbour_ip

def ringMac (a : Bool) (i : Nat) : AddrMac := ⟨2, 0, 0, 1, if a then 1 else 0, BitVec.ofNat 8 i⟩

def ringOrigin : BitVec 32 := smallRouter.pw_router.router_id

def ringLsas : List PwospfLsa := complete ringOrigin (getTopology smallRouter)

/-- The entry of the small router, after its LSU number 1. -/
def ringEntry (ip : AddrIp) : PwospfListEntry where
  neighbour_id := ringOrigin
  neighbour_ip := ip
  helloint := 5
  timestamp := 0
  immediate_neighbour := 0
  lsu_lastseq := htons 1
  lsu_lastcontents := .valid ringLsas
  lsu_timestamp := 0

def ringId (a : Bool) : BitVec 32 := if a then ringIp true 0 else smallNeighbour.neighbour_id

/-- The entry of the router at the other end of a cable. -/
def ringPeer (a : Bool) (i : Nat) : PwospfListEntry where
  neighbour_id := ringId (!a)
  neighbour_ip := ringIp (!a) (1 - i)
  helloint := 5
  timestamp := 0
  immediate_neighbour := 1
  lsu_lastseq := 0
  lsu_lastcontents := .null
  lsu_timestamp := 0

def ringInterface (a : Bool) (i : Nat) : Interface where
  mac := ringMac a i
  ip := ringIp a i
  subnet_mask := ipConvert 255 255 255 0
  hw_oq := 0x01
  hw_id := 0x02
  helloint := 5
  neighbours :=
    if i < 2 then [ringPeer a i, ringEntry (ringPeer a i).neighbour_ip]
    else [ringEntry smallEth1.ip]

def ringRouter (a : Bool) : Router where
  interface := ringInterface a
  num_interfaces := if a then 2 else 3
  num_le := by cases a <;> decide
  arp_cache := [⟨ringIp (!a) 0, ringMac (!a) 0, 0⟩, ⟨ringIp (!a) 1, ringMac (!a) 1, 0⟩,
    ⟨smallEth1.ip, smallEth1.mac, 0⟩]
  ip_table := []
  iparp_buffer := []
  pw_router := ⟨ringId a, 0, 30⟩
  last_lsu := 0
  hid := 0
  ip_id := 0
  nf := smallRouter.nf
  sent := []
  transport := []

/-- The small router's LSUs number 2 and 3, as router `false` receives them. -/
def ringLsu (k : Nat) : PacketInfo :=
  { lsaFrame { smallRouter with hid := BitVec.ofNat 16 (2 + k) } (getTopology smallRouter) 1
      smallNeighbour with interface := 2 }

/-- Both LSUs are on their way. -/
def ringNet : Net Bool Router PacketInfo LsuEvent where
  node := ringRouter
  log _ := []
  inFlight := [⟨false, ringLsu 0⟩, ⟨false, ringLsu 1⟩]

section RingLsu

variable (k : Nat)

theorem ringLsu_packet : (ringLsu k).packet =
    (lsaFrame { smallRouter with hid := BitVec.ofNat 16 (2 + k) } (getTopology smallRouter) 1
      smallNeighbour).packet := rfl

theorem ringLsu_link : (ringLsu k).link.pwospf_header.router_id = ringOrigin ∧
    (ringLsu k).link.seq = htons (BitVec.ofNat 16 (2 + k)) := by
  rw [arrival_link (ringLsu_packet k)]
  exact ⟨rfl, rfl⟩

theorem ringLsu_count : (ringLsu k).link.payloadCount = 3 :=
  arrival_count (ringLsu_packet k) (by decide)

theorem ringLsu_lsu : (ringLsu k).lsu = ringLsas := by
  unfold PacketInfo.lsu
  rw [(ringLsu_link k).1, ringLsu_count k]
  exact congrArg (complete ringOrigin) (arrival_lsas (ringLsu_packet k))

theorem ringLsu_valid {r : Router} (h : ringOrigin ≠ r.pw_router.router_id) :
    ValidLsu (ringLsu k) r := by
  refine ⟨arrival_intact (ringLsu_packet k) (by decide), ?_, ?_, ?_⟩
  · rw [ringLsu_count]
    decide
  · rw [arrival_ipv4 (ringLsu_packet k)]
    show ¬ (65 : BitVec 8) < 1
    decide
  · rw [(ringLsu_link k).1]
    exact h

end RingLsu

def ringSeq (k : Nat) : BitVec 16 := htons (BitVec.ofNat 16 (2 + k))

/-- The LSAs of the small router are stored, under a number other than that of its first LSU. -/
def RingStores (l : List PwospfListEntry) : Prop :=
  ∃ seq, Stores ringOrigin ringLsas seq l ∧ seq ≠ ringSeq 0

/-- What stays true of both routers. -/
structure Settled (r : Router) : Prop where
  foreign : ringOrigin ≠ r.pw_router.router_id
  two : 2 ≤ r.num_interfaces
  reaches : Reaches r 1
  stores : RingStores (r.interface 0).neighbours

/-- Both LSUs are on their way to interface `j` of router `a`. -/
structure Chasing (a : Bool) (j : Nat) (net : Net Bool Router PacketInfo LsuEvent) : Prop where
  settled : ∀ b, Settled (net.node b)
  interface : j < (net.node a).num_interfaces ∧ j ≠ 1
  stores : RingStores ((net.node a).interface j).neighbours
  flight : ∀ k < 2, ∃ m ∈ net.inFlight, IsCopy (ringLsu k) a j m

theorem ringEntry_stores (a : Bool) (i : Nat) : RingStores (ringInterface a i).neighbours := by
  refine ⟨htons 1, ?_, by decide⟩
  unfold ringInterface
  by_cases hi : i < 2
  · simp only [if_pos hi]
    have hne : ringId (!a) ≠ ringOrigin := by
      cases a <;> decide
    refine ⟨ringEntry (ringPeer a i).neighbour_ip, ?_, rfl, rfl⟩
    refine (List.find?_cons_of_neg ?_).trans (List.find?_cons_of_pos ?_)
    · exact fun hid => hne (of_decide_eq_true hid)
    · exact decide_eq_true rfl
  · simp only [if_neg hi]
    exact ⟨ringEntry smallEth1.ip, List.find?_cons_of_pos (by simp [ringEntry]), rfl, rfl⟩

theorem ringRouter_reaches (a : Bool) {i : Nat} (hi : i < 2) : Reaches (ringRouter a) i := by
  refine ⟨ringPeer a i, ?_, ?_⟩
  · show ringPeer a i ∈ (ringInterface a i).neighbours
    unfold ringInterface
    simp only [if_pos hi]
    exact List.mem_cons_self
  · rcases (by omega : i = 0 ∨ i = 1) with rfl | rfl <;> cases a <;> decide

theorem ringRouter_settled (a : Bool) : Settled (ringRouter a) := by
  refine ⟨?_, ?_, ringRouter_reaches a (by decide), ringEntry_stores a 0⟩
  · cases a <;> decide
  · cases a <;> decide

theorem ringLsu_copy (k : Nat) : IsCopy (ringLsu k) false 2 ⟨false, ringLsu k⟩ :=
  ⟨rfl, rfl, rfl, rfl⟩

theorem ringNet_chasing : Chasing false 2 ringNet := by
  refine ⟨ringRouter_settled, by decide, ringEntry_stores false 2, ?_⟩
  intro k hk
  refine ⟨⟨false, ringLsu k⟩, ?_, ringLsu_copy k⟩
  rcases (by omega : k = 0 ∨ k = 1) with rfl | rfl
  · exact List.mem_cons_self
  · exact List.mem_cons_of_mem _ List.mem_cons_self

section Chase

variable {net net' : Net Bool Router PacketInfo LsuEvent} {a : Bool} {j k : Nat}
  {m : Message Bool PacketInfo}

theorem ring_step {seq : BitVec 16} (hm : m ∈ net.inFlight) (hcopy : IsCopy (ringLsu k) a j m)
    (hforeign : ringOrigin ≠ (net.node a).pw_router.router_id)
    (hj : j < (net.node a).num_interfaces)
    (hstores : Stores ringOrigin ringLsas seq ((net.node a).interface j).neighbours)
    (hseq : seq ≠ ringSeq k) :
    ∃ net', Step (floodReact ringLink) net ⟨smallEnv, m⟩ net' ∧
      Relay ringLink (ringLsu k) a j m net net' := by
  obtain ⟨horigin, hnumber⟩ := ringLsu_link k
  rw [← horigin, ← ringLsu_lsu k] at hstores
  refine relay_step smallEnv hm hcopy hj (ringLsu_valid k hforeign) hstores ?_
  rw [hnumber]
  exact hseq

/-- Copies of different LSUs are different messages. -/
theorem isCopy_ne {m' : Message Bool PacketInfo} {a' : Bool} {j' : Nat}
    (h : IsCopy (ringLsu 1) a j m) (h' : IsCopy (ringLsu 0) a' j' m') : m ≠ m' := by
  rintro rfl
  have hseq := congrArg PwospfPacketLink.seq (h.same.link_eq.symm.trans h'.same.link_eq)
  rw [(ringLsu_link 1).2, (ringLsu_link 0).2] at hseq
  exact absurd hseq (by decide)

/-- The first delivery at the router next to the originator. -/
theorem ringNet_first : ∃ net, Step (floodReact ringLink) ringNet
      ⟨smallEnv, ⟨false, ringLsu 0⟩⟩ net ∧
    Relay ringLink (ringLsu 0) false 2 ⟨false, ringLsu 0⟩ ringNet net := by
  obtain ⟨seq, hstores, hseq⟩ := ringNet_chasing.stores
  have hm : ⟨false, ringLsu 0⟩ ∈ ringNet.inFlight := List.mem_cons_self
  exact ring_step hm (ringLsu_copy 0) (ringRouter_settled false).foreign (by decide) hstores hseq

theorem Relay.ring_stores (h : Relay ringLink (ringLsu k) a j m net net') :
    Stores ringOrigin ringLsas (ringSeq k) ((net'.node a).interface j).neighbours := by
  have hstores := h.stores
  rw [(ringLsu_link k).1, (ringLsu_link k).2, ringLsu_lsu] at hstores
  exact hstores

theorem Relay.ring_log (h : Relay ringLink (ringLsu k) a j m net net') :
    net'.log = Function.update net.log a (net.log a ++ [⟨j, ringOrigin, ringSeq k⟩]) := by
  rw [h.log, (ringLsu_link k).1, (ringLsu_link k).2]
  rfl

theorem Relay.reaches (h : Relay ringLink (ringLsu k) a j m net net') {i : Nat} (hi : i ≠ j)
    (hreach : Reaches (net.node a) i) : Reaches (net'.node a) i := by
  unfold Reaches
  rw [h.interface i hi, h.arp_cache]
  exact hreach

/-- What one LSU after the other does at interface `j` of router `a`. -/
theorem chase_settled {net₁ : Net Bool Router PacketInfo LsuEvent} {m' : Message Bool PacketInfo}
    (h : ∀ b, Settled (net.node b)) (hj : j ≠ 1)
    (h₁ : Relay ringLink (ringLsu 0) a j m net net₁)
    (h₂ : Relay ringLink (ringLsu 1) a j m' net₁ net') (b : Bool) : Settled (net'.node b) := by
  by_cases hb : b = a
  · subst hb
    refine ⟨?_, ?_, ?_, ?_⟩
    · rw [h₂.pw_router, h₁.pw_router]
      exact (h b).foreign
    · rw [h₂.num_interfaces, h₁.num_interfaces]
      exact (h b).two
    · exact h₂.reaches hj.symm (h₁.reaches hj.symm (h b).reaches)
    · by_cases h0 : j = 0
      · subst h0
        exact ⟨ringSeq 1, h₂.ring_stores, by decide⟩
      · rw [h₂.interface 0 (Ne.symm h0), h₁.interface 0 (Ne.symm h0)]
        exact (h b).stores
  · rw [h₂.node b hb, h₁.node b hb]
    exact h b

/-- **Half a round**: router `a` passes both LSUs on to the other one. -/
theorem chase (h : Chasing a j net) : ∃ as net',
    Exec (Step (floodReact ringLink)) net as net' ∧ Chasing (!a) 0 net' ∧
      net'.node (!a) = net.node (!a) ∧
      net'.log = Function.update net.log a
        (net.log a ++ [⟨j, ringOrigin, ringSeq 0⟩, ⟨j, ringOrigin, ringSeq 1⟩]) ∧
      lsuFrames ringOrigin (net.node a) < lsuFrames ringOrigin (net'.node a) := by
  obtain ⟨hj, hj1⟩ := h.interface
  obtain ⟨m₀, hm₀, hc₀⟩ := h.flight 0 (by decide)
  obtain ⟨m₁, hm₁, hc₁⟩ := h.flight 1 (by decide)
  obtain ⟨seq, hstores, hseq⟩ := h.stores
  have hother : (!a) ≠ a := by cases a <;> decide
  have hlink : ((!a), 0) ∈ ringLink a 1 := List.mem_cons_self
  obtain ⟨net₁, hs₁, hr₁⟩ := ring_step hm₀ hc₀ (h.settled a).foreign hj hstores hseq
  obtain ⟨net₂, hs₂, hr₂⟩ := ring_step (hr₁.rest m₁ hm₁ (isCopy_ne hc₁ hc₀)) hc₁
    (by rw [hr₁.pw_router]; exact (h.settled a).foreign) (by rw [hr₁.num_interfaces]; exact hj)
    hr₁.ring_stores (by decide)
  have hreach := (h.settled a).reaches
  have htwo := (h.settled a).two
  obtain ⟨m₀', hm₀', hc₀'⟩ := hr₁.sent 1 (by omega) hj1.symm hreach _ hlink
  obtain ⟨m₁', hm₁', hc₁'⟩ := hr₂.sent 1 (by rw [hr₁.num_interfaces]; omega) hj1.symm
    (hr₁.reaches hj1.symm hreach) _ hlink
  have hsettled := chase_settled h.settled hj1 hr₁ hr₂
  refine ⟨_, net₂, (Exec.nil.snoc hs₁).snoc hs₂, ⟨hsettled, ?_, ?_, ?_⟩, ?_, ?_, ?_⟩
  · have := (hsettled (!a)).two
    exact ⟨by omega, by decide⟩
  · exact (hsettled (!a)).stores
  · intro k hk
    rcases (by omega : k = 0 ∨ k = 1) with rfl | rfl
    · exact ⟨m₀', hr₂.rest m₀' hm₀' (isCopy_ne hc₁ hc₀').symm, hc₀'⟩
    · exact ⟨m₁', hm₁', hc₁'⟩
  · rw [hr₂.node _ hother, hr₁.node _ hother]
  · rw [hr₂.ring_log, hr₁.ring_log, Function.update_self, Function.update_idem, List.append_assoc]
    rfl
  · have hf₁ := hr₁.frames 1 (by omega) hj1.symm hreach
    have hf₂ := hr₂.frames 1 (by rw [hr₁.num_interfaces]; omega) hj1.symm
      (hr₁.reaches hj1.symm hreach)
    rw [(ringLsu_link 0).1] at hf₁
    rw [(ringLsu_link 1).1] at hf₂
    omega

/-- **Round after round.** -/
theorem chase_rounds (h : Chasing a 0 net) : ∀ n, ∃ as net',
    Exec (Step (floodReact ringLink)) net as net' ∧ Chasing a 0 net' ∧
      n ≤ (net'.log a).count ⟨0, ringOrigin, ringSeq 0⟩ ∧ n ≤ lsuFrames ringOrigin (net'.node a)
  | 0 => ⟨[], net, Exec.nil, h, Nat.zero_le _, Nat.zero_le _⟩
  | n + 1 => by
    obtain ⟨as, net₁, hrun, hc, hcount, hframes⟩ := chase_rounds h n
    obtain ⟨as₂, net₂, hrun₂, hc₂, -, hlog₂, hf₂⟩ := chase hc
    obtain ⟨as₃, net₃, hrun₃, hc₃, hnode₃, hlog₃, -⟩ := chase hc₂
    rw [Bool.not_not] at hc₃ hnode₃
    refine ⟨_, net₃, (hrun.append hrun₂).append hrun₃, hc₃, ?_, ?_⟩
    · have hother : a ≠ (!a) := by cases a <;> decide
      rw [hlog₃, Function.update_of_ne hother, hlog₂, Function.update_self, List.count_append,
        List.count_cons_self]
      omega
    · rw [hnode₃]
      omega

end Chase

/-! ## The whole network -/

section Flooding

variable {ι : Type} [DecidableEq ι] {link : ι → Nat → List (ι × Nat)}

/-- **Flooding**, in any run and for any originator `o` whose LSUs have at least one LSA.

On each interface a router never refloods the same LSU twice in a row.  If the LSUs of `o` arrive
in order on every interface, repetitions allowed, each of them is reflooded at most once for each
receiving interface, and the frames all this costs a router are bounded by the number of LSUs,
however long the run is. -/
theorem lsu_flooding {net₀ net : Net ι Router PacketInfo LsuEvent}
    {as : List (Arrival ι Env PacketInfo)} (h : Exec (Step (floodReact link)) net₀ as net)
    (hlog : ∀ b, net₀.log b = []) {o : BitVec 32}
    (hlsas : ∀ a ∈ as, a.msg.body.event.originator = o → 1 ≤ a.msg.body.link.payloadCount) :
    (∀ b j, (seqs j o (net.log b)).IsChain (· ≠ ·)) ∧
    ((∀ b j, InOrder (seqs j o (arrived b as))) →
      (∀ b j seq, (net.log b).count ⟨j, o, seq⟩ ≤ 1) ∧
      ∀ S : List (BitVec 16),
        (∀ a ∈ as, a.msg.body.event.originator = o → a.msg.body.event.seq ∈ S) →
        ∀ b, o ≠ (net₀.node b).pw_router.router_id →
          lsuFrames o (net.node b) ≤ lsuFrames o (net₀.node b) +
            4 * S.length * ((net₀.node b).entries + 4 * 2 ^ 32)) := by
  have hsup : ∀ b, Suppressed o (net.node b, net.log b) := by
    intro b
    refine suppressed_run (project h b) (hlog b) ?_
    intro d hd ho
    obtain ⟨a, ha, _, hbody⟩ := mem_received hd
    rw [← hbody] at ho ⊢
    exact hlsas a ha ho
  refine ⟨fun b => (hsup b).chain, ?_⟩
  intro horder
  have hsub : ∀ b, (net.log b).Sublist (arrived b as) := fun b =>
    log_sublist (project h b) (hlog b)
  have hcount : ∀ b j seq, (net.log b).count ⟨j, o, seq⟩ ≤ 1 := fun b =>
    (hsup b).count_le_one fun j => (horder b j).sublist (seqs_sublist (hsub b) j o)
  refine ⟨hcount, ?_⟩
  intro S hS b ho
  have hcosts := costs_run ho (project h b) (hlog b)
  have hle : (net.log b).countP (fun e => e.originator = o) ≤ 4 * S.length := by
    refine countP_le_of_count (hcount b) ?_ fun e he heo => ?_
    · exact fun e he => Nat.lt_of_lt_of_le (hcosts.interface e he) (net₀.node b).num_le
    · obtain ⟨d, hd, rfl⟩ := List.mem_map.1 ((hsub b).subset he)
      obtain ⟨a, ha, _, hbody⟩ := mem_received hd
      rw [← hbody] at heo ⊢
      exact hS a ha heo
  exact hcosts.frames.trans (Nat.add_le_add_left (Nat.mul_le_mul_right _ hle) _)

end Flooding

theorem ringLsu_event (k : Nat) : (ringLsu k).event = ⟨2, ringOrigin, ringSeq k⟩ := by
  obtain ⟨horigin, hseq⟩ := ringLsu_link k
  unfold PacketInfo.event
  rw [horigin, hseq]
  rfl

/-- Both LSUs one after the other at the router next to the originator. -/
theorem lsu_flooding_sample : ∃ net, Exec (Step (floodReact ringLink)) ringNet
    [⟨smallEnv, ⟨false, ringLsu 0⟩⟩, ⟨smallEnv, ⟨false, ringLsu 1⟩⟩] net ∧
      net.log false = [⟨2, ringOrigin, ringSeq 0⟩, ⟨2, ringOrigin, ringSeq 1⟩] ∧
      (∀ b j seq, (net.log b).count ⟨j, ringOrigin, seq⟩ ≤ 1) ∧
      lsuFrames ringOrigin (net.node false) ≤ 4 * 2 * (5 + 4 * 2 ^ 32) := by
  have hforeign := (ringRouter_settled false).foreign
  obtain ⟨net₁, hs₁, hr₁⟩ := ringNet_first
  have hm : ⟨false, ringLsu 1⟩ ∈ net₁.inFlight :=
    hr₁.rest _ (List.mem_cons_of_mem _ List.mem_cons_self)
      (isCopy_ne (ringLsu_copy 1) (ringLsu_copy 0))
  obtain ⟨net₂, hs₂, hr₂⟩ := ring_step hm (ringLsu_copy 1) (by rw [hr₁.pw_router]; exact hforeign)
    (by rw [hr₁.num_interfaces]; decide) hr₁.ring_stores (by decide)
  have hrun := (Exec.nil.snoc hs₁).snoc hs₂
  obtain ⟨-, hordered⟩ := lsu_flooding (o := ringOrigin) hrun (fun _ => rfl) (by
    intro a ha _
    rcases List.mem_cons.1 ha with rfl | ha
    · rw [show Message.body _ = ringLsu 0 from rfl, ringLsu_count]
      decide
    · rw [List.mem_singleton.1 ha, show Message.body _ = ringLsu 1 from rfl, ringLsu_count]
      decide)
  obtain ⟨hcount, hframes⟩ := hordered fun b j => inOrder_arrived (by
    show InOrder [(ringLsu 0).event.seq, (ringLsu 1).event.seq]
    rw [ringLsu_event, ringLsu_event]
    unfold InOrder
    decide) b j ringOrigin
  refine ⟨net₂, hrun, ?_, hcount, hframes [ringSeq 0, ringSeq 1] ?_ false hforeign⟩
  · rw [hr₂.ring_log, hr₁.ring_log, Function.update_self, Function.update_self]
    rfl
  · intro a ha _
    rcases List.mem_cons.1 ha with rfl | ha
    · rw [show Message.body _ = ringLsu 0 from rfl, ringLsu_event]
      decide
    · rw [List.mem_singleton.1 ha, show Message.body _ = ringLsu 1 from rfl, ringLsu_event]
      decide

/-- A router with two interfaces on a cycle refloods one LSU twice, and the two LSUs of one router
go round the cycle for ever, at the cost of ever more frames. -/
theorem lsu_flooding_endless :
    (∃ as net, Exec (Step (floodReact ringLink)) ringNet as net ∧
      net.log true = [⟨0, ringOrigin, ringSeq 0⟩, ⟨1, ringOrigin, ringSeq 0⟩]) ∧
    ∀ n, ∃ as net, Exec (Step (floodReact ringLink)) ringNet as net ∧
      n ≤ (net.log true).count ⟨0, ringOrigin, ringSeq 0⟩ ∧
      n ≤ lsuFrames ringOrigin (net.node true) := by
  constructor
  · have hforeign := (ringRouter_settled true).foreign
    obtain ⟨net₁, hs₁, hr₁⟩ := ringNet_first
    have hnode : net₁.node true = ringRouter true := hr₁.node true (by decide)
    obtain ⟨m₀, hm₀, hc₀⟩ := hr₁.sent 1 (by decide) (by decide)
      (ringRouter_reaches false (by decide)) (true, 0) List.mem_cons_self
    obtain ⟨m₁, hm₁, hc₁⟩ := hr₁.sent 0 (by decide) (by decide)
      (ringRouter_reaches false (by decide)) (true, 1) List.mem_cons_self
    obtain ⟨seq₀, hstores₀, hseq₀⟩ := ringEntry_stores true 0
    obtain ⟨seq₁, hstores₁, hseq₁⟩ := ringEntry_stores true 1
    obtain ⟨net₂, hs₂, hr₂⟩ := ring_step hm₀ hc₀ (by rw [hnode]; exact hforeign)
      (by rw [hnode]; decide) (by rw [hnode]; exact hstores₀) hseq₀
    have hne : m₁ ≠ m₀ := by
      rintro rfl
      exact absurd (hc₁.interface.symm.trans hc₀.interface) (by decide)
    obtain ⟨net₃, hs₃, hr₃⟩ := ring_step (hr₂.rest m₁ hm₁ hne) hc₁
      (by rw [hr₂.pw_router, hnode]; exact hforeign) (by rw [hr₂.num_interfaces, hnode]; decide)
      (by rw [hr₂.interface 1 (by decide), hnode]; exact hstores₁) hseq₁
    refine ⟨_, net₃, ((Exec.nil.snoc hs₁).snoc hs₂).snoc hs₃, ?_⟩
    rw [hr₃.ring_log, hr₂.ring_log, hr₁.ring_log, Function.update_self, Function.update_self]
    rfl
  · intro n
    obtain ⟨as, net, hrun, hchasing, -⟩ := chase ringNet_chasing
    obtain ⟨as', net', hrun', -, hcount, hframes⟩ := chase_rounds hchasing n
    exact ⟨_, net', hrun.append hrun', hcount, hframes⟩

end BirRouter
