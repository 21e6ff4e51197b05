import BirRouter.Flooding

/-!
# Passing on an LSU

In a settled network every interface holds the LSAs of an originator already.  A further LSU of it
is passed on all the same if its number is not the one received last.

* `SameLsu` — an LSU in whatever headers; `Stores` — an entry with its LSAs;
* `pwospfOnreceiveLink_stored` — what the handler does with one more LSU of a stored originator;
* `relay_step` — the same in a network: the LSU leaves for every router that can be reached.
-/

set_option autoImplicit false

namespace BirRouter

open ByteLayout Trace Network

/-- The same LSU in a frame with other headers. -/
structure SameLsu (lsu pi : PacketInfo) : Prop where
  payload : pi.payload = lsu.payload
  ttl : pi.ipv4.ttl = lsu.ipv4.ttl

section SameLsu

variable {lsu pi : PacketInfo} (h : SameLsu lsu pi)

include h

theorem SameLsu.link_eq : pi.link = lsu.link := congrArg PwospfPacketLink.layout.dec h.payload

theorem SameLsu.lsu_eq : pi.lsu = lsu.lsu := by
  have hdrop : pi.packet.drop 66 = lsu.packet.drop 66 := by
    have hd := congrArg (List.drop 32) h.payload
    unfold PacketInfo.payload at hd
    rwa [List.drop_drop, List.drop_drop] at hd
  unfold PacketInfo.lsu PacketInfo.lsas
  rw [h.link_eq, hdrop]

theorem SameLsu.intact_eq : linkIntact pi = linkIntact lsu := by
  have hd : pi.packet.drop 34 = lsu.packet.drop 34 := h.payload
  unfold linkIntact
  rw [h.link_eq, hd, PacketInfo.packet_length, PacketInfo.packet_length, h.payload]

theorem SameLsu.relayed {pi' : PacketInfo} (h' : Relayed pi pi') : SameLsu lsu pi' :=
  ⟨h'.payload.trans h.payload, h'.ttl.trans h.ttl⟩

end SameLsu

/-- The entry of router `o` holds the LSAs `lsas`, from an LSU numbered `seq`. -/
def Stores (o : BitVec 32) (lsas : List PwospfLsa) (seq : BitVec 16)
    (neighbours : List PwospfListEntry) : Prop :=
  ∃ entry, entryOf neighbours o = some entry ∧ entry.lsu_lastcontents = .valid lsas ∧
    entry.lsu_lastseq = seq

/-- The LSU is intact, and of a router other than `r`. -/
structure ValidLsu (lsu : PacketInfo) (r : Router) : Prop where
  intact : linkIntact lsu = true
  count : 0 ≤ lsu.link.payloadCount
  ttl : ¬ lsu.ipv4.ttl < 1
  foreign : lsu.link.pwospf_header.router_id ≠ r.pw_router.router_id

theorem stores_recordLsu (env : Env) {pi : PacketInfo} {seq : BitVec 16}
    {l : List PwospfListEntry} (h : Stores pi.link.pwospf_header.router_id pi.lsu seq l) :
    Stores pi.link.pwospf_header.router_id pi.lsu pi.link.seq (recordLsu env pi l) := by
  obtain ⟨entry, hentry, hlsas, _⟩ := h
  have hsame : entry.record env pi.link pi.lsu = entry.refresh env pi.link := by
    refine if_pos ?_
    rw [hlsas]
    refine ⟨rfl, rfl, ?_⟩
    unfold compareLsus
    simp [LsuContents.lsas]
  refine ⟨entry.refresh env pi.link, ?_, hlsas, rfl⟩
  rw [entryOf_recordLsu, hentry, ← hsame]
  rfl

/-- Another LSU with the same LSAs is passed on unchanged. -/
theorem pwospfOnreceiveLink_stored (env : Env) {r : Router} {pi : PacketInfo} {seq : BitVec 16}
    (hvalid : ValidLsu pi r) (hseq : seq ≠ pi.link.seq)
    (hstores : Stores pi.link.pwospf_header.router_id pi.lsu seq
      (r.interface pi.interface).neighbours) :
    ∃ r', pwospfOnreceiveLink env r pi = some r' ∧ Refloods r pi ∧
      Refloods.Effect env r pi r' ∧ r.passedOn pi = pi ∧
      Stores pi.link.pwospf_header.router_id pi.lsu pi.link.seq
        (r'.interface pi.interface).neighbours := by
  have hstores' := stores_recordLsu env hstores
  obtain ⟨entry, hentry, _, hlast⟩ := hstores
  have hrefl : Refloods r pi := by
    refine ⟨hvalid.intact, hvalid.foreign, fun entry' hentry' hdup => hseq ?_⟩
    rw [hentry] at hentry'
    cases hentry'
    rw [← hlast]
    exact hdup.2
  obtain ⟨r', hr', heffect⟩ : ∃ r', pwospfOnreceiveLink env r pi = some r' ∧
      Refloods.Effect env r pi r' := pwospfOnreceiveLink_spec hrefl hvalid.count
  refine ⟨r', hr', hrefl, heffect, ?_, ?_⟩
  · unfold Router.passedOn
    rw [hentry]
  · rw [congrFun heffect.links.interface, Router.setNeighbours_self]
    exact hstores'

/-- There is a neighbour with a known MAC on the interface. -/
def Reaches (r : Router) (i : Nat) : Prop :=
  ∃ entry ∈ (r.interface i).neighbours, (arpGetcachebyip r.arp_cache entry.neighbour_ip).isSome

section Relay

variable {ι : Type} {link : ι → Nat → List (ι × Nat)} {lsu : PacketInfo} {a : ι} {r : Router}

/-- The LSU is in flight for interface `j` of router `a`. -/
structure IsCopy (lsu : PacketInfo) (a : ι) (j : Nat) (m : Message ι PacketInfo) : Prop where
  dest : m.dest = a
  interface : m.body.interface = j
  same : SameLsu lsu m.body

theorem ValidLsu.length (h : ValidLsu lsu r) : 66 ≤ lsu.packet.length := by
  have := linkIntact_length h.intact h.count
  omega

theorem ValidLsu.same {pi : PacketInfo} (h : ValidLsu lsu r) (hsame : SameLsu lsu pi) :
    ValidLsu pi r := by
  refine ⟨hsame.intact_eq.trans h.intact, ?_, ?_, ?_⟩
  · rw [hsame.link_eq]
    exact h.count
  · rw [hsame.ttl]
    exact h.ttl
  · rw [hsame.link_eq]
    exact h.foreign

theorem SameLsu.length {pi : PacketInfo} (h : SameLsu lsu pi) (hlen : 66 ≤ lsu.packet.length) :
    66 ≤ pi.packet.length := by
  rwa [PacketInfo.packet_length, h.payload, ← PacketInfo.packet_length]

/-- The frame with the LSU arrives wherever the link leads. -/
theorem SameLsu.arrives {pi : PacketInfo} (h : SameLsu lsu pi) (hlen : 66 ≤ lsu.packet.length)
    {i : Nat} {p : ι × Nat} (hp : p ∈ link a i) :
    ∃ m ∈ (⟨i, pi.packet⟩ : Sent).arrivals link a, IsCopy lsu p.1 p.2 m := by
  unfold Sent.arrivals
  rw [dif_pos (h.length hlen)]
  exact ⟨_, List.mem_map.2 ⟨p, hp, rfl⟩, rfl, rfl, h.payload, h.ttl⟩

/-- A reflooded LSU that is passed on unchanged goes out wherever a neighbour is known. -/
theorem Refloods.Effect.passes {env : Env} {pi : PacketInfo} {r' : Router}
    (heffect : Refloods.Effect env r pi r') (hsame : SameLsu lsu pi) (hvalid : ValidLsu pi r)
    (hout : r.passedOn pi = pi) {i : Nat} (hi : i < r.num_interfaces) (hne : i ≠ pi.interface)
    (hreach : Reaches r i) :
    ∃ pi', SameLsu lsu pi' ∧ ∃ new, r'.sent = r.sent ++ new ∧ ⟨i, pi'.packet⟩ ∈ new := by
  obtain ⟨entry, hentry, harp⟩ := hreach
  obtain ⟨reflooded, own, heq, hreflooded, _⟩ := heffect.sent
  obtain ⟨pi', hrelayed, hf⟩ := hreflooded.known hvalid.ttl i hi hne entry hentry harp
  rw [hout] at hrelayed
  exact ⟨pi', hsame.relayed hrelayed, _, heq, List.mem_append_left _ hf⟩

variable [DecidableEq ι] {net : Net ι Router PacketInfo LsuEvent} {j : Nat}
  {m : Message ι PacketInfo}

/-- The network after router `a` passed on the LSU it got in message `m`. -/
structure Relay (link : ι → Nat → List (ι × Nat)) (lsu : PacketInfo) (a : ι) (j : Nat)
    (m : Message ι PacketInfo) (net net' : Net ι Router PacketInfo LsuEvent) : Prop where
  node : ∀ b ≠ a, net'.node b = net.node b
  log : net'.log = Function.update net.log a (net.log a ++
    [⟨j, lsu.link.pwospf_header.router_id, lsu.link.seq⟩])
  num_interfaces : (net'.node a).num_interfaces = (net.node a).num_interfaces
  pw_router : (net'.node a).pw_router = (net.node a).pw_router
  arp_cache : (net'.node a).arp_cache = (net.node a).arp_cache
  interface : ∀ i ≠ j, (net'.node a).interface i = (net.node a).interface i
  stores : Stores lsu.link.pwospf_header.router_id lsu.lsu lsu.link.seq
    ((net'.node a).interface j).neighbours
  rest : ∀ m' ∈ net.inFlight, m' ≠ m → m' ∈ net'.inFlight
  sent : ∀ i < (net.node a).num_interfaces, i ≠ j → Reaches (net.node a) i → ∀ p ∈ link a i,
    ∃ m' ∈ net'.inFlight, IsCopy lsu p.1 p.2 m'
  frames : ∀ i < (net.node a).num_interfaces, i ≠ j → Reaches (net.node a) i →
    lsuFrames lsu.link.pwospf_header.router_id (net.node a) <
      lsuFrames lsu.link.pwospf_header.router_id (net'.node a)

/-- **Any LSU in flight that brings nothing new can be passed on.** -/
theorem relay_step (env : Env) {seq : BitVec 16} (hm : m ∈ net.inFlight) (hcopy : IsCopy lsu a j m)
    (hj : j < (net.node a).num_interfaces) (hvalid : ValidLsu lsu (net.node a))
    (hstores : Stores lsu.link.pwospf_header.router_id lsu.lsu seq
      ((net.node a).interface j).neighbours) (hseq : seq ≠ lsu.link.seq) :
    ∃ net', Step (floodReact link) net ⟨env, m⟩ net' ∧ Relay link lsu a j m net net' := by
  obtain ⟨rfl, rfl, hsame⟩ := hcopy
  have hlink := hsame.link_eq
  rw [← hlink, ← hsame.lsu_eq] at hstores
  rw [← hlink] at hseq
  obtain ⟨r', hr', hrefl, heffect, hout, hstores'⟩ :=
    pwospfOnreceiveLink_stored env (hvalid.same hsame) hseq hstores
  have hreact : floodReact link m.dest env (net.node m.dest) m.body = some
      { state := r'
        sent := (r'.sent.drop (net.node m.dest).sent.length).flatMap fun f => f.arrivals link m.dest
        events := [m.body.event] } := by
    unfold floodReact
    rw [if_pos hj, hr', Option.map_some, if_pos hrefl]
  obtain ⟨net', hstep, hnode, hlog, hsent, hrest⟩ := exists_step (a := ⟨env, m⟩) hm hreact
  have hself : net'.node m.dest = r' := by
    rw [hnode]
    exact Function.update_self ..
  refine ⟨net', hstep, ?_⟩
  constructor
  case node =>
    intro b hb
    rw [hnode]
    exact Function.update_of_ne hb ..
  case log =>
    rw [hlog, ← hlink]
    rfl
  case num_interfaces => rw [hself, heffect.links.num_interfaces]; rfl
  case pw_router => rw [hself, heffect.links.pw_router]; rfl
  case arp_cache => rw [hself, heffect.arp_cache]
  case interface =>
    intro i hi
    rw [hself, congrFun heffect.links.interface, Router.setNeighbours_of_ne _ _ _ hi]
  case stores =>
    rw [hself, ← hlink, ← hsame.lsu_eq]
    exact hstores'
  case rest => exact hrest
  case sent =>
    intro i hi hne hreach p hp
    obtain ⟨pi', hsame', new, heq, hf⟩ :=
      heffect.passes hsame (hvalid.same hsame) hout hi hne hreach
    obtain ⟨m', hm', hcopy'⟩ := hsame'.arrives hvalid.length hp
    refine ⟨m', hsent m' (List.mem_flatMap.2 ⟨_, ?_, hm'⟩), hcopy'⟩
    rw [heq, List.drop_left]
    exact hf
  case frames =>
    intro i hi hne hreach
    obtain ⟨pi', hsame', new, heq, hf⟩ :=
      heffect.passes hsame (hvalid.same hsame) hout hi hne hreach
    unfold lsuFrames
    rw [hself, heq, List.countP_append]
    refine Nat.lt_add_of_pos_right (List.countP_pos_iff.2 ⟨_, hf, decide_eq_true ⟨?_, ?_⟩⟩)
    · exact hsame'.length hvalid.length
    · exact congrArg (·.pwospf_header.router_id) hsame'.link_eq

end Relay

end BirRouter
