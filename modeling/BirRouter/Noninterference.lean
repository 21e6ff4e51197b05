import BirRouter.Expiry

/-!
# Fields nobody has written (`pwospf.c`)

A neighbour entry made by an LSU has no `helloint` and `timestamp` of its own, one made by a HELLO no
`lsu_lastseq` and `lsu_timestamp`: they hold what was on the stack.

* `PwospfListEntry.erase` — which fields an entry's state says were written: the first two if it is
  an immediate neighbour, the others if it has contents;
* `pwospfOnreceive_erase`, `pwospfThreadRound_erase` — a handler reads no other fields: up to them, its
  result is the same;
* `garbage_unused` — so two runs that differ in the garbage only decide the same.
-/

set_option autoImplicit false

namespace BirRouter

open Trace

/-! ## Written fields -/

/-- The entry with zeros in the fields that were perhaps never written. -/
def PwospfListEntry.erase (entry : PwospfListEntry) : PwospfListEntry :=
  { entry with
    helloint := if entry.immediate_neighbour = 0 then 0 else entry.helloint
    timestamp := if entry.immediate_neighbour = 0 then 0 else entry.timestamp
    lsu_lastseq := bif entry.lsu_lastcontents.present then entry.lsu_lastseq else 0
    lsu_timestamp := bif entry.lsu_lastcontents.present then entry.lsu_timestamp else 0 }

def Router.erase (r : Router) : Router :=
  { r with interface := fun i =>
      { r.interface i with neighbours := (r.interface i).neighbours.map PwospfListEntry.erase } }

/-- The same call with zeros on the stack. -/
def Env.erase (env : Env) : Env := { env with newneighbour := ⟨0, 0, 0, 0, 0, 0, .null, 0⟩ }

namespace PwospfListEntry

variable (entry : PwospfListEntry)

theorem erase_erase : entry.erase.erase = entry.erase := by
  by_cases himm : entry.immediate_neighbour = 0 <;>
    by_cases hpres : entry.lsu_lastcontents.present = true <;> simp [erase, himm, hpres]

/-- The expiry condition reads no other fields. -/
theorem expired_erase (now : Nat) : entry.erase.Expired now ↔ entry.Expired now := by
  by_cases himm : entry.immediate_neighbour = 0 <;>
    by_cases hpres : entry.lsu_lastcontents.present = true <;> simp [Expired, erase, himm, hpres]

/-- Nor does the check for duplicates. -/
theorem duplicate_erase (link : PwospfPacketLink) :
    entry.erase.Duplicate link ↔ entry.Duplicate link := by
  by_cases hpres : entry.lsu_lastcontents.present = true <;> simp [Duplicate, erase, hpres]

theorem release_erase : entry.erase.release = entry.release.erase := by
  cases hc : entry.lsu_lastcontents <;> simp [erase, release, hc, LsuContents.present]

theorem greet_erase (env : Env) (hello : PwospfPacketHello) :
    entry.erase.greet env hello = (entry.greet env hello).erase := rfl

theorem refresh_erase (env : Env) (link : PwospfPacketLink) :
    (entry.erase.refresh env link).erase = (entry.refresh env link).erase := by
  by_cases himm : entry.immediate_neighbour = 0 <;> simp [erase, refresh, himm]

theorem learn_erase (env : Env) (link : PwospfPacketLink) (payload : List PwospfLsa) :
    (entry.erase.learn env link payload).erase = (entry.learn env link payload).erase := by
  by_cases himm : entry.immediate_neighbour = 0 <;> simp [erase, learn, refresh, himm]

end PwospfListEntry

theorem newLinkEntry_erase (env : Env) (link : PwospfPacketLink) (src_ip : AddrIp)
    (payload : List PwospfLsa) :
    newLinkEntry env.erase link src_ip payload = (newLinkEntry env link src_ip payload).erase := rfl

theorem newHelloEntry_erase (env : Env) (hello : PwospfPacketHello) (src_ip : AddrIp) :
    newHelloEntry env.erase hello src_ip = (newHelloEntry env hello src_ip).erase := rfl

/-! ## The queues -/

namespace Router

variable (r : Router)

theorem neighbours_erase (i : Nat) :
    (r.erase.interface i).neighbours =
      (r.interface i).neighbours.map PwospfListEntry.erase := rfl

theorem setNeighbours_erase (j : Nat) (l : List PwospfListEntry) :
    r.erase.setNeighbours j (l.map PwospfListEntry.erase) = (r.setNeighbours j l).erase := by
  unfold setNeighbours erase
  congr 1
  funext i
  by_cases hij : i = j
  · subst hij
    simp only [Function.update_self]
  · simp only [Function.update_of_ne hij]

theorem erase_erase : r.erase.erase = r.erase := by
  unfold erase
  simp only [List.map_map]
  congr
  funext i
  congr 1
  refine List.map_congr_left fun entry _ => ?_
  exact entry.erase_erase

/-- A queue may be replaced by one that is the same up to the fields that were never written. -/
theorem setNeighbours_erase_congr {j : Nat} {l l' : List PwospfListEntry}
    (h : l'.map PwospfListEntry.erase = l.map PwospfListEntry.erase) :
    (r.erase.setNeighbours j l').erase = (r.setNeighbours j l).erase := by
  rw [← setNeighbours_erase, ← setNeighbours_erase, erase_erase, h]

end Router

/-! ## Sending -/

theorem gather_erase (r : Router) : gather r.erase = gather r := by
  have hone : gatherInterface r.erase = gatherInterface r := by
    funext g i
    exact List.foldl_map
  unfold gather
  rw [hone]
  rfl

theorem djikstraRecompute_erase (env : Env) (r : Router) :
    djikstraRecompute env r.erase = (djikstraRecompute env r).erase := by
  have htable : newTable env r.erase = newTable env r := by
    unfold newTable
    rw [gather_erase]
    rfl
  unfold djikstraRecompute
  rw [htable]
  rfl

theorem getTopology_erase (r : Router) : getTopology r.erase = getTopology r := by
  have hone : ∀ (topology : List PwospfLsa) (i : Nat),
      topologyOf topology (r.erase.interface i) = topologyOf topology (r.interface i) := by
    intro topology i
    exact List.foldl_map
  unfold getTopology
  simp only [hone]
  rfl

theorem sendLsaTo_erase (topology : List PwospfLsa) (i : Nat) (r : Router)
    (entry : PwospfListEntry) :
    sendLsaTo topology i r.erase entry.erase = (sendLsaTo topology i r entry).erase := by
  unfold sendLsaTo
  show (if entry.immediate_neighbour = 1 then _ else _) = _
  split
  · rfl
  · rfl

theorem sendPwospfLsaPacket_erase (env : Env) (r : Router) :
    sendPwospfLsaPacket env r.erase = (sendPwospfLsaPacket env r).erase := by
  have hone : ∀ (topology : List PwospfLsa) (r : Router) (i : Nat),
      (r.erase.interface i).neighbours.foldl (sendLsaTo topology i) r.erase =
        ((r.interface i).neighbours.foldl (sendLsaTo topology i) r).erase := by
    intro topology r i
    rw [Router.neighbours_erase, List.foldl_map]
    exact List.foldl_hom Router.erase fun r entry => sendLsaTo_erase topology i r entry
  have hloop : ∀ topology : List PwospfLsa,
      (List.range r.num_interfaces).foldl
          (fun r i => (r.interface i).neighbours.foldl (sendLsaTo topology i) r) r.erase =
        ((List.range r.num_interfaces).foldl
          (fun r i => (r.interface i).neighbours.foldl (sendLsaTo topology i) r) r).erase := by
    intro topology
    exact List.foldl_hom Router.erase fun r i => hone topology r i
  unfold sendPwospfLsaPacket
  simp only
  rw [getTopology_erase]
  split
  · rfl
  · exact congrArg (fun r : Router => { r with last_lsu := env.now }) (hloop (getTopology r))

theorem announce_erase (env : Env) (r : Router) :
    announce env.erase r.erase = (announce env r).erase := by
  have hsend := sendPwospfLsaPacket_erase env (djikstraRecompute env r)
  rw [← djikstraRecompute_erase] at hsend
  exact hsend

theorem sendPwospfHelloPacket_erase (r : Router) :
    sendPwospfHelloPacket r.erase = (sendPwospfHelloPacket r).erase :=
  List.foldl_hom Router.erase fun _ _ => rfl

theorem pwospfRefloodTo_erase (env : Env) (intf : Nat) (s : Router × PacketInfo) (dest : AddrIp) :
    pwospfRefloodTo env.erase intf (s.1.erase, s.2) dest =
      ((pwospfRefloodTo env intf s dest).1.erase, (pwospfRefloodTo env intf s dest).2) := by
  obtain ⟨r, pi⟩ := s
  have hcache : arpGetcachebyip r.erase.arp_cache dest = arpGetcachebyip r.arp_cache dest := rfl
  have hip : (r.erase.interface intf).ip = (r.interface intf).ip := rfl
  unfold pwospfRefloodTo
  simp only [hcache, hip]
  cases arpGetcachebyip r.arp_cache dest with
  | none => rfl
  | some arp =>
    generalize PacketIp4.updateChecksum _ = ip
    by_cases httl : ip.ttl < 1
    · simp only [if_pos httl]
    · simp only [if_neg httl]
      rfl

theorem refloodTo_erase (env : Env) : ∀ (targets : List (Nat × AddrIp)) (s : Router × PacketInfo),
    targets.foldl (fun s t => pwospfRefloodTo env.erase t.1 s t.2) (s.1.erase, s.2) =
      ((targets.foldl (fun s t => pwospfRefloodTo env t.1 s t.2) s).1.erase,
        (targets.foldl (fun s t => pwospfRefloodTo env t.1 s t.2) s).2)
  | [], s => rfl
  | t :: targets, s => by
    rw [List.foldl_cons, List.foldl_cons, pwospfRefloodTo_erase]
    exact refloodTo_erase env targets _

theorem pwospfReflood_erase (env : Env) (r : Router) (pi : PacketInfo) (excluded_ip : AddrIp)
    (locked : Nat) :
    (pwospfReflood env.erase r.erase pi excluded_ip locked).1 =
      (pwospfReflood env r pi excluded_ip locked).1.erase := by
  have htargets : refloodTargets r.erase excluded_ip locked = refloodTargets r excluded_ip locked := by
    unfold refloodTargets
    refine List.flatMap_congr fun i _ => ?_
    rw [Router.neighbours_erase, List.filter_map, List.map_map]
    rfl
  rw [pwospfReflood_eq, pwospfReflood_eq, htargets]
  exact congrArg Prod.fst (refloodTo_erase env _ (r, pi))

/-! ## Handlers -/

theorem getD_map_of_findIdx? {l : List PwospfListEntry} {f : PwospfListEntry → Bool} {n : Nat}
    (h : l.findIdx? f = some n) (a b : PwospfListEntry) :
    (l.map PwospfListEntry.erase).getD n b = (l.getD n a).erase := by
  obtain ⟨hn, -, -⟩ := List.findIdx?_eq_some_iff_getElem.1 h
  simp [List.getD_eq_getElem?_getD, hn]

theorem pwospfOnreceiveHello_erase (env : Env) (r : Router) (pi : PacketInfo) :
    pwospfOnreceiveHello env.erase r.erase pi = (pwospfOnreceiveHello env r pi).erase := by
  have hfind : ((r.interface pi.interface).neighbours.map PwospfListEntry.erase).findIdx?
      (fun entry => entry.neighbour_ip = pi.ipv4.src_ip) =
        (r.interface pi.interface).neighbours.findIdx?
          fun entry => entry.neighbour_ip = pi.ipv4.src_ip := List.findIdx?_map ..
  have haccepted : helloAccepted (r.erase.interface pi.interface) pi =
      helloAccepted (r.interface pi.interface) pi := rfl
  unfold pwospfOnreceiveHello
  simp only [haccepted, Router.neighbours_erase, hfind]
  split
  · rfl
  · cases hn : (r.interface pi.interface).neighbours.findIdx?
        fun entry => entry.neighbour_ip = pi.ipv4.src_ip with
    | none =>
      have hadd := r.setNeighbours_erase pi.interface
        ((r.interface pi.interface).neighbours ++ [newHelloEntry env pi.hello pi.ipv4.src_ip])
      rw [List.map_append, List.map_singleton, ← newHelloEntry_erase] at hadd
      exact (congrArg (announce env.erase) hadd).trans (announce_erase ..)
    | some n =>
      simp only [getD_map_of_findIdx? hn env.newneighbour]
      generalize (r.interface pi.interface).neighbours.getD n env.newneighbour = entry
      have hset := r.setNeighbours_erase pi.interface
        ((r.interface pi.interface).neighbours.set n (entry.greet env pi.hello))
      rw [List.map_set, ← entry.greet_erase] at hset
      show (if entry.immediate_neighbour = 0 then _ else _) = _
      split
      · exact (congrArg (announce env.erase) hset).trans (announce_erase ..)
      · exact hset

/-- An LSU of a router in the queue. -/
theorem onreceiveLinkKnown_erase (env : Env) (r : Router) (pi : PacketInfo) (n : Nat)
    (neighbour : PwospfListEntry) :
    (onreceiveLinkKnown env.erase r.erase pi n neighbour.erase).map Router.erase =
      (onreceiveLinkKnown env r pi n neighbour).map Router.erase := by
  have hset : ∀ (r : Router) {entry entry' : PwospfListEntry}, entry'.erase = entry.erase →
      (r.erase.setNeighbours pi.interface
        ((r.erase.interface pi.interface).neighbours.set n entry')).erase =
      (r.setNeighbours pi.interface
        ((r.interface pi.interface).neighbours.set n entry)).erase := by
    intro r entry entry' heq
    refine r.setNeighbours_erase_congr ?_
    rw [List.map_set, List.map_set, heq, Router.neighbours_erase, List.map_map]
    congr 1
    exact List.map_congr_left fun e _ => e.erase_erase
  unfold onreceiveLinkKnown
  simp only [neighbour.duplicate_erase]
  by_cases hdup : neighbour.Duplicate pi.link
  · rw [if_pos hdup, if_pos hdup, Option.map_some, Option.map_some, Router.erase_erase]
  · rw [if_neg hdup, if_neg hdup, pwospfReflood_erase]
    have hip : neighbour.erase.neighbour_ip = neighbour.neighbour_ip := rfl
    have hstored : neighbour.erase.lsu_lastcontents = neighbour.lsu_lastcontents := rfl
    rw [hip, hstored]
    generalize (pwospfReflood env r pi neighbour.neighbour_ip pi.interface).1 = r'
    split
    · rfl
    · split
      · exact congrArg some (hset r' (neighbour.refresh_erase env pi.link))
      · refine congrArg some ?_
        have hlearn := hset r' (neighbour.learn_erase env pi.link
          (complete pi.link.pwospf_header.router_id (pi.lsas pi.link.payloadCount.toNat)))
        exact (announce_erase ..).symm.trans
          ((congrArg (announce env.erase) hlearn).trans (announce_erase ..))

theorem getneighbourfromidunsafe_erase (l : List PwospfListEntry) (id : BitVec 32) :
    getneighbourfromidunsafe (l.map PwospfListEntry.erase) id = getneighbourfromidunsafe l id :=
  List.findIdx?_map ..

/-- An LSU of a router that is not. -/
theorem onreceiveLinkNew_erase (env : Env) (r : Router) (pi : PacketInfo) :
    onreceiveLinkNew env.erase r.erase pi = (onreceiveLinkNew env r pi).map Router.erase := by
  unfold onreceiveLinkNew
  simp only
  split
  · rfl
  · generalize hentry : newLinkEntry env pi.link pi.ipv4.src_ip
      (complete pi.link.pwospf_header.router_id (pi.lsas pi.link.payloadCount.toNat)) = entry
    have hqueue : (r.erase.interface pi.interface).neighbours ++
        [newLinkEntry env.erase pi.link pi.ipv4.src_ip
          (complete pi.link.pwospf_header.router_id (pi.lsas pi.link.payloadCount.toNat))] =
        ((r.interface pi.interface).neighbours ++ [entry]).map PwospfListEntry.erase := by
      rw [newLinkEntry_erase, hentry, List.map_append]
      rfl
    rw [hqueue, getneighbourfromidunsafe_erase, Router.setNeighbours_erase]
    refine congrArg some ?_
    rw [← announce_erase]
    refine congrArg (announce env.erase) ?_
    cases hn : getneighbourfromidunsafe ((r.interface pi.interface).neighbours ++ [entry])
        pi.link.pwospf_header.router_id with
    | none => rfl
    | some n =>
      simp only [getD_map_of_findIdx? hn entry]
      exact pwospfReflood_erase ..

theorem pwospfOnreceiveLink_erase (env : Env) (r : Router) (pi : PacketInfo) :
    (pwospfOnreceiveLink env.erase r.erase pi).map Router.erase =
      (pwospfOnreceiveLink env r pi).map Router.erase := by
  have hid : r.erase.pw_router = r.pw_router := rfl
  have hsome : (some r.erase).map Router.erase = (some r).map Router.erase :=
    congrArg some r.erase_erase
  unfold pwospfOnreceiveLink
  simp only [hid, Router.neighbours_erase, getneighbourfromidunsafe_erase]
  split
  · exact hsome
  · split
    · exact hsome
    · cases hn : getneighbourfromidunsafe (r.interface pi.interface).neighbours
          pi.link.pwospf_header.router_id with
      | none =>
        simp only
        rw [onreceiveLinkNew_erase, Option.map_map]
        congr 1
        funext r'
        exact r'.erase_erase
      | some n =>
        simp only [getD_map_of_findIdx? hn env.newneighbour]
        exact onreceiveLinkKnown_erase ..

theorem pwospfOnreceive_erase (env : Env) (r : Router) (pi : PacketInfo) :
    (pwospfOnreceive env.erase r.erase pi).map Router.erase =
      (pwospfOnreceive env r pi).map Router.erase := by
  have hid : r.erase.pw_router = r.pw_router := rfl
  have hsome : (some r.erase).map Router.erase = (some r).map Router.erase :=
    congrArg some r.erase_erase
  unfold pwospfOnreceive
  simp only [hid]
  split
  · exact hsome
  · split
    · exact hsome
    · split
      · exact hsome
      · split
        · split
          · exact congrArg some ((congrArg Router.erase (pwospfOnreceiveHello_erase ..)).trans
              (Router.erase_erase _))
          · exact hsome
        · split
          · split
            · exact pwospfOnreceiveLink_erase ..
            · exact hsome
          · exact hsome

/-! ## Rounds of the thread -/

theorem removeWithRouterid_erase (id : BitVec 32) (l : List PwospfListEntry) :
    removeWithRouterid id (l.map PwospfListEntry.erase) =
      (removeWithRouterid id l).map PwospfListEntry.erase := by
  rw [removeWithRouterid_eq, removeWithRouterid_eq]
  exact Sweep.sweep_map ..

theorem removeall_erase (r : Router) (id : BitVec 32) :
    removeallneighbourswithrouterid r.erase id = (removeallneighbourswithrouterid r id).erase := by
  refine List.foldl_hom Router.erase fun r j => ?_
  rw [Router.neighbours_erase, removeWithRouterid_erase, Router.setNeighbours_erase]

/-- The loop's state. -/
def eraseLoop (s : Router × Bool) : Router × Bool := (s.1.erase, s.2)

theorem expireOne_erase (env : Env) (j i : Nat) (s : Router × Bool) :
    expireOne env.erase j i (eraseLoop s) = eraseLoop (expireOne env j i s) := by
  unfold expireOne eraseLoop
  simp only [Router.neighbours_erase, List.getElem?_map]
  cases (s.1.interface j).neighbours[i]? with
  | none => rfl
  | some entry =>
    have hnow : env.erase.now = env.now := rfl
    simp only [Option.map_some, entry.expired_erase, hnow]
    by_cases hexpired : entry.Expired env.now
    · rw [if_pos hexpired, if_pos hexpired, ← removeall_erase, ← Router.setNeighbours_erase,
        List.map_set, ← entry.release_erase]
      rfl
    · rw [if_neg hexpired, if_neg hexpired]

theorem expirePass_erase (env : Env) (r : Router) :
    expirePass env.erase r.erase = (expirePass env r).erase := by
  have hqueue : ∀ (s : Router × Bool) (j : Nat),
      (List.range ((eraseLoop s).1.interface j).neighbours.length).foldl
          (fun s i => expireOne env.erase j i s) (eraseLoop s) =
        eraseLoop ((List.range (s.1.interface j).neighbours.length).foldl
          (fun s i => expireOne env j i s) s) := by
    intro s j
    have hlen : ((eraseLoop s).1.interface j).neighbours.length =
        (s.1.interface j).neighbours.length := List.length_map ..
    rw [hlen]
    exact List.foldl_hom eraseLoop fun s (i : Nat) => expireOne_erase env j i s
  have hpass : (List.range r.num_interfaces).foldl
      (fun (s : Router × Bool) j => (List.range (s.1.interface j).neighbours.length).foldl
        (fun s i => expireOne env.erase j i s) s) (eraseLoop (r, false)) =
      eraseLoop ((List.range r.num_interfaces).foldl
        (fun (s : Router × Bool) j => (List.range (s.1.interface j).neighbours.length).foldl
          (fun s i => expireOne env j i s) s) (r, false)) :=
    List.foldl_hom eraseLoop hqueue
  unfold expirePass
  simp only
  rw [show (r.erase, false) = eraseLoop (r, false) from rfl,
    show r.erase.num_interfaces = r.num_interfaces from rfl, hpass]
  generalize (List.range r.num_interfaces).foldl _ _ = s
  show (if s.2 then announce env.erase s.1.erase else s.1.erase) = _
  split
  · exact announce_erase ..
  · rfl

theorem pwospfThreadRound_erase (env : Env) (r : Router) :
    pwospfThreadRound env.erase r.erase = (pwospfThreadRound env r).erase := by
  unfold pwospfThreadRound
  simp only
  rw [sendPwospfHelloPacket_erase, expirePass_erase]
  show (if (env.now : Int) - (expirePass env (sendPwospfHelloPacket r)).last_lsu > lsuint then
    sendPwospfLsaPacket env _ else _) = _
  split
  · exact sendPwospfLsaPacket_erase ..
  · rfl

/-! ## Runs -/

inductive PwospfEvent where
  | packet (env : Env) (pi : PacketInfo)
  | round (env : Env)

/-- The event without the garbage. -/
def PwospfEvent.erase : PwospfEvent → PwospfEvent
  | .packet env pi => .packet env.erase pi
  | .round env => .round env.erase

/-- Packets and rounds, one at a time, until the process dies. -/
def pwospfStep (r : Router) : PwospfEvent → Option Router
  | .packet env pi => pwospfOnreceive env r pi
  | .round env => some (pwospfThreadRound env r)

def pwospfRun (r : Router) (events : List PwospfEvent) : Option Router :=
  events.foldlM pwospfStep r

/-- **Step lemma**: up to what was never written, a step depends on the state and the event up to what
was never written. -/
theorem pwospfStep_erase (r : Router) (e : PwospfEvent) :
    (pwospfStep r.erase e.erase).map Router.erase = (pwospfStep r e).map Router.erase := by
  cases e with
  | packet env pi => exact pwospfOnreceive_erase env r pi
  | round env =>
    exact congrArg some ((congrArg Router.erase (pwospfThreadRound_erase env r)).trans
      (Router.erase_erase _))

/-- What the router knows of a neighbour. -/
def PwospfListEntry.known (entry : PwospfListEntry) : BitVec 32 × AddrIp × Int × LsuContents :=
  (entry.neighbour_id, entry.neighbour_ip, entry.immediate_neighbour, entry.lsu_lastcontents)

/-- The same neighbours in every queue, the same routes in software and hardware, and the same frames
sent and waiting to be. -/
structure SameDecisions (r r' : Router) : Prop where
  neighbours : ∀ i, (r.interface i).neighbours.map PwospfListEntry.known =
    (r'.interface i).neighbours.map PwospfListEntry.known
  ip_table : r.ip_table = r'.ip_table
  nf : r.nf = r'.nf
  sent : r.sent = r'.sent
  iparp_buffer : r.iparp_buffer = r'.iparp_buffer

theorem sameDecisions_of_erase {r r' : Router} (h : r.erase = r'.erase) : SameDecisions r r' := by
  have hknown : ∀ (r : Router) (i : Nat), (r.erase.interface i).neighbours.map PwospfListEntry.known =
      (r.interface i).neighbours.map PwospfListEntry.known := by
    intro r i
    rw [Router.neighbours_erase, List.map_map]
    rfl
  refine ⟨fun i => ?_, ?_, ?_, ?_, ?_⟩
  · rw [← hknown, h, hknown]
  · show r.erase.ip_table = r'.erase.ip_table
    rw [h]
  · show r.erase.nf = r'.erase.nf
    rw [h]
  · show r.erase.sent = r'.erase.sent
    rw [h]
  · show r.erase.iparp_buffer = r'.erase.iparp_buffer
    rw [h]

/-- **No decision depends on fields nobody has written.**  Two runs on the same packets and rounds at
the same times, with whatever on the stack when they make neighbour entries, end in the death of the
process both, or know, have sent and route the same. -/
theorem garbage_unused (r : Router) {events events' : List PwospfEvent}
    (h : events.map PwospfEvent.erase = events'.map PwospfEvent.erase) :
    Option.Rel SameDecisions (pwospfRun r events) (pwospfRun r events') := by
  have hruns : (pwospfRun r events).map Router.erase = (pwospfRun r events').map Router.erase := by
    refine foldlM_map_congr ?_ rfl h
    intro s t a b hst hab
    rw [← pwospfStep_erase s, ← pwospfStep_erase t, hst, hab]
  cases hrun : pwospfRun r events with
  | none =>
    rw [hrun] at hruns
    rw [Option.map_eq_none_iff.1 hruns.symm]
    exact .none
  | some s =>
    rw [hrun] at hruns
    obtain ⟨t, ht, heq⟩ := Option.map_eq_some_iff.1 hruns.symm
    rw [ht]
    exact .some (sameDecisions_of_erase heq.symm)

/-! A HELLO, an LSU and a round at a hundred seconds, with zeros on the stack and with something
else. -/

def garbageEnv (now : Nat) (n : BitVec 16) : Env :=
  { smallEnv with now := now, newneighbour := ⟨7, 7, n, n.toNat, 7, n, .null, n.toNat⟩ }

def garbageEvents (n : BitVec 16) : List PwospfEvent :=
  [.packet (garbageEnv 0 n) smallHello, .packet (garbageEnv 1 n) farLsu, .round (garbageEnv 100 n)]

theorem garbage_unused_sample :
    Option.Rel SameDecisions (pwospfRun smallReceiver (garbageEvents 0))
      (pwospfRun smallReceiver (garbageEvents 9)) :=
  garbage_unused smallReceiver rfl

end BirRouter
