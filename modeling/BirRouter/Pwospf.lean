import BirRouter.Arp
import BirRouter.Djikstra
import BirRouter.IpHeader

/-!
# PWOSPF (`pwospf.c`)

The link state protocol: HELLOs keep the list of neighbours on each interface, link state updates
(LSUs) fill their databases, are reflooded to the other neighbours, and lead to new routes and a
new LSU of the router's own.

* `pwospfOnreceive`, `pwospfOnreceiveHello`, `pwospfOnreceiveLink` — the receiving side.  A handler
  returns `none` where the process dies.
* `getTopology`, `sendPwospfLsaPacket` — the sending side.
* `pwospfThreadRound` — one round of `pwospf_thread`, with `expirePass` for the neighbour queues.
-/

set_option autoImplicit false

namespace BirRouter

open ByteLayout Distinct

/-! ## Headers -/

/-- `generate_pwospf_link_header` with the sequence number `hid`, in front of the LSAs. -/
def generatePwospfLinkHeader (hid : BitVec 16) (rid aid : BitVec 32) (lsas : List PwospfLsa)
    (len : Nat) : PwospfPacketLink :=
  let header : PwospfPacket :=
    { version := ospfVersion
      type := ospfTypeLink
      len := htons (BitVec.ofNat 16 len)
      router_id := rid
      area_id := aid
      checksum := 0
      autotype := 0
      auth_type := 0
      auth_data := 0 }
  let link : PwospfPacketLink :=
    { pwospf_header := header
      seq := htons hid
      ttl := htons 64
      advert := htonl (BitVec.ofNat 32 lsas.length) }
  let checksum :=
    generatechecksum (PwospfPacketLink.layout.enc link ++ PwospfLsa.layout.encs lsas)
  { link with pwospf_header := { header with checksum := checksum } }

/-- `HELLOINT`. -/
def helloint : BitVec 16 := 5

/-- `generate_pwospf_hello_header`. -/
def generatePwospfHelloHeader (rid aid netmask : BitVec 32) : PwospfPacketHello :=
  let header : PwospfPacket :=
    { version := ospfVersion
      type := ospfTypeHello
      len := htons 32
      router_id := rid
      area_id := aid
      checksum := 0
      autotype := 0
      auth_type := 0
      auth_data := 0 }
  let hello : PwospfPacketHello :=
    { pwospf_header := header
      netmask := netmask
      helloint := htons helloint
      padding := 0 }
  let checksum := generatechecksum (PwospfPacketHello.layout.enc hello)
  { hello with pwospf_header := { header with checksum := checksum } }

/-! ## Sending HELLOs -/

/-- The frame `send_pwospf_hello_packet` puts together for an interface. -/
def helloFrame (r : Router) (i : Nat) : PacketInfo :=
  let f := r.interface i
  PacketInfo.ofParts ⟨AddrMac.broadcast, f.mac, htons ethIpType⟩
    (generateIpv4Header f.ip 32 ipTypeOspf allSPFRouters)
    (PwospfPacketHello.layout.enc
      (generatePwospfHelloHeader r.pw_router.router_id 0 f.subnet_mask))
    i

/-- `send_pwospf_hello_packet`. -/
def sendPwospfHelloPacket (r : Router) : Router :=
  (List.range r.num_interfaces).foldl (fun r i => r.output i (helloFrame r i).packet) r

/-! ## Sending LSUs -/

/-- The LSA of an interface, with router id 0 for the link itself. -/
def Interface.lsa (f : Interface) (router_id : BitVec 32) : PwospfLsa :=
  ⟨f.subnet, f.subnet_mask, router_id⟩

/-- The entries of `get_topology` for one interface. -/
def topologyOf (topology : List PwospfLsa) (f : Interface) : List PwospfLsa :=
  f.neighbours.foldl
    (fun topology entry =>
      if entry.immediate_neighbour ≠ 0 then addNew topology (f.lsa entry.neighbour_id)
      else topology)
    (addNew topology (f.lsa 0))

/-- `get_topology`. -/
def getTopology (r : Router) : List PwospfLsa :=
  (List.range r.num_interfaces).foldl (fun topology i => topologyOf topology (r.interface i)) []

/-- The frame `send_pwospf_lsa_packet` puts together for a neighbour. -/
def lsaFrame (r : Router) (topology : List PwospfLsa) (i : Nat) (entry : PwospfListEntry) :
    PacketInfo :=
  let lsa_packet_length := 32 + topology.length * 12
  let f := r.interface i
  PacketInfo.ofParts ⟨AddrMac.broadcast, f.mac, htons ethIpType⟩
    (generateIpv4Header f.ip lsa_packet_length ipTypeOspf entry.neighbour_ip)
    (PwospfPacketLink.layout.enc
        (generatePwospfLinkHeader r.hid r.pw_router.router_id 0 topology lsa_packet_length) ++
      PwospfLsa.layout.encs topology)
    i

/-- One neighbour of the sending loop; every frame takes the next sequence number. -/
def sendLsaTo (topology : List PwospfLsa) (i : Nat) (r : Router) (entry : PwospfListEntry) :
    Router :=
  if entry.immediate_neighbour = 1 then
    { r.output i (lsaFrame r topology i entry).packet with hid := r.hid + 1 }
  else r

/-- `send_pwospf_lsa_packet`. -/
def sendPwospfLsaPacket (env : Env) (r : Router) : Router :=
  let topology := getTopology r
  if topology = [] then r
  else
    let r := (List.range r.num_interfaces).foldl
      (fun r i => (r.interface i).neighbours.foldl (sendLsaTo topology i) r) r
    { r with last_lsu := env.now }

/-! ## Reflooding -/

/-- `pwospf_reflood_to`: the packet is readdressed in place and sent or queued as it is. -/
def pwospfRefloodTo (env : Env) (intf : Nat) (s : Router × PacketInfo) (dest : AddrIp) :
    Router × PacketInfo :=
  let (r, pi) := s
  let f := r.interface intf
  let ip := { pi.ipv4 with dst_ip := dest, src_ip := f.ip }
  match arpGetcachebyip r.arp_cache dest with
  | some arp_dest =>
    let ip := ip.updateChecksum
    let pi := pi.setIpv4 ip
    if ip.ttl < 1 then (r, pi)
    else r.ethernetPacketSend intf arp_dest.mac f.mac (htons ethIpType) pi
  | none =>
    let pi := pi.setIpv4 ip
    (r.arpQueueIppacket env pi intf dest, pi)

/-- `pwospf_reflood_packetpartiallyunsafe`: to every entry of every interface, on the receiving
interface `locked` only to those with another address than the excluded neighbour. -/
def pwospfReflood (env : Env) (r : Router) (pi : PacketInfo) (excluded_ip : AddrIp)
    (locked : Nat) : Router × PacketInfo :=
  (List.range r.num_interfaces).foldl
    (fun s i => (r.interface i).neighbours.foldl
      (fun s entry =>
        if i ≠ locked ∨ entry.neighbour_ip ≠ excluded_ip then
          pwospfRefloodTo env i s entry.neighbour_ip
        else s) s)
    (r, pi)

/-! ## Receiving LSUs -/

/-- The LSU header of a frame. -/
def PacketInfo.link (pi : PacketInfo) : PwospfPacketLink :=
  PwospfPacketLink.layout.load 34 pi.packet

/-- `payload_count`, a signed number. -/
def PwospfPacketLink.payloadCount (link : PwospfPacketLink) : Int := (ntohl link.advert).toInt

/-- The first `n` LSAs behind the LSU header. -/
def PacketInfo.lsas (pi : PacketInfo) (n : Nat) : List PwospfLsa :=
  PwospfLsa.layout.decs n (pi.packet.drop 66)

/-- The LSAs behind the LSU header overwritten. -/
def PacketInfo.setLsas (pi : PacketInfo) (lsas : List PwospfLsa) : PacketInfo where
  packet := pi.packet.take 66 ++ (PwospfLsa.layout.encs lsas ++ pi.packet.drop (66 + 12 * lsas.length))
  interface := pi.interface
  ip_fits := by
    have := pi.ip_fits
    rw [List.length_append, List.length_take]
    omega

/-- Both checks on the length and checksum of an LSU.  The needed length is computed as a `size_t`,
to which a small negative `payload_count` wraps around. -/
def linkIntact (pi : PacketInfo) : Bool :=
  let count := pi.link.payloadCount
  decide (((66 + count * 12) % 18446744073709551616).toNat ≤ pi.packet.length) &&
    decide (generatechecksum ((pi.packet.drop 34).take (32 + count * 12).toNat) = 0)

/-- `getneighbourfromidunsafe`: the position of the first entry with that id. -/
def getneighbourfromidunsafe (neighbours : List PwospfListEntry) (router_id : BitVec 32) :
    Option Nat :=
  neighbours.findIdx? fun entry => entry.neighbour_id = router_id

/-- The originator's id in place of every router id 0. -/
def complete (router_id : BitVec 32) (payload : List PwospfLsa) : List PwospfLsa :=
  payload.map fun lsa => if lsa.router_id = 0 then { lsa with router_id := router_id } else lsa

/-- Router id 0 in place of the originator's. -/
def uncomplete (router_id : BitVec 32) (payload : List PwospfLsa) : List PwospfLsa :=
  payload.map fun lsa => if lsa.router_id = router_id then { lsa with router_id := 0 } else lsa

/-- `compare_lsus`: every entry of `a` is found in `b`. -/
def compareLsus (a b : List PwospfLsa) : Bool := a.all fun entry => entry ∈ b

/-- Storing a payload: a first array is allocated, an array of another length is reallocated (to
length 0 the result is `NULL`), then the payload is copied. -/
def LsuContents.store : LsuContents → List PwospfLsa → LsuContents
  | .null, payload => .valid payload
  | .valid old, payload =>
    if payload = [] ∧ old ≠ [] then .null else .valid payload
  | .dangling _, payload => .dangling payload

/-- `lsu_lastcontents != NULL`. -/
def LsuContents.present : LsuContents → Bool
  | .null => false
  | .valid _ | .dangling _ => true

/-- The entry after an LSU with the contents it had last time. -/
def PwospfListEntry.refresh (env : Env) (link : PwospfPacketLink) (entry : PwospfListEntry) :
    PwospfListEntry :=
  { entry with lsu_lastseq := link.seq, lsu_timestamp := env.now }

/-- The entry after an LSU with new contents. -/
def PwospfListEntry.learn (env : Env) (link : PwospfPacketLink) (payload : List PwospfLsa)
    (entry : PwospfListEntry) : PwospfListEntry :=
  { entry.refresh env link with lsu_lastcontents := entry.lsu_lastcontents.store payload }

/-- The entry for a router first heard of through an LSU; `helloint` and `timestamp` are not
set. -/
def newLinkEntry (env : Env) (link : PwospfPacketLink) (src_ip : AddrIp)
    (payload : List PwospfLsa) : PwospfListEntry :=
  { env.newneighbour with
    neighbour_id := link.pwospf_header.router_id
    neighbour_ip := src_ip
    lsu_lastcontents := .valid payload
    lsu_lastseq := link.seq
    lsu_timestamp := env.now
    immediate_neighbour := 0 }

/-- The same LSU again, by its sequence number. -/
def PwospfListEntry.Duplicate (entry : PwospfListEntry) (link : PwospfPacketLink) : Prop :=
  entry.lsu_lastcontents.present = true ∧ entry.lsu_lastseq = link.seq

instance (entry : PwospfListEntry) (link : PwospfPacketLink) : Decidable (entry.Duplicate link) :=
  inferInstanceAs (Decidable (_ ∧ _))

/-- `djikstra_recompute` and `send_pwospf_lsa_packet`, which follow every change. -/
def announce (env : Env) (r : Router) : Router := sendPwospfLsaPacket env (djikstraRecompute env r)

/-- The LSU of a router that is in the queue at position `n`. -/
def onreceiveLinkKnown (env : Env) (r : Router) (pi : PacketInfo) (n : Nat)
    (neighbour : PwospfListEntry) : Option Router :=
  let link := pi.link
  if neighbour.Duplicate link then some r
  else
    let r := (pwospfReflood env r pi neighbour.neighbour_ip pi.interface).1
    -- copying a negative number of LSAs ends the process
    if link.payloadCount < 0 then none
    else
      let payload := complete link.pwospf_header.router_id (pi.lsas link.payloadCount.toNat)
      let neighbours := (r.interface pi.interface).neighbours
      let stored := neighbour.lsu_lastcontents
      if stored.present ∧ stored.lsas.length = payload.length ∧ compareLsus stored.lsas payload then
        some (r.setNeighbours pi.interface (neighbours.set n (neighbour.refresh env link)))
      else
        some (announce env
          (r.setNeighbours pi.interface (neighbours.set n (neighbour.learn env link payload))))

/-- The LSU of a router that is not in the queue. -/
def onreceiveLinkNew (env : Env) (r : Router) (pi : PacketInfo) : Option Router :=
  let link := pi.link
  let id := link.pwospf_header.router_id
  if link.payloadCount < 0 then none
  else
    let payload := complete id (pi.lsas link.payloadCount.toNat)
    let entry := newLinkEntry env link pi.ipv4.src_ip payload
    let neighbours := (r.interface pi.interface).neighbours ++ [entry]
    let r := r.setNeighbours pi.interface neighbours
    let r :=
      match getneighbourfromidunsafe neighbours id with
      | some n =>
        let excluded := neighbours.getD n entry
        (pwospfReflood env r (pi.setLsas (uncomplete id payload)) excluded.neighbour_ip
          pi.interface).1
      | none => r
    some (announce env r)

/-- `pwospf_onreceive_link`. -/
def pwospfOnreceiveLink (env : Env) (r : Router) (pi : PacketInfo) : Option Router :=
  let id := pi.link.pwospf_header.router_id
  if ¬ linkIntact pi then some r
  else if id = r.pw_router.router_id then some r
  else
    let neighbours := (r.interface pi.interface).neighbours
    match getneighbourfromidunsafe neighbours id with
    | some n => onreceiveLinkKnown env r pi n (neighbours.getD n env.newneighbour)
    | none => onreceiveLinkNew env r pi

/-! ## Receiving HELLOs -/

def PacketInfo.hello (pi : PacketInfo) : PwospfPacketHello :=
  PwospfPacketHello.layout.load 34 pi.packet

/-- The checks on a HELLO: checksum, netmask and interval. -/
def helloAccepted (f : Interface) (pi : PacketInfo) : Bool :=
  decide (generatechecksum ((pi.packet.drop 34).take 32) = 0) &&
    decide (pi.hello.netmask = f.subnet_mask) && decide (ntohs pi.hello.helloint = f.helloint)

/-- An entry whose address said HELLO. -/
def PwospfListEntry.greet (env : Env) (hello : PwospfPacketHello) (entry : PwospfListEntry) :
    PwospfListEntry :=
  { entry with
    neighbour_id := hello.pwospf_header.router_id
    helloint := ntohs hello.helloint
    immediate_neighbour := 1
    timestamp := env.now }

/-- The entry for an address first heard of through a HELLO; `lsu_lastseq` and `lsu_timestamp` are
not set. -/
def newHelloEntry (env : Env) (hello : PwospfPacketHello) (src_ip : AddrIp) : PwospfListEntry :=
  { env.newneighbour with
    neighbour_id := hello.pwospf_header.router_id
    neighbour_ip := src_ip
    helloint := ntohs hello.helloint
    lsu_lastcontents := .null
    immediate_neighbour := 1
    timestamp := env.now }

/-- `pwospf_onreceive_hello`: entries are found by the source address. -/
def pwospfOnreceiveHello (env : Env) (r : Router) (pi : PacketInfo) : Router :=
  let f := r.interface pi.interface
  if ¬ helloAccepted f pi then r
  else
    let src_ip := pi.ipv4.src_ip
    match f.neighbours.findIdx? fun entry => entry.neighbour_ip = src_ip with
    | some i =>
      let entry := f.neighbours.getD i env.newneighbour
      let r := r.setNeighbours pi.interface (f.neighbours.set i (entry.greet env pi.hello))
      if entry.immediate_neighbour = 0 then announce env r else r
    | none =>
      announce env
        (r.setNeighbours pi.interface (f.neighbours ++ [newHelloEntry env pi.hello src_ip]))

/-- `pwospf_onreceive`. -/
def pwospfOnreceive (env : Env) (r : Router) (pi : PacketInfo) : Option Router :=
  let packet := PwospfPacket.layout.load 34 pi.packet
  if packet.version ≠ 2 then some r
  else if ntohl packet.area_id ≠ r.pw_router.area_id then some r
  else if packet.auth_type ≠ 0 then some r
  else if packet.type = ospfTypeHello then
    if 66 ≤ pi.packet.length then some (pwospfOnreceiveHello env r pi) else some r
  else if packet.type = ospfTypeLink then
    if 66 ≤ pi.packet.length then pwospfOnreceiveLink env r pi else some r
  else some r

/-! ## Expiry -/

/-- The loop of `removeallneighbourswithrouterid` over one queue.  Its counter moves on after a
removal too, so the entry behind a removed one is not looked at. -/
def removeWithRouterid (id : BitVec 32) : List PwospfListEntry → List PwospfListEntry
  | [] => []
  | entry :: rest =>
    if entry.neighbour_id = id then
      match rest with
      | [] => []
      | next :: rest => next :: removeWithRouterid id rest
    else entry :: removeWithRouterid id rest

/-- `removeallneighbourswithrouterid`. -/
def removeallneighbourswithrouterid (r : Router) (id : BitVec 32) : Router :=
  (List.range r.num_interfaces).foldl
    (fun r j => r.setNeighbours j (removeWithRouterid id (r.interface j).neighbours)) r

/-- `LSUINT_TIMEOUT`. -/
def lsuintTimeout : Nat := 90

/-- A neighbour whose HELLOs stopped, or whose LSUs did. -/
def PwospfListEntry.Expired (now : Nat) (entry : PwospfListEntry) : Prop :=
  (entry.immediate_neighbour ≠ 0 ∧ (now : Int) - entry.timestamp > 3 * entry.helloint.toNat) ∨
    (entry.lsu_lastcontents.present = true ∧ (now : Int) - entry.lsu_timestamp > lsuintTimeout)

instance (now : Nat) (entry : PwospfListEntry) : Decidable (entry.Expired now) :=
  inferInstanceAs (Decidable (_ ∨ _))

/-- `free(entry->lsu_lastcontents)`, which leaves the pointer in the entry. -/
def PwospfListEntry.release (entry : PwospfListEntry) : PwospfListEntry :=
  { entry with
    lsu_lastcontents :=
      match entry.lsu_lastcontents with
      | .null => .null
      | .valid l | .dangling l => .dangling l }

/-- One entry of the expiry loop: at position `i` of interface `j`. -/
def expireOne (env : Env) (j i : Nat) (s : Router × Bool) : Router × Bool :=
  let neighbours := (s.1.interface j).neighbours
  match neighbours[i]? with
  | some entry =>
    if entry.Expired env.now then
      let r := s.1.setNeighbours j (neighbours.set i entry.release)
      (removeallneighbourswithrouterid r entry.neighbour_id, true)
    else s
  | none => s

/-- The neighbour part of one round of `pwospf_thread`.  Positions behind the end of a queue that
has become shorter hold no entry. -/
def expirePass (env : Env) (r : Router) : Router :=
  let (r, changed) := (List.range r.num_interfaces).foldl
    (fun (s : Router × Bool) j =>
      (List.range (s.1.interface j).neighbours.length).foldl (fun s i => expireOne env j i s) s)
    (r, false)
  if changed then announce env r else r

/-- `LSUINT`. -/
def lsuint : Nat := 30

/-- One round of the loop of `pwospf_thread`. -/
def pwospfThreadRound (env : Env) (r : Router) : Router :=
  let r := expirePass env (sendPwospfHelloPacket r)
  if (env.now : Int) - r.last_lsu > lsuint then sendPwospfLsaPacket env r else r

end BirRouter
