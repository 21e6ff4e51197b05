import BirRouter.Ip
import BirRouter.LinkState

/-!
# From `send_pwospf_lsa_packet` to a neighbour's database

Every LSU the router originates passes all checks of the neighbour it is for, and a neighbour that
did not know the router stores what the router advertises.

* `advertised` — what a router advertises: its links, interface by interface;
* `getTopology_eq` — `get_topology` is `advertised` without later repetitions;
* `arrival_intact`, `arrival_reaches` — the checks of the receiving side;
* `lsu_round_trip` — both sides put together.
-/

set_option autoImplicit false

namespace BirRouter

open ByteLayout Distinct FirstMatch

/-! ## What is advertised -/

/-- The link of an interface, once for itself and once for each immediate neighbour on it. -/
def Interface.links (f : Interface) : List PwospfLsa :=
  f.lsa 0 :: (f.neighbours.filter fun entry => entry.immediate_neighbour ≠ 0).map
    fun entry => f.lsa entry.neighbour_id

def advertised (r : Router) : List PwospfLsa :=
  (List.range r.num_interfaces).flatMap fun i => (r.interface i).links

theorem topologyOf_eq (topology : List PwospfLsa) (f : Interface) :
    topologyOf topology f = f.links.foldl addNew topology := by
  unfold topologyOf Interface.links
  rw [List.foldl_cons, List.foldl_map, List.foldl_filter]
  simp only [decide_eq_true_eq]

/-- **`get_topology` lists what is advertised, each LSA once.** -/
theorem getTopology_eq (r : Router) : getTopology r = (advertised r).eraseDups := by
  unfold getTopology advertised
  rw [← foldl_addNew, List.foldl_flatMap]
  simp only [topologyOf_eq]

/-! ## The LSU header -/

namespace PwospfPacketLink

/-- The bytes in front of the checksum field. -/
def front (link : PwospfPacketLink) : List Byte :=
  u8.enc link.pwospf_header.version ++ (u8.enc link.pwospf_header.type ++
    (u16le.enc link.pwospf_header.len ++ (u32le.enc link.pwospf_header.router_id ++
      u32le.enc link.pwospf_header.area_id)))

/-- The bytes behind the checksum field. -/
def back (link : PwospfPacketLink) : List Byte :=
  u16le.enc link.pwospf_header.autotype ++ (u32le.enc link.pwospf_header.auth_type ++
    (u32le.enc link.pwospf_header.auth_data ++ (u16le.enc link.seq ++ (u16le.enc link.ttl ++
      u32le.enc link.advert))))

theorem enc_split (link : PwospfPacketLink) :
    layout.enc link = link.front ++ (u16le.enc link.pwospf_header.checksum ++ link.back) := by
  unfold front back
  simp only [List.append_assoc]
  rfl

theorem front_length (link : PwospfPacketLink) : link.front.length = 12 := rfl

theorem back_length (link : PwospfPacketLink) : link.back.length = 18 := rfl

end PwospfPacketLink

/-- **The checksum of an originated LSU checks.** -/
theorem generatePwospfLinkHeader_valid (hid : BitVec 16) (rid aid : BitVec 32)
    {lsas : List PwospfLsa} (len : Nat) (h : lsas.length * 12 ≤ 65535) :
    generatechecksum (PwospfPacketLink.layout.enc
      (generatePwospfLinkHeader hid rid aid lsas len) ++ PwospfLsa.layout.encs lsas) = 0 := by
  generalize hlink : generatePwospfLinkHeader hid rid aid lsas len = link
  have hlen : (PwospfLsa.layout.encs lsas).length = lsas.length * 12 := Layout.encs_length ..
  have hchecksum : link.pwospf_header.checksum = generatechecksum
      (link.front ++ (u16le.enc 0 ++ (link.back ++ PwospfLsa.layout.encs lsas))) := by
    subst hlink
    unfold generatePwospfLinkHeader
    simp only
    rw [PwospfPacketLink.enc_split]
    simp only [List.append_assoc]
    rfl
  rw [PwospfPacketLink.enc_split, hchecksum, List.append_assoc, List.append_assoc]
  refine generatechecksum_store (by rw [PwospfPacketLink.front_length]) ?_
  rw [List.length_append, PwospfPacketLink.front_length, PwospfPacketLink.back_length, hlen]
  omega

/-! ## At the receiver -/

section Receiver

variable {r : Router} {topology : List PwospfLsa} {i : Nat} {entry : PwospfListEntry}
  {pi : PacketInfo} (hpi : pi.packet = (lsaFrame r topology i entry).packet)

include hpi

/-- The LSU as it arrives, on whatever interface. -/
theorem lsaFrame_arrival : pi = PacketInfo.ofParts
    ⟨AddrMac.broadcast, (r.interface i).mac, htons ethIpType⟩
    (generateIpv4Header (r.interface i).ip (32 + topology.length * 12) ipTypeOspf
      entry.neighbour_ip)
    (PwospfPacketLink.layout.enc (generatePwospfLinkHeader r.hid r.pw_router.router_id 0 topology
      (32 + topology.length * 12)) ++ PwospfLsa.layout.encs topology)
    pi.interface := by
  obtain ⟨packet, j, hfits⟩ := pi
  subst hpi
  rfl

theorem arrival_ipv4 : pi.ipv4 = generateIpv4Header (r.interface i).ip
    (32 + topology.length * 12) ipTypeOspf entry.neighbour_ip := by
  rw [lsaFrame_arrival hpi, PacketInfo.ofParts_ipv4]

theorem arrival_link : pi.link = generatePwospfLinkHeader r.hid r.pw_router.router_id 0 topology
    (32 + topology.length * 12) := by
  rw [lsaFrame_arrival hpi, PacketInfo.ofParts_link]

theorem arrival_payload : pi.packet.drop 34 = PwospfPacketLink.layout.enc
    (generatePwospfLinkHeader r.hid r.pw_router.router_id 0 topology (32 + topology.length * 12)) ++
      PwospfLsa.layout.encs topology := by
  have h := PacketInfo.ofParts_payload
  unfold PacketInfo.payload at h
  rw [lsaFrame_arrival hpi, h]

theorem arrival_length : pi.packet.length = 66 + topology.length * 12 := by
  have h := congrArg List.length (arrival_payload hpi)
  rw [List.length_drop, List.length_append, Layout.enc_length, Layout.encs_length] at h
  simp only [PwospfPacketLink.layout_size, PwospfLsa.layout_size] at h
  have := pi.ip_fits
  omega

theorem arrival_count (hfit : 52 + topology.length * 12 ≤ 65535) :
    pi.link.payloadCount = topology.length := by
  rw [arrival_link hpi]
  show (ntohl (htonl (BitVec.ofNat 32 topology.length))).toInt = topology.length
  rw [ntohl_htonl, BitVec.toInt_eq_toNat_of_lt, BitVec.toNat_ofNat, Nat.mod_eq_of_lt (by omega)]
  rw [BitVec.toNat_ofNat]
  omega

/-- The LSAs arrive as they were listed. -/
theorem arrival_lsas : pi.lsas topology.length = topology := by
  have hd : pi.packet.drop 66 = PwospfLsa.layout.encs topology := by
    have hsum : 66 = 34 + 32 := rfl
    rw [hsum, ← List.drop_drop, arrival_payload hpi]
    exact List.drop_left' (Layout.enc_length ..)
  have hdec := PwospfLsa.layout.decs_append topology []
  rw [List.append_nil] at hdec
  unfold PacketInfo.lsas
  rw [hd, hdec]

/-- They are stored with the sender's id in place of 0. -/
theorem arrival_lsu (hfit : 52 + topology.length * 12 ≤ 65535) :
    pi.lsu = complete r.pw_router.router_id topology := by
  have hid : pi.link.pwospf_header.router_id = r.pw_router.router_id := by
    rw [arrival_link hpi]
    rfl
  unfold PacketInfo.lsu
  rw [hid, arrival_count hpi hfit, Int.toNat_natCast, arrival_lsas hpi]

/-- **An originated LSU is intact.** -/
theorem arrival_intact (hfit : 52 + topology.length * 12 ≤ 65535) : linkIntact pi = true := by
  have hcount := arrival_count hpi hfit
  have hlen := arrival_length hpi
  have htake : (pi.packet.drop 34).take (32 + (topology.length : Int) * 12).toNat
      = pi.packet.drop 34 := by
    refine List.take_of_length_le ?_
    rw [List.length_drop, hlen]
    omega
  unfold linkIntact
  simp only [hcount, htake, Bool.and_eq_true, decide_eq_true_eq]
  refine ⟨by omega, ?_⟩
  rw [arrival_payload hpi]
  exact generatePwospfLinkHeader_valid _ _ _ _ (by omega)

theorem arrival_header (hfit : 52 + topology.length * 12 ≤ 65535) :
    ipHeaderCheck pi.ipv4 = true := by
  have hlength : htons (BitVec.ofNat 16 (20 + (32 + topology.length * 12))) ≠ 0 :=
    htons_ofNat_ne_zero (by omega) (by omega)
  rw [arrival_ipv4 hpi]
  exact PacketIp4.ipHeaderCheck_fresh rfl rfl hlength unfragmented

/-- The LSU gets as far as `pwospf_onreceive_link`. -/
theorem arrival_reaches (hfit : 52 + topology.length * 12 ≤ 65535) {r' : Router}
    (hown : ∃ k < r'.num_interfaces, (r'.interface k).ip = entry.neighbour_ip)
    (harea : r'.pw_router.area_id = 0) : ReachesLink r' pi := by
  have hlen := arrival_length hpi
  have hip := arrival_ipv4 hpi
  have hlink := arrival_link hpi
  constructor
  case header => exact arrival_header hpi hfit
  case protocol => rw [hip]; rfl
  case here =>
    rw [hip]
    exact .inr ⟨hown, by show (65 : Byte) ≠ 0; decide⟩
  case fits => omega
  case version => rw [hlink]; rfl
  case area =>
    rw [hlink, harea]
    show ntohl 0 = 0
    decide
  case auth_type => rw [hlink]; rfl
  case type => rw [hlink]; rfl

end Receiver

/-! ## The round trip -/

/-- The receiver of an LSU for `entry`: it owns the neighbour's address, is in area 0 and is another
router. -/
structure IsNeighbour (r : Router) (entry : PwospfListEntry) (r' : Router) : Prop where
  owns : ∃ k < r'.num_interfaces, (r'.interface k).ip = entry.neighbour_ip
  area : r'.pw_router.area_id = 0
  other : r'.pw_router.router_id ≠ r.pw_router.router_id

/-- **LSU send/receive round trip.**  Every frame `send_pwospf_lsa_packet` sends is for an immediate
neighbour; it passes the checks of that neighbour, which stores the LSAs advertised, without
repetitions and with the sender's id in place of 0, if it did not know the sender. -/
theorem lsu_round_trip (env : Env) {r : Router}
    (hfit : 52 + (getTopology r).length * 12 ≤ 65535) {frames : List Sent}
    (hsent : (sendPwospfLsaPacket env r).sent = r.sent ++ frames) {f : Sent} (hf : f ∈ frames) :
    ∃ entry, f.interface < r.num_interfaces ∧ entry ∈ (r.interface f.interface).neighbours ∧
      entry.immediate_neighbour = 1 ∧
      ∀ (env' : Env) (r' : Router) (pi : PacketInfo), pi.packet = f.packet →
        IsNeighbour r entry r' →
        ipHeaderCheck pi.ipv4 = true ∧
        ipOnreceive env' r' pi = pwospfOnreceiveLink env' r' pi ∧
        linkIntact pi = true ∧ pi.link.pwospf_header.router_id ≠ r'.pw_router.router_id ∧
        (entryOf (r'.interface pi.interface).neighbours r.pw_router.router_id = none →
          ∃ r'', ipOnreceive env' r' pi = some r'' ∧
            (r''.interface pi.interface).neighbours = (r'.interface pi.interface).neighbours ++
              [newLinkEntry env' pi.link pi.ipv4.src_ip
                (complete r.pw_router.router_id (advertised r).eraseDups)]) := by
  obtain ⟨frames', hid, last, heq, hown⟩ := sendPwospfLsaPacket_effect env r
  rw [heq] at hsent
  obtain rfl : frames' = frames := List.append_cancel_left hsent
  obtain ⟨hid', i, entry, hi, hentry, himm, rfl⟩ := hown f hf
  refine ⟨entry, hi, hentry, himm, ?_⟩
  intro env' r' pi hpi hn
  have hid : pi.link.pwospf_header.router_id = r.pw_router.router_id := by
    rw [arrival_link hpi]
    rfl
  have hforeign : pi.link.pwospf_header.router_id ≠ r'.pw_router.router_id := by
    rw [hid]
    exact hn.other.symm
  have hreceived := (arrival_reaches hpi hfit hn.owns hn.area).received env'
  have hintact := arrival_intact hpi hfit
  refine ⟨arrival_header hpi hfit, hreceived, hintact, hforeign, ?_⟩
  intro hnew
  have hcount := arrival_count hpi hfit
  have hlsu : pi.lsu = complete r.pw_router.router_id (advertised r).eraseDups := by
    rw [arrival_lsu hpi hfit, getTopology_eq]
  rw [← hid] at hnew
  have hfresh : Refloods r' pi := ⟨hintact, hforeign, fun e he => by rw [hnew] at he; cases he⟩
  obtain ⟨r'', hr'', heffect⟩ : ∃ r'', pwospfOnreceiveLink env' r' pi = some r'' ∧
      Refloods.Effect env' r' pi r'' :=
    pwospfOnreceiveLink_spec hfresh (by rw [hcount]; exact Int.natCast_nonneg _)
  refine ⟨r'', hreceived.trans hr'', ?_⟩
  have hlinks := congrFun heffect.links.interface pi.interface
  rw [hlinks, Router.setNeighbours_self, ← hlsu]
  exact upsert_of_find?_none hnew

/-- The neighbour of the small router, which has not heard of it yet. -/
def smallReceiver : Router :=
  { smallRouter with
    interface := fun _ => { smallEth1 with ip := smallNeighbour.neighbour_ip, neighbours := [] }
    pw_router := ⟨smallNeighbour.neighbour_id, 0, 30⟩ }

/-- The LSU the small router sends. -/
def smallLsu : PacketInfo :=
  lsaFrame smallRouter (getTopology smallRouter) 1 smallNeighbour

/-- It tells the neighbour of the two networks and of the neighbour itself. -/
theorem lsu_round_trip_sample :
    ∃ r'', ipOnreceive smallEnv smallReceiver smallLsu = some r'' ∧
      (r''.interface 1).neighbours =
        [newLinkEntry smallEnv smallLsu.link smallLsu.ipv4.src_ip
          (complete smallRouter.pw_router.router_id (advertised smallRouter).eraseDups)] := by
  have hsent : (sendPwospfLsaPacket smallEnv smallRouter).sent
      = smallRouter.sent ++ [⟨1, smallLsu.packet⟩] := rfl
  obtain ⟨entry, _, hentry, _, h⟩ := lsu_round_trip smallEnv (by decide) hsent
    (List.mem_singleton.2 rfl)
  have hsmall : entry = smallNeighbour := List.mem_singleton.1 hentry
  subst hsmall
  exact (h smallEnv smallReceiver smallLsu rfl ⟨⟨0, by decide, rfl⟩, rfl, by decide⟩).2.2.2.2 rfl

end BirRouter
