import BirRouter.Reflooding

/-!
# What a reflooded LSU carries (`pwospf.c`)

`pwospf_onreceive_link` writes to the LSAs of the packet it refloods.  The LSU of a router in the
queue is reflooded before, that of a new one after the originator's id was put in place of 0 and 0 in
place of the originator's id.

* `uncomplete_complete_iff` — the second substitution undoes the first one unless an LSA had the
  originator's id to begin with;
* `carries_of_passedOn`, `not_carries` — what is sent in the one case and in the other;
* `lsu_reflooded_unchanged_iff` — so reflooded frames carry the LSU as it was received exactly in
  the first case, or if there is nobody to send it to.
-/

set_option autoImplicit false

namespace BirRouter

open ByteLayout FirstMatch

/-! ## What they carry -/

/-- The frame holds the LSU byte for byte, with a valid checksum, behind a valid IPv4 header. -/
structure CarriesLsu (pi : PacketInfo) (f : Sent) : Prop where
  bytes : pwospfPart f.packet (32 + 12 * pi.link.payloadCount.toNat) =
    pwospfPart pi.packet (32 + 12 * pi.link.payloadCount.toNat)
  checksum : generatechecksum (pwospfPart f.packet (32 + pi.link.payloadCount * 12).toNat) = 0
  header : ipHeaderCheck (PacketIp4.layout.load 14 f.packet) = true

/-- Every neighbour can be reached without an ARP request. -/
def Router.MacsKnown (r : Router) : Prop :=
  ∀ i < r.num_interfaces, ∀ entry ∈ (r.interface i).neighbours,
    (arpGetcachebyip r.arp_cache entry.neighbour_ip).isSome

/-- Nobody but the sender is there to hear of the LSU of a new originator, or its TTL is 0. -/
def NobodyElse (r : Router) (pi : PacketInfo) : Prop :=
  pi.ipv4.ttl < 1 ∨ ∀ i < r.num_interfaces, ∀ entry ∈ (r.interface i).neighbours,
    i = pi.interface ∧ entry.neighbour_ip = pi.ipv4.src_ip

/-- An LSA of the LSU already has the originator's id, which is not 0. -/
def NamesOriginator (pi : PacketInfo) : Prop :=
  ∃ lsa ∈ pi.lsas pi.link.payloadCount.toNat, lsa.router_id = pi.link.pwospf_header.router_id ∧
    lsa.router_id ≠ 0

/-- **Completing and taking it back** changes the LSAs that had the id before. -/
theorem uncomplete_complete_iff (id : BitVec 32) (lsas : List PwospfLsa) :
    uncomplete id (complete id lsas) = lsas ↔
      ¬ ∃ lsa ∈ lsas, lsa.router_id = id ∧ lsa.router_id ≠ 0 := by
  have hone : ∀ lsa : PwospfLsa,
      ((fun l : PwospfLsa => if l.router_id = id then { l with router_id := 0 } else l) ∘
        fun l => if l.router_id = 0 then { l with router_id := id } else l) lsa = lsa ↔
          ¬ (lsa.router_id = id ∧ lsa.router_id ≠ 0) := by
    intro lsa
    simp only [Function.comp]
    by_cases h0 : lsa.router_id = 0
    · rw [if_pos h0, if_pos rfl]
      refine iff_of_true ?_ fun h => h.2 h0
      rw [← h0]
    · rw [if_neg h0]
      by_cases hid : lsa.router_id = id
      · rw [if_pos hid]
        refine iff_of_false (fun heq => h0 ?_) fun h => h ⟨hid, h0⟩
        rw [← heq]
      · rw [if_neg hid]
        exact iff_of_true rfl fun h => hid h.1
  unfold uncomplete complete
  rw [List.map_map]
  nth_rewrite 2 [← List.map_id lsas]
  rw [List.map_inj_left, not_exists]
  refine forall_congr' fun lsa => ?_
  rw [not_and, ← hone lsa]
  rfl

theorem packetInfo_eq {pi pi' : PacketInfo} (hp : pi.packet = pi'.packet)
    (hi : pi.interface = pi'.interface) : pi = pi' := by
  obtain ⟨packet, interface, _⟩ := pi
  obtain ⟨packet', interface', _⟩ := pi'
  obtain rfl : packet = packet' := hp
  obtain rfl : interface = interface' := hi
  rfl

section Part

variable {pi : PacketInfo} {n : Nat}

/-- Header and LSAs. -/
theorem pwospfPart_eq (h : 66 + 12 * n ≤ pi.packet.length) :
    pwospfPart pi.packet (32 + 12 * n) =
      pwospfPart pi.packet 32 ++ PwospfLsa.layout.encs (pi.lsas n) := by
  have hlen : n * PwospfLsa.layout.size ≤ (pi.packet.drop 66).length := by
    rw [List.length_drop, PwospfLsa.layout_size]
    omega
  unfold pwospfPart PacketInfo.lsas
  rw [Layout.encs_decs _ _ _ hlen, List.take_add, List.drop_drop, PwospfLsa.layout_size,
    Nat.mul_comm n 12]

/-- Overwritten LSAs are read back. -/
theorem setLsas_lsas {lsas : List PwospfLsa} (h : 66 ≤ pi.packet.length) :
    (pi.setLsas lsas).lsas lsas.length = lsas := by
  have hdrop : (pi.setLsas lsas).packet.drop 66 = PwospfLsa.layout.encs lsas ++
      pi.packet.drop (66 + 12 * lsas.length) :=
    List.drop_left' (by rw [List.length_take]; omega)
  unfold PacketInfo.lsas
  rw [hdrop, Layout.decs_append]

theorem setLsas_part {lsas : List PwospfLsa} (h : 66 + 12 * lsas.length ≤ pi.packet.length) :
    pwospfPart (pi.setLsas lsas).packet (32 + 12 * lsas.length) =
      pwospfPart pi.packet 32 ++ PwospfLsa.layout.encs lsas := by
  have hlen := setLsas_length h
  have hhead : pwospfPart (pi.setLsas lsas).packet 32 = pwospfPart pi.packet 32 := by
    have htake := congrArg (List.drop 34) (setLsas_take h)
    rw [List.drop_take, List.drop_take] at htake
    exact htake
  rw [pwospfPart_eq (by omega), hhead, setLsas_lsas (by omega)]

/-- Writing the LSAs back changes nothing. -/
theorem setLsas_self (h : 66 + 12 * n ≤ pi.packet.length) : pi.setLsas (pi.lsas n) = pi := by
  have hn : (pi.lsas n).length = n := Layout.decs_length ..
  have hlen : n * PwospfLsa.layout.size ≤ (pi.packet.drop 66).length := by
    rw [List.length_drop, PwospfLsa.layout_size]
    omega
  have hpacket : (pi.setLsas (pi.lsas n)).packet = pi.packet := by
    show pi.packet.take 66 ++ (PwospfLsa.layout.encs (pi.lsas n) ++
      pi.packet.drop (66 + 12 * (pi.lsas n).length)) = pi.packet
    rw [hn]
    unfold PacketInfo.lsas
    rw [Layout.encs_decs _ _ _ hlen, PwospfLsa.layout_size, Nat.mul_comm n 12, ← List.drop_drop,
      List.take_append_drop, List.take_append_drop]
  exact packetInfo_eq hpacket rfl

end Part

section Carries

variable {r : Router} {pi : PacketInfo}

/-- A packet with the received payload carries the LSU. -/
theorem refloodPacket_carries (hh : ipHeaderCheck pi.ipv4 = true) (hintact : linkIntact pi = true)
    (t : Nat × AddrIp) (mac : AddrMac) (i : Nat) :
    CarriesLsu pi ⟨i, (refloodPacket r pi t mac).packet⟩ := by
  have hpay : (refloodPacket r pi t mac).packet.drop 34 = pi.packet.drop 34 :=
    (refloodPacket_readdressed r pi t mac).relayed.payload
  have hip : PacketIp4.layout.load 14 (refloodPacket r pi t mac).packet =
      pi.ipv4.readdress t.2 (r.interface t.1).ip := PacketInfo.ofParts_ipv4 ..
  constructor
  case bytes =>
    unfold pwospfPart
    rw [hpay]
  case checksum =>
    unfold linkIntact at hintact
    simp only [Bool.and_eq_true, decide_eq_true_eq] at hintact
    unfold pwospfPart
    rw [hpay]
    exact hintact.2
  case header =>
    rw [hip]
    exact PacketIp4.ipHeaderCheck_readdress hh ..

theorem Router.MacsKnown.target (hmacs : r.MacsKnown) {excluded_ip : AddrIp} {locked : Nat}
    {t : Nat × AddrIp} (ht : t ∈ refloodTargets r excluded_ip locked) :
    ∃ arp, arpGetcachebyip r.arp_cache t.2 = some arp := by
  obtain ⟨hi, hmem, _⟩ := mem_refloodTargets_iff.1 (show (t.1, t.2) ∈ _ from ht)
  obtain ⟨entry, he, hip⟩ := List.mem_map.1 hmem
  rw [← hip]
  exact Option.isSome_iff_exists.1 (hmacs t.1 hi entry he)

/-- What is reflooded unchanged arrives unchanged. -/
theorem carries_of_passedOn (hh : ipHeaderCheck pi.ipv4 = true) (hintact : linkIntact pi = true)
    (hmacs : r.MacsKnown) (hout : r.passedOn pi = pi) : ∀ f ∈ reflooded r pi, CarriesLsu pi f := by
  intro f hf
  unfold reflooded at hf
  split at hf
  · cases hf
  · rw [hout] at hf
    obtain ⟨t, ht, hf⟩ := List.mem_flatMap.1 hf
    obtain ⟨arp, harp⟩ := hmacs.target ht
    by_cases httl : pi.ipv4.ttl < 1
    · unfold refloodFrames at hf
      simp only [harp, if_pos httl] at hf
      cases hf
    · rw [refloodFrames_known harp httl] at hf
      rw [List.mem_singleton.1 hf]
      exact refloodPacket_carries hh hintact t arp.mac t.1

variable (hnew : entryOf (r.interface pi.interface).neighbours
  pi.link.pwospf_header.router_id = none)

include hnew

/-- For a new originator nothing is reflooded if there is nobody else. -/
theorem reflooded_of_nobodyElse (hmacs : r.MacsKnown) (httl : (r.passedOn pi).ipv4.ttl = pi.ipv4.ttl)
    (h : NobodyElse r pi) : reflooded r pi = [] := by
  have hex : r.excludedIp pi = pi.ipv4.src_ip := by
    unfold Router.excludedIp
    rw [hnew]
  unfold reflooded
  split
  · rfl
  · refine List.flatMap_eq_nil_iff.2 fun t ht => ?_
    rcases h with hlt | hall
    · obtain ⟨arp, harp⟩ := hmacs.target ht
      unfold refloodFrames
      simp only [harp]
      rw [if_pos (by rw [httl]; exact hlt)]
    · obtain ⟨hi, hmem, hne⟩ := mem_refloodTargets_iff.1 (show (t.1, t.2) ∈ _ from ht)
      obtain ⟨entry, he, hip⟩ := List.mem_map.1 hmem
      obtain ⟨hself, hsrc⟩ := hall t.1 hi entry he
      rw [hex] at hne
      rcases hne with hne | hne
      · exact absurd hself hne
      · exact absurd (hip.symm.trans hsrc) hne

/-- Where there is somebody else, a frame with the LSAs as they are passed on is sent. -/
theorem reflooded_of_somebody (hcount : 0 ≤ pi.link.payloadCount) (hmacs : r.MacsKnown)
    (httl : (r.passedOn pi).ipv4.ttl = pi.ipv4.ttl) (h : ¬ NobodyElse r pi) :
    ∃ f ∈ reflooded r pi, f.packet.drop 34 = (r.passedOn pi).packet.drop 34 := by
  have hex : r.excludedIp pi = pi.ipv4.src_ip := by
    unfold Router.excludedIp
    rw [hnew]
  obtain ⟨hge, hsome⟩ := not_or.1 h
  push Not at hsome
  obtain ⟨i, hi, entry, he, hdiff⟩ := hsome
  have ht : (i, entry.neighbour_ip) ∈ refloodTargets r (r.excludedIp pi) pi.interface := by
    refine mem_refloodTargets_iff.2 ⟨hi, List.mem_map_of_mem he, ?_⟩
    rw [hex]
    by_cases hself : i = pi.interface
    · exact .inr (hdiff hself)
    · exact .inl hself
  obtain ⟨arp, harp⟩ := hmacs.target ht
  refine ⟨⟨i, (refloodPacket r (r.passedOn pi) (i, entry.neighbour_ip) arp.mac).packet⟩, ?_,
    (refloodPacket_readdressed ..).relayed.payload⟩
  unfold reflooded
  rw [if_neg fun hneg => absurd hneg.1 (by omega)]
  refine List.mem_flatMap.2 ⟨_, ht, ?_⟩
  rw [refloodFrames_known harp (by rw [httl]; exact hge)]
  exact List.mem_singleton.2 rfl

/-- Then the LSA that names the originator is sent with id 0. -/
theorem not_carries (hintact : linkIntact pi = true) (hcount : 0 ≤ pi.link.payloadCount)
    (hmacs : r.MacsKnown) (hnames : NamesOriginator pi) (hsome : ¬ NobodyElse r pi) :
    ∃ f ∈ reflooded r pi, ¬ CarriesLsu pi f := by
  have hlen := linkIntact_length hintact hcount
  have hn := length_uncomplete_lsu pi
  have hout := passedOn_new hnew
  obtain ⟨f, hf, hbytes⟩ :=
    reflooded_of_somebody hnew hcount hmacs (passedOn_ttl hnew hintact hcount) hsome
  refine ⟨f, hf, fun hcarries => ?_⟩
  -- the LSAs that were sent are read off the frame
  have hpart := hcarries.bytes
  unfold pwospfPart at hpart
  rw [hbytes, hout] at hpart
  have hparts : pwospfPart pi.packet 32 ++ PwospfLsa.layout.encs
      (uncomplete pi.link.pwospf_header.router_id pi.lsu) = pwospfPart pi.packet 32 ++
        PwospfLsa.layout.encs (pi.lsas pi.link.payloadCount.toNat) := by
    rw [← setLsas_part (by rw [hn]; exact hlen), ← pwospfPart_eq hlen, hn]
    exact hpart
  have hsame := PwospfLsa.layout.encs_injective
    (hn.trans (Layout.decs_length PwospfLsa.layout _ _).symm) (List.append_cancel_left hparts)
  exact (uncomplete_complete_iff ..).1 hsame hnames

end Carries

theorem carries_iff {r : Router} {pi : PacketInfo} (h : Refloods r pi)
    (hh : ipHeaderCheck pi.ipv4 = true) (hmacs : r.MacsKnown) :
    (∀ f ∈ reflooded r pi, CarriesLsu pi f) ↔
      entryOf (r.interface pi.interface).neighbours pi.link.pwospf_header.router_id ≠ none ∨
        NobodyElse r pi ∨ ¬ NamesOriginator pi := by
  cases he : entryOf (r.interface pi.interface).neighbours pi.link.pwospf_header.router_id with
  | some entry =>
    exact iff_of_true (carries_of_passedOn hh h.intact hmacs (passedOn_known he)) (.inl (by simp))
  | none =>
    by_cases hcount : 0 ≤ pi.link.payloadCount
    · by_cases hnames : NamesOriginator pi
      · by_cases hnobody : NobodyElse r pi
        · rw [reflooded_of_nobodyElse he hmacs (passedOn_ttl he h.intact hcount) hnobody]
          exact iff_of_true (by simp) (.inr (.inl hnobody))
        · obtain ⟨f, hf, hno⟩ := not_carries he h.intact hcount hmacs hnames hnobody
          exact iff_of_false (fun hall => hno (hall f hf)) (by simp [hnames, hnobody])
      · have hout : r.passedOn pi = pi := by
          have hsame := (uncomplete_complete_iff ..).2 hnames
          rw [passedOn_new he]
          unfold PacketInfo.lsu
          rw [hsame]
          exact setLsas_self (linkIntact_length h.intact hcount)
        exact iff_of_true (carries_of_passedOn hh h.intact hmacs hout) (.inr (.inr hnames))
    · -- a negative count: nothing is reflooded, and there are no LSAs
      have hnone : reflooded r pi = [] := if_pos ⟨Int.not_le.1 hcount, he⟩
      have hempty : ¬ NamesOriginator pi := by
        rintro ⟨lsa, hlsa, _⟩
        rw [Int.toNat_of_nonpos (by omega)] at hlsa
        cases hlsa
      rw [hnone]
      exact iff_of_true (by simp) (.inr (.inr hempty))

/-- **Reflooding preserves the LSU.**  The frames that are sent before the router's own LSUs all carry
it as it was received, exactly if its originator is known, or nobody else is there, or no LSA names the
originator. -/
theorem lsu_reflooded_unchanged_iff {r : Router} {pi : PacketInfo} (h : Refloods r pi)
    (hh : ipHeaderCheck pi.ipv4 = true) (hmacs : r.MacsKnown) :
    (∀ env r', pwospfOnreceiveLink env r pi = some r' →
        ∃ own, r'.sent = r.sent ++ (reflooded r pi ++ own) ∧
          ∀ f ∈ own, f.originator = r.pw_router.router_id) ∧
      ((∀ f ∈ reflooded r pi, CarriesLsu pi f) ↔
        entryOf (r.interface pi.interface).neighbours pi.link.pwospf_header.router_id ≠ none ∨
          NobodyElse r pi ∨ ¬ NamesOriginator pi) :=
  ⟨fun _ _ hr => pwospfOnreceiveLink_sent h hr, carries_iff h hh hmacs⟩

/-- A receiver with a neighbour on its first interface. -/
def relayingReceiver : Router :=
  { knowingReceiver with
    interface := fun i =>
      { smallReceiver.interface i with neighbours := if i = 0 then [storedEntry []] else [] } }

/-- The far router advertises a link to itself. -/
def namingLsu : PacketInfo :=
  lsaFrame farRouter [⟨ipConvert 10 9 0 0, ipConvert 255 255 0 0, ipConvert 10 9 9 9⟩] 1 smallNeighbour

theorem namingLsu_packet : namingLsu.packet = (lsaFrame farRouter
    [⟨ipConvert 10 9 0 0, ipConvert 255 255 0 0, ipConvert 10 9 9 9⟩] 1 smallNeighbour).packet := rfl

theorem namingLsu_refloods : Refloods relayingReceiver namingLsu := by
  refine ⟨arrival_intact namingLsu_packet (by decide), ?_, fun entry he => ?_⟩
  · rw [arrival_link namingLsu_packet]
    decide
  · cases he

theorem namingLsu_header : ipHeaderCheck namingLsu.ipv4 = true :=
  arrival_header namingLsu_packet (by decide)

theorem relayingReceiver_macsKnown : relayingReceiver.MacsKnown := by
  intro i hi entry he
  have hcases : i = 0 ∨ i = 1 := by
    have : i < 2 := hi
    omega
  rcases hcases with rfl | rfl
  · rw [List.mem_singleton.1 he]
    decide
  · cases he

theorem lsu_reflooded_unchanged_iff_sample :
    (∀ f ∈ reflooded relayingReceiver namingLsu, CarriesLsu namingLsu f) ↔
      entryOf (relayingReceiver.interface namingLsu.interface).neighbours
          namingLsu.link.pwospf_header.router_id ≠ none ∨
        NobodyElse relayingReceiver namingLsu ∨ ¬ NamesOriginator namingLsu :=
  (lsu_reflooded_unchanged_iff namingLsu_refloods namingLsu_header relayingReceiver_macsKnown).2

/-- The link of the far router to itself is passed on with id 0. -/
theorem lsu_reflooded_changed :
    Refloods relayingReceiver namingLsu ∧ ipHeaderCheck namingLsu.ipv4 = true ∧
      relayingReceiver.MacsKnown ∧
      ∃ f ∈ reflooded relayingReceiver namingLsu, ¬ CarriesLsu namingLsu f := by
  have hcount : namingLsu.link.payloadCount = 1 := arrival_count namingLsu_packet (by decide)
  have hnames : NamesOriginator namingLsu := by
    refine ⟨⟨ipConvert 10 9 0 0, ipConvert 255 255 0 0, ipConvert 10 9 9 9⟩, ?_, ?_, by decide⟩
    · rw [hcount]
      have hlsas : namingLsu.lsas 1 = _ := arrival_lsas namingLsu_packet
      show _ ∈ namingLsu.lsas 1
      rw [hlsas]
      exact List.mem_singleton.2 rfl
    · rw [arrival_link namingLsu_packet]
      rfl
  have hsome : ¬ NobodyElse relayingReceiver namingLsu := by
    rintro (httl | hall)
    · rw [arrival_ipv4 namingLsu_packet] at httl
      exact absurd httl (by decide)
    · have hself := (hall 0 (by decide) (storedEntry []) (List.mem_singleton.2 rfl)).1
      exact absurd hself (by decide)
  exact ⟨namingLsu_refloods, namingLsu_header, relayingReceiver_macsKnown,
    not_carries rfl namingLsu_refloods.intact (by omega) relayingReceiver_macsKnown hnames hsome⟩

end BirRouter
