import BirRouter.Lib.FirstMatch
import BirRouter.Sending

/-!
# What the PWOSPF handlers do to the router

The handlers of `pwospf.c` as functions of the router state, one specification each.

* `Refloods` — the LSUs that are not dropped, and `recordLsu` — what they do to the queue of the
  receiving interface;
* `pwospfOnreceiveLink_known`, `pwospfOnreceiveLink_new` — what is done with them, in this order: the
  LSU of a router in the queue is reflooded and then recorded, another one the other way round;
* `pwospfOnreceiveLink_spec` puts both together, `pwospfOnreceiveLink_cases` reads a call backwards;
* `recordHello`, `pwospfOnreceiveHello_links` — the same for HELLOs.
-/

set_option autoImplicit false

namespace BirRouter

open ByteLayout FirstMatch

/-! ## LSUs -/

/-- The entry of a router in a neighbour queue. -/
def entryOf (neighbours : List PwospfListEntry) (router_id : BitVec 32) : Option PwospfListEntry :=
  neighbours.find? fun entry => entry.neighbour_id = router_id

/-- The LSUs that are not dropped: intact, another router's, and not the one received last. -/
structure Refloods (r : Router) (pi : PacketInfo) : Prop where
  intact : linkIntact pi = true
  foreign : pi.link.pwospf_header.router_id ≠ r.pw_router.router_id
  fresh : ∀ entry, entryOf (r.interface pi.interface).neighbours pi.link.pwospf_header.router_id
    = some entry → ¬ entry.Duplicate pi.link

/-- The LSAs of an LSU as they are stored. -/
def PacketInfo.lsu (pi : PacketInfo) : List PwospfLsa :=
  complete pi.link.pwospf_header.router_id (pi.lsas pi.link.payloadCount.toNat)

/-- What an entry remembers of an LSU that is not dropped. -/
def PwospfListEntry.record (env : Env) (link : PwospfPacketLink) (payload : List PwospfLsa)
    (entry : PwospfListEntry) : PwospfListEntry :=
  if entry.lsu_lastcontents.present ∧ entry.lsu_lastcontents.lsas.length = payload.length ∧
      compareLsus entry.lsu_lastcontents.lsas payload then entry.refresh env link
  else entry.learn env link payload

/-- The neighbour queue after an LSU that is not dropped. -/
def recordLsu (env : Env) (pi : PacketInfo) (neighbours : List PwospfListEntry) :
    List PwospfListEntry :=
  upsert (fun entry => entry.neighbour_id = pi.link.pwospf_header.router_id)
    (PwospfListEntry.record env pi.link pi.lsu)
    (newLinkEntry env pi.link pi.ipv4.src_ip pi.lsu) neighbours

/-- The LSU as it is passed on.  For a router that is not in the queue its LSAs are rewritten twice:
completed to be stored, and then with id 0 wherever the originator's id stands. -/
def Router.passedOn (r : Router) (pi : PacketInfo) : PacketInfo :=
  match entryOf (r.interface pi.interface).neighbours pi.link.pwospf_header.router_id with
  | some _ => pi
  | none => pi.setLsas (uncomplete pi.link.pwospf_header.router_id pi.lsu)

/-- Reflooded frames are ARP requests or the LSU, and the LSU goes to every neighbour on another
interface whose MAC is known. -/
structure Reflooded (r : Router) (pi : PacketInfo) (frames : List Sent) : Prop where
  relays : ∀ f ∈ frames, f.Relays pi ∨ f.packet.length = 42
  known : ¬ pi.ipv4.ttl < 1 → ∀ i < r.num_interfaces, i ≠ pi.interface →
    ∀ entry ∈ (r.interface i).neighbours, (arpGetcachebyip r.arp_cache entry.neighbour_ip).isSome →
      ∃ pi', Relayed (r.passedOn pi) pi' ∧ ⟨i, pi'.packet⟩ ∈ frames

/-- The router after an LSU that is not dropped: the LSU is in the queue of the receiving interface,
`reflooded` went to the other entries, and what the router announces itself followed. -/
structure Refloods.Effect (env : Env) (r : Router) (pi : PacketInfo) (r' : Router) : Prop where
  links : (r.setNeighbours pi.interface
    (recordLsu env pi (r.interface pi.interface).neighbours)).SameLinks r'
  arp_cache : r'.arp_cache = r.arp_cache
  sent : ∃ reflooded own, r'.sent = r.sent ++ (reflooded ++ own) ∧
    Reflooded r pi reflooded ∧ reflooded.length ≤ r'.entries ∧
    ∀ f ∈ own, f.originator = r.pw_router.router_id

section SetNeighbours

variable (r : Router) (j : Nat) (l : List PwospfListEntry)

theorem Router.setNeighbours_self : ((r.setNeighbours j l).interface j).neighbours = l := by
  show (Function.update r.interface j _ j).neighbours = l
  rw [Function.update_self]

theorem Router.setNeighbours_of_ne {i : Nat} (h : i ≠ j) :
    (r.setNeighbours j l).interface i = r.interface i := Function.update_of_ne h ..

variable {r j l}

theorem Router.entries_setNeighbours (h : (r.interface j).neighbours.length ≤ l.length) :
    r.entries ≤ (r.setNeighbours j l).entries := by
  refine List.sum_le_sum ?_
  intro i _
  by_cases hi : i = j
  · subst hi
    rw [Router.setNeighbours_self]
    exact h
  · rw [Router.setNeighbours_of_ne r j l hi]

end SetNeighbours

theorem Router.SameLinks.entries {r r' : Router} (h : r.SameLinks r') : r'.entries = r.entries := by
  unfold Router.entries
  rw [h.interface, h.num_interfaces]

/-- The entry of the same router after an LSU of it. -/
theorem record_neighbour_id (env : Env) (link : PwospfPacketLink) (payload : List PwospfLsa)
    (entry : PwospfListEntry) : (entry.record env link payload).neighbour_id = entry.neighbour_id := by
  unfold PwospfListEntry.record
  split <;> rfl

/-- The entry of the originator after an LSU that is not dropped. -/
theorem entryOf_recordLsu (env : Env) (pi : PacketInfo) (l : List PwospfListEntry) :
    entryOf (recordLsu env pi l) pi.link.pwospf_header.router_id =
      some ((entryOf l pi.link.pwospf_header.router_id).elim
        (newLinkEntry env pi.link pi.ipv4.src_ip pi.lsu)
        (PwospfListEntry.record env pi.link pi.lsu)) := by
  refine find?_upsert (fun entry he => ?_) ?_ l
  · rw [record_neighbour_id]
    exact he
  · exact decide_eq_true rfl

/-- The entries of all others. -/
theorem entryOf_recordLsu_of_ne (env : Env) (pi : PacketInfo) (l : List PwospfListEntry)
    {id : BitVec 32} (h : id ≠ pi.link.pwospf_header.router_id) :
    entryOf (recordLsu env pi l) id = entryOf l id := by
  refine find?_upsert_of_disjoint (fun entry he => ?_) (fun hnew => h ?_) l
  · have hid := of_decide_eq_true he
    rw [record_neighbour_id, hid]
    exact ⟨fun hq => h (of_decide_eq_true hq).symm, fun hq => h (of_decide_eq_true hq).symm⟩
  · exact (of_decide_eq_true hnew).symm

section Spec

variable {env : Env} {r : Router} {pi : PacketInfo}

/-- A dropped LSU changes nothing. -/
theorem pwospfOnreceiveLink_dropped (h : ¬ Refloods r pi) :
    pwospfOnreceiveLink env r pi = some r := by
  unfold pwospfOnreceiveLink
  by_cases hintact : linkIntact pi = true
  · by_cases hid : pi.link.pwospf_header.router_id = r.pw_router.router_id
    · rw [if_neg (not_not.2 hintact), if_pos hid]
    · rw [if_neg (not_not.2 hintact), if_neg hid]
      simp only
      split
      · rename_i n hn
        have hfind := getD_findIdx? env.newneighbour hn
        have hdup : ((r.interface pi.interface).neighbours.getD n env.newneighbour).Duplicate
            pi.link := by
          by_contra hdup
          refine h ⟨hintact, hid, ?_⟩
          intro entry he
          unfold entryOf at he
          rw [hfind] at he
          cases he
          exact hdup
        unfold onreceiveLinkKnown
        rw [if_pos hdup]
      · rename_i hn
        refine absurd ⟨hintact, hid, ?_⟩ h
        intro entry he
        unfold entryOf at he
        rw [find?_eq_none_of_findIdx? hn] at he
        cases he
  · rw [if_pos hintact]

theorem RefloodEffect.reflooded {excluded_ip : AddrIp} {frames : List Sent}
    (h : RefloodEffect r pi (refloodTargets r excluded_ip pi.interface) frames)
    (hout : r.passedOn pi = pi) : Reflooded r pi frames := by
  refine ⟨h.relays, ?_⟩
  intro httl i hi hne entry he hsome
  rw [hout]
  exact h.known httl _ (mem_refloodTargets hi hne he) hsome

/-- Reflooded first, recorded second. -/
theorem Refloods.effect_record {frames : List Sent} {waiting : List IparpBufferEntry}
    (h : Reflooded r pi frames) (hlen : frames.length ≤ r.entries) :
    Refloods.Effect env r pi ((r.adding frames waiting).setNeighbours pi.interface
      (recordLsu env pi (r.interface pi.interface).neighbours)) := by
  refine ⟨⟨rfl, rfl, rfl⟩, rfl, frames, [], ?_, h, ?_, by simp⟩
  · rw [List.append_nil]
    rfl
  · exact hlen.trans (Router.entries_setNeighbours (r := r) (length_le_upsert _))

/-- Recorded first, reflooded second. -/
theorem Refloods.effect_reflood {pi' : PacketInfo} (hrel : Sent.Relays pi ⟨0, pi'.packet⟩)
    (httl : pi'.ipv4.ttl = pi.ipv4.ttl) (hout : r.passedOn pi = pi') (excluded_ip : AddrIp) :
    Refloods.Effect env r pi (pwospfReflood env (r.setNeighbours pi.interface
      (recordLsu env pi (r.interface pi.interface).neighbours)) pi' excluded_ip pi.interface).1 := by
  obtain ⟨frames, waiting, heq, h⟩ := pwospfReflood_effect env (r.setNeighbours pi.interface
    (recordLsu env pi (r.interface pi.interface).neighbours)) pi' excluded_ip pi.interface
  have hrelay : ∀ {f : Sent}, f.Relays pi' → f.Relays pi := fun hf =>
    ⟨hf.1.trans hrel.1, hf.2.trans hrel.2⟩
  rw [heq]
  refine ⟨⟨rfl, rfl, rfl⟩, rfl, frames, [], by rw [List.append_nil]; rfl, ⟨?_, ?_⟩,
    h.length.trans (refloodTargets_length ..), by simp⟩
  · exact fun f hf => (h.relays f hf).imp_left hrelay
  · intro hge i hi hne entry he hsome
    rw [← Router.setNeighbours_of_ne r pi.interface _ hne] at he
    rw [hout]
    exact h.known (by rw [httl]; exact hge) _ (mem_refloodTargets hi hne he) hsome

/-- What the router announces itself does not change the effect. -/
theorem Refloods.Effect.announce {r' : Router} (h : Refloods.Effect env r pi r') :
    Refloods.Effect env r pi (announce env r') := by
  obtain ⟨own', hs', hlinks', _, harp', hown'⟩ := announce_effect env r'
  obtain ⟨reflooded, own, hs, hr, hlen, hown⟩ := h.sent
  refine ⟨h.links.trans hlinks', harp'.trans h.arp_cache, reflooded, own ++ own', ?_, hr, ?_, ?_⟩
  · rw [hs', hs]
    simp only [List.append_assoc]
  · rw [hlinks'.entries]
    exact hlen
  · intro f hf
    rcases List.mem_append.1 hf with hf | hf
    · exact hown f hf
    · rw [(hown' f hf).originator, h.links.pw_router]
      rfl

theorem length_lsu (pi : PacketInfo) : pi.lsu.length = pi.link.payloadCount.toNat := by
  unfold PacketInfo.lsu complete PacketInfo.lsas
  rw [List.length_map, Layout.decs_length]

/-- An intact LSU holds the LSAs it announces. -/
theorem linkIntact_length (h : linkIntact pi = true) (hcount : 0 ≤ pi.link.payloadCount) :
    66 + 12 * pi.link.payloadCount.toNat ≤ pi.packet.length := by
  have hlt : pi.link.payloadCount < 2147483648 := BitVec.toInt_lt
  unfold linkIntact at h
  simp only [Bool.and_eq_true, decide_eq_true_eq] at h
  have := h.1
  omega

section SetLsas

variable {lsas : List PwospfLsa} (h : 66 + 12 * lsas.length ≤ pi.packet.length)

include h

theorem setLsas_length : (pi.setLsas lsas).packet.length = pi.packet.length := by
  show (pi.packet.take 66 ++ (PwospfLsa.layout.encs lsas ++
    pi.packet.drop (66 + 12 * lsas.length))).length = _
  rw [List.length_append, List.length_append, Layout.encs_length, List.length_take,
    List.length_drop]
  simp only [PwospfLsa.layout_size]
  omega

theorem setLsas_take : (pi.setLsas lsas).packet.take 66 = pi.packet.take 66 :=
  List.take_left' (by rw [List.length_take]; omega)

/-- Other LSAs behind the LSU header leave it the same LSU. -/
theorem setLsas_relays : Sent.Relays pi ⟨0, (pi.setLsas lsas).packet⟩ := by
  have hlen := setLsas_length h
  have hlink : (pi.setLsas lsas).link = pi.link :=
    PwospfPacketLink.layout.load_of_take_eq (setLsas_take h) (by decide) (by omega) (by omega)
  exact ⟨hlen, hlink⟩

theorem setLsas_ttl : (pi.setLsas lsas).ipv4.ttl = pi.ipv4.ttl := by
  have hlen := setLsas_length h
  have hip : (pi.setLsas lsas).ipv4 = pi.ipv4 :=
    PacketIp4.layout.load_of_take_eq (setLsas_take h) (by decide) (by omega) (by omega)
  rw [hip]

end SetLsas

theorem length_uncomplete_lsu (pi : PacketInfo) :
    (uncomplete pi.link.pwospf_header.router_id pi.lsu).length = pi.link.payloadCount.toNat := by
  unfold uncomplete
  rw [List.length_map, length_lsu]

theorem passedOn_known {entry : PwospfListEntry} (he : entryOf (r.interface pi.interface).neighbours
    pi.link.pwospf_header.router_id = some entry) : r.passedOn pi = pi := by
  unfold Router.passedOn
  rw [he]

section New

variable (hnew : entryOf (r.interface pi.interface).neighbours
  pi.link.pwospf_header.router_id = none)

include hnew

theorem passedOn_new :
    r.passedOn pi = pi.setLsas (uncomplete pi.link.pwospf_header.router_id pi.lsu) := by
  unfold Router.passedOn
  rw [hnew]

theorem passedOn_ttl (hintact : linkIntact pi = true) (hcount : 0 ≤ pi.link.payloadCount) :
    (r.passedOn pi).ipv4.ttl = pi.ipv4.ttl := by
  have hlen := linkIntact_length hintact hcount
  rw [passedOn_new hnew]
  exact setLsas_ttl (by rw [length_uncomplete_lsu]; exact hlen)

end New

/-- The LSU brings the contents stored last time, as far as `compare_lsus` can tell. -/
def PwospfListEntry.Repeats (payload : List PwospfLsa) (entry : PwospfListEntry) : Prop :=
  entry.lsu_lastcontents.present = true ∧ entry.lsu_lastcontents.lsas.length = payload.length ∧
    compareLsus entry.lsu_lastcontents.lsas payload = true

instance (payload : List PwospfLsa) (entry : PwospfListEntry) : Decidable (entry.Repeats payload) :=
  inferInstanceAs (Decidable (_ ∧ _ ∧ _))

/-- The router after the LSU of a router in the queue was reflooded and recorded. -/
def recordedKnown (env : Env) (r : Router) (pi : PacketInfo) (entry : PwospfListEntry) : Router :=
  (pwospfReflood env r pi entry.neighbour_ip pi.interface).1.setNeighbours pi.interface
    (recordLsu env pi (r.interface pi.interface).neighbours)

/-- The router after the LSU of a router that was not in the queue was recorded and reflooded. -/
def recordedNew (env : Env) (r : Router) (pi : PacketInfo) : Router :=
  (pwospfReflood env
    (r.setNeighbours pi.interface (recordLsu env pi (r.interface pi.interface).neighbours))
    (r.passedOn pi) pi.ipv4.src_ip pi.interface).1

/-- The LSU of a router in the queue. -/
theorem pwospfOnreceiveLink_known (h : Refloods r pi) (hcount : 0 ≤ pi.link.payloadCount)
    {entry : PwospfListEntry} (he : entryOf (r.interface pi.interface).neighbours
      pi.link.pwospf_header.router_id = some entry) :
    pwospfOnreceiveLink env r pi =
      if entry.Repeats pi.lsu then some (recordedKnown env r pi entry)
      else some (announce env (recordedKnown env r pi entry)) := by
  unfold pwospfOnreceiveLink
  rw [if_neg (not_not.2 h.intact), if_neg h.foreign]
  simp only
  split
  · rename_i n hn
    have hfind := getD_findIdx? env.newneighbour hn
    have hset := set_eq_upsert (PwospfListEntry.record env pi.link pi.lsu)
      (newLinkEntry env pi.link pi.ipv4.src_ip pi.lsu) env.newneighbour hn
    have hentry : (r.interface pi.interface).neighbours.getD n env.newneighbour = entry :=
      Option.some.inj (hfind.symm.trans he)
    rw [hentry] at hset ⊢
    obtain ⟨frames, waiting, heq, -⟩ :=
      pwospfReflood_effect env r pi entry.neighbour_ip pi.interface
    unfold onreceiveLinkKnown recordedKnown recordLsu
    rw [if_neg (h.fresh entry he), heq, ← hset]
    simp only [if_neg (Int.not_lt.2 hcount)]
    split
    · rename_i hsame
      have hrec : entry.record env pi.link pi.lsu = entry.refresh env pi.link := if_pos hsame
      rw [if_pos (c := entry.Repeats pi.lsu) hsame, hrec]
      rfl
    · rename_i hsame
      have hrec : entry.record env pi.link pi.lsu = entry.learn env pi.link pi.lsu := if_neg hsame
      rw [if_neg (c := entry.Repeats pi.lsu) hsame, hrec]
      rfl
  · rename_i hn
    unfold entryOf at he
    rw [find?_eq_none_of_findIdx? hn] at he
    cases he

/-- The LSU of a router that is not in the queue. -/
theorem pwospfOnreceiveLink_new (h : Refloods r pi) (hcount : 0 ≤ pi.link.payloadCount)
    (he : entryOf (r.interface pi.interface).neighbours pi.link.pwospf_header.router_id = none) :
    pwospfOnreceiveLink env r pi = some (announce env (recordedNew env r pi)) := by
  unfold pwospfOnreceiveLink
  rw [if_neg (not_not.2 h.intact), if_neg h.foreign]
  simp only
  split
  · rename_i n hn
    unfold entryOf at he
    rw [getD_findIdx? env.newneighbour hn] at he
    cases he
  · rename_i hn
    have happend : (r.interface pi.interface).neighbours ++
        [newLinkEntry env pi.link pi.ipv4.src_ip (complete pi.link.pwospf_header.router_id
          (pi.lsas pi.link.payloadCount.toNat))]
        = recordLsu env pi (r.interface pi.interface).neighbours := append_eq_upsert _ _ hn
    have hout := passedOn_new he
    -- the new entry is found again
    have hnew := entryOf_recordLsu env pi (r.interface pi.interface).neighbours
    rw [he, Option.elim_none] at hnew
    unfold onreceiveLinkNew recordedNew
    simp only [if_neg (Int.not_lt.2 hcount), happend]
    split
    · rename_i n' hn'
      have hexcluded := (getD_findIdx? (newLinkEntry env pi.link pi.ipv4.src_ip
        (complete pi.link.pwospf_header.router_id (pi.lsas pi.link.payloadCount.toNat))) hn').symm
      have hip := congrArg PwospfListEntry.neighbour_ip (Option.some.inj (hexcluded.trans hnew))
      rw [hip, hout]
      rfl
    · rename_i hnone
      unfold entryOf at hnew
      rw [find?_eq_none_of_findIdx? hnone] at hnew
      cases hnew

/-- **An LSU that is not dropped** is recorded, reflooded and followed by the router's own, unless
its count is negative, which ends the process. -/
theorem pwospfOnreceiveLink_spec (h : Refloods r pi) (hcount : 0 ≤ pi.link.payloadCount) :
    ∃ r', pwospfOnreceiveLink env r pi = some r' ∧ Refloods.Effect env r pi r' := by
  cases he : entryOf (r.interface pi.interface).neighbours pi.link.pwospf_header.router_id with
  | some entry =>
    have heffect : Refloods.Effect env r pi (recordedKnown env r pi entry) := by
      obtain ⟨frames, waiting, heq, hr⟩ :=
        pwospfReflood_effect env r pi entry.neighbour_ip pi.interface
      unfold recordedKnown
      rw [heq]
      exact Refloods.effect_record (hr.reflooded (passedOn_known he))
        (hr.length.trans (refloodTargets_length ..))
    rw [pwospfOnreceiveLink_known h hcount he]
    split
    · exact ⟨_, rfl, heffect⟩
    · exact ⟨_, rfl, heffect.announce⟩
  | none =>
    have hlen : 66 + 12 * (uncomplete pi.link.pwospf_header.router_id pi.lsu).length
        ≤ pi.packet.length := by
      rw [length_uncomplete_lsu]
      exact linkIntact_length h.intact hcount
    have hout := passedOn_new he
    rw [pwospfOnreceiveLink_new h hcount he]
    refine ⟨_, rfl, Refloods.Effect.announce ?_⟩
    unfold recordedNew
    rw [hout]
    exact Refloods.effect_reflood (setLsas_relays hlen) (setLsas_ttl hlen) hout _

/-- The process outlives every LSU with a count that is not negative. -/
theorem pwospfOnreceiveLink_total (env : Env) (r : Router) (hcount : 0 ≤ pi.link.payloadCount) :
    ∃ r', pwospfOnreceiveLink env r pi = some r' := by
  by_cases h : Refloods r pi
  · obtain ⟨r', hr', _⟩ := pwospfOnreceiveLink_spec h hcount
    exact ⟨r', hr'⟩
  · exact ⟨r, pwospfOnreceiveLink_dropped h⟩

theorem pwospfOnreceiveLink_died (h : Refloods r pi) (hcount : pi.link.payloadCount < 0) :
    pwospfOnreceiveLink env r pi = none := by
  unfold pwospfOnreceiveLink
  rw [if_neg (not_not.2 h.intact), if_neg h.foreign]
  simp only
  split
  · rename_i n hn
    unfold onreceiveLinkKnown
    rw [if_neg (h.fresh _ (getD_findIdx? env.newneighbour hn))]
    simp only [if_pos hcount]
  · unfold onreceiveLinkNew
    simp only [if_pos hcount]

/-- **What a router that outlives an LSU did with it.** -/
theorem pwospfOnreceiveLink_cases {r' : Router} (h : pwospfOnreceiveLink env r pi = some r') :
    Refloods r pi ∧ Refloods.Effect env r pi r' ∨ ¬ Refloods r pi ∧ r' = r := by
  by_cases hrefl : Refloods r pi
  · have hcount : 0 ≤ pi.link.payloadCount := by
      by_contra hneg
      rw [pwospfOnreceiveLink_died hrefl (Int.not_le.1 hneg)] at h
      cases h
    obtain ⟨r'', hr'', heffect⟩ : ∃ r'', pwospfOnreceiveLink env r pi = some r'' ∧
        Refloods.Effect env r pi r'' := pwospfOnreceiveLink_spec hrefl hcount
    rw [h] at hr''
    cases hr''
    exact .inl ⟨hrefl, heffect⟩
  · rw [pwospfOnreceiveLink_dropped hrefl] at h
    cases h
    exact .inr ⟨hrefl, rfl⟩

end Spec

/-! ## HELLOs -/

/-- The neighbour queue after an accepted HELLO. -/
def recordHello (env : Env) (pi : PacketInfo) (neighbours : List PwospfListEntry) :
    List PwospfListEntry :=
  upsert (fun entry => entry.neighbour_ip = pi.ipv4.src_ip) (PwospfListEntry.greet env pi.hello)
    (newHelloEntry env pi.hello pi.ipv4.src_ip) neighbours

theorem announce_links (env : Env) (r : Router) : r.SameLinks (announce env r) := by
  obtain ⟨_, _, hlinks, _⟩ := announce_effect env r
  exact hlinks

/-- **An accepted HELLO** is recorded in the queue of the receiving interface. -/
theorem pwospfOnreceiveHello_links {env : Env} {r : Router} {pi : PacketInfo}
    (h : helloAccepted (r.interface pi.interface) pi = true) :
    (r.setNeighbours pi.interface
      (recordHello env pi (r.interface pi.interface).neighbours)).SameLinks
        (pwospfOnreceiveHello env r pi) := by
  unfold pwospfOnreceiveHello
  rw [if_neg (not_not.2 h)]
  simp only
  split
  · rename_i n hn
    have hset := set_eq_upsert (PwospfListEntry.greet env pi.hello)
      (newHelloEntry env pi.hello pi.ipv4.src_ip) env.newneighbour hn
    rw [hset]
    split
    · exact announce_links ..
    · exact .refl _
  · rename_i hn
    have happend := append_eq_upsert (PwospfListEntry.greet env pi.hello)
      (newHelloEntry env pi.hello pi.ipv4.src_ip) hn
    rw [happend]
    exact announce_links ..

theorem announce_arp_cache (env : Env) (r : Router) : (announce env r).arp_cache = r.arp_cache := by
  obtain ⟨_, _, _, _, harp, _⟩ := announce_effect env r
  exact harp

theorem pwospfOnreceiveHello_arp_cache (env : Env) (r : Router) (pi : PacketInfo) :
    (pwospfOnreceiveHello env r pi).arp_cache = r.arp_cache := by
  unfold pwospfOnreceiveHello
  simp only
  split
  · rfl
  · split
    · split
      · exact announce_arp_cache ..
      · rfl
    · exact announce_arp_cache ..

namespace PwospfPacketHello

/-- The bytes in front of the checksum field. -/
def front (hello : PwospfPacketHello) : List Byte :=
  u8.enc hello.pwospf_header.version ++ (u8.enc hello.pwospf_header.type ++
    (u16le.enc hello.pwospf_header.len ++ (u32le.enc hello.pwospf_header.router_id ++
      u32le.enc hello.pwospf_header.area_id)))

/-- The bytes behind the checksum field. -/
def back (hello : PwospfPacketHello) : List Byte :=
  u16le.enc hello.pwospf_header.autotype ++ (u32le.enc hello.pwospf_header.auth_type ++
    (u32le.enc hello.pwospf_header.auth_data ++ (u32le.enc hello.netmask ++
      (u16le.enc hello.helloint ++ u16le.enc hello.padding))))

theorem enc_split (hello : PwospfPacketHello) :
    layout.enc hello = hello.front ++ (u16le.enc hello.pwospf_header.checksum ++ hello.back) := by
  unfold front back
  simp only [List.append_assoc]
  rfl

theorem front_length (hello : PwospfPacketHello) : hello.front.length = 12 := rfl

theorem back_length (hello : PwospfPacketHello) : hello.back.length = 18 := rfl

end PwospfPacketHello

theorem generatePwospfHelloHeader_valid (rid aid netmask : BitVec 32) :
    generatechecksum (PwospfPacketHello.layout.enc
      (generatePwospfHelloHeader rid aid netmask)) = 0 := by
  generalize hhello : generatePwospfHelloHeader rid aid netmask = hello
  have hchecksum : hello.pwospf_header.checksum = generatechecksum
      (hello.front ++ (u16le.enc 0 ++ hello.back)) := by
    subst hhello
    unfold generatePwospfHelloHeader
    simp only
    rw [PwospfPacketHello.enc_split]
    rfl
  rw [PwospfPacketHello.enc_split, hchecksum]
  exact generatechecksum_store (by rw [PwospfPacketHello.front_length])
    (by rw [PwospfPacketHello.front_length, PwospfPacketHello.back_length]; decide)

/-- A HELLO as it arrives is the one that was sent. -/
theorem arrival_hello {r : Router} {i : Nat} {pi : PacketInfo}
    (hpi : pi.packet = (helloFrame r i).packet) :
    pi.hello = generatePwospfHelloHeader r.pw_router.router_id 0 (r.interface i).subnet_mask ∧
      pi.ipv4.src_ip = (r.interface i).ip ∧
      generatechecksum ((pi.packet.drop 34).take 32) = 0 := by
  have hpay : pi.packet.drop 34 = PwospfPacketHello.layout.enc
      (generatePwospfHelloHeader r.pw_router.router_id 0 (r.interface i).subnet_mask) := by
    rw [hpi]
    exact PacketInfo.ofParts_payload ..
  refine ⟨?_, ?_, ?_⟩
  · have hdec := PwospfPacketHello.layout.dec_append
      (generatePwospfHelloHeader r.pw_router.router_id 0 (r.interface i).subnet_mask) []
    rw [List.append_nil] at hdec
    unfold PacketInfo.hello Layout.load
    rw [hpay, hdec]
  · have hip : pi.ipv4 = (helloFrame r i).ipv4 := by
      unfold PacketInfo.ipv4
      rw [hpi]
    rw [hip]
    exact congrArg PacketIp4.src_ip (PacketInfo.ofParts_ipv4 ..)
  · have hlen : (pi.packet.drop 34).length ≤ 32 := by
      rw [hpay]
      exact Nat.le_of_eq (Layout.enc_length ..)
    rw [List.take_of_length_le hlen, hpay]
    exact generatePwospfHelloHeader_valid ..

/-- **A HELLO is accepted** on a link with the same mask and interval. -/
theorem helloFrame_accepted {r : Router} {i : Nat} {pi : PacketInfo} {f : Interface}
    (hpi : pi.packet = (helloFrame r i).packet) (hmask : (r.interface i).subnet_mask = f.subnet_mask)
    (hint : f.helloint = helloint) : helloAccepted f pi = true := by
  obtain ⟨hhello, _, hsum⟩ := arrival_hello hpi
  unfold helloAccepted
  rw [hsum, hhello, hint]
  simp only [Bool.and_eq_true, decide_eq_true_eq]
  exact ⟨⟨trivial, hmask⟩, ntohs_htons helloint⟩

end BirRouter
