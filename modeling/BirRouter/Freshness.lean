import BirRouter.Lib.Trace
import BirRouter.LsuRoundTrip

/-!
# What a database entry holds after LSUs in any order

One router originates LSUs with increasing sequence numbers; copies of them arrive on one interface
in any order, any number of times.  `pwospf_onreceive_link` compares sequence numbers for equality
only, so the entry of the originator follows the LSU delivered last, not the newest one.

* `HoldsLsu` — the entry has the sequence number and the LSAs of LSU `k`;
* `holdsLsu_step` — after a delivery it holds the LSU delivered;
* `lsu_database_follows` — hence in-order delivery never moves it back and ends with the newest;
* `lsu_database_older` — and delivery in another order does.
-/

set_option autoImplicit false

namespace BirRouter

open ByteLayout FirstMatch Trace

/-! ## LSUs of one router -/

/-- A copy of LSU number `k` of router `id`, numbered from `first` on, arrives on interface `j`. -/
structure LsuCopy (lsus : List (List PwospfLsa)) (first : Nat) (id : BitVec 32) (j k : Nat)
    (pi : PacketInfo) : Prop where
  interface : pi.interface = j
  intact : linkIntact pi = true
  router_id : pi.link.pwospf_header.router_id = id
  seq : pi.link.seq = htons (BitVec.ofNat 16 (first + k))
  count : 0 ≤ pi.link.payloadCount
  lsas : lsus[k]? = some (pi.lsas pi.link.payloadCount.toNat)

structure Delivery where
  env : Env
  number : Nat
  pi : PacketInfo

/-- The copy is handed to `pwospf_onreceive_link`. -/
def Delivers (lsus : List (List PwospfLsa)) (first : Nat) (id : BitVec 32) (j : Nat)
    (r : Router) (d : Delivery) (r' : Router) : Prop :=
  LsuCopy lsus first id j d.number d.pi ∧ pwospfOnreceiveLink d.env r d.pi = some r'

/-- The LSAs are the same to `compare_lsus`. -/
def SameLsas (stored payload : List PwospfLsa) : Prop :=
  stored.length = payload.length ∧ compareLsus stored payload = true

theorem SameLsas.refl (payload : List PwospfLsa) : SameLsas payload payload :=
  ⟨rfl, by unfold compareLsus; simp⟩

/-- Without repetitions that is the same LSAs in some order. -/
theorem SameLsas.perm {stored payload : List PwospfLsa} (h : SameLsas stored payload)
    (hd : stored.Nodup) : stored.Perm payload := by
  have hsub : stored ⊆ payload := by
    intro lsa hlsa
    have hall := h.2
    unfold compareLsus at hall
    rw [List.all_eq_true] at hall
    exact of_decide_eq_true (hall lsa hlsa)
  exact (List.subperm_of_subset hd hsub).perm_of_length_le (Nat.le_of_eq h.1.symm)

/-- The entry of router `id` has the sequence number of LSU `k`, and the LSAs of one of the LSUs,
which are the same as those of LSU `k`. -/
def HoldsLsu (lsus : List (List PwospfLsa)) (first : Nat) (id : BitVec 32) (k : Nat)
    (neighbours : List PwospfListEntry) : Prop :=
  ∃ entry, entryOf neighbours id = some entry ∧
    entry.lsu_lastseq = htons (BitVec.ofNat 16 (first + k)) ∧
    (∃ lsas ∈ lsus, entry.lsu_lastcontents.lsas = complete id lsas) ∧
    SameLsas entry.lsu_lastcontents.lsas (complete id (lsus.getD k []))

/-- For LSUs that list no LSA twice, the stored LSAs are those of LSU `k` in some order. -/
theorem HoldsLsu.perm {lsus : List (List PwospfLsa)} {first : Nat} {id : BitVec 32} {k : Nat}
    {neighbours : List PwospfListEntry} (h : HoldsLsu lsus first id k neighbours)
    (hd : ∀ lsas ∈ lsus, (complete id lsas).Nodup) :
    ∃ entry, entryOf neighbours id = some entry ∧
      entry.lsu_lastcontents.lsas.Perm (complete id (lsus.getD k [])) := by
  obtain ⟨entry, hentry, _, ⟨lsas, hlsas, hstored⟩, hsame⟩ := h
  exact ⟨entry, hentry, hsame.perm (hstored ▸ hd lsas hlsas)⟩

section Deliveries

variable {lsus : List (List PwospfLsa)} {first : Nat} {id : BitVec 32} {j k : Nat}
  {pi : PacketInfo}

theorem LsuCopy.lt (h : LsuCopy lsus first id j k pi) : k < lsus.length :=
  (List.getElem?_eq_some_iff.1 h.lsas).1

theorem LsuCopy.mem (h : LsuCopy lsus first id j k pi) : lsus.getD k [] ∈ lsus := by
  rw [List.getD_eq_getElem?_getD, h.lsas]
  exact List.mem_of_getElem? h.lsas

theorem LsuCopy.lsu (h : LsuCopy lsus first id j k pi) :
    pi.lsu = complete id (lsus.getD k []) := by
  unfold PacketInfo.lsu
  rw [h.router_id, List.getD_eq_getElem?_getD, h.lsas]
  rfl

/-- Different LSUs have different sequence numbers. -/
theorem seq_injective (hfirst : first + lsus.length ≤ 65536) {k' : Nat} (hk : k < lsus.length)
    (hk' : k' < lsus.length)
    (h : htons (BitVec.ofNat 16 (first + k)) = htons (BitVec.ofNat 16 (first + k'))) : k = k' := by
  have h' := congrArg ntohs h
  rw [ntohs_htons, ntohs_htons] at h'
  have hn := congrArg BitVec.toNat h'
  rw [BitVec.toNat_ofNat, BitVec.toNat_ofNat, Nat.mod_eq_of_lt (by omega),
    Nat.mod_eq_of_lt (by omega)] at hn
  omega

theorem store_lsas (c : LsuContents) (payload : List PwospfLsa) :
    (c.store payload).lsas = payload := by
  cases c with
  | null => rfl
  | valid old =>
    unfold LsuContents.store
    simp only
    split
    · rename_i h
      rw [h.1]
      rfl
    · rfl
  | dangling old => rfl

/-- The entry after an LSU that was not dropped has new contents, or had the same before. -/
theorem record_holds (env : Env) (link : PwospfPacketLink) (payload : List PwospfLsa)
    (entry : PwospfListEntry) :
    (entry.record env link payload).lsu_lastseq = link.seq ∧
      SameLsas (entry.record env link payload).lsu_lastcontents.lsas payload ∧
      ((entry.record env link payload).lsu_lastcontents.lsas = payload ∨
        entry.lsu_lastcontents.present = true ∧
          (entry.record env link payload).lsu_lastcontents = entry.lsu_lastcontents) := by
  unfold PwospfListEntry.record
  split
  · rename_i h
    exact ⟨rfl, h.2, .inr ⟨h.1, rfl⟩⟩
  · have hstored : (entry.learn env link payload).lsu_lastcontents.lsas = payload := store_lsas ..
    rw [hstored]
    exact ⟨rfl, .refl payload, .inl rfl⟩

/-- Before any LSU of the router: no entry, or one without contents. -/
def NoLsuYet (id : BitVec 32) (neighbours : List PwospfListEntry) : Prop :=
  ∀ entry, entryOf neighbours id = some entry → entry.lsu_lastcontents = .null

theorem holdsLsu_recordLsu (h : LsuCopy lsus first id j k pi) (env : Env)
    {l : List PwospfListEntry}
    (hbefore : NoLsuYet id l ∨ ∃ k < lsus.length, HoldsLsu lsus first id k l) :
    HoldsLsu lsus first id k (recordLsu env pi l) := by
  have hfind := entryOf_recordLsu env pi l
  rw [h.router_id] at hfind
  refine ⟨_, hfind, ?_⟩
  cases hentry : entryOf l id with
  | none =>
    have hstored : (newLinkEntry env pi.link pi.ipv4.src_ip pi.lsu).lsu_lastcontents.lsas
        = complete id (lsus.getD k []) := h.lsu
    refine ⟨h.seq, ⟨_, h.mem, hstored⟩, ?_⟩
    show SameLsas (newLinkEntry env pi.link pi.ipv4.src_ip pi.lsu).lsu_lastcontents.lsas _
    rw [hstored]
    exact .refl _
  | some entry =>
    obtain ⟨hseq, hsame, hstored⟩ := record_holds env pi.link pi.lsu entry
    rw [h.lsu] at hseq hsame hstored
    show (entry.record env pi.link pi.lsu).lsu_lastseq = _ ∧ _
    rw [h.lsu]
    refine ⟨hseq.trans h.seq, ?_, hsame⟩
    rcases hstored with hnew | ⟨hpresent, hold⟩
    · exact ⟨_, h.mem, hnew⟩
    · rcases hbefore with hnone | ⟨_, _, entry', hentry', _, hsource, _⟩
      · rw [hnone entry hentry] at hpresent
        cases hpresent
      · rw [hentry] at hentry'
        cases hentry'
        show ∃ lsas ∈ lsus, (entry.record env pi.link
          (complete id (lsus.getD k []))).lsu_lastcontents.lsas = complete id lsas
        rw [hold]
        exact hsource

/-- The states of a router with identity `own` between deliveries. -/
def Tracking (lsus : List (List PwospfLsa)) (first : Nat) (id : BitVec 32) (j : Nat)
    (own : PwospfRouter) (r : Router) : Prop :=
  r.pw_router = own ∧ (NoLsuYet id (r.interface j).neighbours ∨
    ∃ k < lsus.length, HoldsLsu lsus first id k (r.interface j).neighbours)

/-- **Step lemma**: after a delivery the entry holds the LSU delivered. -/
theorem holdsLsu_step (hfirst : first + lsus.length ≤ 65536) {own : PwospfRouter}
    (hid : id ≠ own.router_id) {r r' : Router} {d : Delivery}
    (hbefore : Tracking lsus first id j own r) (h : Delivers lsus first id j r d r') :
    HoldsLsu lsus first id d.number (r'.interface j).neighbours ∧
      Tracking lsus first id j own r' := by
  obtain ⟨rfl, hbefore⟩ := hbefore
  obtain ⟨hcopy, hrecv⟩ := h
  suffices hs : HoldsLsu lsus first id d.number (r'.interface j).neighbours ∧
      r'.pw_router = r.pw_router from
    ⟨hs.1, hs.2, .inr ⟨d.number, hcopy.lt, hs.1⟩⟩
  rcases pwospfOnreceiveLink_cases hrecv with ⟨_, heffect⟩ | ⟨hfresh, rfl⟩
  · refine ⟨?_, heffect.links.pw_router⟩
    have hj := hcopy.interface
    subst hj
    rw [congrFun heffect.links.interface, Router.setNeighbours_self]
    exact holdsLsu_recordLsu hcopy d.env hbefore
  · refine ⟨?_, rfl⟩
    -- dropped although intact and foreign: the entry holds this very LSU
    obtain ⟨entry, hentry, hpresent, hseq⟩ : ∃ entry,
        entryOf (r'.interface j).neighbours id = some entry ∧ entry.Duplicate d.pi.link := by
      by_contra hno
      refine hfresh ⟨hcopy.intact, hcopy.router_id ▸ hid, fun entry he hdup => hno ⟨entry, ?_, hdup⟩⟩
      rw [← hcopy.interface, ← hcopy.router_id]
      exact he
    rcases hbefore with hnone | ⟨k, hk, entry', hentry', hseq', hsource', hsame'⟩
    · rw [hnone entry hentry] at hpresent
      cases hpresent
    · rw [hentry] at hentry'
      cases hentry'
      have hkd : k = d.number :=
        seq_injective hfirst hk hcopy.lt (hseq'.symm.trans (hseq.trans hcopy.seq))
      subst hkd
      exact ⟨entry, hentry, hseq', hsource', hsame'⟩

/-- **Run lemma.** -/
theorem holdsLsu_run (hfirst : first + lsus.length ≤ 65536) {r₀ r : Router}
    (hid : id ≠ r₀.pw_router.router_id) (hstart : NoLsuYet id (r₀.interface j).neighbours)
    {ds : List Delivery} {d : Delivery}
    (h : Exec (Delivers lsus first id j) r₀ (ds ++ [d]) r) :
    HoldsLsu lsus first id d.number (r.interface j).neighbours := by
  obtain ⟨t, ht, hs⟩ := h.last
  have hbefore : Tracking lsus first id j r₀.pw_router t := by
    refine ht.invariant (I := Tracking lsus first id j r₀.pw_router) ⟨rfl, .inl hstart⟩ ?_
    intro t d u ht hs
    exact (holdsLsu_step hfirst hid ht hs).2
  exact (holdsLsu_step hfirst hid hbefore hs).1

/-- **The entry follows the LSU delivered last.**  So if the LSUs arrive in order, repetitions
allowed, it never moves back, and once all have arrived it holds the newest. -/
theorem lsu_database_follows (hfirst : first + lsus.length ≤ 65536) {r₀ r : Router}
    (hid : id ≠ r₀.pw_router.router_id) (hstart : NoLsuYet id (r₀.interface j).neighbours)
    {ds : List Delivery} {d : Delivery}
    (h : Exec (Delivers lsus first id j) r₀ (ds ++ [d]) r) :
    HoldsLsu lsus first id d.number (r.interface j).neighbours ∧
    ((∀ lsas ∈ lsus, (complete id lsas).Nodup) →
      ∃ entry, entryOf (r.interface j).neighbours id = some entry ∧
        entry.lsu_lastcontents.lsas.Perm (complete id (lsus.getD d.number []))) ∧
    ((ds ++ [d]).Pairwise (fun a b => a.number ≤ b.number) →
      (∀ earlier a later, ds = earlier ++ a :: later →
        ∃ t, Exec (Delivers lsus first id j) r₀ (earlier ++ [a]) t ∧
          HoldsLsu lsus first id a.number (t.interface j).neighbours ∧ a.number ≤ d.number) ∧
      ((∀ k < lsus.length, ∃ a ∈ ds ++ [d], a.number = k) →
        HoldsLsu lsus first id (lsus.length - 1) (r.interface j).neighbours)) := by
  have hholds := holdsLsu_run hfirst hid hstart h
  refine ⟨hholds, hholds.perm, ?_⟩
  intro hordered
  have hle : ∀ a ∈ ds, a.number ≤ d.number := fun a ha =>
    (List.pairwise_append.1 hordered).2.2 a ha d (List.mem_singleton.2 rfl)
  refine ⟨?_, fun hall => ?_⟩
  · rintro earlier a later rfl
    have hcut : earlier ++ a :: later ++ [d] = (earlier ++ [a]) ++ (later ++ [d]) := by simp
    rw [hcut] at h
    obtain ⟨t, ht, _⟩ := h.split
    exact ⟨t, ht, holdsLsu_run hfirst hid hstart ht, hle a (by simp)⟩
  · obtain ⟨_, _, hs⟩ := h.last
    have hlt := hs.1.lt
    obtain ⟨a, ha, hnum⟩ := hall (lsus.length - 1) (by omega)
    have hlast : d.number = lsus.length - 1 := by
      rcases List.mem_append.1 ha with ha | ha
      · have := hle a ha
        omega
      · rw [List.mem_singleton.1 ha] at hnum
        exact hnum
    rw [← hlast]
    exact hholds

end Deliveries

/-! ## Two LSUs of the small router

The second one lists one more link. -/

def sampleLsus : List (List PwospfLsa) :=
  [[⟨ipConvert 10 0 0 0, ipConvert 255 0 0 0, 0⟩],
    [⟨ipConvert 10 0 0 0, ipConvert 255 0 0 0, 0⟩,
      ⟨ipConvert 192 168 1 0, ipConvert 255 255 255 0, 0⟩]]

def sampleLsu (k : Nat) : PacketInfo :=
  lsaFrame { smallRouter with hid := BitVec.ofNat 16 k } (sampleLsus.getD k []) 1 smallNeighbour

theorem sampleLsu_copy {k : Nat} (hk : k < 2) :
    LsuCopy sampleLsus 0 smallRouter.pw_router.router_id 1 k (sampleLsu k) := by
  have hpi : (sampleLsu k).packet = (lsaFrame { smallRouter with hid := BitVec.ofNat 16 k }
    (sampleLsus.getD k []) 1 smallNeighbour).packet := rfl
  have hfit : 52 + (sampleLsus.getD k []).length * 12 ≤ 65535 := by
    rcases (by omega : k = 0 ∨ k = 1) with rfl | rfl <;> decide
  have hcount := arrival_count hpi hfit
  refine ⟨rfl, arrival_intact hpi hfit, ?_, ?_, ?_, ?_⟩
  · rw [arrival_link hpi]
    rfl
  · rw [arrival_link hpi, Nat.zero_add]
    rfl
  · rw [hcount]
    exact Int.natCast_nonneg _
  · rw [hcount, Int.toNat_natCast, arrival_lsas hpi]
    rcases (by omega : k = 0 ∨ k = 1) with rfl | rfl <;> rfl

def sampleDelivery (k : Nat) : Delivery := ⟨smallEnv, k, sampleLsu k⟩

theorem sampleDelivery_step {k : Nat} (hk : k < 2) (r : Router) :
    ∃ r', Delivers sampleLsus 0 smallRouter.pw_router.router_id 1 r (sampleDelivery k) r' := by
  obtain ⟨r', hr'⟩ := pwospfOnreceiveLink_total smallEnv r (sampleLsu_copy hk).count
  exact ⟨r', sampleLsu_copy hk, hr'⟩

theorem sampleReceiver_start :
    NoLsuYet smallRouter.pw_router.router_id (smallReceiver.interface 1).neighbours :=
  fun entry he => by cases he

/-- Both LSUs in order: the neighbour ends up with the second one. -/
theorem lsu_database_follows_sample :
    ∃ r, Exec (Delivers sampleLsus 0 smallRouter.pw_router.router_id 1) smallReceiver
        [sampleDelivery 0, sampleDelivery 1] r ∧
      HoldsLsu sampleLsus 0 smallRouter.pw_router.router_id 1 (r.interface 1).neighbours := by
  obtain ⟨t, ht⟩ := sampleDelivery_step (show 0 < 2 by decide) smallReceiver
  obtain ⟨r, hr⟩ := sampleDelivery_step (show 1 < 2 by decide) t
  have hrun : Exec (Delivers sampleLsus 0 smallRouter.pw_router.router_id 1) smallReceiver
      ([sampleDelivery 0] ++ [sampleDelivery 1]) r := .cons ht (.cons hr .nil)
  have hordered : ([sampleDelivery 0] ++ [sampleDelivery 1]).Pairwise
      fun a b => a.number ≤ b.number := by simp [sampleDelivery]
  have hfollows := lsu_database_follows (by decide) (by decide) sampleReceiver_start hrun
  refine ⟨r, hrun, (hfollows.2.2 hordered).2 ?_⟩
  intro k hk
  rcases (show k = 0 ∨ k = 1 by simp [sampleLsus] at hk; omega) with rfl | rfl
  · exact ⟨sampleDelivery 0, by simp, rfl⟩
  · exact ⟨sampleDelivery 1, by simp, rfl⟩

/-- **The second LSU before the first**: the entry moves from the newer contents to the older ones
and keeps them after both have arrived. -/
theorem lsu_database_older :
    ∃ t r, Exec (Delivers sampleLsus 0 smallRouter.pw_router.router_id 1) smallReceiver
        [sampleDelivery 1] t ∧
      HoldsLsu sampleLsus 0 smallRouter.pw_router.router_id 1 (t.interface 1).neighbours ∧
      Exec (Delivers sampleLsus 0 smallRouter.pw_router.router_id 1) smallReceiver
        [sampleDelivery 1, sampleDelivery 0] r ∧
      HoldsLsu sampleLsus 0 smallRouter.pw_router.router_id 0 (r.interface 1).neighbours ∧
      ∃ entry, entryOf (r.interface 1).neighbours smallRouter.pw_router.router_id = some entry ∧
        ¬ SameLsas entry.lsu_lastcontents.lsas
          (complete smallRouter.pw_router.router_id (sampleLsus.getD 1 [])) := by
  obtain ⟨t, ht⟩ := sampleDelivery_step (show 1 < 2 by decide) smallReceiver
  obtain ⟨r, hr⟩ := sampleDelivery_step (show 0 < 2 by decide) t
  have hrun₁ : Exec (Delivers sampleLsus 0 smallRouter.pw_router.router_id 1) smallReceiver
      ([] ++ [sampleDelivery 1]) t := .cons ht .nil
  have hrun₂ : Exec (Delivers sampleLsus 0 smallRouter.pw_router.router_id 1) smallReceiver
      ([sampleDelivery 1] ++ [sampleDelivery 0]) r := .cons ht (.cons hr .nil)
  have hnewer := holdsLsu_run (by decide) (by decide) sampleReceiver_start hrun₁
  have hholds := holdsLsu_run (by decide) (by decide) sampleReceiver_start hrun₂
  refine ⟨t, r, hrun₁, hnewer, hrun₂, hholds, ?_⟩
  obtain ⟨entry, hentry, _, _, hsame⟩ := hholds
  refine ⟨entry, hentry, ?_⟩
  intro hsame'
  exact absurd (hsame.1.symm.trans hsame'.1) (by decide)

end BirRouter
