import BirRouter.LsuRoundTrip

/-!
# The checks on a received LSU (`pwospf.c`)

What `pwospf_onreceive_link` lets pass, and which changes it notices.

* `lsu_length_check_iff` — the length check holds for every advertised count but -1 and -2: for them
  the needed length wraps around to 54 and 42 bytes, and the checksum covers a part of the header;
* `compareLsus_perm` — `compare_lsus` looks only for the stored LSAs in the payload, which is enough
  for stored arrays without repetitions;
* `changed_lsu_noticed_iff` — an LSU with other contents replaces the stored ones unless these are as
  many and all among its own.
-/

set_option autoImplicit false

namespace BirRouter

open ByteLayout FirstMatch

/-! ## The length -/

/-- The first `n` bytes of the PWOSPF part of a frame. -/
def pwospfPart (packet : List Byte) (n : Nat) : List Byte := (packet.drop 34).take n

/-- A count of -1 or -2 whose checksum, over the bytes that are left to sum, is right. -/
def WrapsAround (pi : PacketInfo) : Prop :=
  pi.link.payloadCount = -1 ∧ generatechecksum (pwospfPart pi.packet 20) = 0 ∨
    pi.link.payloadCount = -2 ∧ generatechecksum (pwospfPart pi.packet 8) = 0

/-- A negative count passes the checks only if it wraps around. -/
theorem linkIntact_neg {pi : PacketInfo} (hfits : 66 ≤ pi.packet.length)
    (hneg : pi.link.payloadCount < 0) : linkIntact pi = true ↔ WrapsAround pi := by
  have hge : -2147483648 ≤ pi.link.payloadCount := BitVec.le_toInt _
  have hlen : ∀ n, linkIntact pi = true → (32 + pi.link.payloadCount * 12).toNat = n →
      generatechecksum (pwospfPart pi.packet n) = 0 := by
    rintro n h rfl
    unfold linkIntact at h
    simp only [Bool.and_eq_true, decide_eq_true_eq] at h
    exact h.2
  constructor
  · intro h
    -- a sum over no bytes is no valid checksum
    have hpos : (32 + pi.link.payloadCount * 12).toNat ≠ 0 := by
      intro h0
      have hempty := hlen 0 h h0
      unfold pwospfPart at hempty
      rw [List.take_zero] at hempty
      exact absurd hempty (by decide)
    have hcases : pi.link.payloadCount = -1 ∨ pi.link.payloadCount = -2 := by omega
    rcases hcases with hc | hc
    · exact .inl ⟨hc, hlen 20 h (by rw [hc]; rfl)⟩
    · exact .inr ⟨hc, hlen 8 h (by rw [hc]; rfl)⟩
  · rintro (⟨hc, hsum⟩ | ⟨hc, hsum⟩)
    · unfold linkIntact
      simp only [hc, Bool.and_eq_true, decide_eq_true_eq]
      exact ⟨le_trans (by decide) hfits, hsum⟩
    · unfold linkIntact
      simp only [hc, Bool.and_eq_true, decide_eq_true_eq]
      exact ⟨le_trans (by decide) hfits, hsum⟩

/-- **The length check.**  A frame that reaches `pwospf_onreceive_link` and passes its checks on the
length and the checksum holds all the LSAs it announces, exactly unless its count wraps around. -/
theorem lsu_length_check_iff (env : Env) {r : Router} {pi : PacketInfo} (h : ReachesLink r pi) :
    ipOnreceive env r pi = pwospfOnreceiveLink env r pi ∧
      ((linkIntact pi = true →
          0 ≤ pi.link.payloadCount ∧ 14 + 20 + 32 + 12 * pi.link.payloadCount ≤ pi.packet.length) ↔
        ¬ WrapsAround pi) := by
  refine ⟨h.received env, ?_⟩
  by_cases hneg : pi.link.payloadCount < 0
  · rw [linkIntact_neg h.fits hneg]
    constructor
    · intro hsafe hwraps
      have := (hsafe hwraps).1
      omega
    · intro hno hwraps
      exact absurd hwraps hno
  · have hcount : 0 ≤ pi.link.payloadCount := Int.not_lt.1 hneg
    constructor
    · rintro - (⟨hc, -⟩ | ⟨hc, -⟩)
      · omega
      · omega
    · intro _ hintact
      have hlen := linkIntact_length hintact hcount
      refine ⟨hcount, ?_⟩
      omega

theorem smallLsu_reaches : ReachesLink smallReceiver smallLsu :=
  arrival_reaches rfl (by decide) ⟨0, by decide, rfl⟩ rfl

theorem lsu_length_check_iff_small :
    ReachesLink smallReceiver smallLsu ∧
      ((linkIntact smallLsu = true → 0 ≤ smallLsu.link.payloadCount ∧
          14 + 20 + 32 + 12 * smallLsu.link.payloadCount ≤ smallLsu.packet.length) ↔
        ¬ WrapsAround smallLsu) :=
  ⟨smallLsu_reaches, (lsu_length_check_iff smallEnv smallLsu_reaches).2⟩

/-- An LSU header with a count of -1. -/
def wrappedHeader (checksum : BitVec 16) : PwospfPacketLink where
  pwospf_header :=
    { version := ospfVersion
      type := ospfTypeLink
      len := htons 32
      router_id := ipConvert 10 9 9 9
      area_id := 0
      checksum := checksum
      autotype := 0
      auth_type := 0
      auth_data := 0 }
  seq := htons 1
  ttl := htons 64
  advert := htonl (-1)

/-- The LSU with the checksum of the first 20 bytes of its header, for the small router's neighbour. -/
def wrappedLsu : PacketInfo :=
  .ofParts ⟨AddrMac.broadcast, smallEth1.mac, htons ethIpType⟩
    (generateIpv4Header smallEth1.ip 32 ipTypeOspf smallNeighbour.neighbour_ip)
    (PwospfPacketLink.layout.enc (wrappedHeader
      (generatechecksum ((PwospfPacketLink.layout.enc (wrappedHeader 0)).take 20)))) 1

/-- It gets past the checks, and copying -1 LSAs ends the process. -/
theorem lsu_length_check_wraps :
    ReachesLink smallReceiver wrappedLsu ∧ linkIntact wrappedLsu = true ∧
      wrappedLsu.link.payloadCount = -1 ∧
      ipOnreceive smallEnv smallReceiver wrappedLsu = none := by
  have hlink : wrappedLsu.link = wrappedHeader
      (generatechecksum ((PwospfPacketLink.layout.enc (wrappedHeader 0)).take 20)) := by
    have h := PacketInfo.ofParts_link ⟨AddrMac.broadcast, smallEth1.mac, htons ethIpType⟩
      (generateIpv4Header smallEth1.ip 32 ipTypeOspf smallNeighbour.neighbour_ip) (wrappedHeader
        (generatechecksum ((PwospfPacketLink.layout.enc (wrappedHeader 0)).take 20))) [] 1
    rw [List.append_nil] at h
    exact h
  have hcount : wrappedLsu.link.payloadCount = -1 := by
    rw [hlink]
    decide
  have hip : wrappedLsu.ipv4 =
      generateIpv4Header smallEth1.ip 32 ipTypeOspf smallNeighbour.neighbour_ip :=
    PacketInfo.ofParts_ipv4 ..
  have hreach : ReachesLink smallReceiver wrappedLsu := by
    constructor
    case header => rw [hip]; decide +kernel
    case protocol => rw [hip]; rfl
    case here => rw [hip]; exact .inr ⟨⟨0, by decide, rfl⟩, by decide⟩
    case fits => decide
    case version => rw [hlink]; rfl
    case area => rw [hlink]; decide
    case auth_type => rw [hlink]; rfl
    case type => rw [hlink]; rfl
  have hintact : linkIntact wrappedLsu = true :=
    (linkIntact_neg hreach.fits (by omega)).2 (.inl ⟨hcount, by decide +kernel⟩)
  refine ⟨hreach, hintact, hcount, ?_⟩
  rw [hreach.received]
  refine pwospfOnreceiveLink_died ⟨hintact, ?_, ?_⟩ (by omega)
  · rw [hlink]
    decide
  · intro entry he
    cases he

/-! ## The contents -/

theorem compareLsus_iff (a b : List PwospfLsa) : compareLsus a b = true ↔ a ⊆ b := by
  unfold compareLsus
  rw [List.all_eq_true]
  exact forall₂_congr fun lsa _ => decide_eq_true_iff

/-- **`compare_lsus`** tells arrays of one length apart that are no permutations of each other,
provided that the first one has no repetitions. -/
theorem compareLsus_perm {a b : List PwospfLsa} (ha : a.Nodup) (hlen : a.length = b.length)
    (h : compareLsus a b = true) : a.Perm b :=
  (List.subperm_of_subset ha ((compareLsus_iff a b).1 h)).perm_of_length_le hlen.ge

/-- As many LSAs are stored as the payload has, and all of them are in the payload. -/
structure PwospfListEntry.StoredWithin (payload : List PwospfLsa) (entry : PwospfListEntry) :
    Prop where
  present : entry.lsu_lastcontents.present = true
  length : entry.lsu_lastcontents.lsas.length = payload.length
  subset : entry.lsu_lastcontents.lsas ⊆ payload

theorem repeats_iff (payload : List PwospfLsa) (entry : PwospfListEntry) :
    entry.Repeats payload ↔ entry.StoredWithin payload := by
  constructor
  · rintro ⟨hpresent, hlen, hcompare⟩
    exact ⟨hpresent, hlen, (compareLsus_iff ..).1 hcompare⟩
  · rintro ⟨hpresent, hlen, hsubset⟩
    exact ⟨hpresent, hlen, (compareLsus_iff ..).2 hsubset⟩

/-- Storing a payload makes it the contents. -/
theorem LsuContents.store_lsas (c : LsuContents) (payload : List PwospfLsa) :
    (c.store payload).lsas = payload := by
  cases c with
  | null => rfl
  | dangling l => rfl
  | valid old =>
    show (if payload = [] ∧ old ≠ [] then LsuContents.null else .valid payload).lsas = payload
    split
    · rename_i hempty
      exact hempty.1.symm
    · rfl

/-- The LSU replaces the contents stored for its originator, and the router computes its routes and
announces its links anew. -/
def Notices (env : Env) (r : Router) (pi : PacketInfo) : Prop :=
  ∃ r₁ entry, pwospfOnreceiveLink env r pi = some (announce env r₁) ∧
    entryOf (r₁.interface pi.interface).neighbours pi.link.pwospf_header.router_id = some entry ∧
    entry.lsu_lastcontents.lsas = pi.lsu

section Known

variable {env : Env} {r : Router} {pi : PacketInfo} {entry : PwospfListEntry}
  (he : entryOf (r.interface pi.interface).neighbours pi.link.pwospf_header.router_id = some entry)

include he

theorem recordedKnown_entry :
    entryOf ((recordedKnown env r pi entry).interface pi.interface).neighbours
      pi.link.pwospf_header.router_id = some (entry.record env pi.link pi.lsu) := by
  unfold recordedKnown
  rw [Router.setNeighbours_self, entryOf_recordLsu, he]
  rfl

/-- An LSU that differs for `compare_lsus` is noticed. -/
theorem notices_of_not_repeats (h : Refloods r pi) (hcount : 0 ≤ pi.link.payloadCount)
    (hnew : ¬ entry.Repeats pi.lsu) : Notices env r pi := by
  refine ⟨recordedKnown env r pi entry, _, ?_, recordedKnown_entry he, ?_⟩
  · rw [pwospfOnreceiveLink_known h hcount he, if_neg hnew]
  · have hrec : entry.record env pi.link pi.lsu = entry.learn env pi.link pi.lsu := if_neg hnew
    rw [hrec]
    exact LsuContents.store_lsas ..

/-- One that does not leaves the stored contents. -/
theorem stored_of_repeats (h : Refloods r pi) (hcount : 0 ≤ pi.link.payloadCount)
    (hsame : entry.Repeats pi.lsu) (hn : Notices env r pi) :
    entry.lsu_lastcontents.lsas = pi.lsu := by
  obtain ⟨r₁, entry₁, hr₁, he₁, hlsas⟩ := hn
  rw [pwospfOnreceiveLink_known h hcount he, if_pos hsame] at hr₁
  have hlinks := (announce_links env r₁).interface
  rw [← Option.some.inj hr₁] at hlinks
  rw [← hlinks, recordedKnown_entry he] at he₁
  have hrec : entry.record env pi.link pi.lsu = entry.refresh env pi.link := if_pos hsame
  rw [← Option.some.inj he₁, hrec] at hlsas
  exact hlsas

end Known

/-- **Changed LSUs.**  For a router in the queue, an LSU with a new sequence number and a different
multiset of LSAs is noticed exactly if its count is not negative and the stored LSAs are not as many
as its own and all among them; so only stored contents with repetitions can hide a change. -/
theorem changed_lsu_noticed_iff (env : Env) {r : Router} {pi : PacketInfo} {entry : PwospfListEntry}
    (h : Refloods r pi) (he : entryOf (r.interface pi.interface).neighbours
      pi.link.pwospf_header.router_id = some entry) :
    ((¬ entry.lsu_lastcontents.lsas.Perm pi.lsu → Notices env r pi) ↔
        entry.lsu_lastcontents.lsas.Perm pi.lsu ∨
          0 ≤ pi.link.payloadCount ∧ ¬ entry.StoredWithin pi.lsu) ∧
      (entry.lsu_lastcontents.lsas.Nodup → entry.StoredWithin pi.lsu →
        entry.lsu_lastcontents.lsas.Perm pi.lsu) := by
  rw [← repeats_iff]
  refine ⟨⟨?_, ?_⟩, ?_⟩
  · intro hnotice
    by_cases hperm : entry.lsu_lastcontents.lsas.Perm pi.lsu
    · exact .inl hperm
    · have hn := hnotice hperm
      have hcount : 0 ≤ pi.link.payloadCount := by
        by_contra hneg
        obtain ⟨r₁, _, hr₁, _⟩ := hn
        rw [pwospfOnreceiveLink_died h (Int.not_le.1 hneg)] at hr₁
        cases hr₁
      refine .inr ⟨hcount, fun hsame => hperm ?_⟩
      rw [stored_of_repeats he h hcount hsame hn]
  · rintro (hperm | ⟨hcount, hnew⟩) hdiff
    · exact absurd hperm hdiff
    · exact notices_of_not_repeats he h hcount hnew
  · intro hnodup hsame
    exact compareLsus_perm hnodup hsame.2.1 hsame.2.2

/-- What the receiver of the small router's LSU may have stored for it. -/
def storedEntry (lsas : List PwospfLsa) : PwospfListEntry :=
  { smallNeighbour with
    neighbour_id := smallRouter.pw_router.router_id
    neighbour_ip := smallEth1.ip
    lsu_lastseq := 7
    lsu_lastcontents := .valid lsas }

def storedReceiver (lsas : List PwospfLsa) : Router :=
  { smallReceiver with
    interface := fun i => { smallReceiver.interface i with neighbours := [storedEntry lsas] } }

/-- The LSA of the small router's first interface. -/
def smallLsa : PwospfLsa := ⟨ipConvert 10 0 0 0, ipConvert 255 0 0 0, smallRouter.pw_router.router_id⟩

theorem storedReceiver_refloods (lsas : List PwospfLsa) :
    Refloods (storedReceiver lsas) smallLsu ∧
      entryOf ((storedReceiver lsas).interface smallLsu.interface).neighbours
        smallLsu.link.pwospf_header.router_id = some (storedEntry lsas) := by
  have hlink : smallLsu.link = _ := arrival_link rfl
  have hentry : entryOf ((storedReceiver lsas).interface smallLsu.interface).neighbours
      smallLsu.link.pwospf_header.router_id = some (storedEntry lsas) := by
    rw [hlink]
    rfl
  refine ⟨⟨arrival_intact rfl (by decide), ?_, ?_⟩, hentry⟩
  · rw [hlink]
    show smallRouter.pw_router.router_id ≠ smallReceiver.pw_router.router_id
    decide
  · intro entry he hdup
    rw [hentry] at he
    cases he
    have hseq : (7 : BitVec 16) = smallLsu.link.seq := hdup.2
    rw [hlink] at hseq
    exact absurd hseq (by decide)

theorem changed_lsu_noticed_iff_sample :
    (¬ [smallLsa].Perm smallLsu.lsu → Notices smallEnv (storedReceiver [smallLsa]) smallLsu) ↔
      [smallLsa].Perm smallLsu.lsu ∨
        0 ≤ smallLsu.link.payloadCount ∧ ¬ (storedEntry [smallLsa]).StoredWithin smallLsu.lsu :=
  (changed_lsu_noticed_iff smallEnv (storedReceiver_refloods [smallLsa]).1
    (storedReceiver_refloods [smallLsa]).2).1

/-- Three times the same LSA is stored: the LSU with that one and two others is not noticed. -/
theorem changed_lsu_ignored :
    Refloods (storedReceiver [smallLsa, smallLsa, smallLsa]) smallLsu ∧
      entryOf ((storedReceiver [smallLsa, smallLsa, smallLsa]).interface smallLsu.interface).neighbours
        smallLsu.link.pwospf_header.router_id = some (storedEntry [smallLsa, smallLsa, smallLsa]) ∧
      ¬ [smallLsa, smallLsa, smallLsa].Perm smallLsu.lsu ∧
      ¬ Notices smallEnv (storedReceiver [smallLsa, smallLsa, smallLsa]) smallLsu := by
  have hlsu : smallLsu.lsu = complete smallRouter.pw_router.router_id (getTopology smallRouter) :=
    arrival_lsu rfl (by decide)
  have hcount : smallLsu.link.payloadCount = (getTopology smallRouter).length :=
    arrival_count rfl (by decide)
  obtain ⟨hrefl, he⟩ := storedReceiver_refloods [smallLsa, smallLsa, smallLsa]
  have hsame : (storedEntry [smallLsa, smallLsa, smallLsa]).Repeats smallLsu.lsu := by
    rw [hlsu]
    decide
  have hdiff : ¬ [smallLsa, smallLsa, smallLsa].Perm smallLsu.lsu := by
    rw [hlsu]
    decide
  refine ⟨hrefl, he, hdiff, fun hn => hdiff ?_⟩
  have hstored := stored_of_repeats he hrefl (by omega) hsame hn
  rw [← hstored]
  exact List.Perm.refl _

end BirRouter
