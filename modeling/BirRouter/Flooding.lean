import BirRouter.Lib.Network
import BirRouter.LinkState
import Mathlib.Data.Fintype.Card
import Mathlib.Data.List.Chain
import Mathlib.Data.List.ProdSigma

/-!
# Flooding

Any number of routers with any wiring; a step delivers one LSU in flight to
`pwospf_onreceive_link`, in any order.  Whether an LSU was seen before is asked on the receiving
interface only, and only of the LSU received there last.

* `floodReact` — the handler as a node of a network, with a log of the LSUs that were not dropped;
* `suppressed_step` — what the neighbour queues know about that log;
* `costs_step` — how many frames an LSU costs a router;
* `Suppressed.count_le_one`, `countP_le_of_count` — what follows for LSUs that arrive in order.
-/

set_option autoImplicit false

namespace BirRouter

open ByteLayout Distinct FirstMatch Trace Network

/-! ## The network -/

/-- An LSU as the duplicate check sees it. -/
structure LsuEvent where
  interface : Nat
  originator : BitVec 32
  seq : BitVec 16
  deriving DecidableEq, Repr

def PacketInfo.event (pi : PacketInfo) : LsuEvent :=
  ⟨pi.interface, pi.link.pwospf_header.router_id, pi.link.seq⟩

instance (r : Router) (pi : PacketInfo) : Decidable (Refloods r pi) :=
  decidable_of_iff (linkIntact pi = true ∧
      pi.link.pwospf_header.router_id ≠ r.pw_router.router_id ∧
      ∀ entry ∈ entryOf (r.interface pi.interface).neighbours pi.link.pwospf_header.router_id,
        ¬ entry.Duplicate pi.link)
    ⟨fun h => ⟨h.1, h.2.1, h.2.2⟩, fun h => ⟨h.1, h.2, h.3⟩⟩

section Model

variable {ι : Type}

/-- Where a frame of router `a` arrives.  What the handler sends besides LSUs is ARP requests, which
are shorter than an LSU header. -/
def Sent.arrivals (link : ι → Nat → List (ι × Nat)) (a : ι) (f : Sent) :
    List (Message ι PacketInfo) :=
  if h : 66 ≤ f.packet.length then
    (link a f.interface).map fun p => ⟨p.1, ⟨f.packet, p.2, by omega⟩⟩
  else []

/-- `pwospf_onreceive_link` in a network: the frames it sends travel along the links. -/
def floodReact (link : ι → Nat → List (ι × Nat)) : React ι Router PacketInfo Env LsuEvent :=
  fun a env r pi =>
    if pi.interface < r.num_interfaces then
      (pwospfOnreceiveLink env r pi).map fun r' =>
        { state := r'
          sent := (r'.sent.drop r.sent.length).flatMap fun f => f.arrivals link a
          events := if Refloods r pi then [pi.event] else [] }
    else none

variable {link : ι → Nat → List (ι × Nat)} {b : ι} {s s' : Router × List LsuEvent}
  {d : Env × PacketInfo}

/-- What a router does with an LSU: it drops it, or refloods it and writes that down. -/
theorem local_cases (h : Local (floodReact link) b s d s') :
    s' = s ∨ d.2.interface < s.1.num_interfaces ∧ Refloods s.1 d.2 ∧
      Refloods.Effect d.1 s.1 d.2 s'.1 ∧ s'.2 = s.2 ++ [d.2.event] := by
  obtain ⟨out, hout, rfl⟩ := h
  unfold floodReact at hout
  split at hout
  · rename_i hint
    obtain ⟨r', hr', rfl⟩ := Option.map_eq_some_iff.1 hout
    rcases pwospfOnreceiveLink_cases hr' with ⟨hrefl, heffect⟩ | ⟨hrefl, rfl⟩
    · exact .inr ⟨hint, hrefl, heffect, by simp only [if_pos hrefl]⟩
    · left
      simp only [if_neg hrefl, List.append_nil]
  · cases hout

/-- The log holds LSUs received, in the order in which they came. -/
theorem log_sublist {s₀ : Router × List LsuEvent} {ds : List (Env × PacketInfo)}
    (h : Exec (Local (floodReact link) b) s₀ ds s) (h0 : s₀.2 = []) :
    s.2.Sublist (ds.map fun d => d.2.event) := by
  refine h.invariant_trace
    (I := fun ds (s : Router × List LsuEvent) => s.2.Sublist (ds.map fun d => d.2.event))
    (by rw [h0]; exact List.nil_sublist _) ?_
  intro ds s d s' hs hstep
  rw [List.map_append]
  rcases local_cases hstep with rfl | ⟨_, _, _, hlog⟩
  · exact hs.trans (List.sublist_append_left _ _)
  · rw [hlog]
    exact hs.append (List.Sublist.refl _)

end Model

/-! ## Duplicates -/

/-- The sequence numbers of the LSUs of router `o` on interface `j`, in order. -/
def seqs (j : Nat) (o : BitVec 32) (l : List LsuEvent) : List (BitVec 16) :=
  (l.filter fun e => e.interface = j ∧ e.originator = o).map LsuEvent.seq

theorem seqs_append_of_pos {e : LsuEvent} (l : List LsuEvent) :
    seqs e.interface e.originator (l ++ [e]) = seqs e.interface e.originator l ++ [e.seq] := by
  unfold seqs
  rw [List.filter_append, List.map_append, List.filter_cons_of_pos (by simp)]
  rfl

theorem seqs_append_of_neg {j : Nat} {o : BitVec 32} {e : LsuEvent} (l : List LsuEvent)
    (h : ¬ (e.interface = j ∧ e.originator = o)) : seqs j o (l ++ [e]) = seqs j o l := by
  unfold seqs
  rw [List.filter_append, List.filter_cons_of_neg (by simpa using h), List.filter_nil,
    List.append_nil]

theorem present_store {payload : List PwospfLsa} (h : payload ≠ []) (c : LsuContents) :
    (c.store payload).present = true := by
  cases c with
  | null => rfl
  | valid old =>
    unfold LsuContents.store
    simp only
    rw [if_neg fun hnil => h hnil.1]
    rfl
  | dangling old => rfl

/-- An LSU with at least one LSA is a duplicate once it has been recorded. -/
theorem duplicate_recordLsu (env : Env) {pi : PacketInfo} (l : List PwospfListEntry)
    (h : 1 ≤ pi.link.payloadCount) :
    ∃ entry, entryOf (recordLsu env pi l) pi.link.pwospf_header.router_id = some entry ∧
      entry.Duplicate pi.link := by
  refine ⟨_, entryOf_recordLsu env pi l, ?_⟩
  cases entryOf l pi.link.pwospf_header.router_id with
  | none => exact ⟨rfl, rfl⟩
  | some entry =>
    show (entry.record env pi.link pi.lsu).Duplicate pi.link
    unfold PwospfListEntry.record
    split
    · rename_i hsame
      exact ⟨hsame.1, rfl⟩
    · have hne : pi.lsu ≠ [] := by
        intro hnil
        have hlen := length_lsu pi
        rw [hnil, List.length_nil] at hlen
        omega
      exact ⟨present_store hne _, rfl⟩

/-- What a router's queues know about the LSUs of router `o` it reflooded: on each interface no two
in a row were the same, and the last one is in the entry. -/
structure Suppressed (o : BitVec 32) (s : Router × List LsuEvent) : Prop where
  chain : ∀ j, (seqs j o s.2).IsChain (· ≠ ·)
  last : ∀ j, ∀ seq ∈ (seqs j o s.2).getLast?, ∃ entry,
    entryOf (s.1.interface j).neighbours o = some entry ∧
      entry.lsu_lastcontents.present = true ∧ entry.lsu_lastseq = seq

section Suppression

variable {ι : Type} {link : ι → Nat → List (ι × Nat)} {b : ι} {s s' : Router × List LsuEvent}
  {d : Env × PacketInfo} {o : BitVec 32}

/-- The entries an LSU leaves alone. -/
theorem Refloods.Effect.entryOf_of_ne {env : Env} {r r' : Router} {pi : PacketInfo}
    (h : Refloods.Effect env r pi r') {j : Nat}
    (hne : ¬ (pi.event.interface = j ∧ pi.event.originator = o)) :
    entryOf (r'.interface j).neighbours o = entryOf (r.interface j).neighbours o := by
  rw [congrFun h.links.interface]
  by_cases hj : j = pi.interface
  · subst hj
    rw [Router.setNeighbours_self]
    exact entryOf_recordLsu_of_ne env pi _ fun ho => hne ⟨rfl, ho.symm⟩
  · rw [Router.setNeighbours_of_ne r _ _ hj]

/-- **Step lemma.** -/
theorem suppressed_step (h : Suppressed o s) (hstep : Local (floodReact link) b s d s')
    (hlsas : d.2.event.originator = o → 1 ≤ d.2.link.payloadCount) : Suppressed o s' := by
  rcases local_cases hstep with rfl | ⟨_, hrefl, heffect, hlog⟩
  · exact h
  constructor
  case chain =>
    intro j
    rw [hlog]
    by_cases hev : d.2.event.interface = j ∧ d.2.event.originator = o
    · -- the entry tells the LSU reflooded last from this one
      obtain ⟨rfl, rfl⟩ := hev
      rw [seqs_append_of_pos, List.isChain_append]
      refine ⟨h.chain _, List.isChain_singleton _, ?_⟩
      intro seq hseq seq' hseq'
      obtain ⟨entry, hentry, hpresent, rfl⟩ := h.last _ seq hseq
      cases hseq'
      exact fun heq => hrefl.fresh entry hentry ⟨hpresent, heq⟩
    · rw [seqs_append_of_neg _ hev]
      exact h.chain j
  case last =>
    intro j
    rw [hlog]
    by_cases hev : d.2.event.interface = j ∧ d.2.event.originator = o
    · have hone := hlsas hev.2
      obtain ⟨rfl, rfl⟩ := hev
      rw [seqs_append_of_pos]
      intro seq hseq
      rw [List.getLast?_append] at hseq
      cases hseq
      obtain ⟨entry, hentry, hdup⟩ := duplicate_recordLsu d.1
        (s.1.interface d.2.interface).neighbours hone
      refine ⟨entry, ?_, hdup⟩
      rw [congrFun heffect.links.interface]
      show entryOf ((s.1.setNeighbours d.2.interface _).interface d.2.interface).neighbours _ = _
      rw [Router.setNeighbours_self]
      exact hentry
    · rw [seqs_append_of_neg _ hev, heffect.entryOf_of_ne hev]
      exact h.last j

/-- **Run lemma.** -/
theorem suppressed_run {s₀ : Router × List LsuEvent} {ds : List (Env × PacketInfo)}
    (h : Exec (Local (floodReact link) b) s₀ ds s) (h0 : s₀.2 = [])
    (hlsas : ∀ d ∈ ds, d.2.event.originator = o → 1 ≤ d.2.link.payloadCount) :
    Suppressed o s := by
  have hstart : Suppressed o s₀ := by
    constructor
    · intro j
      rw [h0]
      exact List.isChain_nil
    · intro j seq hseq
      rw [h0] at hseq
      cases hseq
  refine h.invariant_trace (I := fun ds s =>
    (∀ d ∈ ds, d.2.event.originator = o → 1 ≤ d.2.link.payloadCount) → Suppressed o s)
    (fun _ => hstart) ?_ hlsas
  intro ds s d s' hs hstep hall
  exact suppressed_step (hs fun d hd => hall d (List.mem_append_left _ hd)) hstep
    (hall d (List.mem_append_right _ List.mem_cons_self))

end Suppression

/-! ## Frames -/

/-- The frames a router sent that hold an LSU of router `o`. -/
def lsuFrames (o : BitVec 32) (r : Router) : Nat :=
  r.sent.countP fun f => 66 ≤ f.packet.length ∧ f.originator = o

/-- An LSU of another router costs at most one frame for each entry, and none with the LSU of a
third router. -/
theorem Refloods.Effect.lsuFrames_le {env : Env} {r r' : Router} {pi : PacketInfo}
    (h : Refloods.Effect env r pi r') {o : BitVec 32} (ho : o ≠ r.pw_router.router_id) :
    lsuFrames o r' ≤ lsuFrames o r + if pi.event.originator = o then r'.entries else 0 := by
  obtain ⟨reflooded, own, hsent, hrefl, hlen, hown⟩ := h.sent
  have hown0 : own.countP (fun f => 66 ≤ f.packet.length ∧ f.originator = o) = 0 := by
    refine List.countP_eq_zero.2 fun f hf hp => ho ?_
    rw [← hown f hf, (of_decide_eq_true hp).2]
  unfold lsuFrames
  rw [hsent, List.countP_append, List.countP_append, hown0, Nat.add_zero]
  split
  · exact Nat.add_le_add_left (List.countP_le_length.trans hlen) _
  · rename_i hne
    have hzero : reflooded.countP (fun f => 66 ≤ f.packet.length ∧ f.originator = o) = 0 := by
      refine List.countP_eq_zero.2 ?_
      intro f hf hp
      obtain ⟨hlong, horig⟩ := of_decide_eq_true hp
      rcases hrefl.relays f hf with hrel | hshort
      · rw [← horig] at hne
        exact hne (congrArg (·.pwospf_header.router_id) hrel.2).symm
      · omega
    rw [hzero]

/-- The router ids in a neighbour queue. -/
def routerIds (l : List PwospfListEntry) : List (BitVec 32) := l.map PwospfListEntry.neighbour_id

/-- The same router later on: each queue has grown by entries for different routers. -/
structure Grown (r₀ r : Router) : Prop where
  num_interfaces : r.num_interfaces = r₀.num_interfaces
  pw_router : r.pw_router = r₀.pw_router
  neighbours : ∀ j, ∃ extra : List (BitVec 32), extra.Nodup ∧
    routerIds (r.interface j).neighbours = routerIds (r₀.interface j).neighbours ++ extra

theorem Grown.refl (r : Router) : Grown r r :=
  ⟨rfl, rfl, fun _ => ⟨[], List.nodup_nil, by rw [List.append_nil]⟩⟩

theorem routerIds_recordLsu (env : Env) (pi : PacketInfo) (l : List PwospfListEntry) :
    routerIds (recordLsu env pi l) =
      if pi.link.pwospf_header.router_id ∈ routerIds l then routerIds l
      else routerIds l ++ [pi.link.pwospf_header.router_id] := by
  refine map_upsert (fun entry he => ?_) ?_ l
  · rw [record_neighbour_id]
    exact he
  · rfl

theorem Grown.step {env : Env} {r₀ r r' : Router} {pi : PacketInfo} (h : Grown r₀ r)
    (heffect : Refloods.Effect env r pi r') : Grown r₀ r' := by
  refine ⟨heffect.links.num_interfaces.trans h.num_interfaces,
    heffect.links.pw_router.trans h.pw_router, fun j => ?_⟩
  obtain ⟨extra, hnodup, hids⟩ := h.neighbours j
  rw [congrFun heffect.links.interface]
  by_cases hj : j = pi.interface
  · subst hj
    rw [Router.setNeighbours_self, routerIds_recordLsu]
    split
    · exact ⟨extra, hnodup, hids⟩
    · rename_i hnew
      rw [hids, List.append_assoc]
      refine ⟨_, ?_, rfl⟩
      rw [hids] at hnew
      refine List.nodup_append.2 ⟨hnodup, List.nodup_singleton _, fun id hid id' hid' heq => hnew ?_⟩
      rw [← List.mem_singleton.1 hid', ← heq]
      exact List.mem_append_right _ hid
  · rw [Router.setNeighbours_of_ne r _ _ hj]
    exact ⟨extra, hnodup, hids⟩

theorem nodup_length_le {l : List (BitVec 32)} (h : l.Nodup) : l.length ≤ 4294967296 := by
  have hfin : (l.map BitVec.toFin).Nodup := h.map fun a b => BitVec.eq_of_toFin_eq
  have := hfin.length_le_card
  rwa [List.length_map, Fintype.card_fin] at this

/-- There are only so many router ids. -/
theorem Grown.entries_le {r₀ r : Router} (h : Grown r₀ r) :
    r.entries ≤ r₀.entries + 4 * 4294967296 := by
  have hqueue : ∀ j, (r.interface j).neighbours.length ≤
      (r₀.interface j).neighbours.length + 4294967296 := by
    intro j
    obtain ⟨extra, hnodup, hids⟩ := h.neighbours j
    have hlen := congrArg List.length hids
    unfold routerIds at hlen
    rw [List.length_append, List.length_map, List.length_map] at hlen
    have := nodup_length_le hnodup
    omega
  have hnum := r₀.num_le
  unfold Router.entries
  rw [h.num_interfaces]
  calc ((List.range r₀.num_interfaces).map fun i => (r.interface i).neighbours.length).sum
      ≤ ((List.range r₀.num_interfaces).map fun i =>
          (r₀.interface i).neighbours.length + 4294967296).sum := List.sum_le_sum fun i _ => hqueue i
    _ = ((List.range r₀.num_interfaces).map fun i => (r₀.interface i).neighbours.length).sum +
          r₀.num_interfaces * 4294967296 := by
        rw [List.sum_map_add, List.map_const', List.sum_replicate_nat, List.length_range]
    _ ≤ _ := by omega

section Costs

variable {ι : Type} {link : ι → Nat → List (ι × Nat)} {b : ι} {s s' : Router × List LsuEvent}
  {d : Env × PacketInfo} {o : BitVec 32} {r₀ : Router}

/-- What the LSUs of router `o` have cost a router so far. -/
structure Costs (o : BitVec 32) (r₀ : Router) (s : Router × List LsuEvent) : Prop where
  grown : Grown r₀ s.1
  interface : ∀ e ∈ s.2, e.interface < r₀.num_interfaces
  frames : lsuFrames o s.1 ≤ lsuFrames o r₀ +
    s.2.countP (fun e => e.originator = o) * (r₀.entries + 4 * 4294967296)

/-- **Step lemma.** -/
theorem costs_step (ho : o ≠ r₀.pw_router.router_id) (h : Costs o r₀ s)
    (hstep : Local (floodReact link) b s d s') : Costs o r₀ s' := by
  rcases local_cases hstep with rfl | ⟨hint, _, heffect, hlog⟩
  · exact h
  have hgrown := h.grown.step heffect
  refine ⟨hgrown, ?_, ?_⟩
  · rw [hlog]
    intro e he
    rcases List.mem_append.1 he with he | he
    · exact h.interface e he
    · rw [List.mem_singleton.1 he, ← h.grown.num_interfaces]
      exact hint
  · have hframes := heffect.lsuFrames_le (o := o) (by rw [h.grown.pw_router]; exact ho)
    have hentries := hgrown.entries_le
    have hbefore := h.frames
    rw [hlog, List.countP_append, Nat.add_mul]
    by_cases hev : d.2.event.originator = o
    · rw [if_pos hev] at hframes
      rw [List.countP_cons_of_pos (by simpa using hev), List.countP_nil, Nat.zero_add, Nat.one_mul]
      omega
    · rw [if_neg hev] at hframes
      rw [List.countP_cons_of_neg (by simpa using hev), List.countP_nil, Nat.zero_mul]
      omega

/-- **Run lemma.** -/
theorem costs_run {s₀ : Router × List LsuEvent} {ds : List (Env × PacketInfo)}
    (ho : o ≠ s₀.1.pw_router.router_id) (h : Exec (Local (floodReact link) b) s₀ ds s)
    (h0 : s₀.2 = []) : Costs o s₀.1 s := by
  have hstart : Costs o s₀.1 s₀ := by
    refine ⟨.refl s₀.1, ?_, Nat.le_add_right _ _⟩
    rw [h0]
    exact fun e he => by cases he
  exact h.invariant (I := Costs o s₀.1) hstart fun hs hstep => costs_step ho hs hstep

end Costs

/-! ## LSUs in order -/

/-- The number an originator gave an LSU. -/
def seqNumber (seq : BitVec 16) : Nat := (ntohs seq).toNat

theorem seqNumber_injective : Function.Injective seqNumber :=
  fun _ _ h => ntohs_injective (BitVec.eq_of_toNat_eq h)

def InOrder (l : List (BitVec 16)) : Prop := l.Pairwise fun x y => seqNumber x ≤ seqNumber y

section Ordered

variable {s : Router × List LsuEvent} {o : BitVec 32}

theorem Suppressed.count_le_one (h : Suppressed o s) (hord : ∀ j, InOrder (seqs j o s.2)) (j : Nat)
    (seq : BitVec 16) : s.2.count ⟨j, o, seq⟩ ≤ 1 := by
  have hnodup := nodup_of_isChain_ne seqNumber_injective (h.chain j) (hord j)
  calc s.2.count ⟨j, o, seq⟩
      = (s.2.filter fun e => e.interface = j ∧ e.originator = o).count ⟨j, o, seq⟩ :=
        (List.count_filter (by simp)).symm
    _ ≤ (seqs j o s.2).count (LsuEvent.seq ⟨j, o, seq⟩) := List.count_le_count_map
    _ ≤ 1 := List.nodup_iff_count_le_one.1 hnodup seq

/-- So many LSUs, so many refloods. -/
theorem countP_le_of_count {l : List LsuEvent} {S : List (BitVec 16)}
    (hcount : ∀ j seq, l.count ⟨j, o, seq⟩ ≤ 1) (hint : ∀ e ∈ l, e.interface < 4)
    (hS : ∀ e ∈ l, e.originator = o → e.seq ∈ S) :
    l.countP (fun e => e.originator = o) ≤ 4 * S.length := by
  have hnodup : (l.filter fun e => e.originator = o).Nodup := by
    refine List.nodup_iff_count_le_one.2 ?_
    intro e
    by_cases he : e.originator = o
    · subst he
      rw [List.count_filter (by simp)]
      exact hcount e.interface e.seq
    · rw [List.count_eq_zero_of_not_mem fun hmem => he (by simpa using (List.mem_filter.1 hmem).2)]
      exact Nat.zero_le _
  have hsub : (l.filter fun e => e.originator = o) ⊆
      (List.range 4 ×ˢ S).map fun p => (⟨p.1, o, p.2⟩ : LsuEvent) := by
    intro e he
    obtain ⟨he, ho⟩ := List.mem_filter.1 he
    have ho := of_decide_eq_true ho
    refine List.mem_map.2 ⟨(e.interface, e.seq), ?_, by rw [← ho]⟩
    exact List.mem_product.2 ⟨List.mem_range.2 (hint e he), hS e he ho⟩
  have hlen := (List.subperm_of_subset hnodup hsub).length_le
  rwa [List.length_map, List.length_product, List.length_range, ← List.countP_eq_length_filter]
    at hlen

end Ordered

section Arrived

variable {ι : Type} [DecidableEq ι]

/-- The LSUs router `b` received in a run. -/
def arrived (b : ι) (as : List (Arrival ι Env PacketInfo)) : List LsuEvent :=
  (received b as).map fun d => d.2.event

theorem seqs_sublist {l l' : List LsuEvent} (h : l.Sublist l') (j : Nat) (o : BitVec 32) :
    (seqs j o l).Sublist (seqs j o l') := (h.filter _).map _

/-- LSUs that are delivered in order arrive in order everywhere. -/
theorem inOrder_arrived {as : List (Arrival ι Env PacketInfo)}
    (h : InOrder (as.map fun a => a.msg.body.event.seq)) (b : ι) (j : Nat) (o : BitVec 32) :
    InOrder (seqs j o (arrived b as)) := by
  have hsub : (arrived b as).Sublist (as.map fun a => a.msg.body.event) := by
    unfold arrived received
    rw [List.map_map]
    exact List.filter_sublist.map _
  have hseqs : (seqs j o (arrived b as)).Sublist (as.map fun a => a.msg.body.event.seq) := by
    have hmap := hsub.map LsuEvent.seq
    rw [List.map_map] at hmap
    exact (List.filter_sublist.map _).trans hmap
  exact h.sublist hseqs

end Arrived

end BirRouter
