import BirRouter.OutputPort.DropStages
import BirRouter.OutputPort.StageFacts

/-!
# Dropping whole packets

`drop_packets1` keeps its decision in one register, which `drop_packets2` reads while the beats are
still on their way through its FIFO of 16 beats.

* `DropPipe.kept` — the beats that `drop_packets1` hands on with a decision not to drop them, each
  with the decision of its own packet;
* `DropPipe.kept_conserves` — as long as a decision that differs from the last one finds no beat of an
  earlier packet in the FIFO, these are the beats that leave and those that will;
* `drop_atomic_runs` — the stream that leaves, in terms of packets.
-/

set_option autoImplicit false

namespace BirRouter

open Clocked Stage

/-- What the drop stages are given in a clock cycle. -/
structure DropCycle where
  s_axis : Option Beat
  m_tready : Bool
  reset : BitVec 32
  macs : Macs
  low_ip_addr : BitVec 16
  checksum : BitVec 16

namespace DropPipe

def clock (s : DropPipe) (c : DropCycle) : DropPipe :=
  s.step c.s_axis c.m_tready c.reset c.macs c.low_ip_addr c.checksum

/-- The beat that enters `drop_packets1`. -/
def accepted (s : DropPipe) (c : DropCycle) : List Beat := (s.drop_packets1.pushed c.s_axis).toList

/-- The beat that `drop_packets1` hands on. -/
def passed (s : DropPipe) (_ : DropCycle) : List Beat :=
  (s.drop_packets1.popped s.drop_packets2.tready).toList

/-- The beat that leaves `drop_packets2`. -/
def emitted (s : DropPipe) (c : DropCycle) : List Beat :=
  if c.m_tready then s.offer.toList else []

/-- The decision taken on a packet's first beat. -/
def decided (s : DropPipe) (c : DropCycle) : List (Beat × BitVec 5) :=
  if s.drop_packets1.regs.starts (s.drop_packets1.axis s.drop_packets2.tready) then
    [(s.drop_packets1.beat, DropPackets1.dropArray s.drop_packets1.regs.checksum_override c.macs
      c.checksum s.drop_packets1.beat)]
  else []

/-- The beat that `drop_packets1` hands on, unless its packet is to be dropped. -/
def kept (s : DropPipe) (c : DropCycle) : List Beat :=
  if (s.clock c).dropArray = 0 then s.passed c else []

/-- A decision that differs from the last one finds no beat of an earlier packet in the FIFO, apart
from one that leaves in this cycle. -/
def Clear (s : DropPipe) (c : DropCycle) : Prop :=
  ∀ d ∈ s.decided c, (d.2 = 0 ↔ s.dropArray = 0) ∨
    s.drop_packets2.contents = (s.drop_packets2.popped c.m_tready).toList

def WellFormed (s : DropPipe) : Prop := s.drop_packets1.WellFormed ∧ s.drop_packets2.WellFormed

/-- The beats whose packet is kept and that have not left yet. -/
def waiting (s : DropPipe) : List Beat := if s.dropArray = 0 then s.drop_packets2.contents else []

variable {s : DropPipe} {c : DropCycle}

theorem wellFormed_clock (h : s.WellFormed) (c : DropCycle) : (s.clock c).WellFormed :=
  ⟨Stage.wellFormed_tick h.1 _ _ _, Stage.wellFormed_tick h.2 _ _ _⟩

theorem dropArray_clock :
    (s.clock c).dropArray = match s.decided c with
      | [] => s.dropArray
      | d :: _ => d.2 := by
  show (DropPackets1.step _ _ _ _ _ _ _).drop_array = _
  rw [DropPackets1.step_drop_array]
  unfold decided
  split <;> rfl

theorem emitted_eq :
    s.emitted c = if s.dropArray = 0 then (s.drop_packets2.popped c.m_tready).toList else [] := by
  unfold emitted offer Stage.offer Stage.popped
  by_cases hd : s.dropArray = 0
  · rw [if_neg (not_not_intro hd), if_pos hd]
    cases c.m_tready <;> cases s.drop_packets2.tvalid <;> rfl
  · rw [if_pos hd, if_neg hd]
    cases c.m_tready <;> rfl

/-- The beats between the two stages. -/
theorem passed_conserves (h : s.WellFormed) (c : DropCycle) :
    s.drop_packets2.contents ++ s.passed c
      = (s.drop_packets2.popped c.m_tready).toList ++ (s.clock c).drop_packets2.contents := by
  have hc := Stage.conserves h.2 (s.drop_packets1.offer id) c.m_tready (s.clock c).drop_packets2.regs
  rw [Stage.pushed_offer_id] at hc
  exact hc

/-- **One cycle**: the beats that are kept are those that leave and those that will. -/
theorem kept_conserves (h : s.WellFormed) (hclear : s.Clear c) :
    s.waiting ++ s.kept c = s.emitted c ++ (s.clock c).waiting := by
  have hcons := passed_conserves h c
  unfold waiting kept
  rw [emitted_eq]
  by_cases hsame : (s.clock c).dropArray = 0 ↔ s.dropArray = 0
  · by_cases hd : s.dropArray = 0
    · simp only [hsame.2 hd, hd, if_true]
      exact hcons
    · simp only [hsame, hd, if_false]
  · -- the decision changes the register, so the FIFO holds no earlier beat
    have hempty : s.drop_packets2.contents = (s.drop_packets2.popped c.m_tready).toList := by
      rw [dropArray_clock] at hsame
      cases hd : s.decided c with
      | nil =>
        rw [hd] at hsame
        exact absurd Iff.rfl hsame
      | cons d ds =>
        rw [hd] at hsame
        exact (hclear d (by rw [hd]; exact List.mem_cons_self)).resolve_left hsame
    rw [hempty] at hcons ⊢
    have hnext := List.append_cancel_left hcons
    by_cases hd : s.dropArray = 0
    · have hd' : (s.clock c).dropArray ≠ 0 := fun h0 => hsame ⟨fun _ => hd, fun _ => h0⟩
      rw [if_pos hd, if_neg hd', if_neg hd']
    · have hd' : (s.clock c).dropArray = 0 := by
        by_contra h0
        exact hsame ⟨fun h => absurd h h0, fun h => absurd h hd⟩
      rw [if_neg hd, if_pos hd', if_pos hd', hnext]

end DropPipe

/-! ## Decisions and packets -/

/-- The beats of a stream that are kept, if every beat that finds `header` low and is not the last of
its packet takes the next decision. -/
def keepBeats : Bool → BitVec 5 → List Beat → List (BitVec 5) → List Beat
  | _, _, [], _ => []
  | header, d, b :: bs, ds =>
    if !header && !b.tlast then
      match ds with
      | [] => []
      | d :: ds => (if d = 0 then [b] else []) ++ keepBeats true d bs ds
    else (if d = 0 then [b] else []) ++ keepBeats (!b.tlast) d bs ds

/-- The packets that are kept. -/
def keepPackets (ps : List Packet) (ds : List (BitVec 5)) : List Beat :=
  ((ps.zip ds).filter fun x => x.2 = 0).flatMap fun x => x.1.beats

theorem keepBeats_cons (header : Bool) (d : BitVec 5) (b : Beat) (bs : List Beat)
    (ds : List (BitVec 5)) :
    keepBeats header d (b :: bs) ds =
      if !header && !b.tlast then
        match ds with
        | [] => []
        | d :: ds => (if d = 0 then [b] else []) ++ keepBeats true d bs ds
      else (if d = 0 then [b] else []) ++ keepBeats (!b.tlast) d bs ds := by
  rw [keepBeats.eq_def]

/-- More beats and more decisions keep more. -/
theorem keepBeats_append (es : List (BitVec 5)) (ys : List Beat) :
    ∀ (header : Bool) (d : BitVec 5) (xs : List Beat) (ds : List (BitVec 5)),
      (opening header xs).length ≤ ds.length →
        keepBeats header d xs ds <+: keepBeats header d (xs ++ ys) (ds ++ es)
  | _, _, [], _, _ => List.nil_prefix
  | header, d, b :: xs, ds, h => by
    rw [opening, List.length_append] at h
    rw [List.cons_append, keepBeats_cons, keepBeats_cons]
    by_cases ho : (!header && !b.tlast) = true
    · rw [if_pos ho, if_pos ho]
      rw [if_pos ho, List.length_singleton] at h
      have hb : b.tlast = false := by simp_all
      cases ds with
      | nil => exact absurd h (by simp)
      | cons d ds =>
        rw [hb] at h
        refine (List.prefix_append_right_inj _).2 (keepBeats_append es ys true d xs ds ?_)
        rw [List.length_cons] at h
        simp only [Bool.not_false] at h
        omega
    · rw [if_neg ho, if_neg ho]
      rw [if_neg ho, List.length_nil] at h
      exact (List.prefix_append_right_inj _).2 (keepBeats_append es ys _ d xs ds (by omega))

/-- Beats in the middle of a packet follow its decision. -/
theorem keepBeats_body (d : BitVec 5) (rest : List Beat) (ds : List (BitVec 5)) :
    ∀ bs : List Beat, (∀ b ∈ bs, b.tlast = false) →
      keepBeats true d (bs ++ rest) ds = (if d = 0 then bs else []) ++ keepBeats true d rest ds ∧
        opening true (bs ++ rest) = opening true rest
  | [], _ => by simp
  | b :: bs, h => by
    have hb : b.tlast = false := h b List.mem_cons_self
    obtain ⟨ih, ih'⟩ := keepBeats_body d rest ds bs fun x hx => h x (List.mem_cons_of_mem _ hx)
    rw [List.cons_append, keepBeats_cons, opening]
    simp only [Bool.not_true, Bool.false_and, Bool.false_eq_true, if_false, hb, Bool.not_false, ih, ih']
    split <;> simp

theorem keepBeats_packet (p : Packet) (rest : List Beat) (d₀ d : BitVec 5) (ds : List (BitVec 5)) :
    keepBeats false d₀ (p.beats ++ rest) (d :: ds)
        = (if d = 0 then p.beats else []) ++ keepBeats false d rest ds ∧
      opening false (p.beats ++ rest) = p.first :: opening false rest := by
  obtain ⟨hk, ho⟩ := keepBeats_body d (p.last :: rest) ds p.body p.body_tlast
  have happ : p.beats ++ rest = p.first :: (p.body ++ p.last :: rest) := by simp [Packet.beats]
  rw [happ, keepBeats_cons, opening]
  simp only [p.first_tlast, Bool.not_false, Bool.and_true, if_true, hk, ho]
  rw [keepBeats_cons, opening]
  simp only [p.last_tlast, Bool.not_true, Bool.false_and, Bool.false_eq_true, if_false,
    List.nil_append]
  refine ⟨?_, rfl⟩
  split <;> simp [Packet.beats]

/-- **Whole packets are kept or dropped by their decisions.** -/
theorem keepBeats_packets : ∀ (ps : List Packet) (d₀ : BitVec 5) (ds : List (BitVec 5)),
    ds.length = ps.length →
      keepBeats false d₀ (ps.flatMap Packet.beats) ds = keepPackets ps ds
  | [], _, _, _ => rfl
  | p :: ps, _, [], h => by cases h
  | p :: ps, d₀, d :: ds, h => by
    rw [List.flatMap_cons, (keepBeats_packet p _ d₀ d ds).1,
      keepBeats_packets ps d ds (Nat.succ.inj h)]
    unfold keepPackets
    rw [List.zip_cons_cons, List.filter_cons]
    split <;> simp_all

theorem opening_packets : ∀ ps : List Packet,
    opening false (ps.flatMap Packet.beats) = ps.map Packet.first
  | [] => rfl
  | p :: ps => by
    rw [List.flatMap_cons, (keepBeats_packet p _ 0 0 []).2, opening_packets ps, List.map_cons]

/-- Packets without a decision count as dropped. -/
theorem keepPackets_append (n : Nat) : ∀ (ps : List Packet) (ds : List (BitVec 5)),
    keepPackets ps (ds ++ List.replicate n 1) = keepPackets ps ds
  | [], ds => rfl
  | p :: ps, [] => by
    have hnone : ∀ x ∈ (p :: ps).zip (List.replicate n (1 : BitVec 5)), ¬ (decide (x.2 = 0) = true) := by
      intro x hx
      rw [(List.mem_replicate.1 (List.of_mem_zip hx).2).2]
      decide
    unfold keepPackets
    rw [List.nil_append, List.filter_eq_nil_iff.2 hnone, List.zip_nil_right]
    rfl
  | p :: ps, d :: ds => by
    have ih := keepPackets_append n ps ds
    unfold keepPackets at ih ⊢
    rw [List.cons_append, List.zip_cons_cons, List.zip_cons_cons, List.filter_cons, List.filter_cons]
    split
    · rw [List.flatMap_cons, List.flatMap_cons, ih]
    · exact ih

/-- The first beats of some packets, with a decision for each packet that was opened. -/
theorem keepBeats_prefix {ps : List Packet} {bs : List Beat} {ds : List (BitVec 5)}
    (d₀ : BitVec 5) (hbs : bs <+: ps.flatMap Packet.beats)
    (hds : ds.length = (opening false bs).length) :
    keepBeats false d₀ bs ds <+: keepPackets ps ds ∧ opening false bs <+: ps.map Packet.first := by
  obtain ⟨more, hmore⟩ := hbs
  have hopen : opening false bs <+: ps.map Packet.first := by
    rw [← opening_packets ps, ← hmore]
    rw [opening_append]
    exact List.prefix_append _ _
  have hle : ds.length ≤ ps.length := by
    rw [hds, ← List.length_map Packet.first]
    exact hopen.length_le
  have hkeep := keepBeats_append (List.replicate (ps.length - ds.length) 1) more false d₀ bs ds
    (Nat.le_of_eq hds.symm)
  rw [hmore, keepBeats_packets ps d₀ _ (by rw [List.length_append, List.length_replicate]; omega),
    keepPackets_append] at hkeep
  exact ⟨hkeep, hopen⟩

namespace DropPipe

variable {s : DropPipe} {c : DropCycle}

/-- A cycle in which `drop_packets1` hands nothing on. -/
theorem decided_of_passed_nil (h : s.passed c = []) :
    s.decided c = [] ∧ (s.clock c).drop_packets1.regs.header = s.drop_packets1.regs.header := by
  have ht : (s.drop_packets1.axis s.drop_packets2.tready).taken = false :=
    Stage.popped_eq_none.1 (Option.toList_eq_nil_iff.1 h)
  constructor
  · unfold decided DropPackets1.starts
    rw [Axis.first_eq, ht]
    simp
  · show (DropPackets1.step _ _ _ _ _ _ _).header = _
    rw [DropPackets1.step_header, headerNext_eq, ht]
    rfl

/-- A cycle in which `drop_packets1` hands a beat on. -/
theorem decided_of_passed {b : Beat} (h : s.passed c = [b]) :
    (s.decided c).map Prod.fst = (if !s.drop_packets1.regs.header && !b.tlast then [b] else []) ∧
      (s.clock c).drop_packets1.regs.header = !b.tlast := by
  obtain ⟨ht, rfl⟩ := Stage.popped_eq_some.1 (Option.toList_eq_singleton_iff.1 h)
  constructor
  · unfold decided DropPackets1.starts
    rw [Axis.first_eq, ht, Bool.true_and]
    show List.map _ (if !s.drop_packets1.regs.header && !s.drop_packets1.beat.tlast then _ else _) = _
    split <;> rfl
  · show (DropPackets1.step _ _ _ _ _ _ _).header = _
    rw [DropPackets1.step_header, headerNext_eq, ht]
    rfl

/-- **What is kept is determined by the beats and the decisions.** -/
theorem collect_kept : ∀ (cs : List DropCycle) (s : DropPipe),
    collect clock kept s cs
        = keepBeats s.drop_packets1.regs.header s.dropArray (collect clock passed s cs)
          ((collect clock decided s cs).map Prod.snd) ∧
      (collect clock decided s cs).map Prod.fst
        = opening s.drop_packets1.regs.header (collect clock passed s cs)
  | [], s => ⟨rfl, rfl⟩
  | c :: cs, s => by
    obtain ⟨ih, ih'⟩ := collect_kept cs (s.clock c)
    simp only [collect, List.map_append]
    rw [ih, ih']
    unfold kept
    rw [dropArray_clock]
    cases hp : s.drop_packets1.popped s.drop_packets2.tready with
    | none =>
      have hpass : s.passed c = [] := by simp [passed, hp]
      obtain ⟨hd, hh⟩ := decided_of_passed_nil hpass
      simp [hpass, hd, hh]
    | some b =>
      have hpass : s.passed c = [b] := by simp [passed, hp]
      obtain ⟨hd, hh⟩ := decided_of_passed hpass
      rw [hpass, hh]
      by_cases ho : (!s.drop_packets1.regs.header && !b.tlast) = true
      · rw [if_pos ho] at hd
        have hlen := congrArg List.length hd
        rw [List.length_map] at hlen
        obtain ⟨d, hd'⟩ := List.length_eq_one_iff.1 hlen
        have hb : b.tlast = false := by simp_all
        rw [hd'] at hd ⊢
        simp_all [keepBeats, opening]
      · rw [if_neg ho] at hd
        have hd' : s.decided c = [] := List.map_eq_nil_iff.1 hd
        simp [hd', keepBeats, opening, ho]

/-! ## Runs -/

/-- Both FIFOs are empty. -/
def Drained (s : DropPipe) : Prop := s.drop_packets1.contents = [] ∧ s.drop_packets2.contents = []

/-- Between packets. -/
structure Idle (s : DropPipe) : Prop where
  wf : s.WellFormed
  drained : s.Drained
  header : s.drop_packets1.regs.header = false

theorem reset_idle (word : Beat) : (reset word).Idle where
  wf := ⟨FallthroughSmallFifo.reset_wellFormed _ _, FallthroughSmallFifo.reset_wellFormed _ _⟩
  drained := ⟨FallthroughSmallFifo.contents_reset _ _, FallthroughSmallFifo.contents_reset _ _⟩
  header := rfl

theorem accepted_conserves (h : s.WellFormed) (c : DropCycle) :
    s.drop_packets1.contents ++ s.accepted c
      = s.passed c ++ (s.clock c).drop_packets1.contents :=
  Stage.conserves h.1 c.s_axis s.drop_packets2.tready (s.clock c).drop_packets1.regs

theorem run_wellFormed (h : s.WellFormed) (cs : List DropCycle) : (run clock s cs).WellFormed :=
  run_invariant WellFormed (fun _ _ => True) (fun _ c hs _ => wellFormed_clock hs c) s cs h
    (along_of_forall (fun _ _ => trivial) s cs)

/-- The beats that `drop_packets1` hands on are those that entered and are not in its FIFO. -/
theorem collect_passed (h : s.Idle) (cs : List DropCycle) :
    collect clock accepted s cs
      = collect clock passed s cs ++ (run clock s cs).drop_packets1.contents := by
  have hc := collect_conserves WellFormed (fun _ _ => True) (fun t => t.drop_packets1.contents)
    accepted passed (fun _ c hs _ => wellFormed_clock hs c) (fun _ c hs _ => accepted_conserves hs c)
    s cs h.wf (along_of_forall (fun _ _ => trivial) s cs)
  rwa [h.drained.1, List.nil_append] at hc

/-- The beats that are kept are those that leave and those that wait in the second FIFO. -/
theorem collect_emitted (h : s.Idle) {cs : List DropCycle} (hclear : Along clock Clear s cs) :
    collect clock kept s cs = collect clock emitted s cs ++ (run clock s cs).waiting := by
  have hc := collect_conserves WellFormed Clear waiting kept emitted
    (fun _ c hs _ => wellFormed_clock hs c) (fun _ c hs hok => kept_conserves hs hok) s cs h.wf hclear
  have hw : s.waiting = [] := by
    unfold waiting
    rw [h.drained.2, ite_self]
  rwa [hw, List.nil_append] at hc

def weight (s : DropPipe) : Nat := 5 * s.drop_packets1.weight + s.drop_packets2.weight

theorem weight_eq_zero (h : s.weight = 0) : s.Drained := by
  unfold weight at h
  exact ⟨Stage.weight_eq_zero_iff.1 (by omega), Stage.weight_eq_zero_iff.1 (by omega)⟩

theorem clock_moves (h : s.WellFormed) (c : DropCycle) :
    Moves 20 s.weight (s.clock c).weight (s.accepted c).length
      (s.drop_packets2.popped c.m_tready).toList.length c.m_tready := by
  have h1 := Stage.moves h.1 c.s_axis s.drop_packets2.tready (s.clock c).drop_packets1.regs
  have h2 := Stage.moves h.2 (s.drop_packets1.offer id) c.m_tready (s.clock c).drop_packets2.regs
  rw [Stage.pushed_offer_id] at h2
  exact h1.comp h2 (Stage.tready_of_weight h.2 (by decide))

/-- **The stages run empty** when nothing enters and the next stage takes what they offer. -/
theorem drains (h : s.WellFormed) {cs : List DropCycle}
    (hq : ∀ c ∈ cs, c.s_axis = none ∧ c.m_tready = true) (hlen : s.weight ≤ cs.length) :
    (run clock s cs).Drained := by
  refine weight_eq_zero (run_empties WellFormed weight
    (fun c => c.s_axis = none ∧ c.m_tready = true) (fun _ c hs _ => wellFormed_clock hs c) ?_
    cs s h hq hlen)
  intro t c ht hc
  have hm := clock_moves ht c
  have hacc : (t.accepted c).length = 0 := by simp [accepted, Stage.pushed, hc.1]
  rw [hacc, hc.2] at hm
  exact ⟨_, _, hm⟩

end DropPipe

/-- **Packets are dropped whole in every run whose decisions find the FIFO clear of earlier
packets.**  At every moment what left is the start of the packets that were kept, each decision being
taken on its packet's own first beat; when all beats are in and the FIFOs are empty it is all of them;
and the FIFOs do run empty. -/
theorem drop_atomic_runs {s : DropPipe} (h : s.Idle) (ps : List Packet) {cs : List DropCycle}
    (hclear : Along DropPipe.clock DropPipe.Clear s cs)
    (hin : collect DropPipe.clock DropPipe.accepted s cs <+: ps.flatMap Packet.beats) :
    (collect DropPipe.clock DropPipe.emitted s cs
        <+: keepPackets ps ((collect DropPipe.clock DropPipe.decided s cs).map Prod.snd) ∧
      (collect DropPipe.clock DropPipe.decided s cs).map Prod.fst <+: ps.map Packet.first) ∧
    (collect DropPipe.clock DropPipe.accepted s cs = ps.flatMap Packet.beats →
      (run DropPipe.clock s cs).Drained →
      collect DropPipe.clock DropPipe.emitted s cs
        = keepPackets ps ((collect DropPipe.clock DropPipe.decided s cs).map Prod.snd) ∧
      (collect DropPipe.clock DropPipe.decided s cs).map Prod.fst = ps.map Packet.first) ∧
    ∃ n, ∀ idle : List DropCycle, (∀ c ∈ idle, c.s_axis = none ∧ c.m_tready = true) →
      n ≤ idle.length → (run DropPipe.clock s (cs ++ idle)).Drained := by
  obtain ⟨hkept, hopen⟩ := DropPipe.collect_kept cs s
  have hpassed := DropPipe.collect_passed h cs
  have hemitted := DropPipe.collect_emitted h hclear
  rw [h.header] at hkept hopen
  have hlen : ((collect DropPipe.clock DropPipe.decided s cs).map Prod.snd).length
      = (opening false (collect DropPipe.clock DropPipe.passed s cs)).length := by
    rw [← hopen, List.length_map, List.length_map]
  refine ⟨?_, ?_, ?_⟩
  · rw [hpassed] at hin
    have hpre := keepBeats_prefix s.dropArray ((List.prefix_append _ _).trans hin) hlen
    rw [← hkept, ← hopen] at hpre
    rw [hemitted] at hpre
    exact ⟨(List.prefix_append _ _).trans hpre.1, hpre.2⟩
  · intro hall hdrained
    have hwait : (run DropPipe.clock s cs).waiting = [] := by
      unfold DropPipe.waiting
      rw [hdrained.2, ite_self]
    rw [hdrained.1, List.append_nil, hall] at hpassed
    rw [← hpassed, opening_packets] at hopen hlen
    rw [hwait, List.append_nil, hkept, ← hpassed,
      keepBeats_packets ps _ _ (by rw [hlen, List.length_map])] at hemitted
    exact ⟨hemitted.symm, hopen⟩
  · refine ⟨(run DropPipe.clock s cs).weight, fun idle hq hn => ?_⟩
    rw [run_append]
    exact DropPipe.drains (DropPipe.run_wellFormed h.wf cs) hq hn

/-- A packet of three beats for `mac` from port 0. -/
def packetFor (mac : BitVec 48) : Packet where
  first := beatFor mac 1
  body := [beatFor mac 1]
  last := { beatFor mac 1 with tlast := true }
  first_tlast := rfl
  body_tlast := by simp [beatFor]
  last_tlast := rfl

/-- The cycles that offer some beats, one after another, to drop stages that may always hand on. -/
def dropCycles (beats : List (Option Beat)) : List DropCycle :=
  beats.map fun b => ⟨b, true, 0, portMacs, 0, 0⟩

/-- A packet that is kept and one that is dropped, `gap` cycles apart. -/
def keptThenDropped (gap : Nat) : List DropCycle :=
  dropCycles ((packetFor 1).beats.map some ++ List.replicate gap none ++ (packetFor 9).beats.map some
    ++ List.replicate 12 none)

instance (s : DropPipe) : Decidable s.Drained := inferInstanceAs (Decidable (_ ∧ _))

instance (s : DropPipe) (c : DropCycle) : Decidable (s.Clear c) :=
  inferInstanceAs (Decidable (∀ d ∈ s.decided c, _))

theorem drop_atomic_runs_spaced :
    collect DropPipe.clock DropPipe.emitted (.reset (beatFor 0 0)) (keptThenDropped 6)
      = keepPackets [packetFor 1, packetFor 9]
        ((collect DropPipe.clock DropPipe.decided (.reset (beatFor 0 0)) (keptThenDropped 6)).map
          Prod.snd) :=
  ((drop_atomic_runs (DropPipe.reset_idle (beatFor 0 0)) [packetFor 1, packetFor 9]
    (by decide +kernel) (by decide +kernel)).2.1 (by decide +kernel) (by decide +kernel)).1

/-- Back to back, the decision on the second packet leaves one beat of the first. -/
theorem drop_atomic_broken :
    collect DropPipe.clock DropPipe.accepted (.reset (beatFor 0 0)) (keptThenDropped 0)
        = [packetFor 1, packetFor 9].flatMap Packet.beats ∧
      (run DropPipe.clock (.reset (beatFor 0 0)) (keptThenDropped 0)).Drained ∧
      (collect DropPipe.clock DropPipe.decided (.reset (beatFor 0 0)) (keptThenDropped 0)).map
          (fun d => decide (d.2 = 0)) = [true, false] ∧
      collect DropPipe.clock DropPipe.emitted (.reset (beatFor 0 0)) (keptThenDropped 0)
        = (packetFor 1).beats.take 1 := by
  decide +kernel

end BirRouter
