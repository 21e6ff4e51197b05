import BirRouter.OutputPort.Pipeline
import BirRouter.OutputPort.StageFacts

/-!
# The sixteen FIFOs

What holds of the pipeline because it is a chain of stages, whatever their registers do.

* `Pipeline.All` — a property of every stage; `all_step` carries it over a clock cycle;
* `Pipeline.drains` — the pipeline runs empty when nothing enters and the output is ready;
* `Pipeline.Calm` — while the output is always ready every FIFO is a delay of three cycles, so that
  the pipeline is empty 48 cycles after the last beat.
-/

set_option autoImplicit false

namespace BirRouter

open Clocked

namespace Pipeline

/-- A property of every stage. -/
structure All (P : ∀ {k : Nat} {ρ : Type}, Stage k ρ → Prop) (s : Pipeline) : Prop where
  checksum1 : P s.checksum.checksum1
  checksum2 : P s.checksum.checksum2
  checksum2a : P s.checksum.checksum2a
  checksum3 : P s.checksum.checksum3
  delay : P s.checksum.delay
  drop_packets1 : P s.drop.drop_packets1
  drop_packets2 : P s.drop.drop_packets2
  dest_ip1 : P s.lookup.dest_ip1
  dest_ip2 : P s.lookup.dest_ip2
  lpm1 : P s.lookup.lpm1
  lpm2 : P s.lookup.lpm2
  lpm3 : P s.lookup.lpm3
  arp1 : P s.arp.arp1
  arp2 : P s.arp.arp2
  arp3 : P s.arp.arp3
  arp4 : P s.arp.arp4

/-- Two properties of every stage, and a consequence of both. -/
theorem All.imp₂ {P Q R : ∀ {k : Nat} {ρ : Type}, Stage k ρ → Prop} {s : Pipeline}
    (h : ∀ {k : Nat} {ρ : Type} {t : Stage k ρ}, P t → Q t → R t) (hp : All P s) (hq : All Q s) :
    All R s :=
  ⟨h hp.1 hq.1, h hp.2 hq.2, h hp.3 hq.3, h hp.4 hq.4, h hp.5 hq.5, h hp.6 hq.6, h hp.7 hq.7,
    h hp.8 hq.8, h hp.9 hq.9, h hp.10 hq.10, h hp.11 hq.11, h hp.12 hq.12, h hp.13 hq.13,
    h hp.14 hq.14, h hp.15 hq.15, h hp.16 hq.16⟩

theorem all_step {P Q : ∀ {k : Nat} {ρ : Type}, Stage k ρ → Prop} {s : Pipeline}
    (h : ∀ {k : Nat} {ρ : Type} {t : Stage k ρ}, P t →
      ∀ (s_axis : Option Beat) (m_tready : Bool) (regs : ρ), Q (t.tick s_axis m_tready regs))
    (hs : All P s) (c : Cycle) : All Q (s.step c) :=
  ⟨h hs.1 _ _ _, h hs.2 _ _ _, h hs.3 _ _ _, h hs.4 _ _ _, h hs.5 _ _ _, h hs.6 _ _ _, h hs.7 _ _ _,
    h hs.8 _ _ _, h hs.9 _ _ _, h hs.10 _ _ _, h hs.11 _ _ _, h hs.12 _ _ _, h hs.13 _ _ _,
    h hs.14 _ _ _, h hs.15 _ _ _, h hs.16 _ _ _⟩

def WellFormed (s : Pipeline) : Prop := All Stage.WellFormed s

/-- No beat is on its way. -/
def Drained (s : Pipeline) : Prop := All (fun t => t.contents = []) s

theorem wellFormed_step {s : Pipeline} (h : s.WellFormed) (c : Cycle) : (s.step c).WellFormed :=
  all_step (fun ht => Stage.wellFormed_tick ht) h c

theorem wellFormed_run {s : Pipeline} (h : s.WellFormed) (cs : List Cycle) : (s.run cs).WellFormed :=
  run_invariant WellFormed (fun _ _ => True) (fun _ c ht _ => wellFormed_step ht c) s cs h
    (along_of_forall (fun _ _ => trivial) s cs)

theorem reset_wellFormed (word : Beat) (low_ip_addr : BitVec 16) (ip_addr1 ip_addr2 : BitVec 32) :
    (reset word low_ip_addr ip_addr1 ip_addr2).WellFormed := by
  constructor <;> exact FallthroughSmallFifo.reset_wellFormed _ _

theorem reset_drained (word : Beat) (low_ip_addr : BitVec 16) (ip_addr1 ip_addr2 : BitVec 32) :
    (reset word low_ip_addr ip_addr1 ip_addr2).Drained := by
  constructor <;> exact FallthroughSmallFifo.contents_reset _ _

/-! ## Running empty -/

/-- How far the pipeline is from being empty: each stage counts five times the next one. -/
def weight (s : Pipeline) : Nat :=
  let w := 5 * (5 * (5 * (5 * s.checksum.checksum1.weight + s.checksum.checksum2.weight)
    + s.checksum.checksum2a.weight) + s.checksum.checksum3.weight) + s.checksum.delay.weight
  let w := 5 * (5 * w + s.drop.drop_packets1.weight) + s.drop.drop_packets2.weight
  let w := 5 * (5 * (5 * (5 * (5 * w + s.lookup.dest_ip1.weight) + s.lookup.dest_ip2.weight)
    + s.lookup.lpm1.weight) + s.lookup.lpm2.weight) + s.lookup.lpm3.weight
  5 * (5 * (5 * (5 * w + s.arp.arp1.weight) + s.arp.arp2.weight) + s.arp.arp3.weight)
    + s.arp.arp4.weight

theorem drained_of_weight {s : Pipeline} (h : s.weight = 0) : s.Drained := by
  simp only [weight] at h
  constructor <;> exact Stage.weight_eq_zero_iff.1 (by omega)

/-- `drop_packets2` hands on at most what it takes from its FIFO. -/
theorem pushed_drop_le (s : Pipeline) :
    (s.lookup.dest_ip1.pushed s.drop.offer).toList.length
      ≤ (s.drop.drop_packets2.popped s.lookup.dest_ip1.tready).toList.length := by
  unfold DropPipe.offer
  split
  · simp [Stage.pushed]
  · exact Nat.le_of_eq (by rw [Stage.pushed_offer_id])

theorem step_moves {s : Pipeline} (h : s.WellFormed) (c : Cycle) : ∃ gain,
    Moves gain s.weight (s.step c).weight (s.checksum.checksum1.pushed c.s_axis).toList.length
      (s.arp.arp4.popped c.m_tready).toList.length c.m_tready := by
  have m1 := Stage.moves h.checksum1 c.s_axis s.checksum.checksum2.tready
    (s.step c).checksum.checksum1.regs
  have m2 := Stage.moves_offer h.checksum2 s.checksum.checksum1 id s.checksum.checksum2a.tready
    (s.step c).checksum.checksum2.regs
  have m3 := Stage.moves_offer h.checksum2a s.checksum.checksum2 id s.checksum.checksum3.tready
    (s.step c).checksum.checksum2a.regs
  have m4 := Stage.moves_offer h.checksum3 s.checksum.checksum2a id s.checksum.delay.tready
    (s.step c).checksum.checksum3.regs
  have m5 := Stage.moves_offer h.delay s.checksum.checksum3 id s.drop.drop_packets1.tready
    (s.step c).checksum.delay.regs
  have m6 := Stage.moves_offer h.drop_packets1 s.checksum.delay id s.drop.drop_packets2.tready
    (s.step c).drop.drop_packets1.regs
  have m7 := Stage.moves_offer h.drop_packets2 s.drop.drop_packets1 id s.lookup.dest_ip1.tready
    (s.step c).drop.drop_packets2.regs
  have m8 := (Stage.moves h.dest_ip1 s.drop.offer s.lookup.dest_ip2.tready
    (s.step c).lookup.dest_ip1.regs).mono s.pushed_drop_le
  have m9 := Stage.moves_offer h.dest_ip2 s.lookup.dest_ip1 id s.lookup.lpm1.tready
    (s.step c).lookup.dest_ip2.regs
  have m10 := Stage.moves_offer h.lpm1 s.lookup.dest_ip2
    (s.lookup.dest_ip2.regs.out s.lookup.dest_ip1.regs.cpu_hit_array) s.lookup.lpm2.tready
    (s.step c).lookup.lpm1.regs
  have m11 := Stage.moves_offer h.lpm2 s.lookup.lpm1 id s.lookup.lpm3.tready
    (s.step c).lookup.lpm2.regs
  have m12 := Stage.moves_offer h.lpm3 s.lookup.lpm2 id s.arp.arp1.tready
    (s.step c).lookup.lpm3.regs
  have m13 := Stage.moves_offer h.arp1 s.lookup.lpm3 (s.lookup.lpm3.regs.out s.lookup.lpm2.regs)
    s.arp.arp2.tready (s.step c).arp.arp1.regs
  have m14 := Stage.moves_offer h.arp2 s.arp.arp1 id s.arp.arp3.tready (s.step c).arp.arp2.regs
  have m15 := Stage.moves_offer h.arp3 s.arp.arp2 id s.arp.arp4.tready (s.step c).arp.arp3.regs
  have m16 := Stage.moves_offer h.arp4 s.arp.arp3 (s.arp.arp3.regs.out c.macs s.arp.arp2.regs)
    c.m_tready (s.step c).arp.arp4.regs
  have m := m1.comp m2 (Stage.tready_of_weight h.checksum2 (by decide))
  have m := m.comp m3 (Stage.tready_of_weight h.checksum2a (by decide))
  have m := m.comp m4 (Stage.tready_of_weight h.checksum3 (by decide))
  have m := m.comp m5 (Stage.tready_of_weight h.delay (by decide))
  have m := m.comp m6 (Stage.tready_of_weight h.drop_packets1 (by decide))
  have m := m.comp m7 (Stage.tready_of_weight h.drop_packets2 (by decide))
  have m := m.comp m8 (Stage.tready_of_weight h.dest_ip1 (by decide))
  have m := m.comp m9 (Stage.tready_of_weight h.dest_ip2 (by decide))
  have m := m.comp m10 (Stage.tready_of_weight h.lpm1 (by decide))
  have m := m.comp m11 (Stage.tready_of_weight h.lpm2 (by decide))
  have m := m.comp m12 (Stage.tready_of_weight h.lpm3 (by decide))
  have m := m.comp m13 (Stage.tready_of_weight h.arp1 (by decide))
  have m := m.comp m14 (Stage.tready_of_weight h.arp2 (by decide))
  have m := m.comp m15 (Stage.tready_of_weight h.arp3 (by decide))
  exact ⟨_, m.comp m16 (Stage.tready_of_weight h.arp4 (by decide))⟩

/-- **The pipeline runs empty** when nothing enters and the output is ready. -/
theorem drains {s : Pipeline} (h : s.WellFormed) {cs : List Cycle}
    (hq : ∀ c ∈ cs, c.s_axis = none ∧ c.m_tready = true) (hlen : s.weight ≤ cs.length) :
    (s.run cs).Drained := by
  refine drained_of_weight (run_empties WellFormed weight
    (fun c => c.s_axis = none ∧ c.m_tready = true) (fun _ c ht _ => wellFormed_step ht c) ?_
    cs s h hq hlen)
  intro t c ht hc
  obtain ⟨gain, hm⟩ := step_moves ht c
  have hnone : (t.checksum.checksum1.pushed c.s_axis).toList.length = 0 := by
    simp [Stage.pushed, hc.1]
  rw [hnone, hc.2] at hm
  exact ⟨_, _, hm⟩

/-! ## An output that is always ready -/

/-- No stage waits, and nothing has entered the pipeline in the last `n` cycles; each stage is three
cycles later than the one before it. -/
structure Calm (n : Nat) (s : Pipeline) : Prop where
  checksum1 : s.checksum.checksum1.Calm n
  checksum2 : s.checksum.checksum2.Calm (n - 3)
  checksum2a : s.checksum.checksum2a.Calm (n - 6)
  checksum3 : s.checksum.checksum3.Calm (n - 9)
  delay : s.checksum.delay.Calm (n - 12)
  drop_packets1 : s.drop.drop_packets1.Calm (n - 15)
  drop_packets2 : s.drop.drop_packets2.Calm (n - 18)
  dest_ip1 : s.lookup.dest_ip1.Calm (n - 21)
  dest_ip2 : s.lookup.dest_ip2.Calm (n - 24)
  lpm1 : s.lookup.lpm1.Calm (n - 27)
  lpm2 : s.lookup.lpm2.Calm (n - 30)
  lpm3 : s.lookup.lpm3.Calm (n - 33)
  arp1 : s.arp.arp1.Calm (n - 36)
  arp2 : s.arp.arp2.Calm (n - 39)
  arp3 : s.arp.arp3.Calm (n - 42)
  arp4 : s.arp.arp4.Calm (n - 45)

/-- The next stage, three cycles later. -/
theorem calm_offer {k k' : Nat} {ρ ρ' : Type} {s : Stage k ρ} {t : Stage k' ρ'} {n n' j : Nat}
    (hs : s.Calm (n - j)) (ht : t.Calm (n - (j + 3))) (hn : n' ≤ n + 1) (f : Beat → Beat)
    (regs : ρ') : (t.tick (s.offer f) true regs).Calm (n' - (j + 3)) :=
  ht.tick (by omega) (fun h => Stage.offer_of_empty (hs.contents (by omega)) f) regs

theorem calm_step {s : Pipeline} {n n' : Nat} (h : s.Calm n) {c : Cycle} (hr : c.m_tready = true)
    (hn : n' ≤ n + 1) (hx : 1 ≤ n' → c.s_axis = none) : (s.step c).Calm n' := by
  have hdrop : 1 ≤ n' - 21 → s.drop.offer = none := by
    intro hlt
    unfold DropPipe.offer
    rw [Stage.offer_of_empty (h.drop_packets2.contents (by omega)), ite_self]
  constructor
  · show (Stage.tick _ _ s.checksum.checksum2.tready _).Calm _
    rw [h.checksum2.tready]
    exact h.checksum1.tick hn hx _
  · show (Stage.tick _ _ s.checksum.checksum2a.tready _).Calm _
    rw [h.checksum2a.tready]
    exact calm_offer (j := 0) h.checksum1 h.checksum2 hn _ _
  · show (Stage.tick _ _ s.checksum.checksum3.tready _).Calm _
    rw [h.checksum3.tready]
    exact calm_offer h.checksum2 h.checksum2a hn _ _
  · show (Stage.tick _ _ s.checksum.delay.tready _).Calm _
    rw [h.delay.tready]
    exact calm_offer h.checksum2a h.checksum3 hn _ _
  · show (Stage.tick _ _ s.drop.drop_packets1.tready _).Calm _
    rw [h.drop_packets1.tready]
    exact calm_offer h.checksum3 h.delay hn _ _
  · show (Stage.tick _ _ s.drop.drop_packets2.tready _).Calm _
    rw [h.drop_packets2.tready]
    exact calm_offer h.delay h.drop_packets1 hn _ _
  · show (Stage.tick _ _ s.lookup.dest_ip1.tready _).Calm _
    rw [h.dest_ip1.tready]
    exact calm_offer h.drop_packets1 h.drop_packets2 hn _ _
  · show (Stage.tick _ _ s.lookup.dest_ip2.tready _).Calm _
    rw [h.dest_ip2.tready]
    exact h.dest_ip1.tick (by omega) hdrop _
  · show (Stage.tick _ _ s.lookup.lpm1.tready _).Calm _
    rw [h.lpm1.tready]
    exact calm_offer h.dest_ip1 h.dest_ip2 hn _ _
  · show (Stage.tick _ _ s.lookup.lpm2.tready _).Calm _
    rw [h.lpm2.tready]
    exact calm_offer h.dest_ip2 h.lpm1 hn _ _
  · show (Stage.tick _ _ s.lookup.lpm3.tready _).Calm _
    rw [h.lpm3.tready]
    exact calm_offer h.lpm1 h.lpm2 hn _ _
  · show (Stage.tick _ _ s.arp.arp1.tready _).Calm _
    rw [h.arp1.tready]
    exact calm_offer h.lpm2 h.lpm3 hn _ _
  · show (Stage.tick _ _ s.arp.arp2.tready _).Calm _
    rw [h.arp2.tready]
    exact calm_offer h.lpm3 h.arp1 hn _ _
  · show (Stage.tick _ _ s.arp.arp3.tready _).Calm _
    rw [h.arp3.tready]
    exact calm_offer h.arp1 h.arp2 hn _ _
  · show (Stage.tick _ _ s.arp.arp4.tready _).Calm _
    rw [h.arp4.tready]
    exact calm_offer h.arp2 h.arp3 hn _ _
  · show (Stage.tick _ _ c.m_tready _).Calm _
    rw [hr]
    exact calm_offer h.arp3 h.arp4 hn _ _

theorem Calm.drained {s : Pipeline} {n : Nat} (h : s.Calm n) (hn : 48 ≤ n) : s.Drained := by
  constructor
  · exact h.checksum1.contents (by omega)
  · exact h.checksum2.contents (by omega)
  · exact h.checksum2a.contents (by omega)
  · exact h.checksum3.contents (by omega)
  · exact h.delay.contents (by omega)
  · exact h.drop_packets1.contents (by omega)
  · exact h.drop_packets2.contents (by omega)
  · exact h.dest_ip1.contents (by omega)
  · exact h.dest_ip2.contents (by omega)
  · exact h.lpm1.contents (by omega)
  · exact h.lpm2.contents (by omega)
  · exact h.lpm3.contents (by omega)
  · exact h.arp1.contents (by omega)
  · exact h.arp2.contents (by omega)
  · exact h.arp3.contents (by omega)
  · exact h.arp4.contents (by omega)

end Pipeline

end BirRouter
