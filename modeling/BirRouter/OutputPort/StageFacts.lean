import BirRouter.Lib.Clocked
import BirRouter.OutputPort.Stream

/-!
# What one clock cycle does to a stage

The facts about a stage that do not depend on its registers.

* `Stage.conserves` — the beats in the FIFO and the one that enters are the one that leaves and the
  beats in the FIFO afterwards;
* `Stage.ends_tick` — the header flags of neighbouring stages agree up to the beats between them;
* `Stage.Flow.tick` — in front of a stage that is always ready the FIFO is a delay of three cycles;
* `Stage.moves` — the FIFO makes progress;
* `Carries` — the FIFO holds a part of one known list of beats.
-/

set_option autoImplicit false

namespace BirRouter

namespace Stage

variable {k : Nat} {ρ : Type}

def contents (s : Stage k ρ) : List Beat := s.input_fifo.contents

def WellFormed (s : Stage k ρ) : Prop := s.input_fifo.WellFormed

/-- The beat that enters in a cycle. -/
def pushed (s : Stage k ρ) (s_axis : Option Beat) : Option Beat := if s.tready then s_axis else none

/-- The beat that leaves in a cycle. -/
def popped (s : Stage k ρ) (m_tready : Bool) : Option Beat :=
  if m_tready && s.tvalid then some s.beat else none

variable {s : Stage k ρ} {s_axis : Option Beat} {m_tready : Bool} {regs : ρ}

theorem room (s : Stage k ρ) (s_axis : Option Beat) : s.input_fifo.fifo.Room (s.pushed s_axis) := by
  intro h
  unfold pushed at h
  split at h
  · rename_i hr
    simpa [tready, FallthroughSmallFifo.nearlyFull] using hr
  · cases h

theorem wellFormed_tick (h : s.WellFormed) (s_axis : Option Beat) (m_tready : Bool) (regs : ρ) :
    (s.tick s_axis m_tready regs).WellFormed :=
  FallthroughSmallFifo.wellFormed_tick h (room s s_axis) _

theorem popped_eq_none : s.popped m_tready = none ↔ (s.axis m_tready).taken = false := by
  unfold popped axis Axis.taken
  cases m_tready <;> cases s.tvalid <;> simp

theorem popped_eq_some {b : Beat} :
    s.popped m_tready = some b ↔ (s.axis m_tready).taken = true ∧ s.beat = b := by
  unfold popped axis Axis.taken
  cases m_tready <;> cases s.tvalid <;> simp

/-- The FIFO is read when it is not empty and the next stage is ready. -/
theorem popped_eq : s.popped m_tready = if m_tready then s.input_fifo.view.out else none := by
  unfold popped tvalid beat FallthroughSmallFifo.empty FallthroughSmallFifo.view
  cases m_tready <;> cases s.input_fifo.dout_valid <;> simp

theorem out_isSome : s.input_fifo.view.out.isSome = !s.input_fifo.empty := by
  unfold FallthroughSmallFifo.empty FallthroughSmallFifo.view
  cases s.input_fifo.dout_valid <;> simp

theorem length_popped :
    (s.popped m_tready).toList.length = (m_tready && !s.input_fifo.empty).toNat := by
  unfold popped tvalid
  cases m_tready <;> cases s.input_fifo.empty <;> rfl

theorem view_tick (h : s.WellFormed) (s_axis : Option Beat) (m_tready : Bool) (regs : ρ) :
    (s.tick s_axis m_tready regs).input_fifo.view
      = s.input_fifo.view.step (s.pushed s_axis) (m_tready && !s.input_fifo.empty) :=
  FallthroughSmallFifo.view_tick h (room s s_axis) _

/-- **No beat is lost, duplicated or overtaken.** -/
theorem conserves (h : s.WellFormed) (s_axis : Option Beat) (m_tready : Bool) (regs : ρ) :
    s.contents ++ (s.pushed s_axis).toList
      = (s.popped m_tready).toList ++ (s.tick s_axis m_tready regs).contents := by
  have htick : (s.tick s_axis m_tready regs).contents
      = (if m_tready && !s.input_fifo.empty then s.contents.tail else s.contents) ++
        (s.pushed s_axis).toList := by
    refine FallthroughSmallFifo.contents_tick h (room s s_axis) fun hr => ?_
    simp only [Bool.and_eq_true, Bool.not_eq_true'] at hr
    exact hr.2
  rw [htick]
  unfold popped tvalid
  split
  · rename_i hr
    have he : s.input_fifo.empty = false := by simp_all
    have hh : s.contents.head? = some s.beat := FallthroughSmallFifo.head?_contents he
    obtain ⟨l, hl⟩ : ∃ l, s.contents = s.beat :: l := by
      cases hc : s.contents with
      | nil => rw [hc] at hh; cases hh
      | cons b l => rw [hc] at hh; cases hh; exact ⟨l, rfl⟩
    simp [hl]
  · simp

/-- The next stage gets what this one hands on. -/
theorem pushed_offer {k' : Nat} {ρ' : Type} (t : Stage k' ρ') (f : Beat → Beat) :
    t.pushed (s.offer f) = (s.popped t.tready).map f := by
  unfold pushed offer popped
  cases t.tready <;> cases s.tvalid <;> simp

theorem pushed_offer_id {k' : Nat} {ρ' : Type} (t : Stage k' ρ') :
    t.pushed (s.offer id) = s.popped t.tready := by
  rw [pushed_offer, Option.map_id_fun, id_eq]

/-! ## Header flags -/

/-- The header flag behind `l`, if it is `h` in front of it. -/
def ends (h : Bool) (l : List Beat) : Bool :=
  match l.getLast? with
  | some b => !b.tlast
  | none => h

theorem ends_nil (h : Bool) : ends h [] = h := rfl

theorem ends_append (h : Bool) (l l' : List Beat) : ends h (l ++ l') = ends (ends h l) l' := by
  unfold ends
  cases hl : l'.getLast? <;> simp [List.getLast?_append, hl]

/-- The beats of `l` that open a packet. -/
def opening : Bool → List Beat → List Beat
  | _, [] => []
  | h, b :: l => (if !h && !b.tlast then [b] else []) ++ opening (!b.tlast) l

theorem opening_toList {h : Bool} {x : Option Beat} {b : Beat} {l : List Beat}
    (hx : opening h x.toList = b :: l) : l = [] := by
  cases x with
  | none => cases hx
  | some b' =>
    rw [Option.toList_some, opening, opening, List.append_nil] at hx
    split at hx
    · cases hx
      rfl
    · cases hx

theorem ends_cons (h : Bool) (b : Beat) (l : List Beat) : ends h (b :: l) = ends (!b.tlast) l :=
  ends_append h [b] l

theorem opening_append : ∀ (h : Bool) (l l' : List Beat),
    opening h (l ++ l') = opening h l ++ opening (ends h l) l'
  | _, [], _ => rfl
  | h, b :: l, l' => by
    rw [List.cons_append, opening, opening, opening_append _ l l', ends_cons, List.append_assoc]

theorem headerNext_ends (h : Bool) :
    headerNext h (s.axis m_tready) = ends h (s.popped m_tready).toList := by
  rw [headerNext_eq]
  cases ht : (s.axis m_tready).taken with
  | false => simp [popped_eq_none.2 ht, ends]
  | true => simp [popped_eq_some.2 ⟨ht, rfl⟩, ends, axis]

/-- The flag in front of a stage and the one in the stage differ by the beats between them. -/
theorem ends_tick (h : s.WellFormed) {g header : Bool} (hg : g = ends header s.contents) :
    ends g (s.pushed s_axis).toList
      = ends (ends header (s.popped m_tready).toList) (s.tick s_axis m_tready regs).contents := by
  rw [hg, ← ends_append, ← ends_append, conserves h s_axis m_tready regs]

/-- The beat that leaves opens a packet. -/
theorem opening_popped (h : Bool) :
    opening h (s.popped m_tready).toList
      = if !h && (s.axis m_tready).first then [s.beat] else [] := by
  rw [Axis.first_eq]
  cases ht : (s.axis m_tready).taken with
  | false => simp [popped_eq_none.2 ht, opening]
  | true => simp [popped_eq_some.2 ⟨ht, rfl⟩, opening, axis]

/-- No packet is lost between two stages. -/
theorem opening_tick (h : s.WellFormed) {g header : Bool} (hg : g = ends header s.contents) :
    opening header s.contents ++ opening g (s.pushed s_axis).toList
      = opening header (s.popped m_tready).toList ++
        opening (ends header (s.popped m_tready).toList) (s.tick s_axis m_tready regs).contents := by
  rw [hg, ← opening_append, ← opening_append, conserves h s_axis m_tready regs]

/-- The next stage sees the same flags if `TLAST` is kept. -/
theorem ends_map {f : Beat → Beat} (hf : ∀ b, (f b).tlast = b.tlast) (h : Bool) (x : Option Beat) :
    ends h (x.map f).toList = ends h x.toList := by
  cases x with
  | none => rfl
  | some b => exact congrArg not (hf b)

/-! ## Flow -/

/-- The FIFO has only handed beats on to a stage that was ready; `x1`, `x2`, `x3` entered in the last
three cycles. -/
def Flow (s : Stage k ρ) (x1 x2 x3 : Option Beat) : Prop :=
  s.WellFormed ∧ s.input_fifo.view = .flow x1 x2 x3

variable {x1 x2 x3 : Option Beat}

theorem flow_of_empty (h : s.WellFormed) (hc : s.contents = []) : s.Flow none none none :=
  ⟨h, Prefetch.State.contents_eq_nil.1 hc⟩

theorem Flow.contents_eq (h : s.Flow x1 x2 x3) :
    s.contents = x3.toList ++ (x2.toList ++ x1.toList) := by
  unfold contents FallthroughSmallFifo.contents
  rw [h.2, Prefetch.State.contents_flow]

theorem Flow.popped (h : s.Flow x1 x2 x3) : s.popped true = x3 := by
  rw [popped_eq, h.2]
  rfl

/-- With at least four places the FIFO of a flowing stage is never nearly full. -/
theorem Flow.tready (h : s.Flow x1 x2 x3) (hk : 2 ≤ k) : s.tready = true := by
  have hq : s.input_fifo.fifo.contents = x1.toList := congrArg Prefetch.State.queue h.2
  have hd : s.input_fifo.fifo.depth.toNat ≤ 1 := by
    rw [← SmallFifo.length_contents, hq]
    cases x1 <;> simp
  have hpow : 2 ^ 2 ≤ 2 ^ k := Nat.pow_le_pow_right (by decide) hk
  simp only [Stage.tready, FallthroughSmallFifo.nearlyFull, SmallFifo.nearlyFull, Bool.not_eq_true',
    decide_eq_false_iff_not]
  omega

/-- **A flowing stage is a delay of three cycles.** -/
theorem Flow.tick (h : s.Flow x1 x2 x3) (hk : 2 ≤ k) (s_axis : Option Beat) (regs : ρ) :
    (s.tick s_axis true regs).Flow s_axis x1 x2 := by
  have hp : s.pushed s_axis = s_axis := if_pos (h.tready hk)
  have hr : x3.isSome = !s.input_fifo.empty := by
    rw [← out_isSome, h.2]
    rfl
  refine ⟨wellFormed_tick h.1 s_axis true regs, ?_⟩
  rw [view_tick h.1, hp, Bool.true_and, ← hr, h.2, Prefetch.State.step_flow]

/-- The stage hands on without waiting, and nothing has entered in the last `n` cycles. -/
def Calm (n : Nat) (s : Stage k ρ) : Prop :=
  2 ≤ k ∧ ∃ x1 x2 x3, s.Flow x1 x2 x3 ∧ (1 ≤ n → x1 = none) ∧ (2 ≤ n → x2 = none) ∧
    (3 ≤ n → x3 = none)

theorem Flow.calm (h : s.Flow x1 x2 x3) (hk : 2 ≤ k) : s.Calm 0 :=
  ⟨hk, x1, x2, x3, h, by omega, by omega, by omega⟩

theorem Calm.tready {n : Nat} (h : s.Calm n) : s.tready = true := by
  obtain ⟨hk, x1, x2, x3, hf, -⟩ := h
  exact hf.tready hk

theorem Calm.tick {n n' : Nat} (h : s.Calm n) (hn : n' ≤ n + 1) (hx : 1 ≤ n' → s_axis = none)
    (regs : ρ) : (s.tick s_axis true regs).Calm n' := by
  obtain ⟨hk, x1, x2, x3, hf, h1, h2, h3⟩ := h
  exact ⟨hk, s_axis, x1, x2, hf.tick hk s_axis regs, hx, fun h => h1 (by omega),
    fun h => h2 (by omega)⟩

/-- Three cycles later the stage is empty. -/
theorem Calm.contents {n : Nat} (h : s.Calm n) (hn : 3 ≤ n) : s.contents = [] := by
  obtain ⟨-, x1, x2, x3, hf, h1, h2, h3⟩ := h
  rw [hf.contents_eq, h1 (by omega), h2 (by omega), h3 hn]
  rfl

/-- A stage that is empty hands nothing on. -/
theorem tvalid_of_empty (h : s.contents = []) : s.tvalid = false := by
  have ho := out_isSome (s := s)
  rw [Prefetch.State.contents_eq_nil.1 h] at ho
  exact ho.symm

theorem offer_of_empty (h : s.contents = []) (f : Beat → Beat) : s.offer f = none := by
  unfold offer
  rw [tvalid_of_empty h]
  rfl

/-! ## Progress -/

def weight (s : Stage k ρ) : Nat := s.input_fifo.view.weight

/-- **A FIFO that holds a beat and is read moves.** -/
theorem moves (h : s.WellFormed) (s_axis : Option Beat) (m_tready : Bool) (regs : ρ) :
    Clocked.Moves 4 s.weight (s.tick s_axis m_tready regs).weight
      (s.pushed s_axis).toList.length (s.popped m_tready).toList.length m_tready := by
  unfold weight
  rw [view_tick h, length_popped]
  constructor
  · refine Prefetch.State.weight_step_le _ fun hr => ?_
    rw [out_isSome]
    simp_all
  · rintro rfl hw
    rw [Bool.true_and, ← out_isSome]
    refine Prefetch.State.weight_step h.filled _ fun hc => ?_
    rw [Prefetch.State.contents_eq_nil.1 hc] at hw
    exact absurd hw (Nat.lt_irrefl 0)

/-- The same for a stage that is fed by another one. -/
theorem moves_offer {k' : Nat} {ρ' : Type} {t : Stage k' ρ'} (ht : t.WellFormed) (s : Stage k ρ)
    (f : Beat → Beat) (m_tready : Bool) (regs : ρ') :
    Clocked.Moves 4 t.weight (t.tick (s.offer f) m_tready regs).weight
      (s.popped t.tready).toList.length (t.popped m_tready).toList.length m_tready := by
  have hm := moves ht (s.offer f) m_tready regs
  rw [pushed_offer] at hm
  have hlen : ((s.popped t.tready).map f).toList.length = (s.popped t.tready).toList.length := by
    cases s.popped t.tready <;> rfl
  rwa [hlen] at hm

theorem weight_eq_zero_iff : s.weight = 0 ↔ s.contents = [] := by
  constructor
  · intro h
    have := s.input_fifo.view.length_contents_le_weight
    exact List.length_eq_zero_iff.1 (Nat.le_zero.1 (h ▸ this))
  · intro h
    unfold weight
    rw [Prefetch.State.contents_eq_nil.1 h]
    rfl

/-- A stage that is empty is ready. -/
theorem tready_of_weight (h : s.WellFormed) (hk : 2 ≤ k) (hw : s.weight = 0) : s.tready = true :=
  (flow_of_empty h (weight_eq_zero_iff.1 hw)).tready hk

end Stage

/-! ## One list of beats on its way -/

/-- Of the beats `l`, `i` have entered the stage and `o` have left it. -/
structure Carries {k : Nat} {ρ : Type} (l : List Beat) (i o : Nat) (s : Stage k ρ) : Prop where
  wf : s.WellFormed
  contents : s.contents = (l.take i).drop o
  le : o ≤ i
  le_length : i ≤ l.length

namespace Carries

variable {k : Nat} {ρ : Type} {l : List Beat} {i o : Nat} {s : Stage k ρ}

theorem empty (h : s.WellFormed) (hc : s.contents = []) (l : List Beat) : Carries l 0 0 s :=
  ⟨h, by simpa using hc, Nat.le_refl 0, Nat.zero_le _⟩

/-- The beat that leaves is the next one of the list. -/
theorem popped (h : Carries l i o s) {m_tready : Bool} {b : Beat}
    (hb : s.popped m_tready = some b) : o < i ∧ l[o]? = some b := by
  have hc := Stage.conserves h.wf none m_tready s.regs
  have hn : s.pushed none = none := by simp [Stage.pushed]
  rw [hb, hn, Option.toList_none, List.append_nil, Option.toList_some, h.contents] at hc
  have hlen := congrArg List.length hc
  simp only [List.length_drop, List.length_take, List.length_append, List.length_singleton] at hlen
  have hhead := congrArg List.head? hc
  have hle := h.le_length
  have hlt : o < i := by omega
  refine ⟨hlt, ?_⟩
  rw [List.head?_drop, List.getElem?_take_of_lt hlt] at hhead
  exact hhead

theorem tick (h : Carries l i o s) {s_axis : Option Beat} (m_tready : Bool) (regs : ρ)
    (hp : ∀ b, s.pushed s_axis = some b → l[i]? = some b) :
    Carries l (i + (s.pushed s_axis).toList.length) (o + (s.popped m_tready).toList.length)
      (s.tick s_axis m_tready regs) := by
  have hc := Stage.conserves h.wf s_axis m_tready regs
  have hle := h.le
  have hle' := h.le_length
  have htake : (l.take i).drop o ++ (s.pushed s_axis).toList
      = (l.take (i + (s.pushed s_axis).toList.length)).drop o := by
    cases hx : s.pushed s_axis with
    | none => simp
    | some b =>
      have hb := hp b hx
      rw [Option.toList_some, List.length_singleton, List.take_add_one, hb, Option.toList_some,
        List.drop_append_of_le_length (by rw [List.length_take]; omega)]
  rw [h.contents, htake] at hc
  have hi : i + (s.pushed s_axis).toList.length ≤ l.length := by
    cases hx : s.pushed s_axis with
    | none => simpa using hle'
    | some b => exact (List.getElem?_eq_some_iff.1 (hp b hx)).1
  have ho : o + (s.popped m_tready).toList.length ≤ i := by
    cases hx : s.popped m_tready with
    | none => simpa using hle
    | some b => exact (h.popped hx).1
  refine ⟨Stage.wellFormed_tick h.wf s_axis m_tready regs, ?_, by omega, hi⟩
  rw [← List.drop_drop, hc, List.drop_left]

/-- An empty stage has handed on everything. -/
theorem eq_of_empty (h : Carries l i o s) (hc : s.contents = []) : o = i := by
  have hlen := congrArg List.length (h.contents.symm.trans hc)
  rw [List.length_drop, List.length_take, List.length_nil] at hlen
  have hle := h.le
  have hle' := h.le_length
  omega

/-- At most what has entered leaves. -/
theorem popped_le (h : Carries l i o s) (m_tready : Bool) :
    o + (s.popped m_tready).toList.length ≤ i := by
  cases hp : s.popped m_tready with
  | none => simpa using h.le
  | some b => exact (h.popped hp).1

/-- The next stage is given what this one hands on. -/
theorem tick_offer {k' : Nat} {ρ' : Type} {t : Stage k' ρ'} {o' : Nat} (ht : Carries l o o' t)
    (f : Beat → Beat) (hout : ∀ b, s.popped t.tready = some b → l[o]? = some (f b))
    (m_tready : Bool) (regs : ρ') :
    Carries l (o + (s.popped t.tready).toList.length) (o' + (t.popped m_tready).toList.length)
      (t.tick (s.offer f) m_tready regs) := by
  have hlen : (t.pushed (s.offer f)).toList.length = (s.popped t.tready).toList.length := by
    rw [Stage.pushed_offer]
    cases s.popped t.tready <;> rfl
  have hpush : ∀ b, t.pushed (s.offer f) = some b → l[o]? = some b := by
    intro b hb
    rw [Stage.pushed_offer, Option.map_eq_some_iff] at hb
    obtain ⟨a, ha, rfl⟩ := hb
    exact hout a ha
  rw [← hlen]
  exact ht.tick m_tready regs hpush

end Carries

end BirRouter
