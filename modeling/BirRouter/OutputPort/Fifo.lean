import BirRouter.Lib.Prefetch
import Mathlib.Algebra.Group.Nat.Defs
import Mathlib.Data.List.GetD
import Mathlib.Logic.Function.Basic

/-!
# The input FIFO of a stage (`small_fifo_v3.v`, `fallthrough_small_fifo_v2.v`)

`small_fifo` is a ring buffer of `2^MAX_DEPTH_BITS` words whose head appears in a register one cycle
after `rd_en`; `fallthrough_small_fifo` reads it ahead through two more registers.  A cycle without
reset is `tick`.

`small_fifo` guards neither its write nor its read.  Where the surrounding logic does (`Room`,
`rd_en` only while something is there) the ring buffer is a list (`SmallFifo.contents_tick`) and the
fallthrough FIFO is the prefetching queue of `Lib.Prefetch` (`FallthroughSmallFifo.view_tick`), to
which everything said later about FIFOs refers.
-/

set_option autoImplicit false

namespace BirRouter

/-! ## The ring buffer -/

/-- The registers of `small_fifo`, `k` being `MAX_DEPTH_BITS`. -/
structure SmallFifo (k : Nat) (α : Type) where
  queue : BitVec k → α
  rd_ptr : BitVec k
  wr_ptr : BitVec k
  depth : BitVec (k + 1)
  dout : α

namespace SmallFifo

variable {k : Nat} {α : Type}

def nearlyFull (s : SmallFifo k α) : Bool := decide (2 ^ k - 1 ≤ s.depth.toNat)

def empty (s : SmallFifo k α) : Bool := decide (s.depth.toNat = 0)

/-- One clock cycle; `wr` is `din` while `wr_en` is high. -/
def tick (s : SmallFifo k α) (wr : Option α) (rd_en : Bool) : SmallFifo k α where
  queue := match wr with
    | some din => Function.update s.queue s.wr_ptr din
    | none => s.queue
  rd_ptr := if rd_en then s.rd_ptr + 1 else s.rd_ptr
  wr_ptr := if wr.isSome then s.wr_ptr + 1 else s.wr_ptr
  depth :=
    if wr.isSome && !rd_en then s.depth + 1
    else if !wr.isSome && rd_en then s.depth - 1
    else s.depth
  dout := if rd_en then s.queue s.rd_ptr else s.dout

/-- The word `i` places behind the read pointer. -/
def word (s : SmallFifo k α) (i : Nat) : α := s.queue (s.rd_ptr + BitVec.ofNat k i)

def contents (s : SmallFifo k α) : List α := (List.range s.depth.toNat).map s.word

/-- The write pointer is `depth` places ahead of the read pointer, and there is a free place. -/
structure WellFormed (s : SmallFifo k α) : Prop where
  wr_ptr : s.wr_ptr = s.rd_ptr + BitVec.ofNat k s.depth.toNat
  depth_lt : s.depth.toNat < 2 ^ k

/-- A word is only written while the FIFO is not nearly full. -/
def Room (s : SmallFifo k α) (wr : Option α) : Prop := wr.isSome → s.nearlyFull = false

theorem length_contents (s : SmallFifo k α) : s.contents.length = s.depth.toNat := by
  simp [contents]

theorem contents_isEmpty (s : SmallFifo k α) : s.contents.isEmpty = s.empty := by
  unfold empty
  rw [← length_contents]
  cases s.contents <;> simp

variable {s : SmallFifo k α} {wr : Option α} {rd_en : Bool}

theorem contents_head? (h : s.empty = false) :
    s.contents.head? = some (s.queue s.rd_ptr) := by
  unfold empty at h
  obtain ⟨n, hn⟩ := Nat.exists_eq_succ_of_ne_zero (of_decide_eq_false h)
  simp [contents, hn, List.range_succ_eq_map, word]

theorem ofNat_inj {i j : Nat} (x : BitVec k) (hi : i < 2 ^ k) (hj : j < 2 ^ k)
    (h : x + BitVec.ofNat k i = x + BitVec.ofNat k j) : i = j := by
  have hn := congrArg BitVec.toNat ((BitVec.add_right_inj x).1 h)
  rwa [BitVec.toNat_ofNat, BitVec.toNat_ofNat, Nat.mod_eq_of_lt hi, Nat.mod_eq_of_lt hj] at hn

theorem room_depth (h : s.Room wr) (hw : wr.isSome) :
    s.depth.toNat + 1 < 2 ^ k := by
  have := of_decide_eq_false (h hw)
  omega

/-- The write pointer is `depth` places ahead of the read pointer; all places may be filled. -/
structure Sound (s : SmallFifo k α) : Prop where
  wr_ptr : s.wr_ptr = s.rd_ptr + BitVec.ofNat k s.depth.toNat
  depth_le : s.depth.toNat ≤ 2 ^ k

/-- A word is only written while there is a free place. -/
def Fits (s : SmallFifo k α) (wr : Option α) : Prop := wr.isSome → s.depth.toNat < 2 ^ k

theorem WellFormed.sound (h : s.WellFormed) : s.Sound :=
  ⟨h.wr_ptr, Nat.le_of_lt h.depth_lt⟩

theorem Room.fits (h : s.Room wr) : s.Fits wr :=
  fun hw => Nat.lt_of_succ_lt (room_depth h hw)

namespace Sound

theorem depth_tick (h : s.Sound) (hfits : s.Fits wr) (hrd : rd_en = true → s.empty = false) :
    (s.tick wr rd_en).depth.toNat + rd_en.toNat = s.depth.toNat + wr.toList.length := by
  have hle := h.depth_le
  have hpos : 0 < 2 ^ k := Nat.two_pow_pos k
  have hpow : 2 ^ (k + 1) = 2 * 2 ^ k := by rw [Nat.pow_succ, Nat.mul_comm]
  have hone : (1 : BitVec (k + 1)).toNat = 1 := by simp
  cases wr with
  | none =>
    cases rd_en with
    | false => simp [tick]
    | true =>
      have hd : s.depth.toNat ≠ 0 := of_decide_eq_false (hrd rfl)
      simp only [tick, Option.isSome_none, Bool.not_true, Bool.false_eq_true, if_false,
        Bool.not_false, Bool.and_self, if_true, BitVec.toNat_sub, hone, Bool.toNat_true,
        Option.toList_none, List.length_nil]
      rw [show 2 ^ (k + 1) - 1 + s.depth.toNat = s.depth.toNat - 1 + 2 ^ (k + 1) by omega,
        Nat.add_mod_right, Nat.mod_eq_of_lt (by omega)]
      omega
  | some din =>
    have hr := hfits rfl
    cases rd_en with
    | true => simp [tick]
    | false =>
      simp only [tick, Option.isSome_some, Bool.not_false, Bool.and_self, if_true,
        BitVec.toNat_add, hone, Bool.toNat_false, Option.toList_some, List.length_singleton]
      rw [Nat.mod_eq_of_lt (by omega)]

theorem sound_tick (h : s.Sound) (hfits : s.Fits wr) (hrd : rd_en = true → s.empty = false) :
    (s.tick wr rd_en).Sound := by
  have hd := h.depth_tick hfits hrd
  constructor
  · have hsum : BitVec.ofNat k (s.tick wr rd_en).depth.toNat + BitVec.ofNat k rd_en.toNat
        = BitVec.ofNat k s.depth.toNat + BitVec.ofNat k wr.toList.length := by
      rw [← BitVec.ofNat_add, ← BitVec.ofNat_add, hd]
    have hw := h.wr_ptr
    generalize BitVec.ofNat k (s.tick wr rd_en).depth.toNat = d' at hsum ⊢
    generalize BitVec.ofNat k s.depth.toNat = d at hsum hw
    cases wr <;> cases rd_en <;> simp_all [tick] <;> grind
  · cases wr with
    | none =>
      have := h.depth_le
      simp only [Option.toList_none, List.length_nil] at hd
      omega
    | some din =>
      have := hfits rfl
      simp only [Option.toList_some, List.length_singleton] at hd
      omega

/-- A write lands behind all words that are there. -/
theorem word_update (h : s.Sound) {din : α} (hfits : s.Fits (some din)) {i : Nat}
    (hi : i ≤ s.depth.toNat) :
    Function.update s.queue s.wr_ptr din (s.rd_ptr + BitVec.ofNat k i)
      = if i = s.depth.toNat then din else s.word i := by
  have hr := hfits rfl
  rw [h.wr_ptr]
  split
  · subst i
    exact Function.update_self ..
  · rename_i hne
    refine Function.update_of_ne (fun heq => hne ?_) ..
    exact ofNat_inj s.rd_ptr (by omega) hr heq

/-- The words behind the read pointer after a cycle, for as many places as were filled before. -/
theorem word_tick (h : s.Sound) (hfits : s.Fits wr) (rd_en : Bool) {i : Nat}
    (hi : i + rd_en.toNat < s.depth.toNat + wr.toList.length) :
    (s.tick wr rd_en).word i = (s.contents ++ wr.toList).getD (i + rd_en.toNat) s.dout := by
  have hptr : (s.tick wr rd_en).rd_ptr + BitVec.ofNat k i
      = s.rd_ptr + BitVec.ofNat k (i + rd_en.toNat) := by
    cases rd_en
    · rfl
    · show s.rd_ptr + 1#k + BitVec.ofNat k i = s.rd_ptr + BitVec.ofNat k (i + 1)
      rw [BitVec.ofNat_add]
      ac_rfl
  have hlen := length_contents s
  unfold word
  rw [hptr]
  generalize i + rd_en.toNat = j at hi
  cases wr with
  | none =>
    simp only [Option.toList_none, List.length_nil, Nat.add_zero, List.append_nil] at hi ⊢
    simp [tick, contents, List.getD, hi, word]
  | some din =>
    simp only [Option.toList_some, List.length_singleton] at hi ⊢
    simp only [tick]
    rw [h.word_update hfits (by omega)]
    split
    · subst j
      simp [List.getD, ← hlen]
    · rw [List.getD_append _ _ _ _ (by omega)]
      simp [contents, List.getD, show j < s.depth.toNat by omega]

/-- **The ring buffer is a queue**, up to its last place. -/
theorem contents_tick (h : s.Sound) (hfits : s.Fits wr) (hrd : rd_en = true → s.empty = false) :
    (s.tick wr rd_en).contents
      = (if rd_en then s.contents.tail else s.contents) ++ wr.toList := by
  have hd := h.depth_tick hfits hrd
  have hdrop : (if rd_en then s.contents.tail else s.contents) ++ wr.toList
      = (s.contents ++ wr.toList).drop rd_en.toNat := by
    cases rd_en with
    | false => simp
    | true =>
      have hne : s.contents ≠ [] := by
        have := contents_isEmpty s
        rw [hrd rfl] at this
        exact List.isEmpty_eq_false_iff.1 this
      simp [List.drop_append_of_le_length (List.length_pos_iff.2 hne)]
  rw [hdrop]
  refine List.ext_getElem ?_ fun i hi _ => ?_
  · rw [length_contents, List.length_drop, List.length_append, length_contents]
    omega
  · rw [length_contents] at hi
    have hw := h.word_tick hfits rd_en (i := i) (by omega)
    rw [List.getElem_drop]
    simp only [contents, List.getElem_map, List.getElem_range] at hw ⊢
    rw [hw, List.getD_eq_getElem _ _ (by simp; omega)]
    congr 1
    omega

end Sound

theorem wellFormed_tick (h : s.WellFormed) (hroom : s.Room wr)
    (hrd : rd_en = true → s.empty = false) : (s.tick wr rd_en).WellFormed := by
  refine ⟨(h.sound.sound_tick hroom.fits hrd).wr_ptr, ?_⟩
  have hd := h.sound.depth_tick hroom.fits hrd
  cases wr with
  | none =>
    have := h.depth_lt
    simp only [Option.toList_none, List.length_nil] at hd
    omega
  | some din =>
    have := room_depth hroom rfl
    simp only [Option.toList_some, List.length_singleton] at hd
    omega

/-- **The ring buffer is a queue.** -/
theorem contents_tick (h : s.WellFormed) (hroom : s.Room wr)
    (hrd : rd_en = true → s.empty = false) :
    (s.tick wr rd_en).contents
      = (if rd_en then s.contents.tail else s.contents) ++ wr.toList :=
  h.sound.contents_tick hroom.fits hrd

end SmallFifo

/-! ## Reading ahead -/

/-- The registers of `fallthrough_small_fifo`. -/
structure FallthroughSmallFifo (k : Nat) (α : Type) where
  fifo : SmallFifo k α
  fifo_valid : Bool
  middle_valid : Bool
  dout_valid : Bool
  middle_dout : α
  dout : α

namespace FallthroughSmallFifo

variable {k : Nat} {α : Type}

def empty (f : FallthroughSmallFifo k α) : Bool := !f.dout_valid

def nearlyFull (f : FallthroughSmallFifo k α) : Bool := f.fifo.nearlyFull

def willUpdateDout (f : FallthroughSmallFifo k α) (rd_en : Bool) : Bool :=
  (f.middle_valid || f.fifo_valid) && (rd_en || !f.dout_valid)

def willUpdateMiddle (f : FallthroughSmallFifo k α) (rd_en : Bool) : Bool :=
  f.fifo_valid && (f.middle_valid == f.willUpdateDout rd_en)

def fifoRdEn (f : FallthroughSmallFifo k α) : Bool :=
  !f.fifo.empty && !(f.middle_valid && f.dout_valid && f.fifo_valid)

/-- One clock cycle. -/
def tick (f : FallthroughSmallFifo k α) (wr : Option α) (rd_en : Bool) :
    FallthroughSmallFifo k α where
  fifo := f.fifo.tick wr f.fifoRdEn
  middle_dout := if f.willUpdateMiddle rd_en then f.fifo.dout else f.middle_dout
  dout :=
    if f.willUpdateDout rd_en then (if f.middle_valid then f.middle_dout else f.fifo.dout)
    else f.dout
  fifo_valid :=
    if f.fifoRdEn then true
    else if f.willUpdateMiddle rd_en || f.willUpdateDout rd_en then false
    else f.fifo_valid
  middle_valid :=
    if f.willUpdateMiddle rd_en then true
    else if f.willUpdateDout rd_en then false
    else f.middle_valid
  dout_valid :=
    if f.willUpdateDout rd_en then true else if rd_en then false else f.dout_valid

/-- After reset: `dout` and `middle_dout` are 0, the memory of `small_fifo` and its `dout` keep what they
hold. -/
def reset [Zero α] (queue : BitVec k → α) (word : α) : FallthroughSmallFifo k α :=
  ⟨⟨queue, 0, 0, 0, word⟩, false, false, false, 0, 0⟩

/-- What is in the FIFO, as a prefetching queue. -/
def view (f : FallthroughSmallFifo k α) : Prefetch.State α where
  queue := f.fifo.contents
  fetched := if f.fifo_valid then some f.fifo.dout else none
  middle := if f.middle_valid then some f.middle_dout else none
  out := if f.dout_valid then some f.dout else none

def contents (f : FallthroughSmallFifo k α) : List α := f.view.contents

structure WellFormed (f : FallthroughSmallFifo k α) : Prop where
  fifo : f.fifo.WellFormed
  filled : f.view.Filled

theorem reset_wellFormed [Zero α] (queue : BitVec k → α) (word : α) :
    (reset queue word).WellFormed := by
  refine ⟨⟨?_, Nat.two_pow_pos k⟩, ?_⟩
  · simp [reset]
  · simp [reset, view, Prefetch.State.Filled]

theorem contents_reset [Zero α] (queue : BitVec k → α) (word : α) :
    (reset queue word).contents = [] := by
  simp [contents, view, reset, SmallFifo.contents, Prefetch.State.contents]

section Refinement

variable {f : FallthroughSmallFifo k α} {wr : Option α} {rd_en : Bool}

theorem view_updateOut (rd_en : Bool) : f.view.updateOut rd_en = f.willUpdateDout rd_en := by
  unfold Prefetch.State.updateOut willUpdateDout view
  cases f.middle_valid <;> cases f.fifo_valid <;> cases f.dout_valid <;> simp

theorem view_updateMiddle (rd_en : Bool) :
    f.view.updateMiddle rd_en = f.willUpdateMiddle rd_en := by
  unfold Prefetch.State.updateMiddle willUpdateMiddle
  rw [view_updateOut]
  cases h : f.middle_valid <;> cases h' : f.fifo_valid <;> simp [view, h, h']

theorem view_fetch : f.view.fetch = f.fifoRdEn := by
  unfold Prefetch.State.fetch fifoRdEn
  rw [← SmallFifo.contents_isEmpty]
  cases h : f.middle_valid <;> cases h' : f.fifo_valid <;> cases h'' : f.dout_valid <;>
    simp [view, h, h', h'']

/-- **The FIFO is a prefetching queue.** -/
theorem view_tick (h : f.WellFormed) (hroom : f.fifo.Room wr) (rd_en : Bool) :
    (f.tick wr rd_en).view = f.view.step wr rd_en := by
  have hrd : f.fifoRdEn = true → f.fifo.empty = false := by
    intro h
    simp only [fifoRdEn, Bool.and_eq_true, Bool.not_eq_true'] at h
    exact h.1
  unfold Prefetch.State.step
  rw [view_fetch, view_updateMiddle, view_updateOut]
  unfold view
  congr 1
  · exact SmallFifo.contents_tick h.fifo hroom hrd
  · simp only [tick, SmallFifo.tick]
    by_cases hf : f.fifoRdEn = true
    · simp [hf, SmallFifo.contents_head? (hrd hf)]
    · simp only [hf, Bool.false_eq_true, if_false]
      split <;> simp_all
  · simp only [tick]
    by_cases hm : f.willUpdateMiddle rd_en = true
    · have hv : f.fifo_valid = true := by
        simp only [willUpdateMiddle, Bool.and_eq_true] at hm
        exact hm.1
      simp [hm, hv]
    · simp only [hm, Bool.false_eq_true, if_false]
      split <;> simp_all
  · simp only [tick]
    by_cases ho : f.willUpdateDout rd_en = true
    · have hv : f.middle_valid = true ∨ f.fifo_valid = true := by
        simp only [willUpdateDout, Bool.and_eq_true, Bool.or_eq_true] at ho
        exact ho.1
      cases hm : f.middle_valid
      · simp [ho, hv.resolve_left (by simp [hm])]
      · simp [ho]
    · simp only [ho, Bool.false_eq_true, if_false]
      split <;> simp_all

theorem wellFormed_tick (h : f.WellFormed) (hroom : f.fifo.Room wr) (rd_en : Bool) :
    (f.tick wr rd_en).WellFormed := by
  refine ⟨SmallFifo.wellFormed_tick h.fifo hroom ?_, ?_⟩
  · intro h
    simp only [fifoRdEn, Bool.and_eq_true, Bool.not_eq_true'] at h
    exact h.1
  · rw [view_tick h hroom]
    exact Prefetch.State.filled_step h.filled wr rd_en

/-- **Nothing is lost, duplicated or reordered.** -/
theorem contents_tick (h : f.WellFormed) (hroom : f.fifo.Room wr)
    (hrd : rd_en = true → f.empty = false) :
    (f.tick wr rd_en).contents
      = (if rd_en then f.contents.tail else f.contents) ++ wr.toList := by
  unfold contents
  rw [view_tick h hroom]
  refine Prefetch.State.contents_step h.filled wr fun hr => ?_
  have he := hrd hr
  simp only [empty, Bool.not_eq_false'] at he
  simp [view, he]

theorem head?_contents (he : f.empty = false) : f.contents.head? = some f.dout := by
  have hv : f.dout_valid = true := by simpa [empty] using he
  have ho : f.view.out = some f.dout := by simp [view, hv]
  rw [contents, Prefetch.State.head?_contents (by simp [ho]), ho]

/-- Reading an empty FIFO has no effect. -/
theorem tick_of_empty (h : f.empty = true) (wr : Option α) (rd_en : Bool) :
    f.tick wr rd_en = f.tick wr false := by
  have hv : f.dout_valid = false := by simpa [empty] using h
  have hout : f.willUpdateDout rd_en = f.willUpdateDout false := by simp [willUpdateDout, hv]
  have hmid : f.willUpdateMiddle rd_en = f.willUpdateMiddle false := by
    simp [willUpdateMiddle, hout]
  simp [tick, hout, hmid, hv]

/-- A FIFO that is empty still shows the word that was read last. -/
theorem dout_tick_of_empty (h : (f.tick wr rd_en).empty = true) :
    (f.tick wr rd_en).dout = f.dout := by
  simp only [empty, tick, Bool.not_eq_true'] at h
  split at h
  · cases h
  · rename_i hout
    simp [tick, hout]

theorem empty_tick_false (h : f.empty = false) (wr : Option α) :
    (f.tick wr false).empty = false := by
  have hv : f.dout_valid = true := by simpa [empty] using h
  simp [empty, tick, hv]

end Refinement

end FallthroughSmallFifo

end BirRouter
