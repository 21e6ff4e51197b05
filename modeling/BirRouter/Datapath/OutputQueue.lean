import BirRouter.Lib.Frames
import BirRouter.OutputPort.Stream

/-!
# One output queue (`nf10_bram_output_queues.v`)

Every port has two FIFOs: one for the words of its packets and one for the metadata of their first
beats.  They are filled together and read at different times: the metadata word is taken with the
first beat of a packet, which the queue recognises by counting `TLAST` (`metadata_state`).

The FIFOs are the older `fallthrough_small_fifo` of this core's own library: it has a single flag
`empty`, and the output register of `small_fifo` is the output.

`OutputQueue.Holds` says that a queue stands for a list of beats.  Its field `ready` is why the
metadata is always there in time: while the queue waits for a first beat, a metadata FIFO with nothing
at its output means that the other FIFO has nothing at its output either.
-/

set_option autoImplicit false

namespace BirRouter

open Frames

/-- `{tlast, tstrb, tdata}`. -/
structure Word where
  tlast : Bool
  tstrb : BitVec 32
  tdata : BitVec 256
  deriving DecidableEq, Repr

def Beat.word (b : Beat) : Word := ⟨b.tlast, b.tstrb, b.tdata⟩

def Word.beat (w : Word) (tuser : BitVec 128) : Beat := ⟨w.tdata, w.tstrb, tuser, w.tlast⟩

@[simp]
theorem Word.beat_word (w : Word) (tuser : BitVec 128) : (w.beat tuser).word = w := rfl

namespace OutputQueue

/-! ## The FIFO -/

/-- The registers of this core's `fallthrough_small_fifo`. -/
structure FallthroughSmallFifo (k : Nat) (α : Type) where
  fifo : SmallFifo k α
  empty : Bool

namespace FallthroughSmallFifo

variable {k : Nat} {α : Type}

def dout (f : FallthroughSmallFifo k α) : α := f.fifo.dout

def nearlyFull (f : FallthroughSmallFifo k α) : Bool := f.fifo.nearlyFull

/-- `prog_full`, for the parameter `PROG_FULL_THRESHOLD`. -/
def progFull (threshold : Nat) (f : FallthroughSmallFifo k α) : Bool :=
  decide (threshold ≤ f.fifo.depth.toNat)

def fifoRdEn (f : FallthroughSmallFifo k α) (rd_en : Bool) : Bool :=
  if f.empty then !f.fifo.empty else rd_en && !f.fifo.empty

def emptyNxt (f : FallthroughSmallFifo k α) (rd_en : Bool) : Bool :=
  if f.empty then f.fifo.empty else rd_en && f.fifo.empty

/-- One clock cycle. -/
def tick (f : FallthroughSmallFifo k α) (wr : Option α) (rd_en : Bool) :
    FallthroughSmallFifo k α where
  fifo := f.fifo.tick wr (f.fifoRdEn rd_en)
  empty := f.emptyNxt rd_en

def reset (queue : BitVec k → α) (word : α) : FallthroughSmallFifo k α :=
  ⟨⟨queue, 0, 0, 0, word⟩, true⟩

/-- The word at the output and the words in the ring buffer. -/
def contents (f : FallthroughSmallFifo k α) : List α :=
  (if f.empty then [] else [f.dout]) ++ f.fifo.contents

variable {f : FallthroughSmallFifo k α}

theorem reset_sound (queue : BitVec k → α) (word : α) : (reset queue word).fifo.Sound := by
  constructor <;> simp [reset]

theorem contents_reset (queue : BitVec k → α) (word : α) : (reset queue word).contents = [] := by
  simp [contents, reset, SmallFifo.contents]

theorem fifoRdEn_nonempty {rd_en : Bool} (h : f.fifoRdEn rd_en = true) : f.fifo.empty = false := by
  unfold fifoRdEn at h
  split at h
  · simpa using h
  · simp only [Bool.and_eq_true, Bool.not_eq_true'] at h
    exact h.2

theorem sound_tick (h : f.fifo.Sound) {wr : Option α} (hfits : f.fifo.Fits wr) (rd_en : Bool) :
    (f.tick wr rd_en).fifo.Sound :=
  h.sound_tick hfits fifoRdEn_nonempty

theorem depth_tick_le (h : f.fifo.Sound) {wr : Option α} (hfits : f.fifo.Fits wr) (rd_en : Bool) :
    (f.tick wr rd_en).fifo.depth.toNat ≤ f.fifo.depth.toNat + wr.toList.length := by
  have hrd : f.fifoRdEn rd_en = true → f.fifo.empty = false := fifoRdEn_nonempty
  have hd := h.depth_tick hfits hrd
  show (f.fifo.tick wr (f.fifoRdEn rd_en)).depth.toNat ≤ _
  omega

/-- **Nothing is lost, duplicated or reordered.** -/
theorem contents_tick (h : f.fifo.Sound) {wr : Option α} (hfits : f.fifo.Fits wr) {rd_en : Bool}
    (hrd : rd_en = true → f.empty = false) :
    (f.tick wr rd_en).contents
      = (if rd_en then f.contents.tail else f.contents) ++ wr.toList := by
  have hne : f.fifoRdEn rd_en = true → f.fifo.empty = false := fifoRdEn_nonempty
  have hfifo := h.contents_tick hfits hne
  have hisEmpty := SmallFifo.contents_isEmpty f.fifo
  unfold contents
  simp only [tick, dout, hfifo]
  unfold fifoRdEn emptyNxt
  cases hq : f.fifo.contents with
  | nil =>
    rw [hq] at hisEmpty
    rcases Bool.eq_false_or_eq_true f.empty with he | he <;> cases rd_en <;>
      simp_all [SmallFifo.tick]
  | cons w l =>
    -- the word that goes to the output register is the head of the ring buffer
    rw [hq] at hisEmpty
    have hne : f.fifo.empty = false := by simpa using hisEmpty.symm
    have hw := SmallFifo.contents_head? hne
    rw [hq] at hw
    rcases Bool.eq_false_or_eq_true f.empty with he | he <;> cases rd_en <;>
      simp_all [SmallFifo.tick]

theorem head?_contents (he : f.empty = false) : f.contents.head? = some f.dout := by
  simp [contents, he]

theorem fifo_contents_eq_nil : f.fifo.contents = [] ↔ f.fifo.empty = true := by
  rw [← SmallFifo.contents_isEmpty, List.isEmpty_iff]

/-- The output is dry after a cycle without a read only if there was nothing at all. -/
theorem contents_of_empty_tick {wr : Option α} (h : (f.tick wr false).empty = true) :
    f.contents = [] := by
  simp only [tick, emptyNxt, Bool.false_and] at h
  split at h
  · rename_i he
    simp [contents, he, fifo_contents_eq_nil.2 h]
  · cases h

/-- With at most the word that is read, the output runs dry. -/
theorem empty_tick_of_contents {wr : Option α} {rd_en : Bool} (hrd : rd_en = true → f.empty = false)
    (h : f.contents = if rd_en then [f.dout] else []) : (f.tick wr rd_en).empty = true := by
  simp only [tick, emptyNxt]
  rcases Bool.eq_false_or_eq_true f.empty with he | he <;> cases rd_en <;>
    simp_all [contents, fifo_contents_eq_nil]

end FallthroughSmallFifo

end OutputQueue

inductive MetadataState
  | waitHeader
  | waitEop
  deriving DecidableEq, Repr

/-- The FIFOs and registers of one queue: `4096 / 32 = 2^7` words and four metadata words. -/
structure OutputQueue where
  output_fifo : OutputQueue.FallthroughSmallFifo 7 Word
  metadata_fifo : OutputQueue.FallthroughSmallFifo 2 (BitVec 128)
  metadata_state : MetadataState
  nearly_full : Bool
  metadata_nearly_full : Bool

namespace OutputQueue

/-- `BUFFER_THRESHOLD = (4096 - 1600) / 32`. -/
def bufferThreshold : Nat := 78

/-- `rd_en`. -/
def rdEn (q : OutputQueue) (m_tready : Bool) : Bool := m_tready && !q.output_fifo.empty

/-- `metadata_rd_en` and `metadata_state_next`. -/
def metadataNext (q : OutputQueue) (m_tready : Bool) : Bool × MetadataState :=
  match q.metadata_state with
  | .waitHeader => if q.rdEn m_tready then (true, .waitEop) else (false, .waitHeader)
  | .waitEop =>
    if q.rdEn m_tready && q.output_fifo.dout.tlast then (false, .waitHeader) else (false, .waitEop)

/-- One clock cycle, in which `wr` and `metadata_wr` are written. -/
def tick (q : OutputQueue) (wr : Option Word) (metadata_wr : Option (BitVec 128))
    (m_tready : Bool) : OutputQueue where
  output_fifo := q.output_fifo.tick wr (q.rdEn m_tready)
  metadata_fifo := q.metadata_fifo.tick metadata_wr (q.metadataNext m_tready).1
  metadata_state := (q.metadataNext m_tready).2
  nearly_full := q.output_fifo.progFull bufferThreshold
  metadata_nearly_full := q.metadata_fifo.nearlyFull

/-- After reset; the registers `nearly_full` and `metadata_nearly_full` are loaded during reset, too. -/
def reset (queue : BitVec 7 → Word) (word : Word) (metadata : BitVec 2 → BitVec 128)
    (tuser : BitVec 128) : OutputQueue :=
  ⟨.reset queue word, .reset metadata tuser, .waitHeader, false, false⟩

/-- What the queue shows to its port. -/
def beat (q : OutputQueue) : Beat := q.output_fifo.dout.beat q.metadata_fifo.dout

/-- The beat that leaves in a cycle. -/
def emitted (q : OutputQueue) (m_tready : Bool) : List Beat := if q.rdEn m_tready then [q.beat] else []

/-! ## What a queue stands for -/

/-- What the reader of a stream takes from it: all words, and the metadata of first beats. -/
def Shows (l m : List Beat) : Prop :=
  l.map Beat.word = m.map Beat.word ∧
  (firsts Beat.tlast true l).map Beat.tuser = (firsts Beat.tlast true m).map Beat.tuser

theorem after_eq_of_words {l m : List Beat} (h : l.map Beat.word = m.map Beat.word) (start : Bool) :
    after Beat.tlast start l = after Beat.tlast start m := by
  induction l generalizing m start with
  | nil =>
    cases m with
    | nil => rfl
    | cons b m => cases h
  | cons a l ih =>
    cases m with
    | nil => cases h
    | cons b m =>
      rw [List.map_cons, List.map_cons] at h
      obtain ⟨hw, ht⟩ := List.cons.inj h
      have hl : a.tlast = b.tlast := congrArg Word.tlast hw
      rw [after, after, hl]
      exact ih ht _

/-- The queue holds the beats `held`, behind `shown`, which have left. -/
structure Holds (q : OutputQueue) (shown held : List Beat) : Prop where
  sound : q.output_fifo.fifo.Sound
  metadata_sound : q.metadata_fifo.fifo.Sound
  words : q.output_fifo.contents = held.map Beat.word
  headers : q.metadata_fifo.contents
    = (firsts Beat.tlast (after Beat.tlast true shown) held).map Beat.tuser
  state : q.metadata_state
    = if after Beat.tlast true shown then MetadataState.waitHeader else MetadataState.waitEop
  /-- Packets have at least two beats. -/
  long : ∀ b ∈ firsts Beat.tlast (after Beat.tlast true shown) held, b.tlast = false
  /-- The metadata of a first beat is there in time. -/
  ready : q.metadata_state = .waitHeader → q.metadata_fifo.empty = true → q.output_fifo.empty = true
  nearly_full : q.nearly_full = false → q.output_fifo.fifo.depth.toNat ≤ bufferThreshold
  metadata_nearly_full : q.metadata_nearly_full = false → q.metadata_fifo.fifo.depth.toNat ≤ 3

section Tick

variable {q : OutputQueue} {shown held : List Beat} {m_tready : Bool}

/-- The number of beats that leave in a cycle. -/
def leaving (q : OutputQueue) (m_tready : Bool) : Nat := (q.rdEn m_tready).toNat

theorem nonempty_of_rdEn (hrd : q.rdEn m_tready = true) : q.output_fifo.empty = false := by
  simp only [rdEn, Bool.and_eq_true, Bool.not_eq_true'] at hrd
  exact hrd.2

theorem Holds.head (h : q.Holds shown held) (hrd : q.rdEn m_tready = true) :
    ∃ b rest, held = b :: rest ∧ q.output_fifo.dout = b.word ∧
      (after Beat.tlast true shown = true → q.metadata_fifo.dout = b.tuser) := by
  have he := nonempty_of_rdEn hrd
  have hhead := FallthroughSmallFifo.head?_contents he
  rw [h.words] at hhead
  cases held with
  | nil => cases hhead
  | cons b rest =>
    refine ⟨b, rest, rfl, (Option.some.inj hhead).symm, fun hs => ?_⟩
    have hm : q.metadata_fifo.empty = false := by
      by_contra hne
      have hout := h.ready (by rw [h.state, hs]; rfl) (by simpa using hne)
      rw [he] at hout
      cases hout
    have hmeta := FallthroughSmallFifo.head?_contents hm
    rw [h.headers, hs, firsts] at hmeta
    exact (Option.some.inj hmeta).symm

/-- What leaves is what the queue stands for. -/
theorem Holds.emitted (h : q.Holds shown held) (m_tready : Bool) :
    (q.emitted m_tready).map Beat.word = (held.take (q.leaving m_tready)).map Beat.word ∧
    (firsts Beat.tlast (after Beat.tlast true shown) (q.emitted m_tready)).map Beat.tuser
      = (firsts Beat.tlast (after Beat.tlast true shown)
          (held.take (q.leaving m_tready))).map Beat.tuser := by
  unfold OutputQueue.emitted leaving
  cases hrd : q.rdEn m_tready with
  | false => exact ⟨rfl, rfl⟩
  | true =>
    obtain ⟨b, rest, rfl, hw, hu⟩ := h.head hrd
    refine ⟨by simp [beat, hw], ?_⟩
    cases hs : after Beat.tlast true shown with
    | false => simp [firsts]
    | true => simp [firsts, beat, Word.beat, hu hs]

/-- The metadata word is read with a first beat. -/
theorem Holds.metadataNext (h : q.Holds shown held) (m_tready : Bool) :
    q.metadataNext m_tready = (q.rdEn m_tready && after Beat.tlast true shown,
      if after Beat.tlast true (shown ++ held.take (q.leaving m_tready)) then .waitHeader
      else .waitEop) := by
  unfold OutputQueue.metadataNext leaving
  rw [h.state]
  cases hrd : q.rdEn m_tready with
  | false => cases hs : after Beat.tlast true shown <;> simp [hs]
  | true =>
    obtain ⟨b, rest, rfl, hw, -⟩ := h.head hrd
    rw [Bool.toNat_true, List.take_one, List.head?_cons, Option.toList_some, after_concat, hw]
    have hl : b.word.tlast = b.tlast := rfl
    cases hs : after Beat.tlast true shown with
    | false => cases hb : b.tlast <;> simp [hl, hb]
    | true =>
      have hb := h.long b (by rw [hs, firsts]; simp)
      simp [hb]

variable {wr : Option Beat} {first_word : Bool}

/-- The metadata that is written beside `wr`. -/
def metadataWr (first_word : Bool) (wr : Option Beat) : Option (BitVec 128) :=
  if first_word then wr.map Beat.tuser else none

theorem Holds.headers_tick (h : q.Holds shown held)
    (hfirst : ∀ b ∈ wr, first_word = after Beat.tlast true (shown ++ held))
    (hfits : q.metadata_fifo.fifo.Fits (metadataWr first_word wr)) :
    (q.metadata_fifo.tick (metadataWr first_word wr) (q.metadataNext m_tready).1).contents
      = (firsts Beat.tlast (after Beat.tlast true (shown ++ held.take (q.leaving m_tready)))
          (held.drop (q.leaving m_tready) ++ wr.toList)).map Beat.tuser := by
  have hnew : (metadataWr first_word wr).toList
      = (firsts Beat.tlast (after Beat.tlast true (shown ++ held)) wr.toList).map Beat.tuser := by
    cases wr with
    | none => cases first_word <;> rfl
    | some b =>
      rw [← hfirst b rfl]
      cases first_word <;> rfl
  have hafter : after Beat.tlast (after Beat.tlast true (shown ++ held.take (q.leaving m_tready)))
      (held.drop (q.leaving m_tready)) = after Beat.tlast true (shown ++ held) := by
    rw [← after_append, List.append_assoc, List.take_append_drop]
  rw [firsts_append, hafter, List.map_append, ← hnew]
  rw [h.metadataNext, FallthroughSmallFifo.contents_tick h.metadata_sound hfits, h.headers]
  · congr 1
    unfold leaving
    cases hrd : q.rdEn m_tready with
    | false => simp
    | true =>
      obtain ⟨b, rest, rfl, -, -⟩ := h.head hrd
      rw [Bool.toNat_true, List.take_one, List.head?_cons, Option.toList_some, after_concat]
      cases hs : after Beat.tlast true shown <;> simp [firsts]
  · intro hrd
    simp only [Bool.and_eq_true] at hrd
    by_contra hne
    have hout := h.ready (by rw [h.state, hrd.2]; rfl) (by simpa using hne)
    have he := hrd.1
    simp [rdEn, hout] at he

theorem Holds.ready_tick (h : q.Holds shown held) {w : Option Word} {m : Option (BitVec 128)}
    (hs : (q.tick w m m_tready).metadata_state = .waitHeader)
    (hm : (q.tick w m m_tready).metadata_fifo.empty = true) :
    (q.tick w m m_tready).output_fifo.empty = true := by
  simp only [tick, h.metadataNext] at hs hm ⊢
  -- no metadata is read in a cycle behind which a first beat is awaited
  have hrd : (q.rdEn m_tready && after Beat.tlast true shown) = false := by
    cases hrd : q.rdEn m_tready with
    | false => rfl
    | true =>
      obtain ⟨b, rest, rfl, -, -⟩ := h.head hrd
      cases hst : after Beat.tlast true shown with
      | false => rfl
      | true =>
        have hb := h.long b (by rw [hst, firsts]; simp)
        simp [leaving, hrd, after_concat, hb] at hs
  rw [hrd] at hm
  have hnone := FallthroughSmallFifo.contents_of_empty_tick hm
  rw [h.headers, List.map_eq_nil_iff] at hnone
  apply FallthroughSmallFifo.empty_tick_of_contents nonempty_of_rdEn
  rw [h.words]
  cases hr : q.rdEn m_tready with
  | false =>
    simp only [leaving, hr, Bool.toNat_false, List.take_zero, List.append_nil] at hs
    cases held with
    | nil => rfl
    | cons b rest =>
      cases hst : after Beat.tlast true shown with
      | false => simp [hst] at hs
      | true => simp [hst, firsts] at hnone
  | true =>
    obtain ⟨b, rest, rfl, hw, -⟩ := h.head hr
    simp only [leaving, hr, Bool.toNat_true, List.take_one, List.head?_cons, Option.toList_some,
      after_concat] at hs
    cases hb : b.tlast with
    | false => simp [hb] at hs
    | true =>
      rw [firsts, hb] at hnone
      cases rest with
      | nil => simp [hw]
      | cons b' rest => simp [firsts] at hnone

/-- **One cycle of a queue.** -/
theorem Holds.tick (h : q.Holds shown held)
    (hfirst : ∀ b ∈ wr, first_word = after Beat.tlast true (shown ++ held))
    (hlong : ∀ b ∈ wr, first_word = true → b.tlast = false)
    (hfits : q.output_fifo.fifo.Fits (wr.map Beat.word))
    (hmfits : q.metadata_fifo.fifo.Fits (metadataWr first_word wr)) (m_tready : Bool) :
    (q.tick (wr.map Beat.word) (metadataWr first_word wr) m_tready).Holds
      (shown ++ held.take (q.leaving m_tready))
      (held.drop (q.leaving m_tready) ++ wr.toList) where
  sound := FallthroughSmallFifo.sound_tick h.sound hfits _
  metadata_sound := FallthroughSmallFifo.sound_tick h.metadata_sound hmfits _
  words := by
    have hrd : q.rdEn m_tready = true → q.output_fifo.empty = false := nonempty_of_rdEn
    have hc := FallthroughSmallFifo.contents_tick h.sound hfits hrd
    show (q.output_fifo.tick _ _).contents = _
    rw [hc, h.words]
    unfold leaving
    cases q.rdEn m_tready <;> cases wr <;> simp
  headers := h.headers_tick hfirst hmfits
  state := by
    show (q.metadataNext m_tready).2 = _
    rw [h.metadataNext]
  long := by
    intro b hb
    have hafter : after Beat.tlast true (shown ++ held.take (q.leaving m_tready)
        ++ held.drop (q.leaving m_tready)) = after Beat.tlast true (shown ++ held) := by
      rw [List.append_assoc, List.take_append_drop]
    rw [firsts_append, List.mem_append, ← after_append, hafter] at hb
    rcases hb with hb | hb
    · refine h.long b ?_
      have hsplit := @firsts_append _ Beat.tlast (held.take (q.leaving m_tready))
        (held.drop (q.leaving m_tready)) (after Beat.tlast true shown)
      rw [List.take_append_drop, ← after_append] at hsplit
      rw [hsplit]
      exact List.mem_append_right _ hb
    · cases wr with
      | none => cases hb
      | some b' =>
        rw [← hfirst b' rfl] at hb
        cases hf : first_word with
        | false => simp [hf, firsts] at hb
        | true =>
          obtain rfl : b = b' := by simpa [hf, firsts] using hb
          exact hlong b rfl hf
  ready := h.ready_tick
  nearly_full := by
    intro hn
    have hlt : ¬ bufferThreshold ≤ q.output_fifo.fifo.depth.toNat := of_decide_eq_false hn
    have hle := FallthroughSmallFifo.depth_tick_le h.sound hfits (q.rdEn m_tready)
    have hone : (wr.map Beat.word).toList.length ≤ 1 := by cases wr <;> simp
    show (q.output_fifo.tick _ _).fifo.depth.toNat ≤ _
    omega
  metadata_nearly_full := by
    intro hn
    have hlt : ¬ 2 ^ 2 - 1 ≤ q.metadata_fifo.fifo.depth.toNat := of_decide_eq_false hn
    have hle := FallthroughSmallFifo.depth_tick_le h.metadata_sound hmfits (q.metadataNext m_tready).1
    have hone : (metadataWr first_word wr).toList.length ≤ 1 := by
      cases metadataWr first_word wr <;> simp
    show (q.metadata_fifo.tick _ _).fifo.depth.toNat ≤ _
    omega

/-- A queue whose port takes a beat in every cycle. -/
structure Flowing (q : OutputQueue) : Prop where
  depth : q.output_fifo.fifo.depth.toNat ≤ 1
  nearly_full : q.nearly_full = false
  metadata_nearly_full : q.metadata_nearly_full = false

theorem FallthroughSmallFifo.length_contents_le {k : Nat} {α : Type} (f : FallthroughSmallFifo k α) :
    f.contents.length ≤ 1 + f.fifo.depth.toNat ∧ f.fifo.depth.toNat ≤ f.contents.length := by
  have hlen := SmallFifo.length_contents f.fifo
  unfold contents
  rw [List.length_append]
  split <;> simp only [List.length_nil, List.length_singleton] <;> omega

/-- A queue that is read in every cycle hardly fills. -/
theorem Flowing.tick (hf : q.Flowing) (h : q.Holds shown held) {w : Option Word}
    (hfits : q.output_fifo.fifo.Fits w) (m : Option (BitVec 128)) : (q.tick w m true).Flowing := by
  have hdepth := hf.depth
  refine ⟨?_, decide_eq_false ?_, decide_eq_false ?_⟩
  · have hrd : q.output_fifo.fifoRdEn (q.rdEn true) = !q.output_fifo.fifo.empty := by
      unfold FallthroughSmallFifo.fifoRdEn rdEn
      cases q.output_fifo.empty <;> simp
    have hne : q.output_fifo.fifoRdEn (q.rdEn true) = true → q.output_fifo.fifo.empty = false :=
      FallthroughSmallFifo.fifoRdEn_nonempty
    have hd := h.sound.depth_tick hfits hne
    have hone : w.toList.length ≤ 1 := by cases w <;> simp
    show (q.output_fifo.fifo.tick w (q.output_fifo.fifoRdEn (q.rdEn true))).depth.toNat ≤ 1
    cases he : q.output_fifo.fifo.empty with
    | true =>
      have hz : q.output_fifo.fifo.depth.toNat = 0 := of_decide_eq_true he
      omega
    | false =>
      rw [hrd, he] at hd ⊢
      simp only [Bool.not_false, Bool.toNat_true] at hd ⊢
      omega
  · unfold bufferThreshold
    omega
  · -- each metadata word belongs to a word at the output or in the ring buffer
    have hmeta := (FallthroughSmallFifo.length_contents_le q.metadata_fifo).2
    have hdata := (FallthroughSmallFifo.length_contents_le q.output_fifo).1
    have hle := @length_firsts_le _ Beat.tlast held (after Beat.tlast true shown)
    rw [h.headers, List.length_map] at hmeta
    rw [h.words, List.length_map] at hdata
    omega

end Tick

end OutputQueue

end BirRouter
