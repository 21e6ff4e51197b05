import BirRouter.Lib.CArray
import BirRouter.Lib.Layout
import BirRouter.Lib.Trace
import Mathlib.Data.List.InsertIdx

/-!
# The data queue (`dataqueue.c`)

A `dataqueue_t` keeps two parallel heap arrays — pointers to copies of the elements and the
elements' sizes — behind one mutex.

* The functions of `dataqueue.c` on an explicit queue state.  A call that needs a mutex somebody
  holds does not return (`Stop.blocks`), and a `memcpy` past the end of a heap buffer is an error
  (`Stop.overflow`).
* `Op`, `exec`, `absOp` — the calls that change the contents, run by one thread, and the same
  operations on a plain list of byte strings.
* `represents_exec` — one call, and `dataqueue_refines_list` — a whole run: the queue is that list
  as long as no element is replaced by one of another size.  `queue_replace` never writes
  `packet_sizes[id]`, so the condition cannot be dropped (`queueReplace_stale_size`).
-/

set_option autoImplicit false

namespace BirRouter

open ByteLayout

/-! ## State -/

/-- An element's heap buffer.  `id` tells apart the elements `queue_add` made (resizing a buffer
keeps it). -/
structure Buf where
  id : Nat
  bytes : List Byte
  deriving DecidableEq, Repr

/-- What a slot of the arrays holds before it is written. -/
def Buf.uninit : Buf := ⟨0, []⟩

/-- `dataqueue_t`: the two arrays, the holder of the mutex, the element count, and the number of
buffers allocated so far. -/
structure Dataqueue where
  packet : List Buf
  packet_sizes : List Nat
  locker : Option Nat
  size : Nat
  allocated : Nat
  deriving DecidableEq, Repr

/-- Why a call does not return. -/
inductive Stop where
  | blocks
  | overflow
  deriving DecidableEq, Repr

namespace Dataqueue

/-- The test every function of `dataqueue.c` makes on an id. -/
def Valid (q : Dataqueue) (id : Int) : Prop := ¬ (id ≥ q.size ∨ id < 0)

instance (q : Dataqueue) (id : Int) : Decidable (q.Valid id) :=
  inferInstanceAs (Decidable (¬ (id ≥ q.size ∨ id < 0)))

/-- `pthread_mutex_lock`, called by thread `me`. -/
def pthreadMutexLock (me : Nat) (q : Dataqueue) : Except Stop Dataqueue :=
  match q.locker with
  | none => .ok { q with locker := some me }
  | some _ => .error .blocks

/-- `pthread_mutex_unlock`: a default mutex does not check who unlocks it. -/
def pthreadMutexUnlock (q : Dataqueue) : Dataqueue := { q with locker := none }

/-! ## The functions -/

def queueInit (q : Dataqueue) : Dataqueue :=
  { q with size := 0, packet := [], packet_sizes := [], locker := none }

/-- `data` stands for the `size` bytes the caller points at. -/
def queueAddUnsafe (q : Dataqueue) (data : List Byte) : Dataqueue :=
  let packet :=
    if q.size = 0 then CArray.malloc Buf.uninit (q.size + 1)
    else CArray.realloc Buf.uninit (q.size + 1) q.packet
  let packet_sizes :=
    if q.size = 0 then CArray.malloc 0 (q.size + 1)
    else CArray.realloc 0 (q.size + 1) q.packet_sizes
  { q with
    packet := packet.set q.size ⟨q.allocated, data⟩
    packet_sizes := packet_sizes.set q.size data.length
    size := q.size + 1
    allocated := q.allocated + 1 }

def queueAdd (me : Nat) (q : Dataqueue) (data : List Byte) : Except Stop Dataqueue := do
  let q ← q.pthreadMutexLock me
  return (q.queueAddUnsafe data).pthreadMutexUnlock

/-- `memcpy` to the start of a buffer. -/
def memcpy (buf : Buf) (data : List Byte) : Except Stop Buf :=
  if data.length ≤ buf.bytes.length then
    .ok { buf with bytes := data ++ buf.bytes.drop data.length }
  else .error .overflow

/-- The buffer of an element overwritten with `data`, resized first when the new size differs from
the recorded one. -/
def overwrite (old : Buf) (recorded : Nat) (data : List Byte) : Except Stop Buf :=
  if data.length ≠ recorded then
    memcpy { old with bytes := CArray.realloc 0 data.length old.bytes } data
  else memcpy old data

/-- The recorded size itself is never written. -/
def queueReplace (me : Nat) (q : Dataqueue) (data : List Byte) (id : Int) :
    Except Stop (Bool × Dataqueue) := do
  let q ← q.pthreadMutexLock me
  if ¬ q.Valid id then
    return (false, q.pthreadMutexUnlock)
  let i := id.toNat
  let buf ← overwrite (q.packet.getD i Buf.uninit) (q.packet_sizes.getD i 0) data
  return (true, { q with packet := q.packet.set i buf }.pthreadMutexUnlock)

/-- Free the element, move the later ones down, shrink both arrays. -/
def queueRemoveunsafe (q : Dataqueue) (id : Int) : Dataqueue :=
  if ¬ q.Valid id then q
  else
    let i := id.toNat
    { q with
      packet := CArray.realloc Buf.uninit (q.size - 1) (CArray.shiftDown i (q.size - 1 - i) q.packet)
      packet_sizes :=
        CArray.realloc 0 (q.size - 1) (CArray.shiftDown i (q.size - 1 - i) q.packet_sizes)
      size := q.size - 1 }

/-- The same body as `queue_removeunsafe`, then the mutex is released, whoever holds it. -/
def queueUnlockidandremove (q : Dataqueue) (id : Int) : Dataqueue :=
  (q.queueRemoveunsafe id).pthreadMutexUnlock

def queueLockall (me : Nat) (q : Dataqueue) : Except Stop Dataqueue := q.pthreadMutexLock me

def queueUnlockall (q : Dataqueue) : Dataqueue := q.pthreadMutexUnlock

def queueGetidunsafe (q : Dataqueue) (id : Int) : Option (Buf × Nat) :=
  if ¬ q.Valid id then none
  else some (q.packet.getD id.toNat Buf.uninit, q.packet_sizes.getD id.toNat 0)

/-- The lock is guarded by a preprocessor symbol that is never defined, so it is not taken; the
failing exit releases the mutex all the same. -/
def queueGetidandlock (q : Dataqueue) (id : Int) : Option (Buf × Nat) × Dataqueue :=
  if ¬ q.Valid id then (none, q.pthreadMutexUnlock)
  else (some (q.packet.getD id.toNat Buf.uninit, q.packet_sizes.getD id.toNat 0), q)

def queueUnlockid (q : Dataqueue) (_id : Int) : Dataqueue := q.pthreadMutexUnlock

/-- At most `n` rounds of the loop of `queue_purge`. -/
def purgeLoop : Nat → Dataqueue → Dataqueue
  | 0, q => q
  | n + 1, q =>
    if q.size > 0 then
      match q.queueGetidandlock 0 with
      | (some _, q) => purgeLoop n (q.queueUnlockidandremove 0)
      | (none, q) => purgeLoop n q
    else q

def queuePurge (q : Dataqueue) : Dataqueue := purgeLoop q.size q

/-- At most `n` rounds of the loop of `queue_purge_unsafe`. -/
def purgeUnsafeLoop : Nat → Dataqueue → Dataqueue
  | 0, q => q
  | n + 1, q =>
    if q.size > 0 then
      match q.queueGetidunsafe 0 with
      | some _ => purgeUnsafeLoop n (q.queueRemoveunsafe 0)
      | none => purgeUnsafeLoop n q
    else q

def queuePurgeUnsafe (q : Dataqueue) : Dataqueue := purgeUnsafeLoop q.size q

/-! ## What each function does to parallel arrays -/

/-- Both arrays have exactly `size` slots. -/
structure Parallel (q : Dataqueue) : Prop where
  packet_length : q.packet.length = q.size
  sizes_length : q.packet_sizes.length = q.size

section Functions

variable {q q' : Dataqueue} {me i recorded : Nat} {id : Int} {old buf : Buf} {data : List Byte}

theorem valid_iff : q.Valid id ↔ ∃ i : Nat, id = i ∧ i < q.size := by
  unfold Valid
  constructor
  · intro h
    exact ⟨id.toNat, by omega, by omega⟩
  · rintro ⟨i, rfl, hi⟩
    omega

theorem valid_natCast : q.Valid i ↔ i < q.size := by
  unfold Valid
  omega

theorem pthreadMutexLock_free (me : Nat) (h : q.locker = none) :
    q.pthreadMutexLock me = .ok { q with locker := some me } := by
  unfold pthreadMutexLock
  rw [h]

theorem set_getD_self {α : Type} {d : α} {a : List α} (h : i < a.length) :
    a.set i (a.getD i d) = a := by
  simp [List.getD, h]

theorem queueAddUnsafe_eq (h : q.Parallel) (data : List Byte) :
    q.queueAddUnsafe data =
      { q with
        packet := q.packet ++ [⟨q.allocated, data⟩]
        packet_sizes := q.packet_sizes ++ [data.length]
        size := q.size + 1
        allocated := q.allocated + 1 } := by
  obtain ⟨packet, sizes, locker, size, allocated⟩ := q
  obtain ⟨hp, hs⟩ := h
  simp only at hp hs
  unfold queueAddUnsafe
  by_cases h0 : size = 0
  · subst h0
    rw [List.length_eq_zero_iff] at hp hs
    subst hp hs
    rfl
  · have hp' := CArray.realloc_set Buf.uninit ⟨allocated, data⟩ packet
    have hs' := CArray.realloc_set 0 data.length sizes
    rw [hp] at hp'
    rw [hs] at hs'
    simp only [if_neg h0, hp', hs']

theorem queueRemoveunsafe_eq (h : q.Parallel) (hi : i < q.size) :
    q.queueRemoveunsafe i =
      { q with
        packet := q.packet.eraseIdx i
        packet_sizes := q.packet_sizes.eraseIdx i
        size := q.size - 1 } := by
  have hp := CArray.realloc_shiftDown Buf.uninit (h.packet_length ▸ hi)
  have hs := CArray.realloc_shiftDown 0 (h.sizes_length ▸ hi)
  rw [h.packet_length] at hp
  rw [h.sizes_length] at hs
  have hv : ¬ ¬ q.Valid i := not_not_intro (valid_natCast.2 hi)
  unfold queueRemoveunsafe
  rw [if_neg hv]
  simp only [Int.toNat_natCast, hp, hs]

theorem queueRemoveunsafe_invalid (h : ¬ q.Valid id) :
    q.queueRemoveunsafe id = q := by
  unfold queueRemoveunsafe
  rw [if_pos h]

theorem pthreadMutexLock_ok (h : q.pthreadMutexLock me = .ok q') :
    q.locker = none ∧ q' = { q with locker := some me } := by
  unfold pthreadMutexLock at h
  split at h
  · rename_i hl
    exact ⟨hl, (Except.ok.inj h).symm⟩
  · cases h

theorem queueAdd_free (me : Nat) (data : List Byte) (hl : q.locker = none) :
    q.queueAdd me data = .ok (q.queueAddUnsafe data) := by
  unfold queueAdd
  rw [pthreadMutexLock_free me hl]
  simp only [bind, Except.bind, pure, Except.pure, queueAddUnsafe, pthreadMutexUnlock, hl]

theorem queueAdd_ok (h : q.queueAdd me data = .ok q') :
    q.locker = none ∧ q' = q.queueAddUnsafe data := by
  cases hl : q.locker with
  | none =>
    rw [queueAdd_free me data hl, Except.ok.injEq] at h
    exact ⟨rfl, h.symm⟩
  | some u =>
    unfold queueAdd pthreadMutexLock at h
    rw [hl] at h
    cases h

theorem memcpy_full (h : buf.bytes.length = data.length) :
    memcpy buf data = .ok ⟨buf.id, data⟩ := by
  unfold memcpy
  rw [if_pos (Nat.le_of_eq h.symm), List.drop_of_length_le (Nat.le_of_eq h), List.append_nil]

theorem overwrite_same (hr : recorded = data.length) (ho : old.bytes.length = data.length) :
    overwrite old recorded data = .ok ⟨old.id, data⟩ := by
  unfold overwrite
  rw [if_neg (not_not_intro hr.symm), memcpy_full ho]

theorem overwrite_other (hr : recorded ≠ data.length) :
    overwrite old recorded data = .ok ⟨old.id, data⟩ := by
  unfold overwrite
  rw [if_pos (Ne.symm hr), memcpy_full (CArray.realloc_length _ _ _)]

theorem queueReplace_valid (hl : q.locker = none) (me : Nat) (hi : i < q.size)
    (hb : overwrite (q.packet.getD i Buf.uninit) (q.packet_sizes.getD i 0) data = .ok buf) :
    q.queueReplace me data i = .ok (true, { q with packet := q.packet.set i buf }) := by
  have hv : ¬ ¬ { q with locker := some me }.Valid i := not_not_intro (valid_natCast.2 hi)
  unfold queueReplace
  rw [pthreadMutexLock_free me hl]
  simp only [bind, Except.bind, pure, Except.pure, if_neg hv, Int.toNat_natCast, hb,
    pthreadMutexUnlock, hl]

theorem queueReplace_invalid (hl : q.locker = none) (me : Nat) (data : List Byte)
    (hv : ¬ q.Valid id) : q.queueReplace me data id = .ok (false, q) := by
  have hv' : ¬ { q with locker := some me }.Valid id := hv
  unfold queueReplace
  rw [pthreadMutexLock_free me hl]
  simp only [bind, Except.bind, pure, Except.pure, if_pos hv', pthreadMutexUnlock]
  rw [← hl]

theorem overwrite_id (h : overwrite old recorded data = .ok buf) : buf.id = old.id := by
  unfold overwrite memcpy at h
  split at h <;> split at h <;> cases h <;> rfl

/-- An element is overwritten with what it holds. -/
theorem overwrite_eq_self_iff (h : overwrite old recorded data = .ok buf) :
    buf = old ↔ data = old.bytes ∨ recorded = data.length ∧ data <+: old.bytes := by
  by_cases hr : recorded = data.length
  · unfold overwrite memcpy at h
    rw [if_neg (not_not_intro hr.symm)] at h
    split at h
    · cases h
      rw [Buf.mk.injEq, ← List.prefix_iff_eq_append]
      constructor
      · rintro ⟨_, hp⟩
        exact .inr ⟨hr, hp⟩
      · rintro (rfl | ⟨_, hp⟩)
        · exact ⟨rfl, List.prefix_rfl⟩
        · exact ⟨rfl, hp⟩
    · cases h
  · rw [overwrite_other hr] at h
    cases h
    rw [Buf.mk.injEq]
    constructor
    · rintro ⟨_, hd⟩
      exact .inl hd
    · rintro (hd | ⟨hlen, _⟩)
      · exact ⟨rfl, hd⟩
      · exact absurd hlen hr

/-- Everything a `queue_replace` that returns can have done. -/
theorem queueReplace_ok {r : Bool} (h : q.queueReplace me data id = .ok (r, q')) :
    q.locker = none ∧ (¬ q.Valid id ∧ q' = q ∨
      ∃ i buf, id = (i : Nat) ∧ i < q.size ∧
        overwrite (q.packet.getD i Buf.uninit) (q.packet_sizes.getD i 0) data = .ok buf ∧
        q' = { q with packet := q.packet.set i buf }) := by
  have hl : q.locker = none := by
    unfold queueReplace at h
    cases hlock : q.pthreadMutexLock me with
    | error e =>
      rw [hlock] at h
      cases h
    | ok q₁ => exact (pthreadMutexLock_ok hlock).1
  refine ⟨hl, ?_⟩
  by_cases hv : q.Valid id
  · obtain ⟨i, rfl, hi⟩ := valid_iff.1 hv
    cases ho : overwrite (q.packet.getD i Buf.uninit) (q.packet_sizes.getD i 0) data with
    | error e =>
      have hv' : ¬ ¬ { q with locker := some me }.Valid i := not_not_intro hv
      unfold queueReplace at h
      rw [pthreadMutexLock_free me hl] at h
      simp only [bind, Except.bind, if_neg hv', Int.toNat_natCast, ho] at h
      cases h
    | ok buf =>
      rw [queueReplace_valid hl me hi ho, Except.ok.injEq, Prod.mk.injEq] at h
      exact .inr ⟨i, buf, rfl, hi, ho, h.2.symm⟩
  · rw [queueReplace_invalid hl me data hv, Except.ok.injEq, Prod.mk.injEq] at h
    exact .inl ⟨hv, h.2.symm⟩

theorem Parallel.add (h : q.Parallel) (data : List Byte) :
    (q.queueAddUnsafe data).Parallel := by
  rw [queueAddUnsafe_eq h]
  exact ⟨by simp [h.packet_length], by simp [h.sizes_length]⟩

theorem Parallel.remove (h : q.Parallel) (id : Int) :
    (q.queueRemoveunsafe id).Parallel := by
  by_cases hv : q.Valid id
  · obtain ⟨i, rfl, hi⟩ := valid_iff.1 hv
    rw [queueRemoveunsafe_eq h hi]
    have hp := List.length_eraseIdx_of_lt (h.packet_length ▸ hi)
    have hs := List.length_eraseIdx_of_lt (h.sizes_length ▸ hi)
    exact ⟨by rw [hp, h.packet_length], by rw [hs, h.sizes_length]⟩
  · rwa [queueRemoveunsafe_invalid hv]

theorem Parallel.unlock (h : q.Parallel) : q.pthreadMutexUnlock.Parallel :=
  ⟨h.packet_length, h.sizes_length⟩

end Functions

/-- Each round removes element 0, so `size` rounds empty the queue. -/
theorem purgeUnsafeLoop_eq : ∀ (n : Nat) {q : Dataqueue}, q.Parallel → q.size = n →
    purgeUnsafeLoop n q = { q with packet := [], packet_sizes := [], size := 0 }
  | 0, q, h, hn => by
    have hp := List.length_eq_zero_iff.1 (h.packet_length.trans hn)
    have hs := List.length_eq_zero_iff.1 (h.sizes_length.trans hn)
    unfold purgeUnsafeLoop
    rw [← hp, ← hs, ← hn]
  | n + 1, q, h, hn => by
    have hv : ¬ ¬ q.Valid 0 := not_not_intro (by unfold Valid; omega)
    have hr := queueRemoveunsafe_eq h (i := 0) (by omega)
    have hsz : (q.queueRemoveunsafe 0).size = n := by
      rw [Int.natCast_zero] at hr
      rw [hr, hn]
      rfl
    unfold purgeUnsafeLoop queueGetidunsafe
    rw [if_pos (by omega), if_neg hv]
    simp only
    rw [purgeUnsafeLoop_eq n (h.remove 0) hsz]
    rw [Int.natCast_zero] at hr
    rw [hr]

/-- `queue_purge` is the same, and releases the mutex unless there was nothing to remove. -/
theorem purgeLoop_eq : ∀ (n : Nat) (q : Dataqueue), q.Parallel → q.size = n → purgeLoop n q =
      { q with
        packet := []
        packet_sizes := []
        size := 0
        locker := if q.size = 0 then q.locker else none }
  | 0, q, h, hn => by
    have hp := List.length_eq_zero_iff.1 (h.packet_length.trans hn)
    have hs := List.length_eq_zero_iff.1 (h.sizes_length.trans hn)
    unfold purgeLoop
    rw [if_pos hn, ← hp, ← hs, ← hn]
  | n + 1, q, h, hn => by
    have hv : ¬ ¬ q.Valid 0 := not_not_intro (by unfold Valid; omega)
    have hr := queueRemoveunsafe_eq h (i := 0) (by omega)
    rw [Int.natCast_zero] at hr
    have hsz : (q.queueUnlockidandremove 0).size = n := by
      unfold queueUnlockidandremove
      rw [hr, hn]
      rfl
    unfold purgeLoop queueGetidandlock
    rw [if_pos (by omega), if_neg hv]
    simp only
    rw [purgeLoop_eq n (q.queueUnlockidandremove 0) (h.remove 0).unlock hsz]
    unfold queueUnlockidandremove
    rw [hr, if_neg (show q.size ≠ 0 by omega)]
    simp [pthreadMutexUnlock]

/-! ## Refinement: the queue is a list of byte strings -/

/-- The calls that change the contents. -/
inductive Op where
  | init
  | add (data : List Byte)
  | addUnsafe (data : List Byte)
  | replace (data : List Byte) (id : Int)
  | unlockidandremove (id : Int)
  | removeUnsafe (id : Int)
  | purge
  | purgeUnsafe
  deriving DecidableEq, Repr

/-- One call, made by thread `me`. -/
def exec (me : Nat) (q : Dataqueue) : Op → Except Stop Dataqueue
  | .init => .ok q.queueInit
  | .add data => q.queueAdd me data
  | .addUnsafe data => .ok (q.queueAddUnsafe data)
  | .replace data id => do return (← q.queueReplace me data id).2
  | .unlockidandremove id => .ok (q.queueUnlockidandremove id)
  | .removeUnsafe id => .ok (q.queueRemoveunsafe id)
  | .purge => .ok q.queuePurge
  | .purgeUnsafe => .ok q.queuePurgeUnsafe

/-- The position an id names in a list, if any. -/
def nth {α : Type} (l : List α) (id : Int) : Option α := if id < 0 then none else l[id.toNat]?

/-- The operation a call stands for, on the list itself: append, update at, delete at, clear. -/
def absOp (l : List (List Byte)) : Op → List (List Byte)
  | .init | .purge | .purgeUnsafe => []
  | .add data | .addUnsafe data => l ++ [data]
  | .replace data id => if id < 0 then l else l.set id.toNat data
  | .unlockidandremove id | .removeUnsafe id => if id < 0 then l else l.eraseIdx id.toNat

/-- No element is replaced by one of another size. -/
def KeepsSize (q : Dataqueue) : Op → Prop
  | .replace data id => q.Valid id → data.length = q.packet_sizes.getD id.toNat 0
  | _ => True

/-- The steps of one thread. -/
def Step (me : Nat) (q : Dataqueue) (op : Op) (q' : Dataqueue) : Prop := q.exec me op = .ok q'

/-- The queue holds the byte strings of `l`, with their sizes, and its mutex is free. -/
structure Represents (q : Dataqueue) (l : List (List Byte)) : Prop where
  size_eq : q.size = l.length
  bytes_eq : q.packet.map Buf.bytes = l
  sizes_eq : q.packet_sizes = l.map List.length
  unlocked : q.locker = none

namespace Represents

variable {q : Dataqueue} {l : List (List Byte)}

theorem parallel (h : Represents q l) : q.Parallel :=
  ⟨by rw [h.size_eq, ← h.bytes_eq, List.length_map], by rw [h.sizes_eq, List.length_map, h.size_eq]⟩

theorem empty (q : Dataqueue) : Represents q.queueInit [] := ⟨rfl, rfl, rfl, rfl⟩

theorem add (h : Represents q l) (data : List Byte) :
    Represents (q.queueAddUnsafe data) (l ++ [data]) := by
  rw [queueAddUnsafe_eq h.parallel]
  exact ⟨by simp [h.size_eq], by simp [h.bytes_eq], by simp [h.sizes_eq], h.unlocked⟩

theorem remove (h : Represents q l) (id : Int) :
    Represents (q.queueRemoveunsafe id) (if id < 0 then l else l.eraseIdx id.toNat) := by
  by_cases hv : q.Valid id
  · obtain ⟨i, rfl, hi⟩ := valid_iff.1 hv
    have hlen := List.length_eraseIdx_of_lt (h.size_eq ▸ hi)
    rw [queueRemoveunsafe_eq h.parallel hi, if_neg (by omega), Int.toNat_natCast]
    refine ⟨by rw [hlen, h.size_eq], ?_, ?_, h.unlocked⟩
    · rw [← h.bytes_eq, List.eraseIdx_map]
    · rw [← List.eraseIdx_map, h.sizes_eq]
  · -- an id outside the queue: nothing is deleted on either side
    rw [queueRemoveunsafe_invalid hv]
    unfold Valid at hv
    split
    · exact h
    · rwa [List.eraseIdx_of_length_le (by have := h.size_eq; omega)]

theorem purge (h : Represents q l) : Represents q.queuePurge [] := by
  unfold queuePurge
  rw [purgeLoop_eq _ q h.parallel rfl]
  refine ⟨rfl, rfl, rfl, ?_⟩
  simp only [h.unlocked, ite_self]

theorem purgeUnsafe (h : Represents q l) : Represents q.queuePurgeUnsafe [] := by
  unfold queuePurgeUnsafe
  rw [purgeUnsafeLoop_eq _ h.parallel rfl]
  exact ⟨rfl, rfl, rfl, h.unlocked⟩

theorem replace (h : Represents q l) (me : Nat) (data : List Byte) (id : Int)
    (hk : q.KeepsSize (.replace data id)) :
    ∃ r q', q.queueReplace me data id = .ok (r, q') ∧
      Represents q' (if id < 0 then l else l.set id.toNat data) := by
  by_cases hv : q.Valid id
  · have hrec := hk hv
    obtain ⟨i, rfl, hi⟩ := valid_iff.1 hv
    rw [Int.toNat_natCast] at hrec ⊢
    have hl : i < l.length := h.size_eq ▸ hi
    have hp : i < q.packet.length := h.parallel.packet_length ▸ hi
    have hold : (q.packet.getD i Buf.uninit).bytes.length = data.length := by
      rw [hrec, h.sizes_eq, ← h.bytes_eq]
      simp [List.getD, hp]
    refine ⟨true, _, queueReplace_valid h.unlocked me hi (overwrite_same hrec.symm hold), ?_⟩
    rw [if_neg (by omega)]
    refine ⟨by simp [h.size_eq], by rw [List.map_set, h.bytes_eq], ?_, h.unlocked⟩
    -- the recorded sizes were not touched, and none had to be
    show q.packet_sizes = _
    rw [List.map_set, hrec, ← h.sizes_eq]
    exact (set_getD_self (by rw [h.sizes_eq, List.length_map]; exact hl)).symm
  · refine ⟨false, q, queueReplace_invalid h.unlocked me data hv, ?_⟩
    unfold Valid at hv
    split
    · exact h
    · rwa [List.set_eq_of_length_le (by have := h.size_eq; omega)]

end Represents

/-- What a represented queue answers for an id. -/
theorem represents_getid {q : Dataqueue} {l : List (List Byte)} (h : Represents q l) (id : Int) :
    (q.queueGetidunsafe id).map (fun r => (r.1.bytes, r.2)) =
      (nth l id).map (fun data => (data, data.length)) := by
  unfold queueGetidunsafe nth
  by_cases hv : q.Valid id
  · obtain ⟨i, rfl, hi⟩ := valid_iff.1 hv
    have hp : i < q.packet.length := h.parallel.packet_length ▸ hi
    rw [if_neg (not_not_intro hv), if_neg (by omega), h.sizes_eq, ← h.bytes_eq]
    simp [List.getD, hp]
  · rw [if_pos hv]
    unfold Valid at hv
    split
    · rfl
    · rw [List.getElem?_eq_none (by have := h.size_eq; omega)]
      rfl

/-- **One call.**  It returns, and does to the queue what the list operation does to the list. -/
theorem represents_exec {q : Dataqueue} {l : List (List Byte)} (h : Represents q l) (me : Nat)
    (op : Op) (hk : q.KeepsSize op) : ∃ q', q.exec me op = .ok q' ∧ Represents q' (absOp l op) := by
  cases op with
  | init => exact ⟨_, rfl, Represents.empty q⟩
  | add data => exact ⟨_, queueAdd_free me data h.unlocked, h.add data⟩
  | addUnsafe data => exact ⟨_, rfl, h.add data⟩
  | replace data id =>
    obtain ⟨r, q', hr, hq'⟩ := h.replace me data id hk
    refine ⟨q', ?_, hq'⟩
    simp only [exec, hr, bind, Except.bind, pure, Except.pure]
  | unlockidandremove id =>
    have hr := h.remove id
    exact ⟨_, rfl, ⟨hr.size_eq, hr.bytes_eq, hr.sizes_eq, rfl⟩⟩
  | removeUnsafe id => exact ⟨_, rfl, h.remove id⟩
  | purge => exact ⟨_, rfl, h.purge⟩
  | purgeUnsafe => exact ⟨_, rfl, h.purgeUnsafe⟩

/-- Replacing an element by one of another size stores the bytes and keeps the old size. -/
theorem queueReplace_stale_size {q : Dataqueue} {l : List (List Byte)} (h : Represents q l)
    (me : Nat) {data : List Byte} {i : Nat} (hi : i < q.size)
    (hd : q.packet_sizes.getD i 0 ≠ data.length) :
    ∃ q', q.queueReplace me data i = .ok (true, q') ∧
      (q'.queueGetidunsafe i).map (fun r => (r.1.bytes, r.2)) =
        some (data, q.packet_sizes.getD i 0) := by
  have hp : i < q.packet.length := h.parallel.packet_length ▸ hi
  refine ⟨_, queueReplace_valid h.unlocked me hi (overwrite_other hd), ?_⟩
  have hv : { q with packet := q.packet.set i ⟨(q.packet.getD i Buf.uninit).id, data⟩ }.Valid i :=
    valid_natCast.2 hi
  unfold queueGetidunsafe
  rw [if_neg (not_not_intro hv)]
  simp [List.getD, hp]

/-- **Refinement.**  After any run of calls that never replace an element by one of another size,
the queue is the list the corresponding list operations give: its size is the list's length, the
arrays are parallel, an id answers with the bytes and size last stored there or not at all — and
every further such call returns. -/
theorem dataqueue_refines_list {q₀ q : Dataqueue} {me : Nat} {ops : List Op}
    (h : Trace.Exec (Trace.Restrict KeepsSize (Step me)) q₀.queueInit ops q) :
    q.size = (ops.foldl absOp []).length ∧
      q.packet.length = q.size ∧ q.packet_sizes.length = q.size ∧
      (∀ id : Int, (q.queueGetidunsafe id).map (fun r => (r.1.bytes, r.2)) =
        (nth (ops.foldl absOp []) id).map (fun data => (data, data.length))) ∧
      ∀ op, q.KeepsSize op → ∃ q', q.exec me op = .ok q' := by
  have hrep : Represents q (ops.foldl absOp []) := by
    refine h.refines (Represents.empty q₀) ?_
    rintro s t op s' ht ⟨hk, hs⟩
    obtain ⟨q', he, hq'⟩ := represents_exec ht me op hk
    rw [Step, he, Except.ok.injEq] at hs
    exact hs ▸ hq'
  refine ⟨hrep.size_eq, hrep.parallel.packet_length, hrep.parallel.sizes_length,
    represents_getid hrep, ?_⟩
  intro op hk
  obtain ⟨q', he, -⟩ := represents_exec hrep me op hk
  exact ⟨q', he⟩

/-- Adding two elements, replacing the first by one as long, and deleting the second. -/
theorem dataqueue_refines_list_sample :
    ∃ q : Dataqueue,
      Trace.Exec (Trace.Restrict KeepsSize (Step 0)) (queueInit ⟨[], [], none, 0, 0⟩)
        [.add [1, 2], .add [3], .replace [7, 8] 0, .removeUnsafe 1] q ∧
      q.size = 1 ∧
      (q.queueGetidunsafe 0).map (fun r => (r.1.bytes, r.2)) = some ([7, 8], 2) := by
  have h : Trace.Exec (Trace.Restrict KeepsSize (Step 0)) (queueInit ⟨[], [], none, 0, 0⟩)
      [.add [1, 2], .add [3], .replace [7, 8] 0, .removeUnsafe 1]
      ⟨[⟨0, [7, 8]⟩], [2], none, 1, 2⟩ :=
    .cons ⟨trivial, rfl⟩ (.cons ⟨trivial, rfl⟩ (.cons ⟨fun _ => rfl, rfl⟩
      (.cons ⟨trivial, rfl⟩ .nil)))
  obtain ⟨hsize, -, -, hget, -⟩ := dataqueue_refines_list h
  exact ⟨_, h, hsize, hget 0⟩

/-- One byte replaced by two: the queue then answers with both bytes and the size 1. -/
theorem dataqueue_replace_longer :
    ∃ q : Dataqueue,
      Trace.Exec (Step 0) (queueInit ⟨[], [], none, 0, 0⟩) [.add [1], .replace [2, 3] 0] q ∧
      (q.queueGetidunsafe 0).map (fun r => (r.1.bytes, r.2)) = some ([2, 3], 1) ∧
      nth ([Op.add [1], .replace [2, 3] 0].foldl absOp []) 0 = some [2, 3] :=
  ⟨⟨[⟨0, [2, 3]⟩], [1], none, 1, 1⟩, .cons rfl (.cons rfl .nil), rfl, rfl⟩

end Dataqueue

end BirRouter
