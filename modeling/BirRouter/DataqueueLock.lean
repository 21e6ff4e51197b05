import BirRouter.Dataqueue
import Mathlib.Data.List.Nodup
import Mathlib.Logic.Function.Basic

/-!
# Threads on one data queue

Any number of threads share a queue.  Every call of `dataqueue.h` is one atomic step, and a thread
uses the calls as the header asks: `queue_getidandlock` is followed by `queue_unlockid` or
`queue_unlockidandremove` with the same id, and the unsafe functions stay between `queue_lockall`
and `queue_unlockall`.

`queue_getidandlock` never takes the mutex and its failing exit releases one that somebody else
may hold, so a section it opens excludes nobody (`lock_protocol_broken`).

* `Protocol` — what the sections should give: nobody else changes the queue, a removal removes the
  element that was obtained, no element is consumed twice, and the mutex of `queue_lockall` stays with
  its owner;
* `MayCall` — when a thread outside every section may make a call; calls inside a section are free, and
  `queue_add`, `queue_replace` and `queue_lockall` may meet a `queue_lockall`, where the mutex holds them
  up;
* `lock_protocol_iff` — of all disciplines for the threads outside their sections, those that keep the
  protocol are the ones under which a call is made only when it may be.
-/

set_option autoImplicit false

namespace BirRouter

open ByteLayout

/-- Where a thread is: outside any section, between `queue_getidandlock(id)`, which returned the
element `e`, and the matching unlock, or between `queue_lockall` and `queue_unlockall`. -/
inductive Phase where
  | idle
  | holdsId (id : Int) (e : Buf)
  | holdsAll
  deriving DecidableEq, Repr

inductive Call where
  | getcurrentsize
  | add (data : List Byte)
  | replace (data : List Byte) (id : Int)
  | purge
  | getidandlock (id : Int)
  | unlockid (id : Int)
  | unlockidandremove (id : Int)
  | lockall
  | unlockall
  | getidUnsafe (id : Int)
  | addUnsafe (data : List Byte)
  | removeUnsafe (id : Int)
  | purgeUnsafe
  deriving DecidableEq, Repr

/-- The queue, every thread's place, and the elements consumed so far: obtained with
`queue_getidandlock` and removed by the same thread. -/
structure Threads where
  q : Dataqueue
  phase : Nat → Phase
  consumed : List Nat

namespace Threads

def init (q : Dataqueue) : Threads := ⟨q.queueInit, fun _ => .idle, []⟩

/-- Thread `t` moves to phase `p`, leaving the queue as `q`. -/
def move (s : Threads) (t : Nat) (q : Dataqueue) (p : Phase) : Threads :=
  { s with q := q, phase := Function.update s.phase t p }

/-- One call by thread `t`; `none` if it blocks or does not belong to the thread's phase. -/
def call (s : Threads) (t : Nat) (c : Call) : Option Threads :=
  match s.phase t, c with
  | .idle, .getcurrentsize => some s
  | .idle, .add data => (s.q.queueAdd t data).toOption.map fun q => s.move t q .idle
  | .idle, .replace data id =>
    (s.q.queueReplace t data id).toOption.map fun r => s.move t r.2 .idle
  | .idle, .purge => some (s.move t s.q.queuePurge .idle)
  | .idle, .getidandlock id =>
    match s.q.queueGetidandlock id with
    | (some (e, _), q) => some (s.move t q (.holdsId id e))
    | (none, q) => some (s.move t q .idle)
  | .idle, .lockall => (s.q.queueLockall t).toOption.map fun q => s.move t q .holdsAll
  | .holdsId id _, .unlockid id' =>
    if id' = id then some (s.move t (s.q.queueUnlockid id) .idle) else none
  | .holdsId id e, .unlockidandremove id' =>
    if id' = id then
      some { s.move t (s.q.queueUnlockidandremove id) .idle with consumed := s.consumed ++ [e.id] }
    else none
  | .holdsAll, .unlockall => some (s.move t s.q.queueUnlockall .idle)
  | .holdsAll, .getidUnsafe _ => some s
  | .holdsAll, .addUnsafe data => some (s.move t (s.q.queueAddUnsafe data) .holdsAll)
  | .holdsAll, .removeUnsafe id => some (s.move t (s.q.queueRemoveunsafe id) .holdsAll)
  | .holdsAll, .purgeUnsafe => some (s.move t s.q.queuePurgeUnsafe .holdsAll)
  | _, _ => none

/-- The interleavings: each step is a call of some thread. -/
def Step (s : Threads) (a : Nat × Call) (s' : Threads) : Prop := s.call a.1 a.2 = some s'

end Threads

/-! ## Which calls change the queue, which release the mutex -/

namespace Dataqueue

/-- `queue_replace` finds the element, and it does not hold these bytes already. -/
def Rewrites (q : Dataqueue) (data : List Byte) (id : Int) : Prop :=
  let bytes := (q.packet.getD id.toNat Buf.uninit).bytes
  q.Valid id ∧ ¬ (data = bytes ∨ q.packet_sizes.getD id.toNat 0 = data.length ∧ data <+: bytes)

/-- The calls that change the contents of `q`. -/
def Modifies (q : Dataqueue) : Call → Prop
  | .add _ | .addUnsafe _ => True
  | .replace data id => q.Rewrites data id
  | .unlockidandremove id | .removeUnsafe id => q.Valid id
  | .purge | .purgeUnsafe => q.size ≠ 0
  | _ => False

/-- The calls that unlock a mutex they have not locked themselves. -/
def Releases (q : Dataqueue) : Call → Prop
  | .unlockid _ | .unlockidandremove _ | .unlockall => True
  | .getidandlock id => ¬ q.Valid id
  | .purge => q.size ≠ 0
  | _ => False

/-- The arrays and the element count are the same. -/
structure SameContents (q q' : Dataqueue) : Prop where
  packet : q'.packet = q.packet
  packet_sizes : q'.packet_sizes = q.packet_sizes
  size : q'.size = q.size

theorem SameContents.refl (q : Dataqueue) : SameContents q q := ⟨rfl, rfl, rfl⟩

def ids (q : Dataqueue) : List Nat := q.packet.map Buf.id

/-- Parallel arrays whose elements are distinct allocations. -/
structure WellFormed (q : Dataqueue) : Prop where
  parallel : q.Parallel
  ids_lt : ∀ x ∈ q.ids, x < q.allocated
  ids_nodup : q.ids.Nodup

/-- `q'` is well formed and every element in it was in `q` or is new. -/
structure Follows (q q' : Dataqueue) : Prop where
  wf : q'.WellFormed
  allocated_le : q.allocated ≤ q'.allocated
  ids_old : ∀ x ∈ q'.ids, x ∈ q.ids ∨ q.allocated ≤ x

theorem Follows.of_same {q q' : Dataqueue} (h : q.WellFormed) (hs : SameContents q q')
    (ha : q'.allocated = q.allocated) : Follows q q' := by
  have hids : q'.ids = q.ids := by unfold ids; rw [hs.packet]
  refine ⟨⟨⟨?_, ?_⟩, ?_, ?_⟩, Nat.le_of_eq ha.symm, ?_⟩
  · rw [hs.packet, hs.size, h.parallel.packet_length]
  · rw [hs.packet_sizes, hs.size, h.parallel.sizes_length]
  · rw [hids, ha]
    exact h.ids_lt
  · rw [hids]
    exact h.ids_nodup
  · rw [hids]
    exact fun x hx => .inl hx

theorem Follows.unlock {q q' : Dataqueue} (h : Follows q q') : Follows q q'.pthreadMutexUnlock :=
  ⟨⟨h.wf.parallel.unlock, h.wf.ids_lt, h.wf.ids_nodup⟩, h.allocated_le, h.ids_old⟩

theorem Follows.add {q : Dataqueue} (h : q.WellFormed) (data : List Byte) :
    Follows q (q.queueAddUnsafe data) := by
  have hids : (q.queueAddUnsafe data).ids = q.ids ++ [q.allocated] := by
    rw [queueAddUnsafe_eq h.parallel]
    simp [ids]
  have hfresh : q.allocated ∉ q.ids := fun hx => Nat.lt_irrefl _ (h.ids_lt _ hx)
  refine ⟨⟨h.parallel.add data, ?_, ?_⟩, Nat.le_succ _, ?_⟩
  · intro x hx
    rw [hids, List.mem_append, List.mem_singleton] at hx
    rcases hx with hx | rfl
    · exact Nat.lt_succ_of_lt (h.ids_lt x hx)
    · exact Nat.lt_succ_self _
  · rw [hids, List.nodup_append]
    exact ⟨h.ids_nodup, List.nodup_singleton _, by
      intro a ha b hb hab
      rw [List.mem_singleton] at hb
      exact hfresh (hb ▸ hab ▸ ha)⟩
  · intro x hx
    rw [hids, List.mem_append, List.mem_singleton] at hx
    exact hx.imp_right fun h => Nat.le_of_eq h.symm

theorem ids_remove {q : Dataqueue} (h : q.WellFormed) {i : Nat} (hi : i < q.size) :
    (q.queueRemoveunsafe i).ids = q.ids.eraseIdx i := by
  rw [queueRemoveunsafe_eq h.parallel hi]
  exact (List.eraseIdx_map _ _ _).symm

theorem Follows.remove {q : Dataqueue} (h : q.WellFormed) (id : Int) :
    Follows q (q.queueRemoveunsafe id) := by
  by_cases hv : q.Valid id
  · obtain ⟨i, rfl, hi⟩ := valid_iff.1 hv
    have hsub : ∀ x ∈ (q.queueRemoveunsafe i).ids, x ∈ q.ids := by
      rw [ids_remove h hi]
      exact fun x hx => List.mem_of_mem_eraseIdx hx
    have ha : (q.queueRemoveunsafe i).allocated = q.allocated := by
      rw [queueRemoveunsafe_eq h.parallel hi]
    refine ⟨⟨h.parallel.remove i, ?_, ?_⟩, Nat.le_of_eq ha.symm, fun x hx => .inl (hsub x hx)⟩
    · rw [ha]
      exact fun x hx => h.ids_lt x (hsub x hx)
    · rw [ids_remove h hi]
      exact h.ids_nodup.sublist (List.eraseIdx_sublist _ _)
  · rw [queueRemoveunsafe_invalid hv]
    exact .of_same h (.refl q) rfl

/-- A replaced element stays the same element. -/
theorem Follows.replace {q : Dataqueue} (h : q.WellFormed) {i : Nat} {buf : Buf} (hi : i < q.size)
    (hb : buf.id = (q.packet.getD i Buf.uninit).id) :
    Follows q { q with packet := q.packet.set i buf } := by
  have hp : i < q.packet.length := h.parallel.packet_length ▸ hi
  have hids : ({ q with packet := q.packet.set i buf } : Dataqueue).ids = q.ids := by
    have hold : buf.id = (q.packet.map Buf.id).getD i 0 := by rw [hb]; simp [List.getD, hp]
    unfold ids
    rw [List.map_set, hold, set_getD_self (by rwa [List.length_map])]
  refine ⟨⟨⟨?_, h.parallel.sizes_length⟩, ?_, ?_⟩, Nat.le_refl _, ?_⟩
  · rw [List.length_set, h.parallel.packet_length]
  · rw [hids]
    exact h.ids_lt
  · rw [hids]
    exact h.ids_nodup
  · rw [hids]
    exact fun x hx => .inl hx

/-- The bytes that an element holds leave it as it is, and only they do. -/
theorem SameContents.replace_iff {q : Dataqueue} (h : q.WellFormed) {i : Nat} {buf : Buf}
    {data : List Byte} (hi : i < q.size)
    (ho : overwrite (q.packet.getD i Buf.uninit) (q.packet_sizes.getD i 0) data = .ok buf) :
    SameContents q { q with packet := q.packet.set i buf } ↔ ¬ q.Rewrites data i := by
  have hp : i < q.packet.length := h.parallel.packet_length ▸ hi
  have hsame : ¬ q.Rewrites data i ↔ buf = q.packet.getD i Buf.uninit := by
    unfold Rewrites
    rw [overwrite_eq_self_iff ho, Int.toNat_natCast]
    simp only [valid_natCast, hi, true_and, not_not]
  rw [hsame]
  constructor
  · intro hs
    have hset : (q.packet.set i buf).getD i Buf.uninit = q.packet.getD i Buf.uninit :=
      congrArg (fun l => l.getD i Buf.uninit) hs.packet
    rwa [List.getD_eq_getElem?_getD, List.getElem?_set_self hp, Option.getD_some] at hset
  · rintro rfl
    exact ⟨set_getD_self hp, rfl, rfl⟩

theorem Follows.clear (q : Dataqueue) (l : Option Nat) :
    Follows q { q with packet := [], packet_sizes := [], size := 0, locker := l } :=
  ⟨⟨⟨rfl, rfl⟩, fun _ hx => absurd hx List.not_mem_nil, List.nodup_nil⟩, Nat.le_refl _,
    fun _ hx => absurd hx List.not_mem_nil⟩

theorem SameContents.clear {q : Dataqueue} (h : q.WellFormed) (h0 : q.size = 0) (l : Option Nat) :
    SameContents q { q with packet := [], packet_sizes := [], size := 0, locker := l } :=
  ⟨(List.length_eq_zero_iff.1 (h.parallel.packet_length.trans h0)).symm,
    (List.length_eq_zero_iff.1 (h.parallel.sizes_length.trans h0)).symm, h0.symm⟩

end Dataqueue

/-! ## What one call does -/

namespace Threads

open Dataqueue

/-- All that the results below use of a step of thread `t`. -/
structure Effect (s : Threads) (t : Nat) (c : Call) (s' : Threads) : Prop where
  /-- Only the caller moves. -/
  others : ∀ u, u ≠ t → s'.phase u = s.phase u
  follows : Follows s.q s'.q
  /-- Other calls than the modifying ones leave the contents alone. -/
  same : ¬ s.q.Modifies c → SameContents s.q s'.q
  /-- Other calls than the releasing ones leave a taken mutex alone. -/
  locker : ¬ s.q.Releases c → ∀ u, s.q.locker = some u → s'.q.locker = some u
  /-- An obtained element is the one at its id. -/
  obtained : ∀ id e, s'.phase t = .holdsId id e → ∃ i : Nat, id = i ∧ s'.q.packet[i]? = some e
  /-- `queue_lockall` leaves the caller with the mutex, and the unsafe calls keep it. -/
  locked : s'.phase t = .holdsAll → s'.q.locker = some t ∨ s.phase t = .holdsAll ∧
    s'.q.locker = s.q.locker
  /-- Only a removal by the holder of an element consumes, and that element. -/
  consumed : s'.consumed = s.consumed ∨ ∃ id e, s.phase t = .holdsId id e ∧
    s'.q = s.q.queueUnlockidandremove id ∧ s'.consumed = s.consumed ++ [e.id]
  /-- Two calls open a section. -/
  opened : s.phase t = .idle → s'.phase t ≠ .idle →
    c = .lockall ∧ s.q.locker = none ∨ ∃ id, c = .getidandlock id ∧ s.q.Valid id

theorem move_self (s : Threads) (t : Nat) (q : Dataqueue) (p : Phase) :
    (s.move t q p).phase t = p := Function.update_self _ _ _

theorem move_other (s : Threads) {t u : Nat} (q : Dataqueue) (p : Phase) (h : u ≠ t) :
    (s.move t q p).phase u = s.phase u := Function.update_of_ne h _ _

/-- A call after which the caller is outside every section. -/
theorem Effect.to_idle {s : Threads} {t : Nat} {c : Call} {q : Dataqueue} (hf : Follows s.q q)
    (hs : ¬ s.q.Modifies c → SameContents s.q q)
    (hl : ¬ s.q.Releases c → ∀ u, s.q.locker = some u → q.locker = some u) :
    Effect s t c (s.move t q .idle) where
  others _ hu := move_other s q .idle hu
  follows := hf
  same := hs
  locker := hl
  obtained id e h := by rw [move_self] at h; cases h
  locked h := by rw [move_self] at h; cases h
  consumed := .inl rfl
  opened _ h := absurd (move_self s t q .idle) h

/-- An unsafe call inside `queue_lockall`. -/
theorem Effect.in_lockall {s : Threads} {t : Nat} {c : Call} {q : Dataqueue}
    (hp : s.phase t = .holdsAll) (hf : Follows s.q q)
    (hs : ¬ s.q.Modifies c → SameContents s.q q) (hl : q.locker = s.q.locker) :
    Effect s t c (s.move t q .holdsAll) where
  others _ hu := move_other s q .holdsAll hu
  follows := hf
  same := hs
  locker _ u hu := hl.trans hu
  obtained id e h := by rw [move_self] at h; cases h
  locked _ := .inr ⟨hp, hl⟩
  consumed := .inl rfl
  opened h := by rw [hp] at h; cases h

/-- A call that leaves everything as it was. -/
theorem Effect.none {s : Threads} {t : Nat} {c : Call} (hw : s.q.WellFormed)
    (ho : ∀ id e, s.phase t ≠ .holdsId id e) : Effect s t c s where
  others _ _ := rfl
  follows := .of_same hw (.refl _) rfl
  same _ := .refl _
  locker _ _ h := h
  obtained id e h := absurd h (ho id e)
  locked h := .inr ⟨h, rfl⟩
  consumed := .inl rfl
  opened h h' := absurd h h'

/-- A successful `queue_getidandlock`: the queue stays, the caller holds the element at its id. -/
theorem Effect.to_holdsId {s : Threads} {t i : Nat} {e : Buf} (hw : s.q.WellFormed)
    (hi : i < s.q.size) (he : s.q.packet[i]? = some e) :
    Effect s t (.getidandlock i) (s.move t s.q (.holdsId i e)) where
  others _ hu := move_other s s.q _ hu
  follows := .of_same hw (.refl _) rfl
  same _ := .refl _
  locker _ _ hu := hu
  obtained id' e' h := by
    rw [move_self] at h
    cases h
    exact ⟨i, rfl, he⟩
  locked h := by rw [move_self] at h; cases h
  consumed := .inl rfl
  opened _ _ := .inr ⟨i, rfl, valid_natCast.2 hi⟩

/-- `queue_lockall` on a free mutex. -/
theorem Effect.to_lockall {s : Threads} {t : Nat} (hw : s.q.WellFormed)
    (hfree : s.q.locker = Option.none) :
    Effect s t .lockall (s.move t { s.q with locker := some t } .holdsAll) where
  others _ hu := move_other s _ .holdsAll hu
  follows := .of_same hw ⟨rfl, rfl, rfl⟩ rfl
  same _ := ⟨rfl, rfl, rfl⟩
  locker _ u hu := by rw [hfree] at hu; cases hu
  obtained id e h := by rw [move_self] at h; cases h
  locked _ := .inl rfl
  consumed := .inl rfl
  opened _ _ := .inl ⟨rfl, hfree⟩

theorem ok_of_toOption {ε α : Type} {x : Except ε α} {a : α} (h : x.toOption = some a) :
    x = .ok a := by
  cases x with
  | error e => cases h
  | ok b => cases h; rfl

/-- **What one call does**, over every call and phase. -/
theorem call_effect {s s' : Threads} {t : Nat} {c : Call} (hw : s.q.WellFormed)
    (h : s.call t c = some s') : Effect s t c s' := by
  unfold call at h
  split at h
  case h_1 hp =>
    -- queue_getcurrentsize
    cases h
    exact .none hw fun id e he => by rw [hp] at he; cases he
  case h_2 data hp =>
    -- queue_add
    obtain ⟨q, hq, rfl⟩ := Option.map_eq_some_iff.1 h
    obtain ⟨hfree, rfl⟩ := queueAdd_ok (ok_of_toOption hq)
    exact .to_idle (.add hw data) (fun hm => absurd trivial hm) fun _ u hu => by
      rw [hfree] at hu; cases hu
  case h_3 data id hp =>
    -- queue_replace
    obtain ⟨⟨r, q⟩, hq, rfl⟩ := Option.map_eq_some_iff.1 h
    obtain ⟨hfree, ⟨hv, rfl⟩ | ⟨i, buf, rfl, hi, hb, rfl⟩⟩ := queueReplace_ok (ok_of_toOption hq)
    · exact .to_idle (.of_same hw (.refl _) rfl) (fun _ => .refl _) fun _ _ hu => hu
    · exact .to_idle (.replace hw hi (overwrite_id hb)) (SameContents.replace_iff hw hi hb).2
        fun _ _ hu => hu
  case h_4 hp =>
    -- queue_purge
    cases h
    have hq : s.q.queuePurge = _ := purgeLoop_eq _ s.q hw.parallel rfl
    rw [hq]
    refine .to_idle (.clear _ _) (fun hm => .clear hw (Decidable.of_not_not hm) _) ?_
    intro hr u hu
    rw [if_pos (Decidable.of_not_not hr), hu]
  case h_5 id hp =>
    -- queue_getidandlock, which keeps the queue and moves the caller if the id is valid
    unfold queueGetidandlock at h
    by_cases hv : s.q.Valid id
    · rw [if_neg (not_not_intro hv)] at h
      cases h
      obtain ⟨i, rfl, hi⟩ := valid_iff.1 hv
      have hpk : i < s.q.packet.length := hw.parallel.packet_length ▸ hi
      exact .to_holdsId hw hi (by simp [List.getD, hpk])
    · rw [if_pos hv] at h
      cases h
      exact .to_idle (.of_same hw ⟨rfl, rfl, rfl⟩ rfl) (fun _ => ⟨rfl, rfl, rfl⟩)
        fun hr => absurd hv hr
  case h_6 hp =>
    -- queue_lockall
    obtain ⟨q, hq, rfl⟩ := Option.map_eq_some_iff.1 h
    obtain ⟨hfree, rfl⟩ := pthreadMutexLock_ok (ok_of_toOption hq)
    exact .to_lockall hw hfree
  case h_7 id e id' hp =>
    -- queue_unlockid
    split at h
    · cases h
      exact .to_idle (.of_same hw ⟨rfl, rfl, rfl⟩ rfl) (fun _ => ⟨rfl, rfl, rfl⟩)
        fun hr => absurd trivial hr
    · cases h
  case h_8 id e id' hp =>
    -- queue_unlockidandremove
    split at h
    case isFalse => cases h
    case isTrue hid =>
      cases h
      subst hid
      have hi := Effect.to_idle (t := t) (c := .unlockidandremove id')
        (Follows.remove hw id').unlock
        (fun hm => by rw [queueRemoveunsafe_invalid hm]; exact ⟨rfl, rfl, rfl⟩)
        (fun hr => absurd trivial hr)
      exact { hi with consumed := .inr ⟨id', e, hp, rfl, rfl⟩ }
  case h_9 hp =>
    -- queue_unlockall
    cases h
    exact .to_idle (.of_same hw ⟨rfl, rfl, rfl⟩ rfl) (fun _ => ⟨rfl, rfl, rfl⟩)
      fun hr => absurd trivial hr
  case h_10 id hp =>
    -- queue_getidunsafe
    cases h
    exact .none hw fun id e he => by rw [hp] at he; cases he
  case h_11 data hp =>
    cases h
    exact .in_lockall hp (.add hw data) (fun hm => absurd trivial hm) rfl
  case h_12 id hp =>
    cases h
    refine .in_lockall hp (.remove hw id) (fun hm => ?_) ?_
    · rw [queueRemoveunsafe_invalid hm]
      exact .refl _
    · unfold queueRemoveunsafe
      split <;> rfl
  case h_13 hp =>
    cases h
    have hq : s.q.queuePurgeUnsafe = _ := purgeUnsafeLoop_eq _ hw.parallel rfl
    rw [hq]
    exact .in_lockall hp (.clear _ _) (fun hm => .clear hw (Decidable.of_not_not hm) _) rfl
  case h_14 => cases h

/-! ## A discipline for the callers -/

/-- No thread but `t` holds an element. -/
def NoElementHeld (s : Threads) (t : Nat) : Prop := ∀ u, u ≠ t → ∀ id e, s.phase u ≠ .holdsId id e

/-- No thread but `t` is inside `queue_lockall`. -/
def NoLockall (s : Threads) (t : Nat) : Prop := ∀ u, u ≠ t → s.phase u ≠ .holdsAll

/-- When thread `t`, outside every section, may make a call. -/
def MayCall (s : Threads) (t : Nat) : Call → Prop
  | .add _ | .lockall => s.NoElementHeld t
  | .replace data id => s.q.Rewrites data id → s.NoElementHeld t
  | .getidandlock id => s.NoLockall t ∧ (s.q.Valid id → s.NoElementHeld t)
  | .purge => s.q.size ≠ 0 → s.NoLockall t ∧ s.NoElementHeld t
  | _ => True

/-- The steps of threads that keep to `K` outside their sections; inside they call what they like. -/
def Under (K : Threads → Nat → Call → Prop) : Threads → Nat × Call → Threads → Prop :=
  Trace.Restrict (fun s a => s.phase a.1 = .idle → K s a.1 a.2) Step

/-- What the sections give in a state, of which `R` are the steps. -/
structure Protocol (R : Threads → Nat × Call → Threads → Prop) (s : Threads) : Prop where
  /-- While a thread holds an element, nobody else changes the queue. -/
  unchanged : ∀ t id e, s.phase t = .holdsId id e → ∀ u c s', u ≠ t → R s (u, c) s' →
    SameContents s.q s'.q ∧ s'.phase t = .holdsId id e
  /-- The element is in its place, and the holder's removal removes and consumes it. -/
  removes : ∀ t id e, s.phase t = .holdsId id e → ∃ i : Nat, id = i ∧ s.q.packet[i]? = some e ∧
    ∀ s', R s (t, .unlockidandremove id) s' →
      s'.q.packet = s.q.packet.eraseIdx i ∧ s'.consumed = s.consumed ++ [e.id]
  once : s.consumed.Nodup
  /-- The mutex of `queue_lockall` is its owner's, and nobody else releases it. -/
  kept : ∀ t, s.phase t = .holdsAll → s.q.locker = some t ∧
    ∀ u c s', u ≠ t → R s (u, c) s' → s'.q.locker = some t

structure Inv (s : Threads) : Prop where
  wf : s.q.WellFormed
  held : ∀ t id e, s.phase t = .holdsId id e → ∃ i : Nat, id = i ∧ s.q.packet[i]? = some e
  locked : ∀ t, s.phase t = .holdsAll → s.q.locker = some t
  gone : ∀ x ∈ s.consumed, x < s.q.allocated ∧ x ∉ s.q.ids
  consumed_nodup : s.consumed.Nodup
  /-- At most one thread is inside a section. -/
  alone : ∀ t u, t ≠ u → s.phase t ≠ .idle → s.phase u = .idle

theorem inv_init (q : Dataqueue) : Inv (init q) where
  wf := ⟨⟨rfl, rfl⟩, fun _ hx => absurd hx List.not_mem_nil, List.nodup_nil⟩
  held _ _ _ h := by cases h
  locked _ h := by cases h
  gone _ hx := absurd hx List.not_mem_nil
  consumed_nodup := List.nodup_nil
  alone _ _ _ _ := rfl

/-! ### Under the discipline -/

section Step

variable {s s' : Threads} {t : Nat} {c : Call}

/-- A section of another thread is not touched: the caller is outside every section, and may call. -/
theorem Inv.undisturbed (hi : Inv s) (hmay : s.phase t = .idle → s.MayCall t c)
    (h : s.call t c = some s') {u : Nat} (hu : u ≠ t) :
    (∀ id e, s.phase u = .holdsId id e → SameContents s.q s'.q) ∧
      (s.phase u = .holdsAll → s'.q.locker = some u) := by
  have he := call_effect hi.wf h
  have hidle : s.phase u ≠ .idle → s.phase t = .idle := hi.alone u t hu
  constructor
  · intro id e hp
    have ht := hidle (by rw [hp]; exact nofun)
    refine he.same fun hm => ?_
    -- a call that changes the queue, by the kinds of calls outside a section
    unfold call at h
    rw [ht] at h
    cases c with
    | add data => exact hmay ht u hu id e hp
    | replace data id' => exact hmay ht hm u hu id e hp
    | purge => exact (hmay ht hm).2 u hu id e hp
    | unlockidandremove id' => cases h
    | addUnsafe data => cases h
    | removeUnsafe id' => cases h
    | purgeUnsafe => cases h
    | _ => exact hm
  · intro hp
    have ht := hidle (by rw [hp]; exact nofun)
    refine he.locker (fun hr => ?_) u (hi.locked u hp)
    unfold call at h
    rw [ht] at h
    cases c with
    | getidandlock id => exact (hmay ht).1 u hu hp
    | purge => exact (hmay ht hr).1 u hu hp
    | unlockid id => cases h
    | unlockidandremove id => cases h
    | unlockall => cases h
    | _ => exact hr

/-- Who opens a section is the only one inside one. -/
theorem Inv.opens_alone (hi : Inv s) (hmay : s.phase t = .idle → s.MayCall t c)
    (h : s.call t c = some s') (hin : s'.phase t ≠ .idle) {u : Nat} (hu : u ≠ t) :
    s.phase u = .idle := by
  by_cases ht : s.phase t = .idle
  · have hmay := hmay ht
    cases hp : s.phase u with
    | idle => rfl
    | holdsId id e =>
      rcases (call_effect hi.wf h).opened ht hin with ⟨rfl, _⟩ | ⟨id', rfl, hv⟩
      · exact absurd hp (hmay u hu id e)
      · exact absurd hp (hmay.2 hv u hu id e)
    | holdsAll =>
      rcases (call_effect hi.wf h).opened ht hin with ⟨rfl, hfree⟩ | ⟨id', rfl, _⟩
      · -- the mutex is not free
        have hl := hi.locked u hp
        rw [hfree] at hl
        cases hl
      · exact absurd hp (hmay.1 u hu)
  · exact hi.alone t u (Ne.symm hu) ht

/-- What was consumed before the step never comes back. -/
theorem Effect.gone_old (he : Effect s t c s') (hi : Inv s) :
    ∀ x ∈ s.consumed, x < s'.q.allocated ∧ x ∉ s'.q.ids := by
  intro x hx
  obtain ⟨hlt, hnot⟩ := hi.gone x hx
  refine ⟨Nat.lt_of_lt_of_le hlt he.follows.allocated_le, ?_⟩
  intro hmem
  rcases he.follows.ids_old x hmem with hold | hnew
  · exact hnot hold
  · omega

/-- The removed element leaves the queue for good. -/
theorem gone_removed (hi : Inv s) {id : Int} {e : Buf} (hp : s.phase t = .holdsId id e) :
    e.id < (s.q.queueUnlockidandremove id).allocated ∧
      e.id ∉ (s.q.queueUnlockidandremove id).ids ∧ e.id ∈ s.q.ids := by
  obtain ⟨i, rfl, hget⟩ := hi.held t id e hp
  have hlt : i < s.q.packet.length := (List.getElem?_eq_some_iff.1 hget).1
  have hsz : i < s.q.size := hi.wf.parallel.packet_length ▸ hlt
  have hids : s.q.ids[i]? = some e.id := by
    unfold ids
    rw [List.getElem?_map, hget]
    rfl
  have hmem : e.id ∈ s.q.ids := List.mem_of_getElem? hids
  refine ⟨?_, ?_, hmem⟩
  · exact Nat.lt_of_lt_of_le (hi.wf.ids_lt _ hmem) (Follows.remove hi.wf i).allocated_le
  · show e.id ∉ (s.q.queueRemoveunsafe i).ids
    rw [ids_remove hi.wf hsz]
    intro hx
    obtain ⟨j, hj, hgetj⟩ := List.mem_eraseIdx_iff_getElem?.1 hx
    -- its id also stands at another place, but the ids are distinct
    have hltj : j < s.q.ids.length := (List.getElem?_eq_some_iff.1 hgetj).1
    exact hj ((List.getElem?_inj hltj hi.wf.ids_nodup).1 (hgetj.trans hids.symm))

theorem inv_step (hi : Inv s) (hmay : s.phase t = .idle → s.MayCall t c)
    (h : s.call t c = some s') : Inv s' := by
  have he := call_effect hi.wf h
  refine ⟨he.follows.wf, ?_, ?_, ?_, ?_, ?_⟩
  · intro u id e hu
    by_cases hut : u = t
    · subst hut
      exact he.obtained id e hu
    · rw [he.others u hut] at hu
      rw [((hi.undisturbed hmay h hut).1 id e hu).packet]
      exact hi.held u id e hu
  · intro u hu
    by_cases hut : u = t
    · subst hut
      rcases he.locked hu with hl | ⟨hp, hl⟩
      · exact hl
      · rw [hl, hi.locked u hp]
    · rw [he.others u hut] at hu
      exact (hi.undisturbed hmay h hut).2 hu
  · intro x hmem
    rcases he.consumed with hc | ⟨id, e, hp, hq, hc⟩
    · rw [hc] at hmem
      exact he.gone_old hi x hmem
    · rw [hc, List.mem_append, List.mem_singleton] at hmem
      rcases hmem with hold | rfl
      · exact he.gone_old hi x hold
      · rw [hq]
        exact ⟨(gone_removed hi hp).1, (gone_removed hi hp).2.1⟩
  · rcases he.consumed with hc | ⟨id, e, hp, hq, hc⟩
    · rw [hc]
      exact hi.consumed_nodup
    · rw [hc, List.nodup_append]
      refine ⟨hi.consumed_nodup, List.nodup_singleton _, ?_⟩
      intro a ha b hb hab
      rw [List.mem_singleton] at hb
      subst hab hb
      exact (hi.gone _ ha).2 (gone_removed hi hp).2.2
  · intro u v huv hu
    by_cases hvt : v = t
    · subst hvt
      -- another thread is inside, so the caller did not open a section
      rw [he.others u huv] at hu
      by_contra hin
      exact hu (hi.opens_alone hmay h hin huv)
    · rw [he.others v hvt]
      by_cases hut : u = t
      · subst hut
        exact hi.opens_alone hmay h hu hvt
      · rw [he.others u hut] at hu
        exact hi.alone u v huv hu

/-- The holder's removal, in a state where its element is in its place. -/
theorem removal_removes (hw : s.q.WellFormed) {i : Nat} {e : Buf} (hp : s.phase t = .holdsId i e)
    (hget : s.q.packet[i]? = some e) (h : s.call t (.unlockidandremove i) = some s') :
    s'.q.packet = s.q.packet.eraseIdx i ∧ s'.consumed = s.consumed ++ [e.id] := by
  have hsz : i < s.q.size := hw.parallel.packet_length ▸ (List.getElem?_eq_some_iff.1 hget).1
  unfold call at h
  simp only [hp, if_pos] at h
  cases h
  refine ⟨?_, rfl⟩
  show (s.q.queueRemoveunsafe i).packet = _
  rw [queueRemoveunsafe_eq hw.parallel hsz]

end Step

/-! ### Without it -/

section Needed

variable {K : Threads → Nat → Call → Prop} {s s' : Threads} {t u : Nat}

/-- Inside a section every call is a step. -/
theorem Under.inside {c : Call} (hin : s.phase t ≠ .idle) (h : s.call t c = some s') :
    Under K s (t, c) s' := ⟨fun hidle => absurd hidle hin, h⟩

theorem call_getidandlock (hidle : s.phase t = .idle) (id : Int) :
    s.call t (.getidandlock id) = some (if s.q.Valid id
      then s.move t s.q (.holdsId id (s.q.packet.getD id.toNat Buf.uninit))
      else s.move t s.q.pthreadMutexUnlock .idle) := by
  unfold call queueGetidandlock
  simp only [hidle]
  by_cases hv : s.q.Valid id
  · rw [if_neg (not_not_intro hv), if_pos hv]
  · rw [if_pos hv, if_neg hv]

/-- Where the protocol holds, nobody is inside a section beside the holder of an element: a thread inside
`queue_lockall` could add an element, the holder of another one could remove it. -/
theorem Protocol.holder_alone (h : Protocol (Under K) s) {id : Int} {e : Buf}
    (hp : s.phase t = .holdsId id e) (hu : u ≠ t) : s.phase u = .idle := by
  cases hpu : s.phase u with
  | idle => rfl
  | holdsId id' e' =>
    obtain ⟨i, rfl, hget, hremoves⟩ := h.removes u id' e' hpu
    have hcall : s.call u (.unlockidandremove i) = some
        { s.move u (s.q.queueUnlockidandremove i) .idle with consumed := s.consumed ++ [e'.id] } := by
      unfold call
      simp only [hpu, if_pos]
    have hstep : Under K s (u, .unlockidandremove i) _ := .inside (by rw [hpu]; exact nofun) hcall
    have hsame := ((h.unchanged t id e hp u _ _ hu hstep).1).packet
    have hlt : i < s.q.packet.length := (List.getElem?_eq_some_iff.1 hget).1
    have hlen := congrArg List.length ((hremoves _ hstep).1.symm.trans hsame)
    rw [List.length_eraseIdx_of_lt hlt] at hlen
    omega
  | holdsAll =>
    have hcall : s.call u (.addUnsafe []) = some (s.move u (s.q.queueAddUnsafe []) .holdsAll) := by
      unfold call
      rw [hpu]
    have hstep : Under K s (u, .addUnsafe []) _ := .inside (by rw [hpu]; exact nofun) hcall
    have hsize : s.q.size + 1 = s.q.size := ((h.unchanged t id e hp u _ _ hu hstep).1).size
    omega

/-- **Each part of the discipline is needed**: if the protocol holds before and after a call outside
every section, the call could be made. -/
theorem Protocol.mayCall (hw : s.q.WellFormed) (h : Protocol (Under K) s)
    (h' : Protocol (Under K) s') {c : Call} (hidle : s.phase t = .idle)
    (hstep : Under K s (t, c) s') : s.MayCall t c := by
  have hcall : s.call t c = some s' := hstep.2
  have he := call_effect hw hcall
  have hheld : (∃ u, u ≠ t ∧ ∃ id e, s.phase u = .holdsId id e) → SameContents s.q s'.q := by
    rintro ⟨u, hu, id, e, hp⟩
    exact (h.unchanged u id e hp t c s' (Ne.symm hu) hstep).1
  have hall : ∀ u, u ≠ t → s.phase u = .holdsAll → s'.q.locker = some u := fun u hu hp =>
    (h.kept u hp).2 t c s' (Ne.symm hu) hstep
  have hopen : s'.phase t ≠ .idle → s.NoElementHeld t := by
    intro hin u hu id e hp
    rw [← he.others u hu] at hp
    exact hin (h'.holder_alone hp (Ne.symm hu))
  unfold call at hcall
  rw [hidle] at hcall
  cases c with
  | add data =>
    intro u hu id e hp
    obtain ⟨q, hq, rfl⟩ := Option.map_eq_some_iff.1 hcall
    obtain ⟨_, rfl⟩ := queueAdd_ok (ok_of_toOption hq)
    have hsize : s.q.size + 1 = s.q.size := (hheld ⟨u, hu, id, e, hp⟩).size
    omega
  | replace data id =>
    intro hrewrites u hu id' e hp
    obtain ⟨⟨r, q⟩, hq, rfl⟩ := Option.map_eq_some_iff.1 hcall
    obtain ⟨_, ⟨hv, rfl⟩ | ⟨i, buf, rfl, hi, hb, rfl⟩⟩ := queueReplace_ok (ok_of_toOption hq)
    · exact hv hrewrites.1
    · exact (SameContents.replace_iff hw hi hb).1 (hheld ⟨u, hu, id', e, hp⟩) hrewrites
  | lockall =>
    obtain ⟨q, _, rfl⟩ := Option.map_eq_some_iff.1 hcall
    exact hopen (by rw [move_self]; exact nofun)
  | getidandlock id =>
    have hnext := call_getidandlock hidle id
    by_cases hv : s.q.Valid id
    · rw [if_pos hv] at hnext
      obtain rfl := Option.some.inj (hstep.2.symm.trans hnext)
      refine ⟨?_, fun _ => hopen (by rw [move_self]; exact nofun)⟩
      intro u hu hp
      -- the caller holds an element now, so the other thread is outside every section
      have hout := h'.holder_alone (move_self s t s.q _) hu
      rw [move_other s _ _ hu, hp] at hout
      cases hout
    · rw [if_neg hv] at hnext
      obtain rfl := Option.some.inj (hstep.2.symm.trans hnext)
      refine ⟨?_, fun hv' => absurd hv' hv⟩
      intro u hu hp
      cases hall u hu hp
  | purge =>
    intro hsize
    cases hcall
    have hq : s.q.queuePurge = _ := purgeLoop_eq _ s.q hw.parallel rfl
    constructor
    · intro u hu hp
      have hl : s.q.queuePurge.locker = some u := hall u hu hp
      rw [hq, if_neg hsize] at hl
      cases hl
    · intro u hu id e hp
      have hs : s.q.queuePurge.size = s.q.size := (hheld ⟨u, hu, id, e, hp⟩).size
      rw [hq] at hs
      exact hsize hs.symm
  | _ => trivial

end Needed

/-- The elements are distinct allocations in every state that the threads can reach. -/
theorem wellFormed_run {K : Threads → Nat → Call → Prop} {q : Dataqueue} {as : List (Nat × Call)}
    {s : Threads} (h : Trace.Exec (Under K) (init q) as s) : s.q.WellFormed :=
  h.invariant (I := fun s => s.q.WellFormed) (inv_init q).wf
    fun hw hs => (call_effect hw hs.2).follows.wf

/-- **The lock protocol** is kept by exactly those threads that call a function outside their sections
only when they may: whatever they agree upon, it has to keep `queue_getidandlock` away from every other
section, and everything that changes or locks the queue away from the holder of an element. -/
theorem lock_protocol_iff (K : Threads → Nat → Call → Prop) :
    (∀ q as s, Trace.Exec (Under K) (init q) as s → Protocol (Under K) s) ↔
      ∀ q as s t c s', Trace.Exec (Under K) (init q) as s → Under K s (t, c) s' →
        s.phase t = .idle → s.MayCall t c := by
  constructor
  · intro hprotocol q as s t c s' hrun hstep hidle
    exact (hprotocol q as s hrun).mayCall (wellFormed_run hrun)
      (hprotocol q _ s' (hrun.snoc hstep)) hidle hstep
  · intro hmay q as s hrun
    have hi : Inv s := by
      induction hrun with
      | nil => exact inv_init q
      | snoc hrun hs ih => exact inv_step ih (hmay q _ _ _ _ _ hrun hs) hs.2
    have hnext : ∀ {t c s'}, Under K s (t, c) s' → s.phase t = .idle → s.MayCall t c :=
      fun hs => hmay q as s _ _ _ hrun hs
    refine ⟨?_, ?_, hi.consumed_nodup, ?_⟩
    · intro t id e hp u c s' hu hs
      have hother := (hi.undisturbed (hnext hs) hs.2 (Ne.symm hu)).1 id e hp
      exact ⟨hother, ((call_effect hi.wf hs.2).others t (Ne.symm hu)).trans hp⟩
    · intro t id e hp
      obtain ⟨i, rfl, hget⟩ := hi.held t id e hp
      exact ⟨i, rfl, hget, fun s' hs => removal_removes hi.wf hp hget hs.2⟩
    · intro t hp
      exact ⟨hi.locked t hp, fun u c s' hu hs => (hi.undisturbed (hnext hs) hs.2 (Ne.symm hu)).2 hp⟩

/-- One writer and two readers that take turns, and a third thread that waits for nobody to hold an
element before it locks the queue: while it is inside, the writer's call is held up by the mutex. -/
theorem lock_protocol_turns :
    ∃ s, Trace.Exec (Under MayCall) (init ⟨[], [], none, 0, 0⟩)
        [(0, .add [1]), (0, .add [2]), (1, .getidandlock 0), (1, .unlockidandremove 0),
          (2, .getidandlock 0), (2, .unlockidandremove 0), (3, .lockall), (3, .addUnsafe [3])] s ∧
      s.consumed = [0, 1] ∧ s.phase 3 = .holdsAll ∧ s.MayCall 0 (.add [4]) ∧
      s.call 0 (.add [4]) = none ∧ Protocol (Under MayCall) s := by
  have hquiet : ∀ {s : Threads} {t : Nat}, (∀ u, u ≠ t → s.phase u = .idle) →
      s.NoElementHeld t ∧ s.NoLockall t := by
    intro s t h
    constructor
    · intro u hu id e hp
      rw [h u hu] at hp
      cases hp
    · intro u hu hp
      rw [h u hu] at hp
      cases hp
  obtain ⟨s, h, hc, hp, hadd, hothers⟩ : ∃ s,
      Trace.Exec (Under MayCall) (init ⟨[], [], none, 0, 0⟩)
        [(0, .add [1]), (0, .add [2]), (1, .getidandlock 0), (1, .unlockidandremove 0),
          (2, .getidandlock 0), (2, .unlockidandremove 0), (3, .lockall), (3, .addUnsafe [3])] s ∧
      s.consumed = [0, 1] ∧ s.phase 3 = .holdsAll ∧ s.call 0 (.add [4]) = none ∧
      ∀ u, u ≠ 3 → s.phase u = .idle := by
    refine ⟨_, .cons ⟨fun _ => (hquiet ?_).1, rfl⟩ (.cons ⟨fun _ => (hquiet ?_).1, rfl⟩
      (.cons ⟨fun _ => ⟨(hquiet ?_).2, fun _ => (hquiet ?_).1⟩, rfl⟩ (.cons ⟨nofun, rfl⟩
      (.cons ⟨fun _ => ⟨(hquiet ?_).2, fun _ => (hquiet ?_).1⟩, rfl⟩ (.cons ⟨nofun, rfl⟩
      (.cons ⟨fun _ => (hquiet ?_).1, rfl⟩ (.cons ⟨nofun, rfl⟩ .nil))))))), rfl, rfl, rfl, ?_⟩
    all_goals
      intro u hu
      simp [init, move, hu]
  have hprotocol := (lock_protocol_iff MayCall).2 (fun _ _ _ _ _ _ _ hs => hs.1) _ _ s h
  refine ⟨s, h, hc, hp, ?_, hadd, hprotocol⟩
  intro u _ id e hpu
  by_cases hu : u = 3
  · rw [hu, hp] at hpu
    cases hpu
  · rw [hothers u hu] at hpu
    cases hpu

/-- Two readers obtain the same element.  The second one's removal changes the queue inside the
first one's section, and the element is consumed twice; and a failing `queue_getidandlock` releases
the mutex another thread took with `queue_lockall`. -/
theorem lock_protocol_broken :
    (∃ s s', Trace.Exec Step (init ⟨[], [], none, 0, 0⟩)
        [(0, .add [1]), (1, .getidandlock 0), (2, .getidandlock 0)] s ∧
      s.phase 1 = .holdsId 0 ⟨0, [1]⟩ ∧ Step s (2, .unlockidandremove 0) s' ∧
      s.q.packet = [⟨0, [1]⟩] ∧ s'.q.packet = []) ∧
    (∃ s, Trace.Exec Step (init ⟨[], [], none, 0, 0⟩)
        [(0, .add [1]), (1, .getidandlock 0), (2, .getidandlock 0), (2, .unlockidandremove 0),
          (1, .unlockidandremove 0)] s ∧ s.consumed = [0, 0]) ∧
    ∃ s, Trace.Exec Step (init ⟨[], [], none, 0, 0⟩) [(1, .lockall), (2, .getidandlock 0)] s ∧
      s.phase 1 = .holdsAll ∧ s.q.locker = none :=
  ⟨⟨_, _, .cons rfl (.cons rfl (.cons rfl .nil)), rfl, rfl, rfl, rfl⟩,
    ⟨_, .cons rfl (.cons rfl (.cons rfl (.cons rfl (.cons rfl .nil)))), rfl⟩,
    _, .cons rfl (.cons rfl .nil), rfl, rfl⟩

end Threads

end BirRouter
