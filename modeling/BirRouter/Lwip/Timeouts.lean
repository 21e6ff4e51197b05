import Mathlib.Data.List.Sort

/-!
# Timeouts (`sys.c`)

Every thread of the TCP stack has a list of timeouts.  An entry holds the time from the entry before
it, so that waiting touches only the first entry; `sys_timeout` walks along the list and subtracts.
All times are `uint16_t`.

`sys_mbox_fetch` and `sys_sem_wait` have the same loop around a wait: the wait ends with the time
waited, or with 0 when the time of the first entry has run out, and then its handler is called.

`deadlines` reads a list against a clock that counts what the loop takes off.  In these terms
`sys_timeout` is an ordered insertion behind equal entries (`deadlines_sysTimeout`) and a round of the
loop lets the clock run up to the first entry at most (`deadlines_round`).  Over all runs the handlers
called and those still waiting are the registered ones, sorted by their deadlines
(`timeouts_in_order`).
-/

set_option autoImplicit false

namespace BirRouter

variable {H : Type}

/-- `struct sys_timeout`; `h` is the handler with its argument. -/
structure SysTimeout (H : Type) where
  time : Nat
  h : H
  deriving DecidableEq, Repr

namespace SysTimeout

/-- Subtraction of `uint16_t`. -/
def sub16 (a b : Nat) : Nat := (a + 65536 - b) % 65536

/-- The loop of `sys_timeout`: `t` is the first entry of the list. -/
def insertLoop (time : Nat) (h : H) : List (SysTimeout H) → List (SysTimeout H)
  | [] => []
  | [t] => [t, ⟨sub16 time t.time, h⟩]
  | t :: u :: rest =>
    if u.time > sub16 time t.time then
      t :: ⟨sub16 time t.time, h⟩ :: ⟨sub16 u.time (sub16 time t.time), u.h⟩ :: rest
    else t :: insertLoop (sub16 time t.time) h (u :: rest)

/-- `sys_timeout`; `alloc` says whether the pool of entries had one left. -/
def sysTimeout (alloc : Bool) (msecs : Nat) (h : H) (timeouts : List (SysTimeout H)) :
    List (SysTimeout H) :=
  if !alloc then timeouts
  else
    match timeouts with
    | [] => [⟨msecs, h⟩]
    | t :: rest =>
      if t.time > msecs then ⟨msecs, h⟩ :: ⟨sub16 t.time msecs, t.h⟩ :: rest
      else insertLoop msecs h (t :: rest)

/-- A round of the loop of `sys_mbox_fetch`, in which the wait returns `time`: the handler to call, and
the list. -/
def round (time : Nat) : List (SysTimeout H) → Option H × List (SysTimeout H)
  | [] => (none, [])
  | t :: rest =>
    let time := if t.time > 0 then time else 0
    if time = 0 then (some t.h, rest)
    else (none, ⟨if time ≤ t.time then sub16 t.time time else 0, t.h⟩ :: rest)

/-! ## The list against a clock -/

/-- When the entries are due. -/
def deadlines (now : Nat) : List (SysTimeout H) → List (Nat × H)
  | [] => []
  | t :: rest => (now + t.time, t.h) :: deadlines (now + t.time) rest

/-- Earlier than. -/
def before (x y : Nat × H) : Prop := x.1 < y.1

instance (x y : Nat × H) : Decidable (before x y) := inferInstanceAs (Decidable (x.1 < y.1))

/-- The times are `uint16_t`. -/
def Fits (l : List (SysTimeout H)) : Prop := ∀ t ∈ l, t.time < 65536

variable {l : List (SysTimeout H)} {h : H} {now msecs time : Nat}

theorem sub16_eq {a b : Nat} (ha : a < 65536) (hb : b ≤ a) : sub16 a b = a - b := by
  unfold sub16
  omega

/-- A list that is not touched behind its first entry. -/
theorem deadlines_cons_split {t : Nat} (ht : t ≤ msecs) (now : Nat) (u : H)
    (rest : List (SysTimeout H)) :
    deadlines now (⟨t, h⟩ :: ⟨msecs - t, u⟩ :: rest)
      = (now + t, h) :: deadlines now (⟨msecs, u⟩ :: rest) := by
  simp only [deadlines]
  rw [show now + t + (msecs - t) = now + msecs by omega]

/-- The loop of `sys_timeout` inserts behind the entries that are due no later. -/
theorem deadlines_insertLoop (hl : Fits l) (hm : msecs < 65536) {t : SysTimeout H}
    {rest : List (SysTimeout H)} (hcons : l = t :: rest) (hle : t.time ≤ msecs) (now : Nat) :
    deadlines now (insertLoop msecs h l)
      = (deadlines now l).orderedInsert before (now + msecs, h) := by
  induction rest generalizing l t msecs now with
  | nil =>
    subst hcons
    have hnot : ¬ before (now + msecs, h) (now + t.time, t.h) := by
      show ¬ now + msecs < now + t.time
      omega
    rw [insertLoop, sub16_eq hm hle]
    simp only [deadlines, List.orderedInsert_cons, if_neg hnot, List.orderedInsert_nil]
    rw [show now + t.time + (msecs - t.time) = now + msecs by omega]
  | cons u rest ih =>
    subst hcons
    have hnot : ¬ before (now + msecs, h) (now + t.time, t.h) := by
      show ¬ now + msecs < now + t.time
      omega
    have hu : u.time < 65536 := hl u (by simp)
    have htime : now + t.time + (msecs - t.time) = now + msecs := by omega
    rw [insertLoop, sub16_eq hm hle]
    rw [deadlines, List.orderedInsert_cons, if_neg hnot]
    split
    · rename_i hlt
      have hbefore : before (now + msecs, h) (now + t.time + u.time, u.h) := by
        show now + msecs < now + t.time + u.time
        omega
      rw [deadlines, sub16_eq hu (Nat.le_of_lt hlt),
        deadlines_cons_split (Nat.le_of_lt hlt), htime, deadlines, List.orderedInsert_cons,
        if_pos hbefore]
    · rename_i hge
      rw [deadlines, ih (fun x hx => hl x (List.mem_cons_of_mem _ hx)) (by omega) rfl (by omega),
        htime]

/-- **`sys_timeout` is an ordered insertion.** -/
theorem deadlines_sysTimeout (hl : Fits l) (hm : msecs < 65536) (h : H) (now : Nat) :
    deadlines now (sysTimeout true msecs h l)
      = (deadlines now l).orderedInsert before (now + msecs, h) := by
  cases l with
  | nil => rfl
  | cons t rest =>
    simp only [sysTimeout, Bool.not_true, Bool.false_eq_true, if_false]
    split
    · rename_i hlt
      have hbefore : before (now + msecs, h) (now + t.time, t.h) := by
        show now + msecs < now + t.time
        omega
      rw [sub16_eq (hl t (by simp)) (Nat.le_of_lt hlt), deadlines_cons_split (Nat.le_of_lt hlt),
        deadlines, List.orderedInsert_cons, if_pos hbefore]
    · rename_i hge
      exact deadlines_insertLoop hl hm rfl (by omega) now

theorem sub16_lt (a b : Nat) : sub16 a b < 65536 := Nat.mod_lt _ (by decide)

theorem fits_insertLoop (hl : Fits l) (msecs : Nat) (h : H) : Fits (insertLoop msecs h l) := by
  fun_induction insertLoop msecs h l with
  | case1 => exact hl
  | case2 msecs t =>
    intro x hx
    simp only [List.mem_cons, List.not_mem_nil, or_false] at hx
    rcases hx with rfl | rfl
    · exact hl _ (by simp)
    · exact sub16_lt _ _
  | case3 msecs t u rest hlt =>
    intro x hx
    simp only [List.mem_cons] at hx
    rcases hx with rfl | rfl | rfl | hx
    · exact hl _ (by simp)
    · exact sub16_lt _ _
    · exact sub16_lt _ _
    · exact hl _ (by simp [hx])
  | case4 msecs t u rest hge ih =>
    intro x hx
    rcases List.mem_cons.1 hx with rfl | hx
    · exact hl _ (by simp)
    · exact ih (fun y hy => hl y (List.mem_cons_of_mem _ hy)) x hx

theorem fits_sysTimeout (hl : Fits l) (alloc : Bool) (hm : msecs < 65536) (h : H) :
    Fits (sysTimeout alloc msecs h l) := by
  unfold sysTimeout
  split
  · exact hl
  · cases l with
    | nil =>
      intro x hx
      rw [List.mem_singleton.1 hx]
      exact hm
    | cons t rest =>
      simp only
      split
      · intro x hx
        simp only [List.mem_cons] at hx
        rcases hx with rfl | rfl | hx
        · exact hm
        · exact sub16_lt _ _
        · exact hl _ (by simp [hx])
      · exact fits_insertLoop hl msecs h

theorem fits_round (hl : Fits l) (time : Nat) : Fits (round time l).2 := by
  cases l with
  | nil => exact hl
  | cons t rest =>
    have hrest : Fits rest := fun x hx => hl x (List.mem_cons_of_mem _ hx)
    simp only [round]
    generalize (if t.time > 0 then time else 0) = waited
    split
    · exact hrest
    · intro x hx
      rcases List.mem_cons.1 hx with rfl | hx
      · show (if _ then sub16 _ _ else 0) < 65536
        split
        · exact sub16_lt _ _
        · decide
      · exact hrest x hx

/-- How far a round moves the clock. -/
def elapsed (time : Nat) : List (SysTimeout H) → Nat
  | [] => 0
  | t :: _ =>
    let time := if t.time > 0 then time else 0
    if time = 0 then t.time else min time t.time

/-- **A round of the loop**: the clock runs, and the first entry is taken off when it is due. -/
theorem deadlines_round (hl : Fits l) (time now : Nat) :
    deadlines now l = ((round time l).1.map fun h => (now + elapsed time l, h)).toList
      ++ deadlines (now + elapsed time l) (round time l).2 := by
  cases l with
  | nil => rfl
  | cons t rest =>
    have ht : t.time < 65536 := hl t (by simp)
    simp only [round, elapsed]
    generalize (if t.time > 0 then time else 0) = waited
    split
    · rfl
    · simp only [Option.map_none, Option.toList_none, List.nil_append, deadlines]
      split
      · rename_i hle
        rw [sub16_eq ht hle, Nat.min_eq_left hle,
          show now + waited + (t.time - waited) = now + t.time by omega]
      · rename_i hgt
        rw [Nat.min_eq_right (by omega), Nat.add_zero]

end SysTimeout

/-! ## Runs -/

/-- What happens to a thread's timeouts: a call of `sys_timeout`, or a round of the loop around a
wait. -/
inductive TimeoutEvent (H : Type)
  | sysTimeout (alloc : Bool) (msecs : Fin 65536) (h : H)
  | round (time : Fin 65536)
  deriving DecidableEq, Repr

/-- The list, with a clock, the entries registered (when due, in the order of the calls) and the
handlers called (when, in order). -/
structure Timers (H : Type) where
  timeouts : List (SysTimeout H)
  now : Nat
  registered : List (Nat × H)
  called : List (Nat × H)
  deriving DecidableEq, Repr

namespace Timers

def init : Timers H := ⟨[], 0, [], []⟩

def next (s : Timers H) : TimeoutEvent H → Timers H
  | .sysTimeout alloc msecs h =>
    { s with
      timeouts := SysTimeout.sysTimeout alloc msecs.val h s.timeouts
      registered := if alloc then s.registered ++ [(s.now + msecs.val, h)] else s.registered }
  | .round time =>
    let now := s.now + SysTimeout.elapsed time.val s.timeouts
    { s with
      timeouts := (SysTimeout.round time.val s.timeouts).2
      now := now
      called := s.called ++ ((SysTimeout.round time.val s.timeouts).1.map fun h => (now, h)).toList }

/-- Sorted by deadline, entries with the same deadline in the order given. -/
def byDeadline (l : List (Nat × H)) : List (Nat × H) :=
  l.foldl (fun l x => l.orderedInsert SysTimeout.before x) []

structure Ordered (s : Timers H) : Prop where
  fits : SysTimeout.Fits s.timeouts
  called_le : ∀ x ∈ s.called, x.1 ≤ s.now
  sorted : s.called ++ SysTimeout.deadlines s.now s.timeouts = byDeadline s.registered

/-- An entry that is due no earlier than all of `l` goes behind `l`. -/
theorem orderedInsert_append {x : Nat × H} {l m : List (Nat × H)} (h : ∀ y ∈ l, y.1 ≤ x.1) :
    (l ++ m).orderedInsert SysTimeout.before x = l ++ m.orderedInsert SysTimeout.before x := by
  induction l with
  | nil => rfl
  | cons y l ih =>
    have hnot : ¬ SysTimeout.before x y := Nat.not_lt.2 (h y (by simp))
    rw [List.cons_append, List.orderedInsert_cons, if_neg hnot,
      ih fun z hz => h z (List.mem_cons_of_mem _ hz), List.cons_append]

theorem ordered_next {s : Timers H} (hs : s.Ordered) (e : TimeoutEvent H) : (s.next e).Ordered := by
  cases e with
  | sysTimeout alloc msecs h =>
    refine ⟨SysTimeout.fits_sysTimeout hs.fits alloc msecs.isLt h, hs.called_le, ?_⟩
    cases alloc with
    | false => exact hs.sorted
    | true =>
      show s.called ++ SysTimeout.deadlines s.now (SysTimeout.sysTimeout true msecs.val h s.timeouts)
        = byDeadline (s.registered ++ [(s.now + msecs.val, h)])
      rw [SysTimeout.deadlines_sysTimeout hs.fits msecs.isLt, byDeadline, List.foldl_append,
        ← orderedInsert_append fun y hy => Nat.le_trans (hs.called_le y hy) (Nat.le_add_right _ _),
        hs.sorted]
      rfl
  | round time =>
    refine ⟨SysTimeout.fits_round hs.fits _, fun x hx => ?_, ?_⟩
    · rcases List.mem_append.1 hx with hx | hx
      · exact Nat.le_trans (hs.called_le x hx) (Nat.le_add_right _ _)
      · obtain ⟨h, -, rfl⟩ := Option.map_eq_some_iff.1 (Option.mem_toList.1 hx)
        exact Nat.le_refl _
    · have hround := SysTimeout.deadlines_round hs.fits time.val s.now
      have hsorted := hs.sorted
      rw [hround, ← List.append_assoc] at hsorted
      exact hsorted

end Timers

/-- **Handlers are called in the order of their deadlines, on time.**  Whatever calls of `sys_timeout`
and rounds of the wait loop a thread makes, the handlers called so far (with the clock when they were
called) followed by the entries in the list (with the clock when they will be due) are the entries
registered, sorted by the clock at registration plus the time asked for. -/
theorem timeouts_in_order (es : List (TimeoutEvent H)) :
    let s := es.foldl Timers.next (Timers.init : Timers H)
    s.called ++ SysTimeout.deadlines s.now s.timeouts = Timers.byDeadline s.registered := by
  intro s
  have hinit : (Timers.init : Timers H).Ordered := ⟨fun _ h => (nomatch h), fun _ h => (nomatch h), rfl⟩
  have hrun : s.Ordered := by
    refine List.foldlRecOn es Timers.next hinit fun t ht e _ => ?_
    exact Timers.ordered_next ht e
  exact hrun.sorted

example : ([.sysTimeout true 250 'a', .round 100, .sysTimeout true 100 'b', .round 0, .round 7,
    .round 0].foldl Timers.next (Timers.init : Timers Char)).called = [(200, 'b'), (250, 'a')] := by
  decide

end BirRouter
