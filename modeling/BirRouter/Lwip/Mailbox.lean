import BirRouter.Lib.Ring
import BirRouter.Lib.Trace

/-!
# Mailboxes (`sys_arch.c`)

The threads of the TCP stack talk through mailboxes: a ring of `SYS_MBOX_SIZE` pointers and two
binary semaphores, `mutex` around every access and `mail` for a fetcher that found the box empty.
A poster signals `mail` only if it found the box empty; nobody checks whether the box is full.

The model runs any number of posters and one fetcher statement by statement.  `sys_sem_signal` and a
successful `sys_arch_sem_wait` are one step each (the semaphore's own pthread mutex is held
throughout); a wait with a timeout may give up while the semaphore is down.

* `Mailbox.Holds` — who holds the mutex, what the ring holds, and that a fetcher who waits for mail will
  be told: the semaphore is up, or the poster who is to raise it has not done so yet;
* `mailbox_delivers` — over all interleavings in which at most 99 messages are outstanding.
-/

set_option autoImplicit false

namespace BirRouter

open Trace

/-- `SYS_MBOX_SIZE`. -/
def sysMboxSize : Nat := 100

/-- `struct sys_mbox`; `mail` and `mutex` are the counts of the two semaphores. -/
structure SysMbox (α : Type) where
  first : Nat
  last : Nat
  msgs : Nat → α
  mail : Nat
  mutex : Nat

/-- `sys_sem_signal`. -/
def sysSemSignal (c : Nat) : Nat := if c + 1 > 1 then 1 else c + 1

/-- `sys_arch_sem_wait` when it does not block. -/
def sysSemWait (c : Nat) : Option Nat := if c = 0 then none else some (c - 1)

/-- `i++`, back to 0 at the end of the ring. -/
def sysMboxNext (i : Nat) : Nat := if i + 1 = sysMboxSize then 0 else i + 1

/-- Where a thread is in `sys_mbox_post`. -/
inductive Poster (α : Type)
  | out
  | lock (msg : α)
  | store (msg : α)
  | compare (msg : α)
  | advance (msg : α) (first : Bool)
  | notify (first : Bool)
  | unlock
  deriving DecidableEq, Repr

/-- Where a thread is in `sys_arch_mbox_fetch`; `timeout` says whether it was called with one. -/
inductive Fetcher (α : Type)
  | out
  | lock (timeout : Bool)
  | test (timeout : Bool)
  | release (timeout : Bool)
  | wait (timeout : Bool)
  | load
  | advance (msg : α)
  | unlock
  deriving DecidableEq, Repr

/-- A mailbox with its threads; `posted` and `fetched` record the messages that went in and out. -/
structure Mailbox (α : Type) where
  box : SysMbox α
  poster : Nat → Poster α
  fetcher : Fetcher α
  posted : List α
  fetched : List α

inductive MailboxStep (α : Type)
  | call (t : Nat) (msg : α)
  | post (t : Nat)
  | callFetch (timeout : Bool)
  | fetch
  | expire
  deriving DecidableEq, Repr

namespace Mailbox

variable {α : Type}

/-- `sys_mbox_new`, no thread inside. -/
def new (msgs : Nat → α) : Mailbox α := ⟨⟨0, 0, msgs, 0, 1⟩, fun _ => .out, .out, [], []⟩

def setPoster (s : Mailbox α) (t : Nat) (p : Poster α) : Mailbox α :=
  { s with poster := Function.update s.poster t p }

/-- The next statement of `sys_mbox_post` in thread `t`. -/
def post (s : Mailbox α) (t : Nat) : Option (Mailbox α) :=
  match s.poster t with
  | .out => none
  | .lock msg =>
    (sysSemWait s.box.mutex).map fun c =>
      { s with box := { s.box with mutex := c } }.setPoster t (.store msg)
  | .store msg =>
    some ({ s with box := { s.box with msgs := Function.update s.box.msgs s.box.last msg } }.setPoster
      t (.compare msg))
  | .compare msg => some (s.setPoster t (.advance msg (s.box.last == s.box.first)))
  | .advance msg first =>
    some ({ s with
      box := { s.box with last := sysMboxNext s.box.last }
      posted := s.posted ++ [msg] }.setPoster t (.notify first))
  | .notify first =>
    some ({ s with
      box := { s.box with mail := if first then sysSemSignal s.box.mail else s.box.mail } }.setPoster
      t .unlock)
  | .unlock =>
    some ({ s with box := { s.box with mutex := sysSemSignal s.box.mutex } }.setPoster t .out)

/-- The next statement of `sys_arch_mbox_fetch`. -/
def fetch (s : Mailbox α) : Option (Mailbox α) :=
  match s.fetcher with
  | .out => none
  | .lock timeout =>
    (sysSemWait s.box.mutex).map fun c =>
      { s with box := { s.box with mutex := c }, fetcher := .test timeout }
  | .test timeout =>
    if s.box.first = s.box.last then some { s with fetcher := .release timeout }
    else some { s with fetcher := .load }
  | .release timeout =>
    some { s with
      box := { s.box with mutex := sysSemSignal s.box.mutex }, fetcher := .wait timeout }
  | .wait timeout =>
    (sysSemWait s.box.mail).map fun c =>
      { s with box := { s.box with mail := c }, fetcher := .lock timeout }
  | .load => some { s with fetcher := .advance (s.box.msgs s.box.first) }
  | .advance msg =>
    some { s with
      box := { s.box with first := sysMboxNext s.box.first }
      fetcher := .unlock, fetched := s.fetched ++ [msg] }
  | .unlock =>
    some { s with box := { s.box with mutex := sysSemSignal s.box.mutex }, fetcher := .out }

/-- One step of some thread; `none` if it blocks or does not apply. -/
def next (s : Mailbox α) : MailboxStep α → Option (Mailbox α)
  | .call t msg =>
    match s.poster t with
    | .out => some (s.setPoster t (.lock msg))
    | _ => none
  | .post t => s.post t
  | .callFetch timeout =>
    match s.fetcher with
    | .out => some { s with fetcher := .lock timeout }
    | _ => none
  | .fetch => s.fetch
  | .expire =>
    match s.fetcher with
    | .wait true => if s.box.mail = 0 then some { s with fetcher := .out } else none
    | _ => none

def Step (s : Mailbox α) (a : MailboxStep α) (s' : Mailbox α) : Prop := s.next a = some s'

end Mailbox

/-! ## The invariant -/

section Inside

variable {α : Type}

/-- The thread holds the mutex. -/
def Poster.inside : Poster α → Bool
  | .out | .lock _ => false
  | _ => true

/-- The thread holds the mutex. -/
def Fetcher.inside : Fetcher α → Bool
  | .out | .lock _ | .wait _ => false
  | _ => true

/-- The thread is about to put its message in. -/
def Poster.advances : Poster α → Bool
  | .advance _ _ => true
  | _ => false

/-- The thread waits for mail. -/
def Fetcher.waits : Fetcher α → Bool
  | .wait _ => true
  | _ => false

theorem Fetcher.waits_of_inside {f : Fetcher α} (h : f.inside = true) : f.waits = false := by
  cases f <;> first | rfl | cases h

end Inside

namespace Mailbox

variable {α : Type}

/-- Who holds the mutex. -/
inductive Owner
  | nobody
  | poster (t : Nat)
  | fetcher
  deriving DecidableEq, Repr

/-- What a poster that holds the mutex knows of the box, in which there are `n` messages. -/
def PosterAt (box : SysMbox α) (n : Nat) : Poster α → Prop
  | .compare msg => box.msgs box.last = msg
  | .advance msg first => box.msgs box.last = msg ∧ first = (n == 0)
  | _ => True

/-- What a fetcher that holds the mutex knows of the box. -/
def FetcherAt (box : SysMbox α) (n : Nat) : Fetcher α → Prop
  | .release _ => n = 0
  | .load => 0 < n
  | .advance msg => 0 < n ∧ msg = box.msgs box.first
  | _ => True

/-- The mutex is with `o` and there are `n` messages in the box. -/
structure Holds (s : Mailbox α) (o : Owner) (n : Nat) : Prop where
  n_lt : n < sysMboxSize
  first_lt : s.box.first < sysMboxSize
  last_eq : s.box.last = (s.box.first + n) % sysMboxSize
  queue : s.posted = s.fetched ++ Ring.contents sysMboxSize s.box.msgs s.box.first n
  mutex : s.box.mutex = if o = .nobody then 1 else 0
  poster_inside : ∀ t, (s.poster t).inside = true ↔ o = .poster t
  fetcher_inside : s.fetcher.inside = true ↔ o = .fetcher
  poster_at : ∀ t, o = .poster t → PosterAt s.box n (s.poster t)
  fetcher_at : o = .fetcher → FetcherAt s.box n s.fetcher
  /-- A fetcher that waits for mail will be told. -/
  told : s.fetcher.waits = true → n = 0 ∨ s.box.mail ≠ 0 ∨ ∃ t, s.poster t = .notify true

theorem new_holds (msgs : Nat → α) : (new msgs).Holds .nobody 0 where
  n_lt := by decide
  first_lt := Nat.zero_lt_succ _
  last_eq := rfl
  queue := rfl
  mutex := rfl
  poster_inside := fun _ => by simp [new, Poster.inside]
  fetcher_inside := by simp [new, Fetcher.inside]
  poster_at := fun _ h => (nomatch h)
  fetcher_at := fun h => (nomatch h)
  told := fun h => (nomatch h)

section Steps

variable {s s' : Mailbox α} {o : Owner} {n t : Nat}

theorem sysMboxNext_eq {i : Nat} (h : i < sysMboxSize) : sysMboxNext i = (i + 1) % sysMboxSize := by
  unfold sysMboxNext
  unfold sysMboxSize at *
  split <;> omega

theorem Holds.first_eq_last (h : s.Holds o n) : s.box.first = s.box.last ↔ n = 0 := by
  have := h.n_lt
  have := h.first_lt
  rw [h.last_eq]
  unfold sysMboxSize at *
  omega

/-- Only the owner of the mutex is about to raise the semaphore. -/
theorem Holds.notifier (h : s.Holds o n) {b : Bool} (hu : s.poster t = .notify b) : o = .poster t :=
  (h.poster_inside t).1 (by rw [hu]; rfl)

theorem Holds.owner (h : s.Holds o n) (hin : (s.poster t).inside = true) : o = .poster t :=
  (h.poster_inside t).1 hin

/-- The mutex is free for whoever gets past `sys_arch_sem_wait`. -/
theorem Holds.nobody (h : s.Holds o n) {c : Nat} (hc : sysSemWait s.box.mutex = some c) :
    o = .nobody ∧ c = 0 := by
  have hm := h.mutex
  unfold sysSemWait at hc
  split at hm
  · rename_i ho
    rw [hm] at hc
    exact ⟨ho, (Option.some.inj hc).symm⟩
  · rw [hm] at hc
    cases hc

/-- Unless the owner is about to raise the semaphore, it is up when it has to be. -/
theorem Holds.told_of_ne (h : s.Holds o n) (ho : ∀ t, o = .poster t → s.poster t ≠ .notify true)
    (hw : s.fetcher.waits = true) : n = 0 ∨ s.box.mail ≠ 0 := by
  rcases h.told hw with hn | hm | ⟨t, ht⟩
  · exact .inl hn
  · exact .inr hm
  · exact absurd ht (ho t (h.notifier ht))

theorem setPoster_poster (s : Mailbox α) (t : Nat) (p : Poster α) (u : Nat) :
    (s.setPoster t p).poster u = if u = t then p else s.poster u := by
  simp [setPoster, Function.update_apply]

/-- The owner of the mutex goes on from one statement of `sys_mbox_post` to another. -/
theorem Holds.move (h : s.Holds (.poster t) n) {p : Poster α} {box : SysMbox α} {posted : List α}
    {n' : Nat} (hin : p.inside = true) (hn : n' < sysMboxSize) (hfirst : box.first = s.box.first)
    (hlast : box.last = (s.box.first + n') % sysMboxSize)
    (hqueue : posted = s.fetched ++ Ring.contents sysMboxSize box.msgs s.box.first n')
    (hmutex : box.mutex = s.box.mutex) (hat : PosterAt box n' p)
    (htold : s.fetcher.waits = true → n' = 0 ∨ box.mail ≠ 0 ∨ p = .notify true) :
    (({ s with box := box, posted := posted } : Mailbox α).setPoster t p).Holds (.poster t) n' where
  n_lt := hn
  first_lt := hfirst ▸ h.first_lt
  last_eq := by
    show box.last = (box.first + n') % _
    rw [hfirst, hlast]
  queue := by
    show posted = s.fetched ++ Ring.contents _ box.msgs box.first n'
    rw [hfirst, hqueue]
  mutex := hmutex.trans h.mutex
  poster_inside u := by
    rw [setPoster_poster]
    split
    · rename_i heq
      simp [heq, hin]
    · exact h.poster_inside u
  fetcher_inside := h.fetcher_inside
  poster_at u hu := by
    obtain rfl := Owner.poster.inj hu
    rw [setPoster_poster, if_pos rfl]
    exact hat
  fetcher_at ho := nomatch ho
  told hw := by
    rcases htold hw with hz | hm | hp
    · exact .inl hz
    · exact .inr (.inl hm)
    · exact .inr (.inr ⟨t, by rw [setPoster_poster, if_pos rfl, hp]⟩)

/-- A poster takes the mutex. -/
theorem Holds.post_lock (h : s.Holds .nobody n) {msg : α} :
    ({ s with box := { s.box with mutex := 0 } }.setPoster t (.store msg)).Holds (.poster t) n where
  __ := h
  mutex := rfl
  poster_inside u := by
    have hu := h.poster_inside u
    rw [setPoster_poster]
    split
    · rename_i heq
      simp [heq, Poster.inside]
    · rename_i hne
      simp only [reduceCtorEq, iff_false] at hu
      simp [hu, Ne.symm hne]
  fetcher_inside := by
    have hf := h.fetcher_inside
    simpa [setPoster] using hf
  poster_at u hu := by
    obtain rfl := Owner.poster.inj hu
    rw [setPoster_poster, if_pos rfl]
    trivial
  fetcher_at ho := nomatch ho
  told hw := by
    rcases h.told_of_ne (fun _ ho => (nomatch ho)) hw with hz | hm
    · exact .inl hz
    · exact .inr (.inl hm)

/-- A poster gives the mutex back. -/
theorem Holds.post_unlock (h : s.Holds (.poster t) n) (hp : s.poster t = .unlock) :
    ({ s with box := { s.box with mutex := sysSemSignal s.box.mutex } }.setPoster t .out).Holds
      .nobody n where
  __ := h
  mutex := by
    show sysSemSignal s.box.mutex = 1
    rw [h.mutex]
    rfl
  poster_inside u := by
    rw [setPoster_poster]
    split
    · simp [Poster.inside]
    · rename_i hne
      rw [h.poster_inside u]
      simp only [Owner.poster.injEq, reduceCtorEq, iff_false]
      exact Ne.symm hne
  fetcher_inside := by
    have hf := h.fetcher_inside
    simpa [setPoster] using hf
  poster_at u hu := nomatch hu
  fetcher_at ho := nomatch ho
  told hw := by
    have hne : ∀ u, Owner.poster t = .poster u → s.poster u ≠ .notify true := by
      rintro u ⟨⟩
      rw [hp]
      exact fun heq => (nomatch heq)
    rcases h.told_of_ne hne hw with hz | hm
    · exact .inl hz
    · exact .inr (.inl hm)

/-- **A step of a poster**, if there is room for its message. -/
theorem Holds.post (h : s.Holds o n)
    (hok : ∀ msg first, s.poster t = .advance msg first → n + 1 < sysMboxSize)
    (hs : s.post t = some s') : ∃ o' n', s'.Holds o' n' := by
  unfold Mailbox.post at hs
  cases hp : s.poster t with
  | out => simp [hp] at hs
  | lock msg =>
    simp only [hp] at hs
    obtain ⟨c, hc, rfl⟩ := Option.map_eq_some_iff.1 hs
    obtain ⟨rfl, rfl⟩ := h.nobody hc
    exact ⟨_, _, h.post_lock⟩
  | unlock =>
    obtain rfl := h.owner (t := t) (by rw [hp]; rfl)
    simp only [hp, Option.some.injEq] at hs
    subst hs
    exact ⟨_, _, h.post_unlock hp⟩
  | store msg =>
    obtain rfl := h.owner (t := t) (by rw [hp]; rfl)
    have htold := h.told_of_ne (by rintro u ⟨⟩; rw [hp]; exact fun heq => (nomatch heq))
    simp only [hp, Option.some.injEq] at hs
    subst hs
    refine ⟨_, _, h.move rfl h.n_lt rfl h.last_eq ?_ rfl (Function.update_self ..)
      fun hw => (htold hw).imp_right .inl⟩
    rw [h.last_eq, Ring.contents_update h.n_lt]
    exact h.queue
  | compare msg =>
    obtain rfl := h.owner (t := t) (by rw [hp]; rfl)
    have htold := h.told_of_ne (by rintro u ⟨⟩; rw [hp]; exact fun heq => (nomatch heq))
    have hat := h.poster_at t rfl
    rw [hp] at hat
    simp only [hp, Option.some.injEq] at hs
    subst hs
    refine ⟨_, _, h.move rfl h.n_lt rfl h.last_eq h.queue rfl ⟨hat, ?_⟩
      fun hw => (htold hw).imp_right .inl⟩
    rw [Bool.eq_iff_iff, beq_iff_eq, beq_iff_eq, eq_comm]
    exact h.first_eq_last
  | advance msg first =>
    obtain rfl := h.owner (t := t) (by rw [hp]; rfl)
    have htold := h.told_of_ne (by rintro u ⟨⟩; rw [hp]; exact fun heq => (nomatch heq))
    have hat := h.poster_at t rfl
    rw [hp] at hat
    obtain ⟨hmsg, hflag⟩ := hat
    have hlast : s.box.last < sysMboxSize := by
      rw [h.last_eq]
      exact Nat.mod_lt _ (by decide)
    simp only [hp, Option.some.injEq] at hs
    subst hs
    refine ⟨_, _, h.move rfl (hok msg first hp) rfl ?_ ?_ rfl trivial fun hw => ?_⟩
    · show sysMboxNext s.box.last = _
      rw [sysMboxNext_eq hlast, h.last_eq, Nat.mod_add_mod, Nat.add_assoc]
    · show s.posted ++ [msg] = s.fetched ++ Ring.contents _ s.box.msgs s.box.first (n + 1)
      rw [Ring.contents_succ, ← h.last_eq, hmsg, h.queue, List.append_assoc]
    · -- the message is the first one: the flag says so, and the semaphore will be raised
      rcases htold hw with hz | hm
      · exact .inr (.inr (by rw [hflag, hz]; rfl))
      · exact .inr (.inl hm)
  | notify first =>
    obtain rfl := h.owner (t := t) (by rw [hp]; rfl)
    simp only [hp, Option.some.injEq] at hs
    subst hs
    refine ⟨_, _, h.move rfl h.n_lt rfl h.last_eq h.queue rfl trivial fun hw => ?_⟩
    cases first with
    | true =>
      refine .inr (.inl ?_)
      show sysSemSignal s.box.mail ≠ 0
      unfold sysSemSignal
      split <;> omega
    | false =>
      have htold := h.told_of_ne (by rintro u ⟨⟩; rw [hp]; exact fun heq => (nomatch heq)) hw
      exact htold.imp_right .inl

/-- The owner of the mutex goes on from one statement of `sys_arch_mbox_fetch` to another. -/
theorem Holds.fetchMove (h : s.Holds .fetcher n) {f : Fetcher α} {box : SysMbox α}
    {fetched : List α} {n' : Nat} (hin : f.inside = true) (hn : n' < sysMboxSize)
    (hfirst : box.first < sysMboxSize) (hlast : box.last = (box.first + n') % sysMboxSize)
    (hqueue : s.posted = fetched ++ Ring.contents sysMboxSize box.msgs box.first n')
    (hmutex : box.mutex = s.box.mutex) (hat : FetcherAt box n' f) :
    ({ s with box := box, fetcher := f, fetched := fetched } : Mailbox α).Holds .fetcher n' where
  n_lt := hn
  first_lt := hfirst
  last_eq := hlast
  queue := hqueue
  mutex := hmutex.trans h.mutex
  poster_inside := h.poster_inside
  fetcher_inside := by simp [hin]
  poster_at := fun _ ho => (nomatch ho)
  fetcher_at := fun _ => hat
  told := by
    intro hw
    rw [Fetcher.waits_of_inside hin] at hw
    cases hw

/-- The fetcher takes the mutex. -/
theorem Holds.fetch_lock (h : s.Holds .nobody n) (timeout : Bool) :
    ({ s with box := { s.box with mutex := 0 }, fetcher := .test timeout } : Mailbox α).Holds
      .fetcher n where
  __ := h
  mutex := rfl
  poster_inside u := by
    have hu := h.poster_inside u
    simpa using hu
  fetcher_inside := by simp [Fetcher.inside]
  poster_at := fun _ ho => (nomatch ho)
  fetcher_at := fun _ => trivial
  told := fun hw => (nomatch hw)

/-- The fetcher gives the mutex back, to wait for mail or to return. -/
theorem Holds.fetch_unlock (h : s.Holds .fetcher n) {f : Fetcher α} (hf : f.inside = false)
    (hw : f.waits = true → n = 0) :
    ({ s with
      box := { s.box with mutex := sysSemSignal s.box.mutex }, fetcher := f } : Mailbox α).Holds
      .nobody n where
  __ := h
  mutex := by
    show sysSemSignal s.box.mutex = 1
    rw [h.mutex]
    rfl
  poster_inside u := by
    have hu := h.poster_inside u
    simpa using hu
  fetcher_inside := by simp [hf]
  poster_at := fun _ ho => (nomatch ho)
  fetcher_at := fun ho => (nomatch ho)
  told := fun hw' => .inl (hw hw')

/-- The fetcher moves on outside the mutex, where it does not wait for mail. -/
theorem Holds.fetch_outside (h : s.Holds o n) (hout : s.fetcher.inside = false) {f : Fetcher α}
    (hf : f.inside = false) (hw : f.waits = false) (mail : Nat) :
    ({ s with box := { s.box with mail := mail }, fetcher := f } : Mailbox α).Holds o n where
  __ := h
  fetcher_inside := by
    have hfi := h.fetcher_inside
    rw [hout] at hfi
    rw [hf]
    exact hfi
  poster_at u hu := by
    have hat := h.poster_at u hu
    unfold PosterAt at *
    exact hat
  fetcher_at ho := by
    have hfi := h.fetcher_inside.2 ho
    rw [hout] at hfi
    cases hfi
  told hw' := by
    rw [hw] at hw'
    cases hw'

/-- **A step of the fetcher.** -/
theorem Holds.fetch (h : s.Holds o n) (hs : s.fetch = some s') : ∃ o' n', s'.Holds o' n' := by
  unfold Mailbox.fetch at hs
  cases hf : s.fetcher with
  | out => simp [hf] at hs
  | lock timeout =>
    simp only [hf] at hs
    obtain ⟨c, hc, rfl⟩ := Option.map_eq_some_iff.1 hs
    obtain ⟨rfl, rfl⟩ := h.nobody hc
    exact ⟨_, _, h.fetch_lock timeout⟩
  | test timeout =>
    obtain rfl := h.fetcher_inside.1 (by rw [hf]; rfl)
    have hiff := h.first_eq_last
    simp only [hf] at hs
    split at hs
    · rename_i heq
      cases hs
      exact ⟨_, _, h.fetchMove rfl h.n_lt h.first_lt h.last_eq h.queue rfl (hiff.1 heq)⟩
    · rename_i hne
      cases hs
      exact ⟨_, _, h.fetchMove rfl h.n_lt h.first_lt h.last_eq h.queue rfl
        (Nat.pos_of_ne_zero fun hz => hne (hiff.2 hz))⟩
  | release timeout =>
    obtain rfl := h.fetcher_inside.1 (by rw [hf]; rfl)
    have hat := h.fetcher_at rfl
    rw [hf] at hat
    simp only [hf, Option.some.injEq] at hs
    subst hs
    exact ⟨_, _, h.fetch_unlock rfl fun _ => hat⟩
  | wait timeout =>
    simp only [hf] at hs
    obtain ⟨c, -, rfl⟩ := Option.map_eq_some_iff.1 hs
    exact ⟨_, _, h.fetch_outside (by rw [hf]; rfl) rfl rfl c⟩
  | load =>
    obtain rfl := h.fetcher_inside.1 (by rw [hf]; rfl)
    have hat := h.fetcher_at rfl
    rw [hf] at hat
    simp only [hf, Option.some.injEq] at hs
    subst hs
    exact ⟨_, _, h.fetchMove rfl h.n_lt h.first_lt h.last_eq h.queue rfl ⟨hat, rfl⟩⟩
  | advance msg =>
    obtain rfl := h.fetcher_inside.1 (by rw [hf]; rfl)
    have hat := h.fetcher_at rfl
    rw [hf] at hat
    obtain ⟨hpos, rfl⟩ := hat
    simp only [hf, Option.some.injEq] at hs
    subst hs
    obtain ⟨m, rfl⟩ := Nat.exists_eq_succ_of_ne_zero (Nat.pos_iff_ne_zero.1 hpos)
    have hnext := sysMboxNext_eq h.first_lt
    refine ⟨_, m, h.fetchMove rfl (Nat.lt_of_succ_lt h.n_lt) ?_ ?_ ?_ rfl trivial⟩
    · show sysMboxNext s.box.first < _
      rw [hnext]
      exact Nat.mod_lt _ (by decide)
    · show s.box.last = (sysMboxNext s.box.first + m) % _
      rw [hnext, Nat.mod_add_mod, h.last_eq, Nat.add_assoc, Nat.add_comm 1 m]
    · show s.posted = s.fetched ++ [s.box.msgs s.box.first]
        ++ Ring.contents _ s.box.msgs (sysMboxNext s.box.first) m
      rw [hnext, Ring.contents_mod, List.append_assoc, h.queue, Nat.succ_eq_add_one, Ring.contents_cons,
        Nat.mod_eq_of_lt h.first_lt]
      rfl
  | unlock =>
    obtain rfl := h.fetcher_inside.1 (by rw [hf]; rfl)
    simp only [hf, Option.some.injEq] at hs
    subst hs
    exact ⟨_, _, h.fetch_unlock rfl fun hw => (nomatch hw)⟩

/-- A poster enters `sys_mbox_post`. -/
theorem Holds.call (h : s.Holds o n) (hp : s.poster t = .out) (msg : α) :
    (s.setPoster t (.lock msg)).Holds o n where
  __ := h
  poster_inside u := by
    rw [setPoster_poster]
    split
    · rename_i heq
      subst heq
      have ht := h.poster_inside u
      rw [hp] at ht
      exact ht
    · exact h.poster_inside u
  poster_at u hu := by
    rw [setPoster_poster]
    split
    · trivial
    · exact h.poster_at u hu
  told hw := by
    rcases h.told hw with hz | hm | ⟨u, hu⟩
    · exact .inl hz
    · exact .inr (.inl hm)
    · refine .inr (.inr ⟨u, ?_⟩)
      rw [setPoster_poster]
      split
      · rename_i heq
        rw [heq, hp] at hu
        cases hu
      · exact hu

end Steps

/-- Fewer than 99 messages are outstanding when another one goes in. -/
def HasRoom (s : Mailbox α) : MailboxStep α → Prop
  | .post t => (s.poster t).advances = true → s.posted.length + 1 < s.fetched.length + sysMboxSize
  | _ => True

instance (s : Mailbox α) (a : MailboxStep α) : Decidable (s.HasRoom a) :=
  match a with
  | .post t => inferInstanceAs (Decidable ((s.poster t).advances = true → _))
  | .call _ _ | .callFetch _ | .fetch | .expire => isTrue trivial

/-- **Every step keeps the invariant.** -/
theorem holds_next {s s' : Mailbox α} {a : MailboxStep α} {o : Owner} {n : Nat} (h : s.Holds o n)
    (hroom : s.HasRoom a) (hs : s.Step a s') : ∃ o' n', s'.Holds o' n' := by
  unfold Step next at hs
  cases a with
  | call t msg =>
    simp only at hs
    split at hs
    · rename_i hp
      cases hs
      exact ⟨o, n, h.call hp msg⟩
    · cases hs
  | post t =>
    refine h.post (fun msg first hp => ?_) hs
    have hlen := hroom (by rw [hp]; rfl)
    rw [h.queue, List.length_append, Ring.length_contents] at hlen
    omega
  | callFetch timeout =>
    simp only at hs
    split at hs
    · rename_i hf
      cases hs
      exact ⟨o, n, h.fetch_outside (by rw [hf]; rfl) rfl rfl s.box.mail⟩
    · cases hs
  | fetch => exact h.fetch hs
  | expire =>
    simp only at hs
    split at hs
    · rename_i hf
      split at hs
      · cases hs
        exact ⟨o, n, h.fetch_outside (by rw [hf]; rfl) rfl rfl s.box.mail⟩
      · cases hs
    · cases hs

/-- The messages in the box, from `first` to `last`. -/
def queued (s : Mailbox α) : List α :=
  Ring.contents sysMboxSize s.box.msgs s.box.first
    ((s.box.last + sysMboxSize - s.box.first) % sysMboxSize)

theorem Holds.queued_eq {s : Mailbox α} {o : Owner} {n : Nat} (h : s.Holds o n) :
    s.queued = Ring.contents sysMboxSize s.box.msgs s.box.first n := by
  have hn := h.n_lt
  have hf := h.first_lt
  unfold queued
  rw [h.last_eq]
  congr 1
  unfold sysMboxSize at *
  omega

/-- No thread that is inside a call can go on. -/
def Stuck (s : Mailbox α) : Prop := (∀ t, s.post t = none) ∧ s.fetch = none

/-- Only threads that wait for each other are stuck, and here nobody waits for anybody but the
fetcher for mail. -/
theorem Holds.stuck {s : Mailbox α} {o : Owner} {n : Nat} (h : s.Holds o n) (hs : s.Stuck) :
    (∀ t, s.poster t = .out) ∧ (s.fetcher = .out ∨ s.fetcher.waits = true ∧ n = 0) := by
  obtain ⟨hposts, hfetch⟩ := hs
  have hposter : ∀ t, (s.poster t).inside = false := by
    intro t
    have ht := hposts t
    unfold Mailbox.post at ht
    cases hp : s.poster t <;> simp [hp] at ht <;> rfl
  have hfetcher : s.fetcher.inside = false := by
    unfold Mailbox.fetch at hfetch
    cases hf : s.fetcher with
    | test timeout =>
      simp only [hf] at hfetch
      split at hfetch <;> cases hfetch
    | out => rfl
    | lock timeout => rfl
    | wait timeout => rfl
    | release timeout => simp [hf] at hfetch
    | load => simp [hf] at hfetch
    | advance msg => simp [hf] at hfetch
    | unlock => simp [hf] at hfetch
  -- nobody holds the mutex, so nobody waits for it
  have hmutex : s.box.mutex = 1 := by
    have hm := h.mutex
    cases o with
    | nobody => exact hm
    | poster t =>
      have ht := (h.poster_inside t).2 rfl
      rw [hposter t] at ht
      cases ht
    | fetcher =>
      have ht := h.fetcher_inside.2 rfl
      rw [hfetcher] at ht
      cases ht
  constructor
  · intro t
    have ht := hposts t
    have hin := hposter t
    unfold Mailbox.post at ht
    cases hp : s.poster t with
    | out => rfl
    | lock msg => simp [hp, hmutex, sysSemWait] at ht
    | _ => rw [hp] at hin; cases hin
  · unfold Mailbox.fetch at hfetch
    cases hf : s.fetcher with
    | out => exact .inl rfl
    | lock timeout => simp [hf, hmutex, sysSemWait] at hfetch
    | wait timeout =>
      have hmail : s.box.mail = 0 := by
        by_contra hne
        simp [hf, sysSemWait, hne] at hfetch
      rcases h.told (by rw [hf]; rfl) with hz | hm | ⟨t, ht⟩
      · exact .inr ⟨rfl, hz⟩
      · exact absurd hmail hm
      · have hin := hposter t
        rw [ht] at hin
        cases hin
    | _ => rw [hf] at hfetcher; cases hfetcher

end Mailbox

open Mailbox

/-- **Mailboxes deliver.**  Any number of threads post and one thread fetches, in any interleaving and
with any timeouts, while at most 99 messages are outstanding.  Then the messages fetched and those in
the box are the messages posted, in order; and no wake-up is lost: if no thread that is inside a call
can go on, nobody is posting and the fetcher is away or waits at an empty box. -/
theorem mailbox_delivers {α : Type} (msgs : Nat → α) {as : List (MailboxStep α)} {s : Mailbox α}
    (h : Exec (Restrict HasRoom Step) (Mailbox.new msgs) as s) :
    s.posted = s.fetched ++ s.queued ∧
    (s.Stuck → (∀ t, s.poster t = .out) ∧
      (s.fetcher = .out ∨ s.fetcher.waits = true ∧ s.queued = [])) := by
  obtain ⟨o, n, hs⟩ : ∃ o n, s.Holds o n := by
    refine h.invariant (I := fun s => ∃ o n, s.Holds o n) ⟨_, _, new_holds msgs⟩ ?_
    rintro t a u ⟨o, n, ht⟩ ⟨hroom, hstep⟩
    exact holds_next ht hroom hstep
  rw [hs.queued_eq]
  refine ⟨hs.queue, fun hstuck => ?_⟩
  obtain ⟨hposters, hfetcher⟩ := hs.stuck hstuck
  refine ⟨hposters, hfetcher.imp_right fun ⟨hw, hz⟩ => ⟨hw, ?_⟩⟩
  rw [hz]
  rfl

/-- Two threads post while the fetcher waits for mail: thread 1 is the first to get the mutex, thread 0
gets it in turn with the fetcher. -/
theorem mailbox_delivers_two :
    let as : List (MailboxStep Nat) := [.callFetch true, .fetch, .call 0 7, .fetch, .fetch, .call 1 8,
      .post 1, .post 1, .post 1, .post 1, .post 1, .fetch, .post 1, .post 0, .post 0, .post 0, .post 0,
      .post 0, .post 0, .fetch, .fetch, .fetch, .fetch, .fetch]
    ∃ s, Exec (Restrict HasRoom Step) (Mailbox.new fun _ => 0) as s ∧ s.fetched = [8] ∧
      s.queued = [7] ∧ s.posted = s.fetched ++ s.queued ∧
      (s.Stuck → (∀ t, s.poster t = .out) ∧
        (s.fetcher = .out ∨ s.fetcher.waits = true ∧ s.queued = [])) := by
  intro as
  have hrun : (as.foldlM (fun (s : Mailbox Nat) a => if s.HasRoom a then s.next a else none)
      (Mailbox.new fun _ => 0)).map (fun s => (s.fetched, s.queued)) = some ([8], [7]) := by
    decide +kernel
  obtain ⟨s, hs, hboth⟩ := Option.map_eq_some_iff.1 hrun
  have hexec := Exec.of_foldlM HasRoom next hs
  exact ⟨s, hexec, congrArg Prod.fst hboth, congrArg Prod.snd hboth, mailbox_delivers _ hexec⟩

end BirRouter
