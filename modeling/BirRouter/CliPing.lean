import BirRouter.Lib.Linked
import BirRouter.Lib.Loop
import BirRouter.Packets
import Mathlib.Data.List.Sort
import Mathlib.Data.Prod.Lex
import Mathlib.Order.Interval.Set.Defs

/-!
# Outstanding pings (`cli_ping.c`)

The pings that wait for a reply are a doubly linked list in the heap, ordered by the time they expire.
`cli_ping_request` inserts into it, `cli_ping_handle_reply` unlinks what is answered, and a thread
takes off its head what has expired.

The functions work on the nodes as the code does and have no result where it would dereference a
pointer to nothing.  Each makes at most `n` rounds of its loop.  `PingState.Holds` relates the nodes to
a list of pings; it says nothing about the `prev` of the first one, which is stale after a ping in
front of it expired.

* `cliPingRequest_holds` — a request inserts its ping behind all that do not expire later;
* `cliPingHandleReply_holds` — a reply removes the first ping with its address and number;
* `scrubberPass_holds` — a pass takes expired pings off the head until it finds one that is not.
-/

set_option autoImplicit false

namespace BirRouter

open Linked

/-! ## Times (`sr_common.c`) -/

structure Timeval where
  tv_sec : Int
  tv_usec : Int
  deriving DecidableEq, Repr

/-- `time_add_usec`, where the microseconds are added up in an `unsigned`. -/
def timeAddUsec (start : Timeval) (usec : Nat) : Timeval :=
  let tot_usec := (usec + start.tv_usec) % 0x100000000
  let carry_sec := tot_usec / 1000000
  { tv_sec := start.tv_sec + carry_sec
    tv_usec := tot_usec - 1000000 * carry_sec }

def isLater (t1 t2 : Timeval) : Bool :=
  t1.tv_sec > t2.tv_sec || (t1.tv_sec == t2.tv_sec && t1.tv_usec > t2.tv_usec)

/-- Seconds before microseconds. -/
def Timeval.key (t : Timeval) : ℤ ×ₗ ℤ := toLex (t.tv_sec, t.tv_usec)

theorem isLater_iff (t1 t2 : Timeval) : isLater t1 t2 = true ↔ t2.key < t1.key := by
  simp only [isLater, Timeval.key, Prod.Lex.toLex_lt_toLex, Bool.or_eq_true, Bool.and_eq_true,
    decide_eq_true_eq, beq_iff_eq]
  omega

/-! ## The list -/

structure Ping where
  fd : Int
  dst_ip : AddrIp
  seq : BitVec 16
  send_time : Timeval
  expire_time : Timeval
  deriving DecidableEq, Repr

/-- `ping_t`, with its pointers apart from what it says of the ping. -/
structure PingNode where
  ping : Ping
  prev : Option Nat
  next : Option Nat

/-- The variables of `cli_ping.c`, the nodes, and what the clients were told: of which ping, and
whether it was answered. -/
structure PingState where
  mem : Heap PingNode
  ping_list : Option Nat
  ping_count : BitVec 16
  feedback : List (Ping × Bool)

/-- `cli_ping_init` -/
def cliPingInit (mem : Heap PingNode) (ping_count : BitVec 16) : PingState where
  mem := mem
  ping_list := none
  ping_count := ping_count
  feedback := []

def pingMaxWaitForReplyUsec : Nat := 1000000

def pingHandlerMinResponseTimeUsec : Int := 100000

def PingState.cliPingFeedback (s : PingState) (p : Ping) (worked : Bool) : PingState :=
  { s with feedback := s.feedback ++ [(p, worked)] }

/-- `if (p == ping_list) ping_list = x; else p->prev->next = x;` -/
def redirect (s : PingState) (p : Nat) (x : Option Nat) : Option PingState :=
  if s.ping_list = some p then some { s with ping_list := x }
  else do
    let node ← s.mem p
    let prev ← node.prev
    let mem ← modify s.mem prev fun a => { a with next := x }
    some { s with mem := mem }

/-! ## Requests -/

def insertBefore (s : PingState) (p_new p : Nat) : Option PingState := do
  let s ← redirect s p (some p_new)
  let node ← s.mem p
  let mem ← modify s.mem p_new fun a => { a with prev := node.prev, next := some p }
  let mem ← modify mem p fun a => { a with prev := some p_new }
  some { s with mem := mem }

def insertBehind (s : PingState) (p_new p : Nat) : Option PingState := do
  let mem ← modify s.mem p fun a => { a with next := some p_new }
  let mem ← modify mem p_new fun a => { a with prev := some p, next := none }
  some { s with mem := mem }

/-- A round of the loop that looks for the place of the new ping. -/
def insertRound (p_new : Nat) (c : PingState × Nat) : Option (PingState × Nat ⊕ PingState) := do
  let (s, p) := c
  let node ← s.mem p
  let new ← s.mem p_new
  if isLater node.ping.expire_time new.ping.expire_time then
    (insertBefore s p_new p).map .inr
  else
    match node.next with
    | some next => some (.inl (s, next))
    | none => (insertBehind s p_new p).map .inr

/-- `cli_ping_request`.  `sent` is what `icmp_allocate_and_send` returns, `p_new` and `junk` what
`malloc` does, and `send_time` and `now` are the two readings of the clock. -/
def cliPingRequest (n : Nat) (s : PingState) (sent : Bool) (p_new : Nat) (junk : PingNode) (fd : Int)
    (ip : AddrIp) (send_time now : Timeval) : Option PingState :=
  if sent then do
    let ping : Ping := {
      fd := fd
      dst_ip := ip
      seq := htons s.ping_count
      send_time := send_time
      expire_time := timeAddUsec now pingMaxWaitForReplyUsec }
    let s := { s with
      mem := store s.mem p_new { junk with ping := ping }
      ping_count := s.ping_count + 1 }
    match s.ping_list with
    | some p => Loop.run (insertRound p_new) n (s, p)
    | none =>
      let mem ← modify s.mem p_new fun a => { a with prev := none, next := none }
      some { s with ping_list := some p_new, mem := mem }
  else some s

/-! ## Replies -/

/-- The node stays allocated, as it is needed for the feedback. -/
def unlink (s : PingState) (p : Nat) : Option PingState := do
  let node ← s.mem p
  let s ← redirect s p node.next
  let node ← s.mem p
  match node.next with
  | none => some s
  | some next =>
    let mem ← modify s.mem next fun a => { a with prev := node.prev }
    some { s with mem := mem }

/-- A round of the loop that looks for the ping; `p` is NULL at its end if there is none. -/
def replyRound (ip : AddrIp) (seq : BitVec 16) (c : PingState × Option Nat) :
    Option (PingState × Option Nat ⊕ PingState × Option Nat) :=
  match c with
  | (s, none) => some (.inr (s, none))
  | (s, some p) => do
    let node ← s.mem p
    if node.ping.dst_ip = ip ∧ node.ping.seq = seq then
      let s ← unlink s p
      let node ← s.mem p
      let s := s.cliPingFeedback node.ping true
      some (.inr ({ s with mem := free s.mem p }, some p))
    else some (.inl (s, node.next))

/-- `cli_ping_handle_reply`: what it returns, and the state. -/
def cliPingHandleReply (n : Nat) (shutdown : Bool) (s : PingState) (ip : AddrIp) (seq : BitVec 16) :
    Option (Int × PingState) :=
  if shutdown then some (0, s)
  else do
    let (s, p) ← Loop.run (replyRound ip seq) n (s, s.ping_list)
    let worked := if s.ping_list = none then 0 else if p = none then 0 else 1
    some (worked, s)

/-! ## The scrubber -/

/-- A round of the loop that removes expired pings. -/
def expireRound (now : Timeval) (s : PingState) : Option (PingState ⊕ PingState) := do
  let p ← s.ping_list
  let node ← s.mem p
  if isLater now node.ping.expire_time then
    let s := s.cliPingFeedback node.ping false
    let s := { s with ping_list := node.next, mem := free s.mem p }
    if s.ping_list = none then some (.inr s) else some (.inl s)
  else some (.inr s)

/-- The time for which the scrubber calls `select`. -/
def scrubberTimeout (now expire_time : Timeval) : Timeval :=
  let timeout : Timeval := ⟨now.tv_sec - expire_time.tv_sec, now.tv_usec - expire_time.tv_usec⟩
  if timeout.tv_sec > 0 ∨ timeout.tv_usec > pingHandlerMinResponseTimeUsec then
    ⟨0, pingHandlerMinResponseTimeUsec⟩
  else timeout

/-- A pass of `cli_ping_scrubber_main` at time `now`, and for how long it sleeps afterwards.  With no
ping outstanding it does not sleep but waits to be woken. -/
def scrubberPass (n : Nat) (s : PingState) (now : Timeval) : Option (PingState × Option Timeval) :=
  if s.ping_list = none then some (s, none)
  else do
    let s ← Loop.run (expireRound now) n s
    match s.ping_list with
    | none => some (s, none)
    | some p =>
      let node ← s.mem p
      some (s, some (scrubberTimeout now node.ping.expire_time))

/-! ## What the nodes hold -/

/-- A node with its ping, between its neighbours.  The first node may have any `prev`. -/
def PingLink (before : Option Nat) (ping : Ping) (after : Option Nat) (node : PingNode) : Prop :=
  node.ping = ping ∧ node.next = after ∧ ∀ q, before = some q → node.prev = some q

/-- The outstanding pings, with the addresses of their nodes. -/
structure PingState.Holds (s : PingState) (l : List (Nat × Ping)) : Prop where
  nodup : (addrs l).Nodup
  head : s.ping_list = first l none
  linked : Segment PingLink s.mem none l none

section

variable {s : PingState} {l l₁ l₂ : List (Nat × Ping)} {p p_new : Nat} {b : Ping}

theorem PingState.Holds.fresh (h : s.Holds l) (hnew : s.mem p_new = none) : p_new ∉ addrs l :=
  fun hmem => h.linked.allocated _ hmem hnew

/-- Redirecting the pointer to a node: the nodes in front of it then end in `x`, and no other node is
changed. -/
theorem redirect_spec (h : s.Holds (l₁ ++ (p, b) :: l₂)) (x : Option Nat) :
    ∃ mem, redirect s p x = some { s with mem := mem, ping_list := first l₁ x } ∧
      Segment PingLink mem none l₁ x ∧ ∀ q, q ∉ addrs l₁ → mem q = s.mem q := by
  obtain ⟨hp1, -, hnd⟩ := nodup_addrs_middle.1 h.nodup
  obtain ⟨hs1, ⟨node, hnode, -, -, hprev⟩, -⟩ := segment_append.1 h.linked
  rcases List.eq_nil_or_concat l₁ with rfl | ⟨l₀, ⟨q, bq⟩, rfl⟩
  · have hhead : s.ping_list = some p := h.head
    refine ⟨s.mem, ?_, trivial, fun _ _ => rfl⟩
    rw [redirect, if_pos hhead]
    rfl
  · rw [List.concat_eq_append] at *
    have hhead : s.ping_list ≠ some p := by
      rw [h.head, List.append_assoc, first_append]
      simp only [addrs_append, addrs_cons, List.mem_append, List.mem_cons, not_or] at hp1
      cases l₀ with
      | nil => simpa [first, eq_comm] using hp1.2.1
      | cons y l₀ =>
        simp only [addrs_cons, List.mem_cons, not_or] at hp1
        simpa [first, eq_comm] using hp1.1.1
    obtain ⟨hl0, nq, hnq, hping, -, hback⟩ := (segment_append.1 hs1).imp_right segment_singleton.1
    have hq0 : q ∉ addrs l₀ := by
      rw [List.append_assoc] at hnd
      exact (nodup_addrs_middle.1 hnd).1
    refine ⟨store s.mem q { nq with next := x }, ?_, ?_, ?_⟩
    · rw [last_concat] at hprev
      rw [redirect, if_neg hhead]
      simp only [hnode, hprev q rfl, Option.bind_eq_bind, Option.bind_some, modify_of_eq hnq]
      congr 2
      rw [h.head, List.append_assoc, first_append, first_append]
      cases l₀ <;> rfl
    · refine segment_append.2 ⟨?_, segment_singleton.2 ⟨_, store_self, hping, rfl, hback⟩⟩
      exact hl0.frame fun r hr => store_of_ne fun e => hq0 (e ▸ hr)
    · intro r hr
      apply store_of_ne
      rintro rfl
      simp at hr

theorem insertBefore_holds (h : s.Holds (l₁ ++ (p, b) :: l₂)) {new : PingNode}
    (hnew : s.mem p_new = some new) (hfresh : p_new ∉ addrs (l₁ ++ (p, b) :: l₂)) :
    ∃ s', insertBefore s p_new p = some s' ∧
      s'.Holds (l₁ ++ (p_new, new.ping) :: (p, b) :: l₂) ∧
      s'.ping_count = s.ping_count ∧ s'.feedback = s.feedback := by
  obtain ⟨mem, hredirect, hl1, hframe⟩ := redirect_spec h (some p_new)
  obtain ⟨hp1, hp2, hnd⟩ := nodup_addrs_middle.1 h.nodup
  obtain ⟨-, ⟨node, hnode, hping, hnext, hprev⟩, hl2⟩ := segment_append.1 h.linked
  simp only [addrs_append, addrs_cons, List.mem_append, List.mem_cons, not_or] at hfresh
  obtain ⟨hf1, hfp, hf2⟩ := hfresh
  have hmemp : mem p = some node := (hframe p hp1).trans hnode
  have hmemn : mem p_new = some new := (hframe p_new hf1).trans hnew
  let mem₁ := store mem p_new { new with prev := node.prev, next := some p }
  let mem₂ := store mem₁ p { node with prev := some p_new }
  have hmem₁ : mem₁ p = some node := (store_of_ne (Ne.symm hfp)).trans hmemp
  have hmem₂ : ∀ q, q ≠ p_new → q ≠ p → mem₂ q = mem q := fun q hqn hqp =>
    (store_of_ne hqp).trans (store_of_ne hqn)
  refine ⟨{ s with mem := mem₂, ping_list := first l₁ (some p_new) }, ?_, ⟨?_, ?_, ?_⟩, rfl, rfl⟩
  · rw [insertBefore, hredirect]
    simp only [Option.bind_eq_bind, Option.bind_some, hmemp, modify_of_eq hmemn]
    rw [modify_of_eq hmem₁]
    rfl
  · exact nodup_addrs_middle.2 ⟨hf1, by simp [hfp, hf2], h.nodup⟩
  · rw [first_append]
    rfl
  · -- the new node gets the old `prev` of `p`, which may be anything if `p` was the first one
    refine segment_append.2 ⟨hl1.frame fun q hq => ?_,
      ⟨{ new with prev := node.prev, next := some p }, ?_, rfl, rfl, hprev⟩,
      ⟨_, store_self, hping, hnext, fun q hq => hq⟩, hl2.frame fun q hq => ?_⟩
    · exact hmem₂ q (fun e => hf1 (e ▸ hq)) fun e => hp1 (e ▸ hq)
    · exact (store_of_ne hfp).trans store_self
    · exact (hmem₂ q (fun e => hf2 (e ▸ hq)) fun e => hp2 (e ▸ hq)).trans
        (hframe q fun hq1 => ne_of_nodup_addrs hnd hq1 hq rfl)

theorem insertBehind_holds (h : s.Holds (l₁ ++ [(p, b)])) {new : PingNode}
    (hnew : s.mem p_new = some new) (hfresh : p_new ∉ addrs (l₁ ++ [(p, b)])) :
    ∃ s', insertBehind s p_new p = some s' ∧ s'.Holds (l₁ ++ [(p, b), (p_new, new.ping)]) ∧
      s'.ping_count = s.ping_count ∧ s'.feedback = s.feedback := by
  obtain ⟨hp1, -, hnd⟩ := nodup_addrs_middle.1 h.nodup
  obtain ⟨hl1, ⟨node, hnode, hping, -, hprev⟩, -⟩ := segment_append.1 h.linked
  simp only [addrs_append, addrs_cons, addrs_nil, List.mem_append, List.mem_cons,
    List.not_mem_nil, or_false, not_or] at hfresh
  obtain ⟨hf1, hfp⟩ := hfresh
  let mem₁ := store s.mem p { node with next := some p_new }
  let mem₂ := store mem₁ p_new { new with prev := some p, next := none }
  have hmem₁ : mem₁ p_new = some new := (store_of_ne hfp).trans hnew
  have hmem₂ : ∀ q, q ≠ p_new → q ≠ p → mem₂ q = s.mem q := fun q hqn hqp =>
    (store_of_ne hqn).trans (store_of_ne hqp)
  refine ⟨{ s with mem := mem₂ }, ?_, ⟨?_, ?_, ?_⟩, rfl, rfl⟩
  · rw [insertBehind, modify_of_eq hnode]
    simp only [Option.bind_eq_bind, Option.bind_some]
    rw [modify_of_eq hmem₁]
    rfl
  · exact nodup_addrs_middle.2 ⟨hp1, by simpa [eq_comm] using hfp,
      nodup_addrs_middle.2 ⟨hf1, by simp, hnd⟩⟩
  · show s.ping_list = _
    rw [h.head, first_append, first_append]
    rfl
  · refine segment_append.2 ⟨hl1.frame fun q hq => ?_,
      ⟨{ node with next := some p_new }, ?_, hping, rfl, hprev⟩,
      ⟨_, store_self, rfl, rfl, fun q hq => hq⟩, trivial⟩
    · exact hmem₂ q (fun e => hf1 (e ▸ hq)) fun e => hp1 (e ▸ hq)
    · exact (store_of_ne (Ne.symm hfp)).trans store_self

/-- A ping is put in front of the first one that expires later. -/
def insertPing (x : Nat × Ping) (l : List (Nat × Ping)) : List (Nat × Ping) :=
  l.orderedInsert (fun a b => isLater b.2.expire_time a.2.expire_time = true) x

theorem insertRound_eq {new : PingNode} (hnew : s.mem p_new = some new)
    (h : s.Holds (l₁ ++ (p, b) :: l₂)) :
    insertRound p_new (s, p) =
      if isLater b.expire_time new.ping.expire_time then (insertBefore s p_new p).map .inr
      else
        match first l₂ none with
        | some next => some (.inl (s, next))
        | none => (insertBehind s p_new p).map .inr := by
  obtain ⟨-, ⟨node, hnode, hping, hnext, -⟩, -⟩ := segment_append.1 h.linked
  simp only [insertRound, hnode, hnew, hping, hnext, Option.bind_eq_bind, Option.bind_some]

/-- The loop, with the pings `l₁` already passed. -/
theorem insertRound_run {new : PingNode} {n : Nat} (hnew : s.mem p_new = some new)
    (h : s.Holds (l₁ ++ (p, b) :: l₂)) (hfresh : p_new ∉ addrs (l₁ ++ (p, b) :: l₂))
    (hn : l₂.length < n) :
    ∃ s', Loop.run (insertRound p_new) n (s, p) = some s' ∧
      s'.Holds (l₁ ++ insertPing (p_new, new.ping) ((p, b) :: l₂)) ∧
      s'.ping_count = s.ping_count ∧ s'.feedback = s.feedback := by
  induction n generalizing l₁ l₂ p b with
  | zero => omega
  | succ n ih =>
    have hround := insertRound_eq hnew h
    rw [insertPing, List.orderedInsert_cons]
    by_cases hlater : isLater b.expire_time new.ping.expire_time = true
    · obtain ⟨s', hs', hspec⟩ := insertBefore_holds h hnew hfresh
      rw [if_pos hlater, hs'] at hround
      rw [if_pos hlater]
      exact ⟨s', Loop.run_done hround, hspec⟩
    rw [if_neg hlater] at hround ⊢
    cases l₂ with
    | nil =>
      obtain ⟨s', hs', hspec⟩ := insertBehind_holds h hnew hfresh
      simp only [first, hs'] at hround
      exact ⟨s', Loop.run_done hround, hspec⟩
    | cons y l₂ =>
      rw [← List.singleton_append, ← List.append_assoc] at h hfresh ⊢
      rw [Loop.run_next hround]
      exact ih h hfresh (Nat.lt_of_succ_lt_succ hn)

/-- The ping of a request. -/
def PingState.requested (s : PingState) (fd : Int) (ip : AddrIp) (send_time now : Timeval) : Ping where
  fd := fd
  dst_ip := ip
  seq := htons s.ping_count
  send_time := send_time
  expire_time := timeAddUsec now pingMaxWaitForReplyUsec

theorem cliPingRequest_holds {n : Nat} (h : s.Holds l) (hnew : s.mem p_new = none)
    (hn : l.length < n) (junk : PingNode) (fd : Int) (ip : AddrIp) (send_time now : Timeval) :
    ∃ s', cliPingRequest n s true p_new junk fd ip send_time now = some s' ∧
      s'.Holds (insertPing (p_new, s.requested fd ip send_time now) l) ∧
      s'.ping_count = s.ping_count + 1 ∧ s'.feedback = s.feedback := by
  have hfresh := h.fresh hnew
  let node : PingNode := { junk with ping := s.requested fd ip send_time now }
  let s₁ : PingState :=
    { s with mem := store s.mem p_new node, ping_count := s.ping_count + 1 }
  have hs₁ : s₁.Holds l :=
    ⟨h.nodup, h.head, h.linked.frame fun q hq => store_of_ne fun e => hfresh (e ▸ hq)⟩
  have hcall : cliPingRequest n s true p_new junk fd ip send_time now =
      match s.ping_list with
      | some p => Loop.run (insertRound p_new) n (s₁, p)
      | none => (modify s₁.mem p_new fun a => { a with prev := none, next := none }).bind
          fun mem => some { s₁ with ping_list := some p_new, mem := mem } := rfl
  cases l with
  | nil =>
    have hlist : s.ping_list = none := h.head
    let mem := store s₁.mem p_new { node with prev := none, next := none }
    refine ⟨{ s₁ with ping_list := some p_new, mem := mem }, ?_, ⟨by simp [insertPing], rfl, ?_⟩,
      rfl, rfl⟩
    · rw [hcall, hlist]
      simp only [modify_of_eq (show s₁.mem p_new = some node from store_self), Option.bind_some]
      rfl
    · exact segment_singleton.2 ⟨_, store_self, rfl, rfl, fun _ hq => nomatch hq⟩
  | cons x l =>
    have hlist : s.ping_list = some x.1 := h.head
    have hnode : s₁.mem p_new = some node := store_self
    have hall : s₁.Holds ([] ++ x :: l) := hs₁
    obtain ⟨s', hs', hspec⟩ := insertRound_run hnode hall hfresh (Nat.lt_of_succ_lt hn)
    refine ⟨s', ?_, hspec⟩
    rw [hcall, hlist]
    exact hs'

/-! ## Unlinking -/

/-- Only the first node of a segment points to what is in front of it. -/
theorem Segment.setPrev {mem : Heap PingNode} {before : Option Nat} {q : Nat} {c : Ping}
    {a : PingNode} (h : Segment PingLink mem (some p) ((q, c) :: l) none) (ha : mem q = some a)
    (hq : q ∉ addrs l) (v : Option Nat) (hv : ∀ r, before = some r → v = some r) :
    Segment PingLink (store mem q { a with prev := v }) before ((q, c) :: l) none := by
  obtain ⟨⟨a', ha', hping, hnext, -⟩, hl⟩ := h
  cases ha.symm.trans ha'
  refine ⟨⟨_, store_self, hping, hnext, hv⟩, hl.frame fun r hr => store_of_ne fun e => hq (e ▸ hr)⟩

theorem unlink_spec (h : s.Holds (l₁ ++ (p, b) :: l₂)) :
    ∃ s' node, unlink s p = some s' ∧ s'.mem p = some node ∧ node.ping = b ∧
      s'.Holds (l₁ ++ l₂) ∧ s'.ping_count = s.ping_count ∧ s'.feedback = s.feedback := by
  obtain ⟨hp1, hp2, hnd⟩ := nodup_addrs_middle.1 h.nodup
  obtain ⟨-, ⟨node, hnode, hping, hnext, hprev⟩, hl2⟩ := segment_append.1 h.linked
  obtain ⟨mem, hredirect, hl1, hframe⟩ := redirect_spec h node.next
  have hmemp : mem p = some node := (hframe p hp1).trans hnode
  have hmem2 : Segment PingLink mem (some p) l₂ none :=
    hl2.frame fun q hq => hframe q fun hq1 => ne_of_nodup_addrs hnd hq1 hq rfl
  have hunlink : unlink s p =
      match node.next with
      | none => some { s with mem := mem, ping_list := first l₁ node.next }
      | some next => (modify mem next fun a => { a with prev := node.prev }).map fun mem =>
        { s with mem := mem, ping_list := first l₁ node.next } := by
    simp only [unlink, hnode, Option.bind_eq_bind, Option.bind_some, hredirect, hmemp]
    split
    · rfl
    · exact (Option.map_eq_bind ..).symm
  rw [hnext] at hunlink hl1
  cases l₂ with
  | nil =>
    refine ⟨_, node, hunlink, hmemp, hping, ⟨hnd, ?_, ?_⟩, rfl, rfl⟩
    · rw [List.append_nil]
      rfl
    · rw [List.append_nil]
      exact hl1
  | cons y l₂ =>
    have hfirst := hmem2
    obtain ⟨⟨a, ha, -⟩, -⟩ := hfirst
    have hy2 : y.1 ∉ addrs l₂ := (nodup_addrs_middle.1 hnd).2.1
    have hy1 : y.1 ∉ addrs l₁ := (nodup_addrs_middle.1 hnd).1
    have hyp : p ≠ y.1 := fun e => hp2 (e ▸ List.mem_cons_self)
    simp only [first, modify_of_eq ha, Option.map_some] at hunlink
    refine ⟨_, node, hunlink, ?_, hping, ⟨hnd, ?_, ?_⟩, rfl, rfl⟩
    · exact (store_of_ne hyp).trans hmemp
    · rw [first_append]
      rfl
    · refine segment_append.2 ⟨hl1.frame fun q hq => store_of_ne fun e => hy1 (e ▸ hq), ?_⟩
      exact Segment.setPrev hmem2 ha hy2 _ hprev

/-! ## Replies, as seen from the list -/

/-- The ping that a reply is for. -/
def answeredBy (ip : AddrIp) (seq : BitVec 16) (x : Nat × Ping) : Bool :=
  x.2.dst_ip = ip ∧ x.2.seq = seq

/-- What the clients are told of the pings of a list. -/
def told (worked : Bool) (l : List (Nat × Ping)) : List (Ping × Bool) :=
  l.map fun x => (x.2, worked)

theorem PingState.Holds.free (h : s.Holds l) (hp : p ∉ addrs l) :
    PingState.Holds { s with mem := free s.mem p } l :=
  ⟨h.nodup, h.head, h.linked.frame fun _ hq => free_of_ne fun e => hp (e ▸ hq)⟩

theorem replyRound_answers {ip : AddrIp} {seq : BitVec 16} (h : s.Holds (l₁ ++ (p, b) :: l₂))
    (hm : answeredBy ip seq (p, b) = true) :
    ∃ s', replyRound ip seq (s, some p) = some (.inr (s', some p)) ∧ s'.Holds (l₁ ++ l₂) ∧
      s'.feedback = s.feedback ++ told true [(p, b)] ∧ s'.ping_count = s.ping_count := by
  obtain ⟨-, ⟨node, hnode, hping, -, -⟩, -⟩ := segment_append.1 h.linked
  obtain ⟨s', node', hunlink, hnode', hping', hspec, hcount, hfeed⟩ := unlink_spec h
  have hb : node.ping.dst_ip = ip ∧ node.ping.seq = seq := by simpa [answeredBy, hping] using hm
  have hp : p ∉ addrs (l₁ ++ l₂) := by
    obtain ⟨hp1, hp2, -⟩ := nodup_addrs_middle.1 h.nodup
    simpa using ⟨hp1, hp2⟩
  refine ⟨{ s'.cliPingFeedback b true with mem := free s'.mem p }, ?_, ?_, ?_, hcount⟩
  · simp only [replyRound, hnode, Option.bind_eq_bind, Option.bind_some, if_pos hb, hunlink, hnode',
      hping']
    rfl
  · exact ⟨hspec.nodup, hspec.head, (hspec.free hp).linked⟩
  · show s'.feedback ++ [(b, true)] = _
    rw [hfeed]
    rfl

theorem replyRound_passes {ip : AddrIp} {seq : BitVec 16} (h : s.Holds (l₁ ++ (p, b) :: l₂))
    (hm : ¬ answeredBy ip seq (p, b) = true) :
    replyRound ip seq (s, some p) = some (.inl (s, first l₂ none)) := by
  obtain ⟨-, ⟨node, hnode, hping, hnext, -⟩, -⟩ := segment_append.1 h.linked
  have hb : ¬ (node.ping.dst_ip = ip ∧ node.ping.seq = seq) := by simpa [answeredBy, hping] using hm
  simp only [replyRound, hnode, Option.bind_eq_bind, Option.bind_some, if_neg hb, hnext]

/-- The loop, with the pings `l₁` already passed. -/
theorem replyRound_run {n : Nat} (ip : AddrIp) (seq : BitVec 16) (h : s.Holds (l₁ ++ l₂))
    (hn : l₂.length < n) :
    ∃ s' q, Loop.run (replyRound ip seq) n (s, first l₂ none) = some (s', q) ∧
      s'.Holds (l₁ ++ l₂.eraseP (answeredBy ip seq)) ∧
      (q = none ↔ ∀ x ∈ l₂, ¬ answeredBy ip seq x = true) ∧
      s'.feedback = s.feedback ++ told true (l₂.find? (answeredBy ip seq)).toList ∧
      s'.ping_count = s.ping_count ∧ (q = none → s' = s) := by
  induction n generalizing l₁ l₂ with
  | zero => omega
  | succ n ih =>
    cases l₂ with
    | nil =>
      refine ⟨s, none, Loop.run_done rfl, h, by simp, ?_, rfl, fun _ => rfl⟩
      simp [told]
    | cons x l₂ =>
      by_cases hm : answeredBy ip seq x = true
      · obtain ⟨s', hround, hholds, hfeed, hcount⟩ := replyRound_answers h hm
        refine ⟨s', _, Loop.run_done hround, ?_, ?_, ?_, hcount, fun e => nomatch e⟩
        · rw [List.eraseP_cons_of_pos hm]
          exact hholds
        · simp [hm]
        · rw [List.find?_cons_of_pos hm]
          exact hfeed
      · have hround := replyRound_passes h hm
        rw [← List.singleton_append, ← List.append_assoc] at h
        obtain ⟨s', q, hrun, hspec⟩ := ih h (Nat.lt_of_succ_lt_succ hn)
        refine ⟨s', q, (Loop.run_next hround).trans hrun, ?_⟩
        rw [List.eraseP_cons_of_neg hm, List.find?_cons_of_neg hm, List.forall_mem_cons]
        simpa [hm] using hspec

theorem cliPingHandleReply_holds {n : Nat} (h : s.Holds l) (hn : l.length < n) (ip : AddrIp)
    (seq : BitVec 16) :
    ∃ s', cliPingHandleReply n false s ip seq =
        some (if l.eraseP (answeredBy ip seq) ≠ [] ∧ ∃ x ∈ l, answeredBy ip seq x = true then 1
          else 0, s') ∧
      s'.Holds (l.eraseP (answeredBy ip seq)) ∧
      s'.feedback = s.feedback ++ told true (l.find? (answeredBy ip seq)).toList ∧
      s'.ping_count = s.ping_count ∧ ((∀ x ∈ l, ¬ answeredBy ip seq x = true) → s' = s) := by
  have hall : s.Holds ([] ++ l) := h
  obtain ⟨s', q, hrun, hholds, hq, hfeed, hcount, hsame⟩ := replyRound_run ip seq hall hn
  have hworked : (if s'.ping_list = none then (0 : Int) else if q = none then 0 else 1) =
      if l.eraseP (answeredBy ip seq) ≠ [] ∧ ∃ x ∈ l, answeredBy ip seq x = true then 1 else 0 := by
    rw [hholds.head, List.nil_append]
    by_cases hnil : l.eraseP (answeredBy ip seq) = []
    · rw [if_pos (first_eq_none.2 hnil), if_neg fun hw => hw.1 hnil]
    rw [if_neg (mt first_eq_none.1 hnil)]
    by_cases hsome : ∃ x ∈ l, answeredBy ip seq x = true
    · obtain ⟨x, hx, hm⟩ := hsome
      rw [if_neg fun hnone => hq.1 hnone x hx hm, if_pos ⟨hnil, x, hx, hm⟩]
    · rw [if_pos (hq.2 fun x hx hm => hsome ⟨x, hx, hm⟩), if_neg fun hw => hsome hw.2]
  refine ⟨s', ?_, hholds, hfeed, hcount, fun hno => hsame (hq.2 hno)⟩
  rw [← h.head] at hrun
  rw [← hworked]
  simp only [cliPingHandleReply, Bool.false_eq_true, if_false, hrun, Option.bind_eq_bind,
    Option.bind_some]

/-! ## Expiry -/

/-- The state when the first ping has been taken off. -/
def expireFirst (s : PingState) (x : Nat × Ping) (l : List (Nat × Ping)) : PingState :=
  { s.cliPingFeedback x.2 false with
    ping_list := first l none
    mem := Linked.free s.mem x.1 }

theorem expireFirst_holds {x : Nat × Ping} (h : s.Holds (x :: l)) : (expireFirst s x l).Holds l := by
  obtain ⟨-, hx, hnd⟩ := nodup_addrs_middle (l := []).1 h.nodup
  obtain ⟨-, hl⟩ := h.linked
  refine ⟨hnd, rfl, ?_⟩
  -- the node behind it becomes the first, and its `prev` does not matter any more
  cases l with
  | nil => trivial
  | cons y l =>
    obtain ⟨⟨a, ha, hping, hnext, -⟩, hrest⟩ := hl
    have hframe : ∀ q ∈ addrs (y :: l), Linked.free s.mem x.1 q = s.mem q := fun q hq =>
      free_of_ne fun e => hx (e ▸ hq)
    refine ⟨⟨a, (hframe _ List.mem_cons_self).trans ha, hping, hnext, fun _ e => nomatch e⟩, ?_⟩
    exact hrest.frame fun q hq => hframe q (List.mem_cons_of_mem _ hq)

/-- A pass takes pings off the list as long as the first one has expired. -/
theorem expireRound_run {n : Nat} (now : Timeval) (h : s.Holds l) (hne : l ≠ []) (hn : l.length ≤ n) :
    let expired := fun x : Nat × Ping => isLater now x.2.expire_time
    ∃ s', Loop.run (expireRound now) n s = some s' ∧ s'.Holds (l.dropWhile expired) ∧
      s'.feedback = s.feedback ++ told false (l.takeWhile expired) ∧
      s'.ping_count = s.ping_count := by
  intro expired
  induction n generalizing s l with
  | zero => simp_all
  | succ n ih =>
    cases l with
    | nil => simp at hne
    | cons x l =>
      obtain ⟨⟨node, hnode, hping, hnext, -⟩, hl⟩ := h.linked
      have hlist : s.ping_list = some x.1 := h.head
      have hround : expireRound now s =
          if expired x then
            if first l none = none then some (.inr (expireFirst s x l))
            else some (.inl (expireFirst s x l))
          else some (.inr s) := by
        simp only [expireRound, hlist, hnode, hping, hnext, Option.bind_eq_bind, Option.bind_some]
        rfl
      by_cases he : expired x = true
      · have hspec := expireFirst_holds h
        rw [if_pos he] at hround
        rw [List.dropWhile_cons_of_pos he, List.takeWhile_cons_of_pos he]
        cases l with
        | nil =>
          rw [if_pos (show first [] none = none from rfl)] at hround
          exact ⟨_, Loop.run_done hround, hspec, rfl, rfl⟩
        | cons y l =>
          rw [if_neg (by simp [first])] at hround
          obtain ⟨s', hrun, hholds, hfeed, hcount⟩ := ih hspec (by simp) (Nat.le_of_succ_le_succ hn)
          refine ⟨s', (Loop.run_next hround).trans hrun, hholds, ?_, hcount⟩
          rw [hfeed]
          simp [expireFirst, PingState.cliPingFeedback, told]
      · rw [if_neg he] at hround
        rw [List.dropWhile_cons_of_neg he, List.takeWhile_cons_of_neg he]
        exact ⟨s, Loop.run_done hround, h, by simp [told], rfl⟩

theorem scrubberPass_holds {n : Nat} (now : Timeval) (h : s.Holds l) (hn : l.length ≤ n) :
    let expired := fun x : Nat × Ping => isLater now x.2.expire_time
    ∃ s', scrubberPass n s now = some (s', (l.dropWhile expired).head?.map fun x =>
        scrubberTimeout now x.2.expire_time) ∧
      s'.Holds (l.dropWhile expired) ∧
      s'.feedback = s.feedback ++ told false (l.takeWhile expired) ∧
      s'.ping_count = s.ping_count := by
  intro expired
  by_cases hnil : l = []
  · subst hnil
    have hlist : s.ping_list = none := h.head
    refine ⟨s, ?_, h, by simp [told], rfl⟩
    rw [scrubberPass, if_pos hlist]
    rfl
  · obtain ⟨s', hrun, hholds, hspec⟩ := expireRound_run now h hnil hn
    have hlist : s.ping_list ≠ none := by
      rw [h.head]
      exact mt first_eq_none.1 hnil
    have hhead := hholds.head
    have hlinked := hholds.linked
    refine ⟨s', ?_, hholds, hspec⟩
    rw [scrubberPass, if_neg hlist, hrun]
    simp only [Option.bind_eq_bind, Option.bind_some]
    show (match s'.ping_list with | none => _ | some p => _) = _
    cases hleft : l.dropWhile expired with
    | nil =>
      rw [hleft] at hhead
      rw [hhead]
      rfl
    | cons x rest =>
      rw [hleft] at hhead hlinked
      obtain ⟨⟨node, hnode, hping, -⟩, -⟩ := hlinked
      simp only [hhead, first, hnode, hping, Option.bind_some]
      rfl

end

/-! ## Enough rounds -/

section

variable {n m : Nat} {s s' : PingState}

theorem cliPingRequest_of_le {sent : Bool} {p_new : Nat} {junk : PingNode} {fd : Int} {ip : AddrIp}
    {send_time now : Timeval} (h : cliPingRequest n s sent p_new junk fd ip send_time now = some s')
    (hn : n ≤ m) : cliPingRequest m s sent p_new junk fd ip send_time now = some s' := by
  cases sent with
  | false => exact h
  | true =>
    simp only [cliPingRequest, if_true] at h ⊢
    cases hlist : s.ping_list with
    | none => simpa only [hlist] using h
    | some p =>
      simp only [hlist] at h ⊢
      exact Loop.run_of_le h hn

theorem cliPingHandleReply_of_le {shutdown : Bool} {ip : AddrIp} {seq : BitVec 16}
    {r : Int × PingState} (h : cliPingHandleReply n shutdown s ip seq = some r) (hn : n ≤ m) :
    cliPingHandleReply m shutdown s ip seq = some r := by
  cases shutdown with
  | true => exact h
  | false =>
    simp only [cliPingHandleReply, Bool.false_eq_true, if_false, Option.bind_eq_bind,
      Option.bind_eq_some_iff] at h ⊢
    obtain ⟨c, hrun, hc⟩ := h
    exact ⟨c, Loop.run_of_le hrun hn, hc⟩

theorem scrubberPass_of_le {now : Timeval} {r : PingState × Option Timeval}
    (h : scrubberPass n s now = some r) (hn : n ≤ m) : scrubberPass m s now = some r := by
  by_cases hlist : s.ping_list = none
  · rw [scrubberPass, if_pos hlist] at h ⊢
    exact h
  · rw [scrubberPass, if_neg hlist] at h ⊢
    simp only [Option.bind_eq_bind, Option.bind_eq_some_iff] at h ⊢
    obtain ⟨s₁, hrun, hs₁⟩ := h
    exact ⟨s₁, Loop.run_of_le hrun hn, hs₁⟩

end

end BirRouter
