import BirRouter.Lib.Trace
import BirRouter.Lwip.HeapCalls

/-!
# Clients of the heap

A client calls `mem_malloc`, `mem_free` and `mem_realloc` in any order and writes into the blocks it
holds.  It keeps to the contract of such functions: what it frees, shrinks or writes to is a block it
was given and has not freed since.  `HeapClient.live` is its own account of the blocks and their data.

* `heap_integrity` — the heap never contradicts this account: the data are what the client wrote, no
  two blocks overlap, and every call returns;
* `heap_complete` — without `mem_realloc`, `mem_malloc` gives up only if there is no room.
-/

set_option autoImplicit false

namespace BirRouter

open ByteLayout ByteMemory MemHeap Trace

/-- What a client does. -/
inductive HeapOp
  | malloc (size : Nat)
  | free (rmem : Option Nat)
  | realloc (rmem newsize : Nat)
  | write (rmem i : Nat) (v : Byte)
  deriving DecidableEq, Repr

/-- The heap, and the blocks the client holds. -/
structure HeapClient where
  heap : MemHeap
  live : Nat → Option (List Byte)

namespace HeapClient

/-- After `mem_init`. -/
def new (ram : Memory) : HeapClient := ⟨memInit ram, fun _ => none⟩

/-- An operation; `none` if the call does not return. -/
def next (c : HeapClient) : HeapOp → Option HeapClient
  | .malloc size => do
    let (rmem, heap) ← c.heap.memMalloc size
    match rmem with
    | none => some { c with heap := heap }
    | some p => some ⟨heap, Function.update c.live p (some (read heap.ram p (align size)))⟩
  | .free none => do some { c with heap := ← c.heap.memFree none }
  | .free (some p) => do some ⟨← c.heap.memFree (some p), Function.update c.live p none⟩
  | .realloc p newsize => do
    some ⟨← c.heap.memRealloc p newsize,
      Function.update c.live p ((c.live p).map (kept · newsize))⟩
  | .write p i v =>
    some ⟨{ c.heap with ram := Function.update c.heap.ram (p + i) v },
      Function.update c.live p ((c.live p).map (·.set i v))⟩

/-- The contract: blocks are the client's own, and sizes do not overflow. -/
def Keeps (c : HeapClient) : HeapOp → Prop
  | .malloc _ => True
  | .free none => True
  | .free (some p) => (c.live p).isSome = true
  | .realloc p newsize => (c.live p).isSome = true ∧ newsize + 24 < 4294967296
  | .write p i _ => i < ((c.live p).getD []).length

instance (c : HeapClient) : (op : HeapOp) → Decidable (c.Keeps op)
  | .malloc _ => inferInstanceAs (Decidable True)
  | .free none => inferInstanceAs (Decidable True)
  | .free (some p) => inferInstanceAs (Decidable ((c.live p).isSome = true))
  | .realloc p newsize =>
    inferInstanceAs (Decidable ((c.live p).isSome = true ∧ newsize + 24 < 4294967296))
  | .write p i _ => inferInstanceAs (Decidable (i < ((c.live p).getD []).length))

/-- The client's account is that of the blocks in the heap. -/
structure Agrees (c : HeapClient) (bs : List Block) : Prop where
  rep : Rep c.heap bs
  live : ∀ p d, c.live p = some d ↔ LiveFrom 0 bs p d

section Agrees

variable {c : HeapClient} {bs : List Block}

/-- The account after one entry has changed. -/
theorem update_live (hlive : ∀ p d, c.live p = some d ↔ LiveFrom 0 bs p d) {bs' : List Block} {q : Nat}
    {v : Option (List Byte)}
    (h : ∀ p d, LiveFrom 0 bs' p d ↔ (p = q ∧ v = some d) ∨ LiveFrom 0 bs p d ∧ p ≠ q) (p : Nat)
    (d : List Byte) : Function.update c.live q v p = some d ↔ LiveFrom 0 bs' p d := by
  rw [h, ← hlive]
  by_cases hp : p = q
  · subst hp
    simp
  · simp [hp]

theorem agrees_new (ram : Memory) : Agrees (new ram) [.free (memSize - 12)] :=
  ⟨rep_memInit ram, fun p d => by simp [new, LiveFrom]⟩

theorem tidy_new (ram : Memory) : Tidy (new ram).heap [.free (memSize - 12)] :=
  ⟨fun p _ => Nat.zero_le p, List.forall_mem_singleton.2 rfl⟩

/-- What an operation that keeps the contract does. -/
structure Done (c : HeapClient) (op : HeapOp) (c' : HeapClient) (bs bs' : List Block) : Prop where
  next : c.next op = some c'
  agrees : Agrees c' bs'
  tidy : (∀ p n, op ≠ .realloc p n) → Tidy c.heap bs → Tidy c'.heap bs'

theorem done_malloc (h : Agrees c bs) (size : Nat) : ∃ c' bs', Done c (.malloc size) c' bs bs' := by
  have hrefused : c.heap.memMalloc size = some (none, c.heap) → Done c (.malloc size) c bs bs :=
    fun hnull => ⟨by rw [HeapClient.next, hnull]; rfl, h, fun _ => id⟩
  by_cases hrefuse : size = 0 ∨ memSize < align size
  · exact ⟨c, bs, hrefused (memMalloc_refuses hrefuse)⟩
  · obtain ⟨h0, hle⟩ := not_or.1 hrefuse
    rcases memMalloc_spec h.rep h0 (Nat.not_lt.1 hle) with
      ⟨hnull, -⟩ | ⟨pre, k, post, data, s', rfl, hk, hlen, hrun, hrep, htidy⟩
    · exact ⟨c, bs, hrefused hnull⟩
    · have hdata : read s'.ram (total pre + 12) (align size) = data := by
        obtain ⟨w, last, ha⟩ := hrep.tiles.around
        rw [← hlen]
        exact ha.shows
      refine ⟨⟨s', Function.update c.live (total pre + 12) (some data)⟩, _, ?_, ⟨hrep, ?_⟩,
        fun _ => htidy⟩
      · rw [HeapClient.next, hrun, ← hdata]
        rfl
      · refine update_live h.live fun p d => ?_
        rw [liveFrom_taken (k := k) (by omega), Option.some.injEq, @eq_comm _ data]
        exact or_congr_right (iff_self_and.2 liveFrom_ne)

theorem done_free (h : Agrees c bs) {p : Nat} (hp : (c.live p).isSome = true) :
    ∃ c' bs', Done c (.free (some p)) c' bs bs' := by
  obtain ⟨data, hdata⟩ := Option.isSome_iff_exists.1 hp
  obtain ⟨pre, post, rfl, rfl⟩ := ((h.live p data).1 hdata).split
  rw [Nat.zero_add] at hdata ⊢
  obtain ⟨s', bs', hrun, hrep, hlive, htidy⟩ := memFree_spec h.rep
  refine ⟨⟨s', Function.update c.live (total pre + 12) none⟩, bs', ?_, ⟨hrep, ?_⟩, fun _ => htidy⟩
  · rw [HeapClient.next, hrun]
    rfl
  · refine update_live h.live fun p d => ?_
    rw [hlive]
    simp

theorem done_realloc (h : Agrees c bs) {p newsize : Nat} (hp : (c.live p).isSome = true)
    (hnew : newsize + 24 < 4294967296) : ∃ c' bs', Done c (.realloc p newsize) c' bs bs' := by
  obtain ⟨data, hdata⟩ := Option.isSome_iff_exists.1 hp
  obtain ⟨pre, post, rfl, rfl⟩ := ((h.live p data).1 hdata).split
  rw [Nat.zero_add] at hdata ⊢
  obtain ⟨s', bs', hrun, hrep, hlive⟩ := memRealloc_spec h.rep hnew
  refine ⟨⟨s', Function.update c.live (total pre + 12) (some (kept data newsize))⟩, bs', ?_, ⟨hrep, ?_⟩,
    fun hne => absurd rfl (hne _ _)⟩
  · rw [HeapClient.next, hrun, hdata]
    rfl
  · refine update_live h.live fun p d => ?_
    rw [hlive, Option.some.injEq, @eq_comm _ d]

theorem done_write (h : Agrees c bs) {p i : Nat} (hi : i < ((c.live p).getD []).length) (v : Byte) :
    ∃ c' bs', Done c (.write p i v) c' bs bs' := by
  obtain ⟨data, hdata⟩ : ∃ data, c.live p = some data := by
    cases hl : c.live p with
    | none => simp [hl] at hi
    | some data => exact ⟨data, rfl⟩
  rw [hdata, Option.getD_some] at hi
  obtain ⟨pre, post, rfl, rfl⟩ := ((h.live p data).1 hdata).split
  rw [Nat.zero_add] at hdata ⊢
  obtain ⟨hrep, hlive, htidy⟩ := h.rep.write hi v
  refine ⟨⟨{ c.heap with ram := Function.update c.heap.ram (total pre + 12 + i) v },
    Function.update c.live (total pre + 12) (some (data.set i v))⟩, _, ?_, ⟨hrep, ?_⟩, fun _ => htidy⟩
  · rw [HeapClient.next, hdata]
    rfl
  · refine update_live h.live fun p d => ?_
    rw [hlive, Option.some.injEq, @eq_comm _ d]

/-- **Every operation that keeps the contract returns and keeps the account right.** -/
theorem done_of_keeps (h : Agrees c bs) {op : HeapOp} (hop : c.Keeps op) :
    ∃ c' bs', Done c op c' bs bs' := by
  cases op with
  | malloc size => exact done_malloc h size
  | free p =>
    cases p with
    | none => exact ⟨c, bs, rfl, h, fun _ => id⟩
    | some p => exact done_free h hop
  | realloc p newsize => exact done_realloc h hop.1 hop.2
  | write p i v => exact done_write h hop v

end Agrees

/-- The steps of a client that keeps the contract. -/
def Step : HeapClient → HeapOp → HeapClient → Prop :=
  Restrict Keeps fun c op c' => c.next op = some c'

/-- The steps of a client that, besides, shrinks no block. -/
def PlainStep : HeapClient → HeapOp → HeapClient → Prop :=
  Restrict (fun _ op => ∀ p n, op ≠ .realloc p n) Step

theorem exists_agrees {ram : Memory} {ops : List HeapOp} {c : HeapClient}
    (h : Exec Step (new ram) ops c) : ∃ bs, Agrees c bs := by
  refine h.invariant (I := fun c => ∃ bs, Agrees c bs) ⟨_, agrees_new ram⟩ ?_
  rintro c op c' ⟨bs, hc⟩ ⟨hok, hnext⟩
  obtain ⟨c'', bs', hdone⟩ := done_of_keeps hc hok
  obtain rfl := Option.some.inj (hdone.next.symm.trans hnext)
  exact ⟨bs', hdone.agrees⟩

theorem exists_tidy {ram : Memory} {ops : List HeapOp} {c : HeapClient}
    (h : Exec PlainStep (new ram) ops c) : ∃ bs, Agrees c bs ∧ Tidy c.heap bs := by
  refine h.invariant (I := fun c => ∃ bs, Agrees c bs ∧ Tidy c.heap bs)
    ⟨_, agrees_new ram, tidy_new ram⟩ ?_
  rintro c op c' ⟨bs, hc, htidy⟩ ⟨hplain, hok, hnext⟩
  obtain ⟨c'', bs', hdone⟩ := done_of_keeps hc hok
  obtain rfl := Option.some.inj (hdone.next.symm.trans hnext)
  exact ⟨bs', hdone.agrees, hdone.tidy hplain htidy⟩

/-- **The heap keeps the blocks of its client.**  In every run that keeps the contract the next call
returns, each block holds what was written to it and lies within the array, no two overlap, and a
block that `mem_malloc` returns is not in use; it is as large as asked for, if the size is one that
can be rounded up. -/
theorem heap_integrity (ram : Memory) {ops : List HeapOp} {c : HeapClient}
    (h : Exec Step (new ram) ops c) :
    (∀ op, c.Keeps op → (c.next op).isSome = true) ∧
    (∀ p d, c.live p = some d →
      read c.heap.ram p d.length = d ∧ sizeofStructMem ≤ p ∧ p + d.length < memSize) ∧
    (∀ p q d e, c.live p = some d → c.live q = some e → p ≠ q →
      p + d.length + sizeofStructMem ≤ q ∨ q + e.length + sizeofStructMem ≤ p) ∧
    ∀ size p heap, c.heap.memMalloc size = some (some p, heap) →
      c.live p = none ∧ (size ≤ 4294967292 → size ≤ align size) := by
  obtain ⟨bs, hc⟩ := exists_agrees h
  refine ⟨fun op hop => ?_, fun p d hp => ?_, fun p q d e hp hq hne => ?_, fun size p heap hrun => ?_⟩
  · obtain ⟨c', bs', hdone⟩ := done_of_keeps hc hop
    rw [hdone.next]
    rfl
  · obtain ⟨pre, post, rfl, rfl⟩ := ((hc.live p d).1 hp).split
    obtain ⟨w, last, ha⟩ := hc.rep.tiles.around
    rw [Nat.zero_add]
    exact ⟨ha.shows, Nat.le_add_left _ _, hc.rep.data_lt⟩
  · exact (((hc.live p d).1 hp).apart ((hc.live q e).1 hq)).resolve_left fun heq => hne heq.1
  · refine ⟨?_, le_align⟩
    by_cases hrefuse : size = 0 ∨ memSize < align size
    · rw [memMalloc_refuses hrefuse] at hrun
      cases hrun
    · obtain ⟨h0, hle⟩ := not_or.1 hrefuse
      rcases memMalloc_spec hc.rep h0 (Nat.not_lt.1 hle) with
        ⟨hnull, -⟩ | ⟨pre, k, post, data, s', rfl, -, -, hrun', -⟩
      · cases hnull.symm.trans hrun
      · cases hrun'.symm.trans hrun
        exact Option.eq_none_iff_forall_not_mem.2 fun d hd => liveFrom_ne ((hc.live _ d).1 hd) rfl

/-- A block is freed and its place used again, while the next one is shrunk. -/
theorem heap_integrity_reuse :
    let ops : List HeapOp := [.malloc 18, .write 12 0 7, .malloc 40, .write 44 1 9, .free (some 12),
      .malloc 4, .realloc 44 4]
    ∃ c, Exec Step (new fun _ => 0) ops c ∧ c.live 12 = some [7, 0, 0, 0] ∧
      c.live 44 = some [0, 9, 0, 0] ∧
      (∀ op, c.Keeps op → (c.next op).isSome = true) ∧
      (∀ p d, c.live p = some d →
        read c.heap.ram p d.length = d ∧ sizeofStructMem ≤ p ∧ p + d.length < memSize) ∧
      (∀ p q d e, c.live p = some d → c.live q = some e → p ≠ q →
        p + d.length + sizeofStructMem ≤ q ∨ q + e.length + sizeofStructMem ≤ p) ∧
      ∀ size p heap, c.heap.memMalloc size = some (some p, heap) →
        c.live p = none ∧ (size ≤ 4294967292 → size ≤ align size) := by
  intro ops
  have hrun : (ops.foldlM (fun (c : HeapClient) op => if c.Keeps op then c.next op else none)
      (new fun _ => 0)).map (fun c => (c.live 12, c.live 44))
      = some (some [7, 0, 0, 0], some [0, 9, 0, 0]) := by decide +kernel
  obtain ⟨c, hc, hlive⟩ := Option.map_eq_some_iff.1 hrun
  have hexec : Exec Step (new fun _ => 0) ops c := Exec.of_foldlM Keeps HeapClient.next hc
  exact ⟨c, hexec, congrArg Prod.fst hlive, congrArg Prod.snd hlive, heap_integrity _ hexec⟩

/-- **Without `mem_realloc`, `mem_malloc` gives up only if there is no room**: every stretch of the
size asked for and two headers meets a block in use or its header.  All pointers are aligned. -/
theorem heap_complete (ram : Memory) {ops : List HeapOp} {c : HeapClient}
    (h : Exec PlainStep (new ram) ops c) :
    (∀ size heap, size ≠ 0 → c.heap.memMalloc size = some (none, heap) →
      ∀ a, a + align size + 2 * sizeofStructMem ≤ memSize → ∃ p d, c.live p = some d ∧
        p < a + align size + 3 * sizeofStructMem ∧ a < p + d.length) ∧
    ∀ p d, c.live p = some d → p % 4 = 0 := by
  obtain ⟨bs, hc, htidy⟩ := exists_tidy h
  refine ⟨fun size heap h0 hrun a ha => ?_, fun p d hp => ?_⟩
  · have hhead : sizeofStructMem = 12 := rfl
    have htot : total bs = memSize := by
      obtain ⟨last, hchain⟩ := hc.rep.tiles.chain
      rw [hchain.end_eq, Nat.zero_add]
    by_contra hnone
    -- a stretch with no block in use lies in a free block, which the search would have found
    have hgap : ∀ p d, LiveFrom 0 bs p d → a + (align size + 24) + 12 ≤ p ∨ p + d.length ≤ a := by
      intro p d hp
      by_contra hmeets
      exact hnone ⟨p, d, (hc.live p d).2 hp, by omega, by omega⟩
    obtain ⟨k, hk, hle⟩ := gap_le hc.rep.separated (by omega) (Nat.zero_le a) (by omega) hgap
    obtain ⟨pre, post, rfl⟩ := List.append_of_mem hk
    rcases memMalloc_spec hc.rep h0 (by omega) with ⟨-, hsmall⟩ | ⟨_, _, _, _, _, -, -, -, hrun', -⟩
    · have hlow := htidy.lowest (total pre) ((freeFrom_append ..).2 (.inr (.inl ⟨rfl, by simp⟩)))
      have := hsmall pre k post rfl hlow
      omega
    · cases hrun'.symm.trans hrun
  · obtain ⟨pre, post, rfl, rfl⟩ := ((hc.live p d).1 hp).split
    have := Aligned.total_mod fun b hb => htidy.aligned b (List.mem_append_left (.used d :: post) hb)
    omega

/-- Beside a block of 100 bytes there is no room for 5119868. -/
theorem heap_complete_full :
    ∃ c heap, Exec PlainStep (new fun _ => 0) [.malloc 100] c ∧
      c.heap.memMalloc 5119868 = some (none, heap) ∧
      (∃ p d, c.live p = some d ∧ p < 0 + align 5119868 + 3 * sizeofStructMem ∧ 0 < p + d.length) ∧
      ∀ p d, c.live p = some d → p % 4 = 0 := by
  have hrun : ((new fun _ => 0).next (.malloc 100)).bind
      (fun c => (c.heap.memMalloc 5119868).map Prod.fst) = some none := by decide +kernel
  obtain ⟨c, hc, hnull⟩ := Option.bind_eq_some_iff.1 hrun
  obtain ⟨⟨r, heap⟩, hnull, hr⟩ := Option.map_eq_some_iff.1 hnull
  obtain rfl : r = none := hr
  have hexec : Exec PlainStep (new fun _ => 0) [.malloc 100] c :=
    .snoc .nil ⟨fun _ _ => HeapOp.noConfusion, trivial, hc⟩
  obtain ⟨hroom, haligned⟩ := heap_complete _ hexec
  exact ⟨c, heap, hexec, hnull, hroom _ _ (by decide) hnull 0 (by decide), haligned⟩

end HeapClient

end BirRouter
