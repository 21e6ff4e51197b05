import BirRouter.Lwip.HeapBlocks

/-!
# What the calls do to the blocks

`LiveFrom` and `FreeFrom` say which blocks of a list are in use and where, and where the free ones
begin; they are what a client can observe of the list.  `Rep` is the invariant of the heap: the blocks
fill it, no two free blocks are neighbours, the last one is free, and `lfree` is the beginning of a
free one.  `Tidy` is what `mem_realloc` alone can destroy.

`memMalloc_spec`, `memFree_spec` and `memRealloc_spec` describe the three calls in these terms.
-/

set_option autoImplicit false

namespace BirRouter

open ByteLayout ByteMemory MemHeap

/-! ## Places of blocks -/

/-- A block in use has its data `d` at `p`; the first block of the list begins at `base`. -/
def LiveFrom (base : Nat) : List Block → Nat → List Byte → Prop
  | [], _, _ => False
  | b :: bs, p, d => (b = .used d ∧ p = base + 12) ∨ LiveFrom (base + b.size) bs p d

/-- A free block begins at `p`. -/
def FreeFrom (base : Nat) : List Block → Nat → Prop
  | [], _ => False
  | b :: bs, p => (b.isUsed = false ∧ p = base) ∨ FreeFrom (base + b.size) bs p

/-- No two free blocks are neighbours. -/
def Separated (bs : List Block) : Prop := bs.IsChain fun a b => a.isUsed = true ∨ b.isUsed = true

section Places

variable {base p p' : Nat} {d d' : List Byte} {bs cs : List Block}

theorem liveFrom_append (bs cs : List Block) (base : Nat) :
    LiveFrom base (bs ++ cs) p d ↔ LiveFrom base bs p d ∨ LiveFrom (base + total bs) cs p d := by
  induction bs generalizing base with
  | nil => simp [LiveFrom, total]
  | cons b bs ih => simp only [List.cons_append, LiveFrom, total, ih, Nat.add_assoc, or_assoc]

theorem freeFrom_append (bs cs : List Block) (base : Nat) :
    FreeFrom base (bs ++ cs) p ↔ FreeFrom base bs p ∨ FreeFrom (base + total bs) cs p := by
  induction bs generalizing base with
  | nil => simp [FreeFrom, total]
  | cons b bs ih => simp only [List.cons_append, FreeFrom, total, ih, Nat.add_assoc, or_assoc]

theorem LiveFrom.range (h : LiveFrom base bs p d) :
    base + 12 ≤ p ∧ p + d.length ≤ base + total bs := by
  induction bs generalizing base with
  | nil => cases h
  | cons b bs ih =>
    rw [total]
    rcases h with ⟨rfl, rfl⟩ | h
    · have hsize : (Block.used d).size = d.length + 12 := rfl
      omega
    · have := ih h
      omega

theorem FreeFrom.range (h : FreeFrom base bs p) : base ≤ p ∧ p + 12 ≤ base + total bs := by
  induction bs generalizing base with
  | nil => cases h
  | cons b bs ih =>
    have hb := b.header_le_size
    rw [total]
    rcases h with ⟨-, rfl⟩ | h
    · omega
    · have := ih h
      omega

/-- The blocks in use do not overlap; their headers lie between them. -/
theorem LiveFrom.apart (h : LiveFrom base bs p d) (h' : LiveFrom base bs p' d') :
    (p = p' ∧ d = d') ∨ p + d.length + 12 ≤ p' ∨ p' + d'.length + 12 ≤ p := by
  induction bs generalizing base with
  | nil => cases h
  | cons b bs ih =>
    rcases h with ⟨rfl, rfl⟩ | h <;> rcases h' with ⟨hb, rfl⟩ | h'
    · exact .inl ⟨rfl, Block.used.inj hb⟩
    · have hr := h'.range
      have hsize : (Block.used d).size = d.length + 12 := rfl
      omega
    · subst hb
      have hr := h.range
      have hsize : (Block.used d').size = d'.length + 12 := rfl
      omega
    · exact ih h h'

/-- A block in use can be found in the list. -/
theorem LiveFrom.split (h : LiveFrom base bs p d) :
    ∃ pre post, bs = pre ++ .used d :: post ∧ p = base + total pre + 12 := by
  induction bs generalizing base with
  | nil => cases h
  | cons b bs ih =>
    rcases h with ⟨rfl, rfl⟩ | h
    · exact ⟨[], bs, rfl, rfl⟩
    · obtain ⟨pre, post, rfl, rfl⟩ := ih h
      exact ⟨b :: pre, post, rfl, by rw [total, Nat.add_assoc base]⟩

theorem FreeFrom.split (h : FreeFrom base bs p) :
    ∃ pre k post, bs = pre ++ .free k :: post ∧ p = base + total pre := by
  induction bs generalizing base with
  | nil => cases h
  | cons b bs ih =>
    rcases h with ⟨hb, rfl⟩ | h
    · cases b with
      | free k => exact ⟨[], k, bs, rfl, rfl⟩
      | used data => cases hb
    · obtain ⟨pre, k, post, rfl, rfl⟩ := ih h
      exact ⟨b :: pre, k, post, rfl, by rw [total, Nat.add_assoc base]⟩

theorem separated_append :
    Separated (bs ++ cs) ↔ Separated bs ∧ Separated cs ∧
      ∀ x ∈ bs.getLast?, ∀ y ∈ cs.head?, x.isUsed = true ∨ y.isUsed = true :=
  List.isChain_append

/-- The last block is free. -/
def EndsFree (bs : List Block) : Prop := ∃ b ∈ bs.getLast?, b.isUsed = false

theorem EndsFree.replace (old new : List Block) {pre post : List Block}
    (h : EndsFree (pre ++ (old ++ post))) (hnew : post = [] → EndsFree new) :
    EndsFree (pre ++ (new ++ post)) := by
  cases post with
  | nil =>
    obtain ⟨c, hc, hfree⟩ := hnew rfl
    refine ⟨c, ?_, hfree⟩
    rw [List.append_nil, List.getLast?_append, hc]
    rfl
  | cons c cs =>
    obtain ⟨x, hx, hfree⟩ := h
    refine ⟨x, ?_, hfree⟩
    simpa [List.getLast?_append, List.getLast?_cons_cons] using hx

theorem length_le_total (bs : List Block) : bs.length ≤ total bs := by
  induction bs with
  | nil => exact Nat.le_refl 0
  | cons b bs ih =>
    have := b.header_le_size
    rw [List.length_cons, total]
    omega

/-- The blocks take multiples of `MEM_ALIGNMENT`. -/
def Aligned (bs : List Block) : Prop := ∀ b ∈ bs, b.size % 4 = 0

theorem Aligned.total_mod (h : Aligned bs) : total bs % 4 = 0 := by
  induction bs with
  | nil => rfl
  | cons b bs ih =>
    have hb := h b List.mem_cons_self
    have hbs := ih fun c hc => h c (List.mem_cons_of_mem _ hc)
    rw [total]
    omega

theorem Aligned.replace (old new : List Block) {pre post : List Block}
    (h : Aligned (pre ++ (old ++ post))) (hnew : Aligned old → Aligned new) :
    Aligned (pre ++ (new ++ post)) := by
  have hmem := hnew fun b hb => h b (by simp [hb])
  intro b hb
  rcases List.mem_append.1 hb with hb | hb
  · exact h b (by simp [hb])
  · rcases List.mem_append.1 hb with hb | hb
    · exact hmem b hb
    · exact h b (by simp [hb])

/-- Of two ways to cut a list of blocks, the one farther on has the other's rest before it. -/
theorem mem_of_total_le {pre pre' post post' : List Block} {b c : Block}
    (h : pre ++ c :: post = pre' ++ b :: post') (hle : total pre ≤ total pre') :
    b ∈ c :: post := by
  rcases List.append_eq_append_iff.1 h with ⟨mid, rfl, hmid⟩ | ⟨mid, rfl, hmid⟩
  · rw [hmid]
    simp
  · cases mid with
    | nil =>
      rw [List.nil_append] at hmid
      rw [← hmid]
      exact List.mem_cons_self
    | cons d mid =>
      have := d.header_le_size
      rw [total_append, total] at hle
      omega

/-- Where there is no block in use there is a single free block. -/
theorem gap_le (hs : Separated bs) {a n : Nat} (hn : 0 < n) (ha : base ≤ a)
    (hend : a + n ≤ base + total bs)
    (hgap : ∀ p d, LiveFrom base bs p d → a + n + 12 ≤ p ∨ p + d.length ≤ a) :
    ∃ k, Block.free k ∈ bs ∧ n ≤ k + 12 := by
  induction bs generalizing base with
  | nil =>
    rw [total] at hend
    omega
  | cons b bs ih =>
    rw [total] at hend
    by_cases hin : a < base + b.size
    · cases b with
      | used data =>
        have hsize : (Block.used data).size = data.length + 12 := rfl
        have := hgap _ _ (.inl ⟨rfl, rfl⟩)
        omega
      | free k =>
        have hsize : (Block.free k).size = k + 12 := rfl
        refine ⟨k, List.mem_cons_self, ?_⟩
        by_contra hlt
        -- the block behind it is in use and begins within the gap
        cases bs with
        | nil =>
          rw [total] at hend
          omega
        | cons c bs =>
          have hc : c.isUsed = true :=
            ((List.isChain_cons_cons.1 hs).1).resolve_left Bool.false_ne_true
          cases c with
          | free j => cases hc
          | used data =>
            have := hgap _ _ (.inr (.inl ⟨rfl, rfl⟩))
            omega
    · obtain ⟨k, hk, hle⟩ := ih (List.isChain_cons.1 hs).2 (by omega) (by omega)
        fun p d hp => hgap p d (.inr hp)
      exact ⟨k, List.mem_cons_of_mem _ hk, hle⟩

end Places

/-! ## Joining neighbours -/

section Plug

variable {s : MemHeap} {pre post : List Block} {n : Nat}

/-- What `plug_holes` makes of the blocks: nothing a client observes changes. -/
structure Plugged (s s' : MemHeap) (bs bs' : List Block) : Prop where
  tiles : Tiles s'.ram bs'
  live : ∀ p d, LiveFrom 0 bs' p d ↔ LiveFrom 0 bs p d
  lfree : FreeFrom 0 bs s.lfree → FreeFrom 0 bs' s'.lfree
  lowest : (∀ p, FreeFrom 0 bs p → s.lfree ≤ p) → ∀ p, FreeFrom 0 bs' p → s'.lfree ≤ p
  ends : EndsFree bs → EndsFree bs'
  aligned : Aligned bs → Aligned bs'
  sem : s'.mem_sem = s.mem_sem

theorem Plugged.refl {bs : List Block} (h : Tiles s.ram bs) : Plugged s s bs bs :=
  ⟨h, fun _ _ => Iff.rfl, id, id, id, id, rfl⟩

theorem Plugged.trans {s' s'' : MemHeap} {bs bs' bs'' : List Block} (h : Plugged s s' bs bs')
    (h' : Plugged s' s'' bs' bs'') : Plugged s s'' bs bs'' :=
  ⟨h'.tiles, fun p d => (h'.live p d).trans (h.live p d), h'.lfree ∘ h.lfree, h'.lowest ∘ h.lowest,
    h'.ends ∘ h.ends, h'.aligned ∘ h.aligned, h'.sem.trans h.sem⟩

/-- Two free blocks are joined, and `lfree` follows. -/
theorem plugged_join {j k lfree : Nat} (h : Tiles s.ram (pre ++ .free j :: .free k :: post))
    (hlfree : lfree = if s.lfree = total pre + (j + 12) then total pre else s.lfree) :
    Plugged s
      { s with
        ram := setPrev (setNext s.ram (total pre) (total pre + (j + 12) + (k + 12)))
          (total pre + (j + 12) + (k + 12)) (total pre)
        lfree := lfree }
      (pre ++ .free j :: .free k :: post) (pre ++ .free (j + 12 + k) :: post) := by
  have hsize : ∀ i, (Block.free i).size = i + 12 := fun _ => rfl
  have hend : total pre + (j + 12 + k + 12) = total pre + (j + 12) + (k + 12) := by omega
  refine ⟨h.join, fun p d => ?_, fun hf => ?_, fun hlow p hp => ?_, fun hends => ?_, fun hal => ?_,
    rfl⟩
  · simp only [liveFrom_append, LiveFrom, reduceCtorEq, false_and, false_or, hsize, Nat.zero_add, hend]
  · simp only [freeFrom_append, FreeFrom, Block.isUsed, true_and, hsize, Nat.zero_add, hend, hlfree]
      at hf ⊢
    rcases hf with hf | hf | hf | hf
    · have := hf.range
      rw [if_neg (by omega)]
      exact .inl hf
    · rw [if_neg (by omega)]
      exact .inr (.inl hf)
    · rw [if_pos hf]
      exact .inr (.inl rfl)
    · have := hf.range
      rw [if_neg (by omega)]
      exact .inr (.inr hf)
  · have hle : lfree ≤ s.lfree := by
      rw [hlfree]
      split <;> omega
    refine hle.trans (hlow p ?_)
    simp only [freeFrom_append, FreeFrom, Block.isUsed, true_and, hsize, Nat.zero_add, hend] at hp ⊢
    rcases hp with hp | hp | hp
    · exact .inl hp
    · exact .inr (.inl hp)
    · exact .inr (.inr (.inr hp))
  · exact EndsFree.replace [.free j, .free k] [.free (j + 12 + k)] hends fun _ => ⟨_, rfl, rfl⟩
  · refine Aligned.replace [.free j, .free k] [.free (j + 12 + k)] hal fun hjk => ?_
    have hj : (j + 12) % 4 = 0 := hjk (.free j) (by simp)
    have hk : (k + 12) % 4 = 0 := hjk (.free k) (by simp)
    refine List.forall_mem_singleton.2 ?_
    show (j + 12 + k + 12) % 4 = 0
    omega

/-- The block behind is joined exactly if it is free. -/
theorem plugForward_spec (h : Tiles s.ram (pre ++ .free n :: post)) (hpost : Separated post) :
    ∃ n' post', Plugged s (s.plugForward (total pre)) (pre ++ .free n :: post)
        (pre ++ .free n' :: post') ∧ Separated (.free n' :: post') := by
  obtain ⟨w, last, ha⟩ := h.around
  have hnext : next s.ram (total pre) = total pre + (n + 12) := ha.next
  have hbehind : Chain s.ram (total pre + (n + 12)) (total pre) post memSize last := ha.behind
  cases post with
  | nil =>
    have hend : total pre + (n + 12) = memSize := hbehind.end_eq_iff.2 rfl
    refine ⟨n, [], ?_, List.isChain_singleton _⟩
    rw [plugForward, if_neg (by rw [hnext, hend]; exact fun hc => hc.2.2 rfl)]
    exact .refl h
  | cons b post =>
    have hne : total pre + (n + 12) ≠ memSize := fun heq =>
      List.cons_ne_nil _ _ (hbehind.end_eq_iff.1 heq)
    obtain ⟨hused, hnext2⟩ : used s.ram (total pre + (n + 12)) = b.isUsed ∧
        next s.ram (total pre + (n + 12)) = total pre + (n + 12) + b.size :=
      ⟨hbehind.used_head, hbehind.next_head⟩
    cases b with
    | used data =>
      refine ⟨n, .used data :: post, ?_, List.isChain_cons_cons.2 ⟨.inr rfl, hpost⟩⟩
      rw [plugForward, if_neg (by rw [hnext, hused]; exact fun hc => nomatch hc.2.1)]
      exact .refl h
    | free k =>
      refine ⟨n + 12 + k, post, ?_, ?_⟩
      · rw [plugForward, if_pos ⟨by omega, by rw [hnext, hused]; rfl, by rw [hnext]; exact hne⟩]
        have hram : next (setNext s.ram (total pre) (total pre + (n + 12) + (k + 12)))
            (total pre + (n + 12)) = total pre + (n + 12) + (k + 12) := by
          rw [next_setNext (by omega), hnext2]
          rfl
        have hnext3 : next s.ram (total pre + (n + 12)) = total pre + (n + 12) + (k + 12) := hnext2
        simp only [hnext, hnext3, hram]
        exact plugged_join h rfl
      · cases post with
        | nil => exact List.isChain_singleton _
        | cons c post =>
          have hc := (List.isChain_cons_cons.1 hpost).1.resolve_left Bool.false_ne_true
          exact List.isChain_cons_cons.2 ⟨.inr hc, (List.isChain_cons_cons.1 hpost).2⟩

/-- The block in front is joined exactly if it is free. -/
theorem plugBackward_spec (h : Tiles s.ram (pre ++ .free n :: post)) (hpre : Separated pre)
    (hpost : Separated (.free n :: post)) :
    ∃ pre' n', Plugged s (s.plugBackward (total pre)) (pre ++ .free n :: post)
        (pre' ++ .free n' :: post) ∧ Separated (pre' ++ .free n' :: post) := by
  obtain ⟨w, last, ha⟩ := h.around
  have hnext : next s.ram (total pre) = total pre + (n + 12) := ha.next
  rcases List.eq_nil_or_concat pre with rfl | ⟨pre, b, rfl⟩
  · have hprev : prev s.ram (total []) = total [] := by
      rw [ha.prev]
      exact ha.before.last_nil
    refine ⟨[], n, ?_, hpost⟩
    rw [plugBackward, if_neg (by rw [hprev]; exact fun hc => hc.1 rfl)]
    exact .refl h
  · have hw : w = total pre := by
      rw [List.concat_eq_append] at ha
      rw [ha.before.last_concat, Nat.zero_add]
    rw [List.concat_eq_append] at *
    have htot : total (pre ++ [b]) = total pre + b.size := by
      rw [total_append]
      rfl
    have hb := b.header_le_size
    have hat : pre ++ [b] ++ Block.free n :: post = pre ++ b :: .free n :: post := by simp
    have hprev : prev s.ram (total (pre ++ [b])) = total pre := ha.prev.trans hw
    obtain ⟨w', last', ha'⟩ := (hat ▸ h).around
    cases b with
    | used data =>
      refine ⟨pre ++ [.used data], n, ?_, ?_⟩
      · rw [plugBackward, if_neg (by rw [hprev, ha'.used]; exact fun hc => nomatch hc.2)]
        exact .refl h
      · refine separated_append.2 ⟨hpre, hpost, fun x hx y _ => .inl ?_⟩
        rw [List.getLast?_concat] at hx
        cases hx
        rfl
    | free k =>
      refine ⟨pre, k + 12 + n, ?_, ?_⟩
      · have htot' : total (pre ++ [Block.free k]) = total pre + (k + 12) := htot
        have hused : used s.ram (total pre) = false := ha'.used
        rw [plugBackward, if_pos ⟨by rw [hprev]; omega, by rw [hprev, hused]⟩]
        rw [htot'] at hnext hprev ⊢
        have hram : next (setNext s.ram (total pre) (total pre + (k + 12) + (n + 12)))
            (total pre + (k + 12)) = total pre + (k + 12) + (n + 12) := by
          rw [next_setNext (by omega), hnext]
        simp only [hprev, hnext, hram]
        rw [hat] at h ⊢
        exact plugged_join h rfl
      · obtain ⟨hs, -, hlast⟩ := separated_append.1 hpre
        refine separated_append.2 ⟨hs, ?_, fun x hx y _ => .inl ?_⟩
        · cases post with
          | nil => exact List.isChain_singleton _
          | cons c post =>
            have hc := (List.isChain_cons_cons.1 hpost).1.resolve_left Bool.false_ne_true
            exact List.isChain_cons_cons.2 ⟨.inr hc, (List.isChain_cons_cons.1 hpost).2⟩
        · exact (hlast x hx _ rfl).resolve_right Bool.false_ne_true

/-- **`plug_holes` leaves no two free blocks beside each other** and changes nothing that a client
observes. -/
theorem plugHoles_spec (h : Tiles s.ram (pre ++ .free n :: post)) (hpre : Separated pre)
    (hpost : Separated post) :
    ∃ bs', Plugged s (s.plugHoles (total pre)) (pre ++ .free n :: post) bs' ∧ Separated bs' := by
  obtain ⟨n', post', hforward, hs⟩ := plugForward_spec h hpost
  obtain ⟨pre', n'', hback, hs'⟩ := plugBackward_spec hforward.tiles hpre hs
  exact ⟨_, hforward.trans hback, hs'⟩

end Plug

/-! ## The calls -/

/-- The heap holds the blocks `bs`. -/
structure Rep (s : MemHeap) (bs : List Block) : Prop where
  tiles : Tiles s.ram bs
  separated : Separated bs
  ends : EndsFree bs
  lfree : FreeFrom 0 bs s.lfree
  sem : s.mem_sem ≠ 0

/-- What holds besides as long as no block is cut off: `lfree` is the lowest free block, and all are
aligned. -/
structure Tidy (s : MemHeap) (bs : List Block) : Prop where
  lowest : ∀ p, FreeFrom 0 bs p → s.lfree ≤ p
  aligned : Aligned bs

section Calls

variable {s : MemHeap} {bs : List Block}

theorem rep_memInit (ram : Memory) : Rep (memInit ram) [.free (memSize - 12)] := by
  have hsize : memSize = 5120000 := rfl
  have hblock : (Block.free (memSize - 12)).size = memSize := rfl
  obtain ⟨m, hm⟩ : ∃ m, (memInit ram).ram = setPrev (setNext (setUsed (setUsed (setPrev (setNext m 0
    memSize) 0 0) 0 false) memSize true) memSize memSize) memSize memSize := ⟨_, rfl⟩
  refine ⟨⟨⟨0, .cons ?_ ?_ ?_ trivial ?_⟩, ?_⟩, List.isChain_singleton _, ⟨_, rfl, rfl⟩,
    .inl ⟨rfl, rfl⟩, Nat.one_ne_zero⟩
  · rw [hm, hblock, next_setPrev (by omega), next_setNext (by omega), next_setUsed (by omega),
      next_setUsed (by omega), next_setPrev (by omega), next_setNext_self (by omega), Nat.zero_add]
  · rw [hm, prev_setPrev (by omega), prev_setNext (by omega), prev_setUsed (by omega),
      prev_setUsed (by omega), prev_setPrev_self (by omega)]
  · rw [hm, used_setPrev (by omega), used_setNext (by omega), used_setUsed (by omega),
      used_setUsed_self]
    rfl
  · rw [hblock, Nat.zero_add]
    exact .nil
  · rw [hm, used_setPrev (by omega), used_setNext (by omega), used_setUsed_self]

/-- **The search** takes the first free block that is large enough. -/
theorem search_spec {m : Memory} {p v last fuel : Nat} (size : Nat) (h : Chain m p v bs memSize last)
    (hfuel : bs.length < fuel) :
    (∃ pre k post, bs = pre ++ .free k :: post ∧ size + 12 ≤ k ∧
      Loop.run (searchBody m size) fuel p = some (some (p + total pre))) ∨
    Loop.run (searchBody m size) fuel p = some none ∧ ∀ k, Block.free k ∈ bs → k < size + 12 := by
  have hsize : memSize = 5120000 := rfl
  induction bs generalizing p v fuel with
  | nil =>
    obtain ⟨fuel, rfl⟩ : ∃ f, fuel = f + 1 := ⟨fuel - 1, by omega⟩
    have hend : p = memSize := h.end_eq_iff.2 rfl
    refine .inr ⟨Loop.run_done ?_, fun k hk => nomatch hk⟩
    rw [searchBody, if_neg (by omega)]
  | cons b bs ih =>
    obtain ⟨fuel, rfl⟩ : ∃ f, fuel = f + 1 := ⟨fuel - 1, by omega⟩
    have hnext := h.next_head
    have hused := h.used_head
    have hb := b.header_le_size
    have hend := h.end_eq
    rw [total] at hend
    have hrest : ∃ w, Chain m (p + b.size) w bs memSize last := by
      cases h with
      | cons _ _ _ _ h => exact ⟨_, h⟩
    obtain ⟨w, hrest⟩ := hrest
    have hroom : (next m p + 4294967296 - (p + sizeofStructMem)) % 4294967296 = b.size - 12 := by
      have : sizeofStructMem = 12 := rfl
      omega
    by_cases hfit : b.isUsed = false ∧ size + 12 ≤ b.size - 12
    · cases b with
      | used data => cases hfit.1
      | free k =>
        refine .inl ⟨[], k, bs, rfl, hfit.2, Loop.run_done ?_⟩
        rw [searchBody, if_pos (by omega), if_pos ?_]
        · rfl
        · rw [hroom, hused]
          exact Bool.and_eq_true_iff.2 ⟨rfl, decide_eq_true hfit.2⟩
    · have hbody : searchBody m size p = some (.inl (p + b.size)) := by
        rw [searchBody, if_pos (by omega), if_neg ?_, hnext]
        rw [hroom, hused, Bool.and_eq_true_iff, Bool.not_eq_true', decide_eq_true_iff]
        exact hfit
      rw [Loop.run_next hbody]
      rcases ih hrest (Nat.lt_of_succ_lt_succ hfuel) with ⟨pre, k, post, rfl, hk, hrun⟩ | ⟨hrun, hsmall⟩
      · refine .inl ⟨b :: pre, k, post, rfl, hk, ?_⟩
        rw [hrun, total, Nat.add_assoc]
      · refine .inr ⟨hrun, fun k hk => ?_⟩
        rcases List.mem_cons.1 hk with rfl | hk
        · by_contra hlt
          exact hfit ⟨rfl, by show _ ≤ k + 12 - 12; omega⟩
        · exact hsmall k hk

/-- The loop behind the search finds the new free block. -/
theorem lfree_spec {m : Memory} {pre post : List Block} {data : List Byte} {r fuel : Nat}
    (h : Tiles m (pre ++ .used data :: .free r :: post)) (hfuel : 2 ≤ fuel) :
    Loop.run (lfreeBody m) fuel (total pre) = some (total pre + (data.length + 12)) := by
  have hsize : memSize = 5120000 := rfl
  obtain ⟨fuel, rfl⟩ : ∃ f, fuel = f + 1 + 1 := ⟨fuel - 2, by omega⟩
  obtain ⟨w, last, ha⟩ := h.around
  have hle : total pre + (data.length + 12) ≤ memSize := ha.behind.le_end
  have hnext : next m (total pre) = total pre + (data.length + 12) := ha.next
  rw [Loop.run_next (t := total pre + (data.length + 12)), Loop.run_done]
  · rw [lfreeBody, if_neg]
    rintro ⟨hused, -⟩
    exact absurd (ha.behind.used_head.symm.trans hused) Bool.false_ne_true
  · rw [lfreeBody, if_pos ⟨ha.used, by omega⟩, hnext]

/-- The first part of a free block from `lfree` on is taken. -/
theorem Rep.take {pre post : List Block} {k n : Nat} (h : Rep s (pre ++ .free k :: post))
    (hn : n + 12 ≤ k) (hal : n % 4 = 0) (hl : s.lfree ≤ total pre) {data : List Byte} {r : Nat}
    (hlen : data.length = n) (hr : r = k - n - 12) {s' : MemHeap}
    (htiles : Tiles s'.ram (pre ++ .used data :: .free r :: post))
    (hlfree : s'.lfree = if total pre = s.lfree then total pre + (n + 12) else s.lfree)
    (hsem : s'.mem_sem = s.mem_sem) :
    Rep s' (pre ++ .used data :: .free r :: post) ∧
      (Tidy s (pre ++ .free k :: post) → Tidy s' (pre ++ .used data :: .free r :: post)) := by
  have hold : ∀ p, FreeFrom 0 (pre ++ .free k :: post) p ↔
      FreeFrom 0 pre p ∨ p = total pre ∨ FreeFrom (total pre + (k + 12)) post p := by
    intro p
    simp only [freeFrom_append, FreeFrom, Block.isUsed, true_and, Nat.zero_add]
    rfl
  have hnew : ∀ p, FreeFrom 0 (pre ++ .used data :: .free r :: post) p ↔
      FreeFrom 0 pre p ∨ p = total pre + (n + 12) ∨ FreeFrom (total pre + (k + 12)) post p := by
    intro p
    have h1 : total pre + (Block.used data).size = total pre + (n + 12) := by rw [← hlen]; rfl
    have h2 : total pre + (n + 12) + (Block.free r).size = total pre + (k + 12) := by
      show total pre + (n + 12) + (r + 12) = _
      omega
    simp only [freeFrom_append, FreeFrom, Block.isUsed, true_and, Nat.zero_add, h1, h2, reduceCtorEq,
      false_and, false_or]
  obtain ⟨hspre, hsfree, hslast⟩ := separated_append.1 h.separated
  refine ⟨⟨htiles, ?_, ?_, ?_, hsem ▸ h.sem⟩, fun htidy => ⟨fun p hp => ?_, ?_⟩⟩
  · refine separated_append.2 ⟨hspre, List.isChain_cons_cons.2 ⟨.inl rfl, ?_⟩, fun x _ y hy => .inr ?_⟩
    · cases post with
      | nil => exact List.isChain_singleton _
      | cons c post => exact List.isChain_cons_cons.2 (List.isChain_cons_cons.1 hsfree)
    · cases hy
      rfl
  · exact EndsFree.replace [.free k] [.used data, .free r] h.ends fun _ => ⟨_, rfl, rfl⟩
  · rw [hnew, hlfree]
    split
    · exact .inr (.inl rfl)
    · rcases (hold _).1 h.lfree with hf | hf | hf
      · exact .inl hf
      · omega
      · exact .inr (.inr hf)
  · rw [hnew] at hp
    have hle : s.lfree ≤ p := by
      rcases hp with hp | hp | hp
      · exact htidy.lowest p ((hold p).2 (.inl hp))
      · omega
      · exact htidy.lowest p ((hold p).2 (.inr (.inr hp)))
    rw [hlfree]
    split
    · rcases hp with hp | hp | hp
      · have := hp.range
        omega
      · omega
      · have := hp.range
        omega
    · exact hle
  · refine Aligned.replace [.free k] [.used data, .free r] htidy.aligned fun hfree => ?_
    have hk : (k + 12) % 4 = 0 := hfree (.free k) (by simp)
    refine List.forall_mem_cons.2 ⟨?_, List.forall_mem_singleton.2 ?_⟩
    · show (data.length + 12) % 4 = 0
      omega
    · show (r + 12) % 4 = 0
      omega

theorem align_mod (size : Nat) : align size % 4 = 0 := by
  have : sizeofStructMem = 12 := rfl
  unfold align
  split <;> omega

theorem le_align {size : Nat} (h : size ≤ 4294967292) : size ≤ align size := by
  have : sizeofStructMem = 12 := rfl
  unfold align
  split <;> omega

/-- No block in use begins where a free one does. -/
theorem liveFrom_ne {pre post : List Block} {k p : Nat} {d : List Byte}
    (h : LiveFrom 0 (pre ++ .free k :: post) p d) : p ≠ total pre + 12 := by
  simp only [liveFrom_append, LiveFrom, reduceCtorEq, false_and, false_or, Nat.zero_add] at h
  have hk : (Block.free k).size = k + 12 := rfl
  rcases h with h | h
  · have := h.range
    omega
  · have := h.range
    omega

theorem liveFrom_taken {pre post : List Block} {k r : Nat} {data : List Byte}
    (hr : data.length + 12 + r = k) (p : Nat) (d : List Byte) :
    LiveFrom 0 (pre ++ .used data :: .free r :: post) p d ↔
      (p = total pre + 12 ∧ d = data) ∨ LiveFrom 0 (pre ++ .free k :: post) p d := by
  have hend : total pre + (Block.used data).size + (Block.free r).size
      = total pre + (Block.free k).size := by
    show total pre + (data.length + 12) + (r + 12) = total pre + (k + 12)
    omega
  simp only [liveFrom_append, LiveFrom, reduceCtorEq, false_and, false_or, Nat.zero_add, hend,
    Block.used.injEq]
  rw [or_left_comm, and_comm, @eq_comm _ data]

theorem memMalloc_refuses {size : Nat} (h : size = 0 ∨ memSize < align size) :
    s.memMalloc size = some (none, s) := by
  unfold memMalloc
  split
  · rfl
  · rw [if_pos (h.resolve_left ‹_›)]

/-- **`mem_malloc`** takes its block from the first free one that is large enough, from `lfree` on. -/
theorem memMalloc_spec (h : Rep s bs) {size : Nat} (h0 : size ≠ 0) (hle : align size ≤ memSize) :
    (s.memMalloc size = some (none, s) ∧
      ∀ pre k post, bs = pre ++ .free k :: post → s.lfree ≤ total pre → k < align size + 12) ∨
    ∃ pre k post data s', bs = pre ++ .free k :: post ∧ align size + 12 ≤ k ∧
      data.length = align size ∧ s.memMalloc size = some (some (total pre + 12), s') ∧
      Rep s' (pre ++ .used data :: .free (k - align size - 12) :: post) ∧
      (Tidy s bs → Tidy s' (pre ++ .used data :: .free (k - align size - 12) :: post)) := by
  have hsize : memSize = 5120000 := rfl
  obtain ⟨pre₀, k₀, post₀, rfl, hl⟩ := h.lfree.split
  rw [Nat.zero_add] at hl
  obtain ⟨last, hc⟩ := h.tiles.chain
  obtain ⟨w, -, hfrom⟩ := hc.split
  have hend := hfrom.end_eq
  rw [Nat.zero_add, ← hl] at hfrom
  have hfuel : (Block.free k₀ :: post₀).length < memSize := by
    have := length_le_total post₀
    have : total (.free k₀ :: post₀) = k₀ + 12 + total post₀ := rfl
    rw [List.length_cons]
    omega
  rw [memMalloc, if_neg h0, if_neg (Nat.not_lt.2 hle), if_neg h.sem]
  rcases search_spec (align size) hfrom hfuel with ⟨mid, k, post, heq, hk, hrun⟩ | ⟨hrun, hsmall⟩
  · have hbs : pre₀ ++ .free k₀ :: post₀ = (pre₀ ++ mid) ++ .free k :: post := by
      rw [heq, List.append_assoc]
    have htot : s.lfree + total mid = total (pre₀ ++ mid) := by rw [hl, total_append]
    rw [hbs] at h ⊢
    rw [htot] at hrun
    generalize pre₀ ++ mid = pre at *
    have htiles := h.tiles.split hk
    have hlen : (read s.ram (total pre + 12) (align size)).length = align size := length_read ..
    refine .inr ⟨pre, k, post, read s.ram (total pre + 12) (align size),
      ⟨MemHeap.split s.ram (total pre) (align size),
        if total pre = s.lfree then total pre + (align size + 12) else s.lfree, s.mem_sem⟩,
      rfl, hk, hlen, ?_, h.take hk (align_mod size) (by omega) hlen rfl htiles rfl rfl⟩
    simp only [hrun, Option.bind_eq_bind, Option.bind_some]
    split
    · rename_i heq'
      rw [← heq', lfree_spec htiles (by omega), hlen]
      rfl
    · rfl
  · refine .inl ⟨?_, fun pre k post heq hle' => hsmall k ?_⟩
    · simp only [hrun, Option.bind_eq_bind, Option.bind_some]
    · exact mem_of_total_le heq (hl ▸ hle')

section Used

variable {pre post : List Block} {data : List Byte}

/-- The blocks in use apart from one of them. -/
theorem liveFrom_others (p : Nat) (d : List Byte) :
    LiveFrom 0 (pre ++ .used data :: post) p d ∧ p ≠ total pre + 12 ↔
      LiveFrom 0 pre p d ∨ LiveFrom (total pre + (data.length + 12)) post p d := by
  have hmid : LiveFrom 0 (pre ++ .used data :: post) p d ↔ LiveFrom 0 pre p d ∨
      (Block.used data = .used d ∧ p = total pre + 12) ∨
      LiveFrom (total pre + (data.length + 12)) post p d := by
    simp only [liveFrom_append, LiveFrom, Nat.zero_add]
    rfl
  rw [hmid]
  constructor
  · rintro ⟨h | h | h, hne⟩
    · exact .inl h
    · exact absurd h.2 hne
    · exact .inr h
  · rintro (h | h)
    · have := h.range
      exact ⟨.inl h, by omega⟩
    · have := h.range
      exact ⟨.inr (.inr h), by omega⟩

/-- The blocks in use when the data of one of them has changed and free blocks may follow it. -/
theorem liveFrom_changed {data' : List Byte} (rest : List Block)
    (hrest : ∀ base p d, LiveFrom base rest p d ↔ False)
    (htot : total (.used data' :: rest) = data.length + 12) (p : Nat) (d : List Byte) :
    LiveFrom 0 (pre ++ ((.used data' :: rest) ++ post)) p d ↔
      (p = total pre + 12 ∧ d = data') ∨
      LiveFrom 0 (pre ++ .used data :: post) p d ∧ p ≠ total pre + 12 := by
  rw [liveFrom_others, liveFrom_append, liveFrom_append, LiveFrom, hrest, htot, Nat.zero_add, or_false,
    Block.used.injEq]
  constructor
  · rintro (h | ⟨rfl, rfl⟩ | h)
    · exact .inr (.inl h)
    · exact .inl ⟨rfl, rfl⟩
    · exact .inr (.inr h)
  · rintro (⟨rfl, rfl⟩ | h | h)
    · exact .inr (.inl ⟨rfl, rfl⟩)
    · exact .inl h
    · exact .inr (.inr h)

/-- A pointer to data lies in the array. -/
theorem Rep.data_lt (h : Rep s (pre ++ .used data :: post)) :
    total pre + 12 + data.length < memSize := by
  obtain ⟨w, last, ha⟩ := h.tiles.around
  have hbehind : Chain s.ram (total pre + (data.length + 12)) (total pre) post memSize last := ha.behind
  cases post with
  | nil =>
    obtain ⟨b, hb, hfree⟩ := h.ends
    rw [List.getLast?_concat] at hb
    cases hb
    cases hfree
  | cons c post =>
    have hend := hbehind.end_eq
    have hc := c.header_le_size
    rw [total] at hend
    omega

/-- **`mem_free`** takes the block away from those in use. -/
theorem memFree_spec (h : Rep s (pre ++ .used data :: post)) :
    ∃ s' bs', s.memFree (some (total pre + 12)) = some s' ∧ Rep s' bs' ∧
      (∀ p d, LiveFrom 0 bs' p d ↔ LiveFrom 0 (pre ++ .used data :: post) p d ∧ p ≠ total pre + 12) ∧
      (Tidy s (pre ++ .used data :: post) → Tidy s' bs') := by
  have hlt := h.data_lt
  obtain ⟨hspre, hsrest, -⟩ := separated_append.1 h.separated
  obtain ⟨s₁, hs₁⟩ : ∃ s₁ : MemHeap, s₁ = ⟨setUsed s.ram (total pre) false,
    if total pre < s.lfree then total pre else s.lfree, s.mem_sem⟩ := ⟨_, rfl⟩
  have htiles : Tiles s₁.ram (pre ++ .free data.length :: post) := hs₁ ▸ h.tiles.release
  obtain ⟨bs', hplug, hsep⟩ := plugHoles_spec htiles hspre (List.isChain_cons.1 hsrest).2
  have hfree : ∀ p, FreeFrom 0 (pre ++ .free data.length :: post) p ↔
      p = total pre ∨ FreeFrom 0 (pre ++ .used data :: post) p := by
    intro p
    simp only [freeFrom_append, FreeFrom, Block.isUsed, true_and, reduceCtorEq, false_and, false_or,
      Nat.zero_add]
    exact or_left_comm
  have hlfree : s₁.lfree = if total pre < s.lfree then total pre else s.lfree := by rw [hs₁]
  refine ⟨s₁.plugHoles (total pre), bs', ?_, ⟨hplug.tiles, hsep, hplug.ends ?_, hplug.lfree ?_, ?_⟩,
    fun p d => ?_, fun htidy => ⟨hplug.lowest fun p hp => ?_, hplug.aligned ?_⟩⟩
  · rw [memFree, if_neg h.sem, if_neg (by omega), hs₁]
    rfl
  · exact EndsFree.replace [.used data] [.free data.length] h.ends fun _ => ⟨_, rfl, rfl⟩
  · rw [hfree, hlfree]
    split
    · exact .inl rfl
    · exact .inr h.lfree
  · rw [hplug.sem, hs₁]
    exact h.sem
  · rw [hplug.live, liveFrom_others]
    simp only [liveFrom_append, LiveFrom, reduceCtorEq, false_and, false_or, Nat.zero_add]
    rfl
  · rw [hlfree]
    rcases (hfree p).1 hp with rfl | hp
    · split <;> omega
    · have := htidy.lowest p hp
      split <;> omega
  · exact Aligned.replace [.used data] [.free data.length] htidy.aligned fun hdata =>
      List.forall_mem_singleton.2 (hdata (.used data) List.mem_cons_self)

/-- What `mem_realloc` keeps of the data. -/
def kept (data : List Byte) (newsize : Nat) : List Byte :=
  if newsize + 24 < data.length then data.take newsize else data

/-- **`mem_realloc`** cuts the data off, if much of it goes. -/
theorem memRealloc_spec (h : Rep s (pre ++ .used data :: post)) {newsize : Nat}
    (hnew : newsize + 24 < 4294967296) :
    ∃ s' bs', s.memRealloc (total pre + 12) newsize = some s' ∧ Rep s' bs' ∧
      ∀ p d, LiveFrom 0 bs' p d ↔ (p = total pre + 12 ∧ d = kept data newsize) ∨
        LiveFrom 0 (pre ++ .used data :: post) p d ∧ p ≠ total pre + 12 := by
  have hlt := h.data_lt
  have hsize : memSize = 5120000 := rfl
  obtain ⟨w, last, ha⟩ := h.tiles.around
  have hnext : next s.ram (total pre) = total pre + (data.length + 12) := ha.next
  have hold : (next s.ram (total pre) + 4294967296 - total pre + 4294967296 - sizeofStructMem)
      % 4294967296 = data.length := by
    have : sizeofStructMem = 12 := rfl
    omega
  have hpoint : total pre + 12 - sizeofStructMem = total pre := Nat.add_sub_cancel ..
  have hcond : (newsize + sizeofStructMem + minSize) % 4294967296 = newsize + 24 := by
    show (newsize + 12 + 12) % 4294967296 = _
    omega
  obtain ⟨hspre, hsrest, -⟩ := separated_append.1 h.separated
  by_cases hcut : newsize + 24 < data.length
  · have hkept : kept data newsize = data.take newsize := if_pos hcut
    have hlen : (data.take newsize).length = newsize := by
      rw [List.length_take, Nat.min_eq_left (by omega)]
    have hptr2 : (total pre + sizeofStructMem + newsize) % 4294967296 = total pre + 12 + newsize := by
      show (total pre + 12 + newsize) % 4294967296 = _
      omega
    obtain ⟨r, hr⟩ : ∃ r, r = data.length - newsize - 12 := ⟨_, rfl⟩
    obtain ⟨s₁, hs₁⟩ : ∃ s₁ : MemHeap, s₁ = { s with
      ram := trim s.ram (total pre) (total pre + 12 + newsize) } := ⟨_, rfl⟩
    have htot : total (pre ++ [.used (data.take newsize)]) = total pre + 12 + newsize := by
      rw [total_append]
      show total pre + ((data.take newsize).length + 12 + 0) = _
      omega
    have htotal : total [.used (data.take newsize), .free r] = data.length + 12 := by
      show (data.take newsize).length + 12 + (r + 12 + 0) = _
      omega
    have htiles : Tiles s₁.ram ((pre ++ [.used (data.take newsize)]) ++ .free r :: post) := by
      rw [hs₁, hr, List.append_assoc]
      exact h.tiles.shrink (by omega)
    have hsep : Separated (pre ++ [.used (data.take newsize)]) := by
      refine separated_append.2 ⟨hspre, List.isChain_singleton _, fun x _ y hy => .inr ?_⟩
      cases hy
      rfl
    obtain ⟨bs', hplug, hsep'⟩ := plugHoles_spec htiles hsep (List.isChain_cons.1 hsrest).2
    rw [List.append_assoc] at hplug
    refine ⟨s₁.plugHoles (total pre + 12 + newsize), bs', ?_, ?_, fun p d => ?_⟩
    · rw [memRealloc, if_neg h.sem, if_neg (by omega)]
      simp only [hpoint, hold, hcond, if_pos hcut, hptr2, hs₁]
    · rw [← htot]
      refine ⟨hplug.tiles, hsep', hplug.ends ?_, hplug.lfree ?_, ?_⟩
      · exact EndsFree.replace [.used data] [.used (data.take newsize), .free r] h.ends
          fun _ => ⟨_, rfl, rfl⟩
      · have hl := h.lfree
        rw [hs₁]
        rw [freeFrom_append] at hl ⊢
        refine hl.imp_right fun hl => .inr (.inr ?_)
        have hl' : FreeFrom (0 + total pre + (data.length + 12)) post s.lfree :=
          hl.resolve_left fun hc => nomatch hc.1
        have hend : 0 + total pre + (Block.used (data.take newsize)).size + (Block.free r).size
            = 0 + total pre + (data.length + 12) := by
          show 0 + total pre + ((data.take newsize).length + 12) + (r + 12) = _
          omega
        rw [hend]
        exact hl'
      · rw [hplug.sem, hs₁]
        exact h.sem
    · rw [hplug.live, hkept]
      exact liveFrom_changed [.free r] (fun _ _ _ => by simp [LiveFrom]) htotal p d
  · have hkept : kept data newsize = data := if_neg hcut
    refine ⟨s, pre ++ .used data :: post, ?_, h, fun p d => ?_⟩
    · rw [memRealloc, if_neg h.sem, if_neg (by omega)]
      simp only [hpoint, hold, hcond, if_neg hcut]
    · rw [hkept]
      exact liveFrom_changed [] (fun _ _ _ => Iff.rfl) rfl p d

/-- A byte of the data is written. -/
theorem Rep.write (h : Rep s (pre ++ .used data :: post)) {i : Nat} (hi : i < data.length) (x : Byte) :
    Rep { s with ram := Function.update s.ram (total pre + 12 + i) x }
        (pre ++ .used (data.set i x) :: post) ∧
      (∀ p d, LiveFrom 0 (pre ++ .used (data.set i x) :: post) p d ↔
        (p = total pre + 12 ∧ d = data.set i x) ∨
        LiveFrom 0 (pre ++ .used data :: post) p d ∧ p ≠ total pre + 12) ∧
      (Tidy s (pre ++ .used data :: post) →
        Tidy { s with ram := Function.update s.ram (total pre + 12 + i) x }
          (pre ++ .used (data.set i x) :: post)) := by
  have hsize : (Block.used (data.set i x)).size = (Block.used data).size := by
    show (data.set i x).length + 12 = data.length + 12
    rw [List.length_set]
  have hfree : ∀ p, FreeFrom 0 (pre ++ .used (data.set i x) :: post) p ↔
      FreeFrom 0 (pre ++ .used data :: post) p := by
    intro p
    simp only [freeFrom_append, FreeFrom, hsize, Block.isUsed]
  obtain ⟨hspre, hsrest, hslast⟩ := separated_append.1 h.separated
  refine ⟨⟨h.tiles.write hi x, ?_, ?_, (hfree _).2 h.lfree, h.sem⟩, ?_, fun htidy =>
    ⟨fun p hp => htidy.lowest p ((hfree p).1 hp), ?_⟩⟩
  · refine separated_append.2 ⟨hspre, ?_, fun y _ z hz => .inr ?_⟩
    · cases post with
      | nil => exact List.isChain_singleton _
      | cons c post => exact List.isChain_cons_cons.2 ⟨.inl rfl, (List.isChain_cons_cons.1 hsrest).2⟩
    · cases hz
      rfl
  · refine EndsFree.replace [.used data] [.used (data.set i x)] h.ends fun hnil => ?_
    have := h.data_lt
    obtain ⟨b, hb, hfree⟩ := h.ends
    rw [hnil, List.getLast?_concat] at hb
    cases hb
    cases hfree
  · refine liveFrom_changed [] (fun _ _ _ => Iff.rfl) ?_
    exact hsize
  · refine Aligned.replace [.used data] [.used (data.set i x)] htidy.aligned fun hdata => ?_
    refine List.forall_mem_singleton.2 ?_
    rw [hsize]
    exact hdata _ List.mem_cons_self

end Used

end Calls

end BirRouter
