import BirRouter.Lwip.Heap
import Mathlib.Data.List.Chain

/-!
# Blocks

What the bytes of the heap mean: a list of blocks, free or in use with their data, that lie one behind
another between 0 and `MEM_SIZE` (`Chain`, `Tiles`).  For each of the ways in which `mem.c` changes
headers one lemma says what it does to the list:

* `Tiles.split` — a free block is cut in two and its first part taken;
* `Tiles.shrink` — the end of a block in use is cut off;
* `Tiles.release` — a block in use is marked as free;
* `Tiles.join` — two free blocks become one;
* `Tiles.write` — a byte of the data of a block is written.
-/

set_option autoImplicit false

namespace BirRouter

open ByteLayout ByteMemory

namespace MemHeap

/-! ## Headers -/

section Headers

variable {m m' : Memory} {p q v i : Nat} {b : Bool}

theorem next_congr (h : ∀ i, p ≤ i → i < p + 4 → m i = m' i) : next m p = next m' p :=
  congrArg BitVec.toNat (load_congr h)

theorem prev_congr (h : ∀ i, p + 4 ≤ i → i < p + 8 → m i = m' i) : prev m p = prev m' p :=
  congrArg BitVec.toNat (load_congr h)

theorem used_congr (h : ∀ i, p + 8 ≤ i → i < p + 9 → m i = m' i) : used m p = used m' p :=
  congrArg (· != 0) (load_congr h)

theorem next_setNext_self (h : v < 4294967296) : next (setNext m p v) p = v := by
  simp [next, setNext, Nat.mod_eq_of_lt h]

theorem prev_setPrev_self (h : v < 4294967296) : prev (setPrev m p v) p = v := by
  simp [prev, setPrev, Nat.mod_eq_of_lt h]

theorem used_setUsed_self : used (setUsed m p b) p = b := by
  cases b <;> simp [used, setUsed]

theorem next_setNext (h : q + 4 ≤ p ∨ p + 4 ≤ q) : next (setNext m p v) q = next m q :=
  congrArg BitVec.toNat (load_store_of_disjoint h)

theorem next_setPrev (h : q ≤ p ∨ p + 8 ≤ q) : next (setPrev m p v) q = next m q :=
  congrArg BitVec.toNat (load_store_of_disjoint (show q + 4 ≤ p + 4 ∨ p + 4 + 4 ≤ q by omega))

theorem next_setUsed (h : q ≤ p + 4 ∨ p + 9 ≤ q) : next (setUsed m p b) q = next m q :=
  congrArg BitVec.toNat (load_store_of_disjoint (show q + 4 ≤ p + 8 ∨ p + 8 + 1 ≤ q by omega))

theorem prev_setNext (h : q + 8 ≤ p ∨ p ≤ q) : prev (setNext m p v) q = prev m q :=
  congrArg BitVec.toNat (load_store_of_disjoint (show q + 4 + 4 ≤ p ∨ p + 4 ≤ q + 4 by omega))

theorem prev_setPrev (h : q + 4 ≤ p ∨ p + 4 ≤ q) : prev (setPrev m p v) q = prev m q :=
  congrArg BitVec.toNat (load_store_of_disjoint (show q + 4 + 4 ≤ p + 4 ∨ p + 4 + 4 ≤ q + 4 by omega))

theorem prev_setUsed (h : q ≤ p ∨ p + 5 ≤ q) : prev (setUsed m p b) q = prev m q :=
  congrArg BitVec.toNat (load_store_of_disjoint (show q + 4 + 4 ≤ p + 8 ∨ p + 8 + 1 ≤ q + 4 by omega))

theorem used_setNext (h : q + 9 ≤ p ∨ p ≤ q + 4) : used (setNext m p v) q = used m q :=
  congrArg (· != 0) (load_store_of_disjoint (show q + 8 + 1 ≤ p ∨ p + 4 ≤ q + 8 by omega))

theorem used_setPrev (h : q + 5 ≤ p ∨ p ≤ q) : used (setPrev m p v) q = used m q :=
  congrArg (· != 0) (load_store_of_disjoint (show q + 8 + 1 ≤ p + 4 ∨ p + 4 + 4 ≤ q + 8 by omega))

theorem used_setUsed (h : q + 1 ≤ p ∨ p + 1 ≤ q) : used (setUsed m p b) q = used m q :=
  congrArg (· != 0) (load_store_of_disjoint (show q + 8 + 1 ≤ p + 8 ∨ p + 8 + 1 ≤ q + 8 by omega))

theorem setNext_apply (h : i < p ∨ p + 4 ≤ i) : setNext m p v i = m i := store_of_out h

theorem setPrev_apply (h : i < p + 4 ∨ p + 8 ≤ i) : setPrev m p v i = m i :=
  store_of_out (show i < p + 4 ∨ p + 4 + 4 ≤ i by omega)

theorem setUsed_apply (h : i < p + 8 ∨ p + 9 ≤ i) : setUsed m p b i = m i :=
  store_of_out (show i < p + 8 ∨ p + 8 + 1 ≤ i by omega)

theorem linkBack_apply (h : i < next m p + 4 ∨ next m p + 8 ≤ i) : linkBack m p i = m i := by
  unfold linkBack
  split
  · exact setPrev_apply h
  · rfl

theorem next_linkBack (h : q ≤ next m p ∨ next m p + 8 ≤ q) : next (linkBack m p) q = next m q := by
  unfold linkBack
  split
  · exact next_setPrev h
  · rfl

theorem prev_linkBack (h : q + 4 ≤ next m p ∨ next m p + 4 ≤ q) :
    prev (linkBack m p) q = prev m q := by
  unfold linkBack
  split
  · exact prev_setPrev h
  · rfl

theorem used_linkBack (h : q + 5 ≤ next m p ∨ next m p ≤ q) : used (linkBack m p) q = used m q := by
  unfold linkBack
  split
  · exact used_setPrev h
  · rfl

theorem prev_linkBack_next (h : next m p ≠ memSize) (hp : p < 4294967296) :
    prev (linkBack m p) (next m p) = p := by
  rw [linkBack, if_pos h, prev_setPrev_self hp]

end Headers

end MemHeap

open MemHeap

/-! ## Lists of blocks -/

/-- A block: free with room for `n` bytes, or in use with its data. -/
inductive Block
  | free (n : Nat)
  | used (data : List Byte)
  deriving DecidableEq, Repr

namespace Block

/-- The bytes the block takes, with its header. -/
def size : Block → Nat
  | .free n => n + sizeofStructMem
  | .used data => data.length + sizeofStructMem

def isUsed : Block → Bool
  | .free _ => false
  | .used _ => true

theorem header_le_size (b : Block) : 12 ≤ b.size := by
  cases b <;> exact Nat.le_add_left _ _

/-- The bytes behind the header at `p` are the data of the block. -/
def Shows (m : Memory) (p : Nat) : Block → Prop
  | .free _ => True
  | .used data => read m (p + sizeofStructMem) data.length = data

theorem Shows.congr {m m' : Memory} {p : Nat} {b : Block} (h : b.Shows m p)
    (heq : ∀ i, p + 12 ≤ i → i < p + b.size → m i = m' i) : b.Shows m' p := by
  cases b with
  | free n => trivial
  | used data =>
    refine Eq.trans (read_congr fun i hi hi' => ?_) h
    refine (heq i hi ?_).symm
    show i < p + (data.length + 12)
    have hs : i < p + 12 + data.length := hi'
    omega

end Block

/-- The length of a list of blocks. -/
def total : List Block → Nat
  | [] => 0
  | b :: bs => b.size + total bs

theorem total_append (bs cs : List Block) : total (bs ++ cs) = total bs + total cs := by
  induction bs with
  | nil => simp [total]
  | cons b bs ih => rw [List.cons_append, total, total, ih, Nat.add_assoc]

/-- The blocks `bs` lie one behind another from `p` to `e`; the first points back to `v`, and a block
behind them would point back to `last`. -/
inductive Chain (m : Memory) : (p v : Nat) → List Block → (e last : Nat) → Prop
  | nil {p v : Nat} : Chain m p v [] p v
  | cons {p v e last : Nat} {b : Block} {bs : List Block} (hnext : next m p = p + b.size)
      (hprev : prev m p = v) (hused : used m p = b.isUsed) (hshows : b.Shows m p)
      (h : Chain m (p + b.size) p bs e last) : Chain m p v (b :: bs) e last

namespace Chain

variable {m m' : Memory} {p v e last : Nat} {b : Block} {bs cs : List Block}

theorem end_eq (h : Chain m p v bs e last) : e = p + total bs := by
  induction h with
  | nil => rfl
  | cons _ _ _ _ _ ih => rw [ih, total, Nat.add_assoc]

theorem le_end (h : Chain m p v bs e last) : p ≤ e := by
  rw [h.end_eq]
  exact Nat.le_add_right _ _

theorem append (h : Chain m p v bs e last) {e' last' : Nat} (h' : Chain m e last cs e' last') :
    Chain m p v (bs ++ cs) e' last' := by
  induction h with
  | nil => exact h'
  | cons hnext hprev hused hshows _ ih => exact .cons hnext hprev hused hshows (ih h')

theorem split (h : Chain m p v (bs ++ cs) e last) :
    ∃ w, Chain m p v bs (p + total bs) w ∧ Chain m (p + total bs) w cs e last := by
  induction bs generalizing p v with
  | nil => exact ⟨v, .nil, h⟩
  | cons b bs ih =>
    cases h with
    | cons hnext hprev hused hshows h =>
      obtain ⟨w, hb, hc⟩ := ih h
      rw [total, ← Nat.add_assoc]
      exact ⟨w, .cons hnext hprev hused hshows hb, hc⟩

/-- Nothing outside the blocks matters. -/
theorem frame (h : Chain m p v bs e last) (heq : ∀ i, p ≤ i → i < e → m i = m' i) :
    Chain m' p v bs e last := by
  induction h with
  | nil => exact .nil
  | @cons p v e last b bs hnext hprev hused hshows h ih =>
    have hb := b.header_le_size
    have hle := h.le_end
    refine .cons ?_ ?_ ?_ ?_ (ih fun i hi hi' => heq i (by omega) hi')
    · rw [← hnext, next_congr fun i hi hi' => heq i hi (by omega)]
    · rw [← hprev, prev_congr fun i hi hi' => heq i (by omega) (by omega)]
    · rw [← hused, used_congr fun i hi hi' => heq i (by omega) (by omega)]
    · exact hshows.congr fun i hi hi' => heq i (by omega) (by omega)

/-- Of the header in front only the back pointer may change. -/
theorem relink (h : Chain m p v bs e last) {w : Nat}
    (heq : ∀ i, p ≤ i → i < p + 4 ∨ p + 8 ≤ i → m i = m' i) (hw : bs ≠ [] → prev m' p = w) :
    ∃ last', Chain m' p w bs e last' := by
  cases h with
  | nil => exact ⟨w, .nil⟩
  | @cons _ _ _ _ b bs hnext hprev hused hshows h =>
    have hb := b.header_le_size
    refine ⟨last, .cons ?_ (hw (List.cons_ne_nil _ _)) ?_ ?_ ?_⟩
    · rw [← hnext, next_congr fun i hi hi' => heq i hi (.inl hi')]
    · rw [← hused, used_congr fun i hi hi' => heq i (by omega) (.inr hi)]
    · exact hshows.congr fun i hi _ => heq i (by omega) (by omega)
    · exact h.frame fun i hi _ => heq i (by omega) (by omega)

theorem prev_head (h : Chain m p v bs e last) (hbs : bs ≠ []) : prev m p = v := by
  cases h with
  | nil => exact absurd rfl hbs
  | cons _ hprev _ _ _ => exact hprev

theorem next_head (h : Chain m p v (b :: bs) e last) : next m p = p + b.size := by
  cases h with
  | cons hnext _ _ _ _ => exact hnext

theorem used_head (h : Chain m p v (b :: bs) e last) : used m p = b.isUsed := by
  cases h with
  | cons _ _ hused _ _ => exact hused

theorem last_nil (h : Chain m p v [] e last) : last = v := by
  cases h
  rfl

/-- A block points back to the block in front of it. -/
theorem last_concat (h : Chain m p v (bs ++ [b]) e last) : last = p + total bs := by
  obtain ⟨w, -, hb⟩ := h.split
  cases hb with
  | cons _ _ _ _ hnil =>
    cases hnil
    rfl

theorem end_eq_iff (h : Chain m p v bs e last) : p = e ↔ bs = [] := by
  cases bs with
  | nil => simpa [total] using h.end_eq.symm
  | cons b bs =>
    have := h.end_eq
    have := b.header_le_size
    rw [total] at *
    simp only [reduceCtorEq, iff_false]
    omega

end Chain

/-- The blocks `bs` fill the heap. -/
structure Tiles (m : Memory) (bs : List Block) : Prop where
  chain : ∃ last, Chain m 0 0 bs memSize last
  sentinel : used m memSize = true

namespace Tiles

variable {m m' : Memory} {b : Block} {pre post : List Block}

/-- What the memory shows around a block. -/
structure Around (m : Memory) (pre : List Block) (b : Block) (post : List Block) (w last : Nat) :
    Prop where
  before : Chain m 0 0 pre (total pre) w
  next : next m (total pre) = total pre + b.size
  prev : prev m (total pre) = w
  used : used m (total pre) = b.isUsed
  shows : b.Shows m (total pre)
  behind : Chain m (total pre + b.size) (total pre) post memSize last

theorem around (h : Tiles m (pre ++ b :: post)) : ∃ w last, Around m pre b post w last := by
  obtain ⟨last, hc⟩ := h.chain
  obtain ⟨w, hpre, hrest⟩ := hc.split
  rw [Nat.zero_add] at hpre hrest
  cases hrest with
  | cons hnext hprev hused hshows hpost =>
    exact ⟨w, last, hpre, hnext, hprev, hused, hshows, hpost⟩

theorem total_le (old : List Block) (h : Tiles m (pre ++ (old ++ post))) :
    total pre + total old ≤ memSize := by
  obtain ⟨last, hc⟩ := h.chain
  have hend := hc.end_eq
  rw [total_append, total_append] at hend
  omega

/-- **Blocks are replaced by others** that take the same place, if nothing else changes but the back
pointer of the header behind them. -/
theorem replace (old new : List Block) (h : Tiles m (pre ++ (old ++ post)))
    (hpre : ∀ i, i < total pre → m i = m' i)
    (hpost : ∀ i, total pre + total old ≤ i →
      i < total pre + total old + 4 ∨ total pre + total old + 8 ≤ i → m i = m' i)
    (hnew : ∀ w u, Chain m 0 0 pre (total pre) w →
      Chain m (total pre) w old (total pre + total old) u → ∃ v,
      Chain m' (total pre) w new (total pre + total old) v ∧
      (post ≠ [] → prev m' (total pre + total old) = v)) :
    Tiles m' (pre ++ (new ++ post)) := by
  have hle := total_le old h
  obtain ⟨last, hc⟩ := h.chain
  obtain ⟨w, hcpre, hrest⟩ := hc.split
  rw [Nat.zero_add] at hcpre hrest
  obtain ⟨u, hcold, hcpost⟩ := hrest.split
  obtain ⟨v, hcnew, hback⟩ := hnew w u hcpre hcold
  obtain ⟨last', hcpost'⟩ := hcpost.relink hpost hback
  refine ⟨⟨last', ?_⟩, ?_⟩
  · exact (hcpre.frame fun i _ hi => hpre i hi).append (hcnew.append hcpost')
  · rw [← h.sentinel, used_congr fun i hi hi' => hpost i (by omega) (by omega)]

/-- What is written when a block is cut behind its first bytes: the header in front, a new header,
and the back pointer of the header behind. -/
structure Cuts (m m' : Memory) (q n e : Nat) : Prop where
  same : ∀ i, i < q ∨ q + 12 ≤ i ∧ i < q + 12 + n ∨ q + 12 + n + 12 ≤ i →
    i < e + 4 ∨ e + 8 ≤ i → m i = m' i
  next : next m' q = q + 12 + n
  prev : prev m' q = MemHeap.prev m q
  used : used m' q = true
  next2 : MemHeap.next m' (q + 12 + n) = e
  prev2 : MemHeap.prev m' (q + 12 + n) = q
  used2 : MemHeap.used m' (q + 12 + n) = false
  back : e ≠ memSize → MemHeap.prev m' e = q + 12 + n

/-- **A block is cut in two**: its first part is in use, its second part is free. -/
theorem cut {data : List Byte} {r : Nat} (h : Tiles m (pre ++ b :: post))
    (hsize : b.size = data.length + 12 + (r + 12))
    (hdata : read m (total pre + 12) data.length = data)
    (hcut : Cuts m m' (total pre) data.length (total pre + b.size)) :
    Tiles m' (pre ++ .used data :: .free r :: post) := by
  obtain ⟨w, last, ha⟩ := h.around
  have hpost : post ≠ [] → total pre + b.size ≠ memSize := fun hne heq =>
    hne (ha.behind.end_eq_iff.1 heq)
  have hold : total [b] = b.size := rfl
  generalize hq : total pre = q at *
  have hfirst : q + (Block.used data).size = q + 12 + data.length := by
    show q + (data.length + 12) = _
    omega
  have hsecond : q + 12 + data.length + (Block.free r).size = q + b.size := by
    show q + 12 + data.length + (r + 12) = _
    omega
  refine replace [b] [.used data, .free r] h ?_ ?_ fun w u _ hw => ?_
  · rw [hq]
    exact fun i hi => hcut.same i (.inl hi) (by omega)
  · rw [hq, hold]
    exact fun i hi hi' => hcut.same i (by omega) (by omega)
  · rw [hq, hold] at hw ⊢
    refine ⟨q + 12 + data.length, .cons ?_ ?_ hcut.used ?_ ?_, fun hne => hcut.back (hpost hne)⟩
    · rw [hfirst, hcut.next]
    · rw [hcut.prev, hw.prev_head (List.cons_ne_nil _ _)]
    · show read _ (q + 12) data.length = data
      rw [← read_congr fun i hi hi' => hcut.same i (.inr (.inl ⟨hi, hi'⟩)) (by omega), hdata]
    · rw [hfirst]
      refine .cons ?_ hcut.prev2 hcut.used2 trivial (hsecond ▸ .nil)
      rw [hsecond, hcut.next2]

/-- **A free block is cut in two and its first part taken.** -/
theorem split {k n : Nat} (h : Tiles m (pre ++ .free k :: post)) (hn : n + 12 ≤ k) :
    Tiles (MemHeap.split m (total pre) n)
      (pre ++ .used (read m (total pre + 12) n) :: .free (k - n - 12) :: post) := by
  obtain ⟨w, last, ha⟩ := h.around
  have hle : total pre + (k + 12) ≤ memSize := ha.behind.le_end
  have hnext : next m (total pre) = total pre + (k + 12) := ha.next
  have hsize : memSize = 5120000 := rfl
  refine h.cut ?_ (by rw [length_read]) ?_
  · show k + 12 = (read m (total pre + 12) n).length + 12 + (k - n - 12 + 12)
    rw [length_read]
    omega
  rw [length_read]
  show Cuts m (MemHeap.split m (total pre) n) (total pre) n (total pre + (k + 12))
  generalize total pre = q at *
  -- the memory in front of the last three writes
  obtain ⟨ram, hram⟩ : ∃ ram, ram = setNext (setNext (setPrev m (q + 12 + n) q) (q + 12 + n)
    (q + (k + 12))) q (q + 12 + n) := ⟨_, rfl⟩
  have hsplit : MemHeap.split m q n
      = setUsed (setUsed (linkBack ram (q + 12 + n)) (q + 12 + n) false) q true := by
    have h1 : next (setPrev m (q + 12 + n) q) q = q + (k + 12) := by
      rw [next_setPrev (by omega), hnext]
    rw [hram, ← h1]
    rfl
  have hn2 : next ram (q + 12 + n) = q + (k + 12) := by
    rw [hram, next_setNext (by omega), next_setNext_self (by omega)]
  rw [hsplit]
  refine ⟨fun i hi hi' => ?_, ?_, ?_, used_setUsed_self, ?_, ?_, ?_, fun hne => ?_⟩
  · rw [setUsed_apply (by omega), setUsed_apply (by omega), linkBack_apply (by omega), hram,
      setNext_apply (by omega), setNext_apply (by omega), setPrev_apply (by omega)]
  · rw [next_setUsed (by omega), next_setUsed (by omega), next_linkBack (by omega), hram,
      next_setNext_self (by omega)]
  · rw [prev_setUsed (by omega), prev_setUsed (by omega), prev_linkBack (by omega), hram,
      prev_setNext (by omega), prev_setNext (by omega), prev_setPrev (by omega)]
  · rw [next_setUsed (by omega), next_setUsed (by omega), next_linkBack (by omega), hn2]
  · rw [prev_setUsed (by omega), prev_setUsed (by omega), prev_linkBack (by omega), hram,
      prev_setNext (by omega), prev_setNext (by omega), prev_setPrev_self (by omega)]
  · rw [used_setUsed (by omega), used_setUsed_self]
  · have hback := prev_linkBack_next (m := ram) (p := q + 12 + n) (by rw [hn2]; exact hne) (by omega)
    rw [hn2] at hback
    rw [prev_setUsed (by omega), prev_setUsed (by omega), hback]

/-- **The end of a block in use is cut off.** -/
theorem shrink {data : List Byte} {n : Nat} (h : Tiles m (pre ++ .used data :: post))
    (hn : n + 12 ≤ data.length) :
    Tiles (trim m (total pre) (total pre + 12 + n))
      (pre ++ .used (data.take n) :: .free (data.length - n - 12) :: post) := by
  obtain ⟨w, last, ha⟩ := h.around
  have hle : total pre + (data.length + 12) ≤ memSize := ha.behind.le_end
  have hnext : next m (total pre) = total pre + (data.length + 12) := ha.next
  have hused : used m (total pre) = true := ha.used
  have hshows : read m (total pre + 12) data.length = data := ha.shows
  have hsize : memSize = 5120000 := rfl
  have hlen : (data.take n).length = n := by rw [List.length_take, Nat.min_eq_left (by omega)]
  refine h.cut ?_ ?_ ?_
  · show data.length + 12 = (data.take n).length + 12 + (data.length - n - 12 + 12)
    omega
  · rw [hlen, read_take hshows (by omega)]
  rw [hlen]
  show Cuts m (trim m (total pre) (total pre + 12 + n)) (total pre) n
    (total pre + (data.length + 12))
  generalize total pre = q at *
  obtain ⟨ram, hram⟩ : ∃ ram, ram = setNext (setPrev (setNext (setUsed m (q + 12 + n) false)
    (q + 12 + n) (q + (data.length + 12))) (q + 12 + n) q) q (q + 12 + n) := ⟨_, rfl⟩
  have htrim : trim m q (q + 12 + n) = linkBack ram (q + 12 + n) := by
    have h1 : next (setUsed m (q + 12 + n) false) q = q + (data.length + 12) := by
      rw [next_setUsed (by omega), hnext]
    rw [hram, ← h1]
    rfl
  have hn2 : next ram (q + 12 + n) = q + (data.length + 12) := by
    rw [hram, next_setNext (by omega), next_setPrev (by omega), next_setNext_self (by omega)]
  rw [htrim]
  refine ⟨fun i hi hi' => ?_, ?_, ?_, ?_, ?_, ?_, ?_, fun hne => ?_⟩
  · rw [linkBack_apply (by omega), hram, setNext_apply (by omega), setPrev_apply (by omega),
      setNext_apply (by omega), setUsed_apply (by omega)]
  · rw [next_linkBack (by omega), hram, next_setNext_self (by omega)]
  · rw [prev_linkBack (by omega), hram, prev_setNext (by omega), prev_setPrev (by omega),
      prev_setNext (by omega), prev_setUsed (by omega)]
  · rw [used_linkBack (by omega), hram, used_setNext (by omega), used_setPrev (by omega),
      used_setNext (by omega), used_setUsed (by omega), hused]
  · rw [next_linkBack (by omega), hn2]
  · rw [prev_linkBack (by omega), hram, prev_setNext (by omega), prev_setPrev_self (by omega)]
  · rw [used_linkBack (by omega), hram, used_setNext (by omega), used_setPrev (by omega),
      used_setNext (by omega), used_setUsed_self]
  · have hback := prev_linkBack_next (m := ram) (p := q + 12 + n) (by rw [hn2]; exact hne) (by omega)
    rw [hn2] at hback
    exact hback

/-- **A block is marked as free.** -/
theorem release {data : List Byte} (h : Tiles m (pre ++ .used data :: post)) :
    Tiles (setUsed m (total pre) false) (pre ++ .free data.length :: post) := by
  have hold : total [Block.used data] = data.length + 12 := rfl
  obtain ⟨w, last, ha⟩ := h.around
  refine replace [.used data] [.free data.length] h ?_ ?_ fun w u _ hw => ?_
  · exact fun i hi => (setUsed_apply (by omega)).symm
  · rw [hold]
    exact fun i hi _ => (setUsed_apply (by omega)).symm
  · rw [hold] at hw ⊢
    cases hw with
    | cons hnext hprev _ _ _ =>
    refine ⟨total pre, .cons ?_ ?_ used_setUsed_self trivial .nil, fun hne => ?_⟩
    · rw [next_setUsed (by omega)]
      exact hnext
    · rw [prev_setUsed (by omega), hprev]
    · rw [prev_setUsed (by omega)]
      exact ha.behind.prev_head hne

/-- Two free blocks become one when the header of the second is passed over. -/
theorem join {j k : Nat} (h : Tiles m (pre ++ .free j :: .free k :: post)) :
    Tiles (setPrev (setNext m (total pre) (total pre + (j + 12) + (k + 12)))
      (total pre + (j + 12) + (k + 12)) (total pre)) (pre ++ .free (j + 12 + k) :: post) := by
  have hle : total pre + (j + 12 + (k + 12 + 0)) ≤ memSize :=
    total_le [.free j, .free k] h
  have hsize : memSize = 5120000 := rfl
  have hold : total pre + total [Block.free j, Block.free k] = total pre + (j + 12) + (k + 12) := by
    show total pre + (j + 12 + (k + 12 + 0)) = _
    omega
  have hend : total pre + (Block.free (j + 12 + k)).size = total pre + (j + 12) + (k + 12) := by
    show total pre + (j + 12 + k + 12) = _
    omega
  generalize hq : total pre = q at *
  refine replace [.free j, .free k] [.free (j + 12 + k)] h ?_ ?_ fun w u _ hw => ?_
  · rw [hq]
    exact fun i hi => by rw [setPrev_apply (by omega), setNext_apply (by omega)]
  · rw [hq, hold]
    exact fun i hi hi' => by rw [setPrev_apply (by omega), setNext_apply (by omega)]
  · rw [hq, hold] at hw ⊢
    cases hw with
    | cons _ hprev hused _ _ =>
    refine ⟨q, .cons ?_ ?_ ?_ trivial (hend ▸ .nil), fun _ => prev_setPrev_self (by omega)⟩
    · rw [hend, next_setPrev (by omega), next_setNext_self (by omega)]
    · rw [prev_setPrev (by omega), prev_setNext (by omega), hprev]
    · rw [used_setPrev (by omega), used_setNext (by omega)]
      exact hused

/-- **A byte of the data of a block in use is written.** -/
theorem write {data : List Byte} (h : Tiles m (pre ++ .used data :: post)) {i : Nat}
    (hi : i < data.length) (x : Byte) :
    Tiles (Function.update m (total pre + 12 + i) x) (pre ++ .used (data.set i x) :: post) := by
  have hold : total [Block.used data] = data.length + 12 := rfl
  obtain ⟨w, last, ha⟩ := h.around
  have happly : ∀ k, k ≠ total pre + 12 + i → m k = Function.update m (total pre + 12 + i) x k :=
    fun k hk => (Function.update_of_ne hk ..).symm
  refine replace [.used data] [.used (data.set i x)] h ?_ ?_ fun w u _ hw => ?_
  · exact fun k hk => happly k (by omega)
  · rw [hold]
    exact fun k hk _ => happly k (by omega)
  · have hsize : (Block.used (data.set i x)).size = data.length + 12 := by
      show (data.set i x).length + 12 = _
      rw [List.length_set]
    rw [hold] at hw ⊢
    cases hw with
    | cons hnext hprev hused hshows _ =>
    refine ⟨total pre, .cons ?_ ?_ ?_ ?_ (by rw [hsize]; exact .nil), fun hne => ?_⟩
    · rw [hsize, ← next_congr fun k _ hk => happly k (by omega)]
      exact hnext
    · rw [← prev_congr fun k _ hk => happly k (by omega), hprev]
    · rw [← used_congr fun k _ hk => happly k (by omega)]
      exact hused
    · exact read_update hshows i x
    · rw [← prev_congr fun k hk _ => happly k (by omega)]
      exact ha.behind.prev_head hne

end Tiles

end BirRouter
