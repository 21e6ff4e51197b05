import BirRouter.Lib.Layout
import Mathlib.Data.List.Basic
import Mathlib.Data.List.Infix
import Mathlib.Data.List.TakeWhile
import Mathlib.Tactic.Common

/-!
# Strings in a buffer

A buffer is a list of characters; a string in it ends at the first terminator `nul`.

* `offsets` — where `strchr`, called again behind each find, finds a character;
* `cut` — the lines that a stream completes, and the incomplete one behind them;
* `fgets` — the lines as a buffer of fixed size takes them;
* `tokens` — what `strtok` returns, called again and again; it undoes `intercalate`
  (`tokens_intercalate`);
* `decimal`, `atoi` — numbers in ASCII, inverse to each other in the range of `int` (`atoi_decimal`).
-/

set_option autoImplicit false

namespace CString

variable {α : Type} [DecidableEq α]

/-! ## Searching -/

/-- Offsets of `c` in the string at the start of the buffer, counted from `i`. -/
def offsets (nul c : α) : List α → Nat → List Nat
  | [], _ => []
  | b :: l, i =>
    if b = nul then []
    else if b = c then i :: offsets nul c l (i + 1)
    else offsets nul c l (i + 1)

/-- The offset of the first `c` in the string. -/
def strchr (nul c : α) (l : List α) : Option Nat := (offsets nul c l 0).head?

section

variable {nul c : α}

theorem offsets_eq_nil_iff (hc : c ≠ nul) : ∀ {l : List α} {i : Nat},
    offsets nul c l i = [] ↔ c ∉ l.takeWhile (· ≠ nul)
  | [], i => by simp [offsets]
  | b :: l, i => by
    rw [offsets]
    by_cases hb : b = nul
    · simp [hb]
    · rw [if_neg hb, List.takeWhile_cons_of_pos (by simpa using hb), List.mem_cons, not_or]
      by_cases hbc : b = c
      · simp [hbc]
      · rw [if_neg hbc, offsets_eq_nil_iff hc]
        exact ⟨fun h => ⟨fun e => hbc e.symm, h⟩, And.right⟩

theorem length_offsets : ∀ {l : List α} (i : Nat), nul ∉ l →
    (offsets nul c l i).length = l.count c
  | [], _, _ => rfl
  | b :: l, i, h => by
    obtain ⟨hb, hl⟩ := not_or.1 (mt List.mem_cons.2 h)
    rw [offsets, if_neg (Ne.symm hb)]
    by_cases hbc : b = c
    · rw [if_pos hbc, List.length_cons, length_offsets _ hl, hbc, List.count_cons_self]
    · rw [if_neg hbc, length_offsets _ hl, List.count_cons_of_ne hbc]

/-- No find is before the first one. -/
theorem idxOf_le_of_mem_offsets : ∀ {l : List α} {i p : Nat}, p ∈ offsets nul c l i →
    i + l.idxOf c ≤ p
  | [], _, _, h => absurd h (List.not_mem_nil)
  | b :: l, i, p, h => by
    rw [offsets] at h
    by_cases hb : b = nul
    · rw [if_pos hb] at h
      exact absurd h (List.not_mem_nil)
    rw [if_neg hb] at h
    by_cases hbc : b = c
    · rw [if_pos hbc] at h
      rw [hbc, List.idxOf_cons_self]
      rcases List.mem_cons.1 h with rfl | h
      · exact Nat.le_refl _
      · have := idxOf_le_of_mem_offsets h
        omega
    · rw [if_neg hbc] at h
      have := idxOf_le_of_mem_offsets h
      rw [List.idxOf_cons_ne _ hbc]
      omega

theorem lt_of_mem_offsets {l : List α} {i p : Nat} (h : p ∈ offsets nul c l i) :
    p < i + l.length := by
  induction l generalizing i with
  | nil => exact absurd h List.not_mem_nil
  | cons b l ih =>
    rw [offsets] at h
    rw [List.length_cons]
    split at h
    · exact absurd h List.not_mem_nil
    · split at h
      · rcases List.mem_cons.1 h with rfl | h
        · omega
        · have hlt := ih h
          omega
      · have hlt := ih h
        omega

end

/-! ## Lines -/

/-- The lines, each with its separator, that the stream completes behind the incomplete line
`cur`, and the incomplete line left at the end. -/
def cut (sep : α) : List α → List α → List (List α) × List α
  | cur, [] => ([], cur)
  | cur, b :: l =>
    if b = sep then ((cur ++ [b]) :: (cut sep [] l).1, (cut sep [] l).2)
    else cut sep (cur ++ [b]) l

section

variable {sep : α}

theorem cut_of_not_mem : ∀ {cur l : List α}, sep ∉ l → cut sep cur l = ([], cur ++ l)
  | cur, [], _ => by rw [cut, List.append_nil]
  | cur, b :: l, h => by
    obtain ⟨hb, hl⟩ := not_or.1 (mt List.mem_cons.2 h)
    rw [cut, if_neg (Ne.symm hb), cut_of_not_mem hl, List.append_assoc, List.singleton_append]

theorem cut_append : ∀ (cur l l' : List α),
    cut sep cur (l ++ l') = ((cut sep cur l).1 ++ (cut sep (cut sep cur l).2 l').1,
      (cut sep (cut sep cur l).2 l').2)
  | cur, [], l' => rfl
  | cur, b :: l, l' => by
    rw [List.cons_append, cut, cut]
    split
    · rw [cut_append [] l l', List.cons_append]
    · exact cut_append _ l l'

theorem cut_concat {l : List α} (cur : List α) (h : sep ∉ l) :
    cut sep cur (l ++ [sep]) = ([cur ++ l ++ [sep]], []) := by
  rw [cut_append, cut_of_not_mem h, cut, if_pos rfl, cut]
  rfl

/-- A stream has as many lines as separators. -/
theorem length_cut : ∀ (cur l : List α), (cut sep cur l).1.length = l.count sep
  | _, [] => rfl
  | cur, b :: l => by
    rw [cut]
    by_cases hb : b = sep
    · rw [if_pos hb, List.length_cons, length_cut [] l, hb, List.count_cons_self]
    · rw [if_neg hb, length_cut _ l, List.count_cons_of_ne hb]

/-- The incomplete line becomes part of the first line completed, or of the one left over. -/
theorem cut_longer : ∀ (cur l : List α),
    ∃ m ∈ (cut sep cur l).2 :: (cut sep cur l).1, cur.length ≤ m.length
  | cur, [] => ⟨cur, List.mem_cons_self, Nat.le_refl _⟩
  | cur, b :: l => by
    rw [cut]
    by_cases hb : b = sep
    · rw [if_pos hb]
      exact ⟨cur ++ [b], by simp, by simp⟩
    · rw [if_neg hb]
      obtain ⟨m, hm, hle⟩ := cut_longer (cur ++ [b]) l
      refine ⟨m, hm, ?_⟩
      rw [List.length_append] at hle
      omega

end

/-- The lines that `fgets` reads into a buffer with room for `n` characters: a line that is longer
comes in pieces. -/
def fgets (n : Nat) (sep : α) : List α → List α → List (List α)
  | cur, [] => if cur = [] then [] else [cur]
  | cur, b :: l =>
    if b = sep ∨ cur.length + 1 = n then (cur ++ [b]) :: fgets n sep [] l
    else fgets n sep (cur ++ [b]) l

section

variable {n : Nat} {sep : α}

theorem fgets_line : ∀ (cur l rest : List α),
    fgets n sep cur (l ++ sep :: rest) = fgets n sep cur (l ++ [sep]) ++ fgets n sep [] rest
  | cur, [], rest => by
    rw [List.nil_append, List.nil_append, fgets, if_pos (Or.inl rfl), fgets, if_pos (Or.inl rfl),
      fgets, if_pos rfl, List.singleton_append]
  | cur, b :: l, rest => by
    rw [List.cons_append, List.cons_append, fgets, fgets]
    split
    · rw [fgets_line [] l rest, List.cons_append]
    · exact fgets_line _ l rest

theorem fgets_ne_nil : ∀ (cur l : List α), fgets n sep cur (l ++ [sep]) ≠ []
  | cur, [] => by
    rw [List.nil_append, fgets, if_pos (Or.inl rfl)]
    exact List.cons_ne_nil _ _
  | cur, b :: l => by
    rw [List.cons_append, fgets]
    split
    · exact List.cons_ne_nil _ _
    · exact fgets_ne_nil _ l

/-- A line is read at once exactly if it fits and the separator ends it. -/
theorem fgets_once : ∀ (cur l : List α), cur.length < n →
    ((fgets n sep cur (l ++ [sep])).length = 1 ↔ sep ∉ l ∧ cur.length + l.length < n) ∧
    (sep ∉ l → cur.length + l.length < n → fgets n sep cur (l ++ [sep]) = [cur ++ l ++ [sep]])
  | cur, [], h => by
    rw [List.nil_append, fgets, if_pos (Or.inl rfl), fgets, if_pos rfl, List.append_nil]
    exact ⟨iff_of_true rfl ⟨List.not_mem_nil, h⟩, fun _ _ => rfl⟩
  | cur, b :: l, h => by
    have hlen : (cur ++ [b]).length = cur.length + 1 := List.length_append
    rw [List.cons_append, fgets, List.length_cons, List.mem_cons, not_or]
    by_cases hb : b = sep ∨ cur.length + 1 = n
    · -- the piece ends here, and the rest of the line makes another
      have hmore : 0 < (fgets n sep [] (l ++ [sep])).length :=
        List.length_pos_of_ne_nil (fgets_ne_nil [] l)
      have hno : ¬ ((sep ≠ b ∧ sep ∉ l) ∧ cur.length + (l.length + 1) < n) := by
        rintro ⟨⟨hsep, -⟩, hlt⟩
        rcases hb with hb | hb
        · exact hsep hb.symm
        · omega
      rw [if_pos hb, List.length_cons]
      exact ⟨iff_of_false (by omega) hno, fun h1 h2 => absurd ⟨h1, h2⟩ hno⟩
    · obtain ⟨hsep, hn⟩ := not_or.1 hb
      obtain ⟨hiff, heq⟩ := fgets_once (cur ++ [b]) l (by omega)
      rw [hlen, Nat.add_assoc, Nat.add_comm 1] at hiff heq
      rw [if_neg hb]
      refine ⟨hiff.trans ⟨fun h => ⟨⟨Ne.symm hsep, h.1⟩, h.2⟩, fun h => ⟨h.1.2, h.2⟩⟩, fun h1 h2 => ?_⟩
      rw [heq h1.2 h2, List.append_assoc cur, List.singleton_append]

end

/-! ## Tokens -/

/-- The longest runs of characters other than `sep`. -/
def tokens (sep : α) (l : List α) : List (List α) := (l.splitOn sep).filter (· ≠ [])

section

variable {sep : α}

omit [DecidableEq α] in
theorem infix_intercalate (sep : α) : ∀ {ls : List (List α)} {l : List α}, l ∈ ls →
    l <:+: [sep].intercalate ls
  | [m], l, h => by
    rw [List.intercalate_singleton, List.mem_singleton.1 h]
  | m :: m' :: ls, l, h => by
    rw [List.intercalate_cons_cons, List.append_assoc]
    rcases List.mem_cons.1 h with rfl | h
    · exact (List.prefix_append ..).isInfix
    · exact (infix_intercalate sep h).trans
        ((List.suffix_append ..).trans (List.suffix_append ..)).isInfix

omit [DecidableEq α] in
theorem mem_intercalate : ∀ {ls : List (List α)} {b : α}, b ∈ [sep].intercalate ls →
    b = sep ∨ ∃ l ∈ ls, b ∈ l
  | [], b, h => absurd h List.not_mem_nil
  | [l], b, h => by
    rw [List.intercalate_singleton] at h
    exact Or.inr ⟨l, List.mem_cons_self, h⟩
  | l :: l' :: ls, b, h => by
    rw [List.intercalate_cons_cons, List.append_assoc, List.mem_append, List.mem_append] at h
    rcases h with h | h | h
    · exact Or.inr ⟨l, List.mem_cons_self, h⟩
    · exact Or.inl (List.mem_singleton.1 h)
    · refine (mem_intercalate h).imp_right ?_
      rintro ⟨m, hm, hb⟩
      exact ⟨m, List.mem_cons_of_mem _ hm, hb⟩

theorem count_intercalate : ∀ {ls : List (List α)}, (∀ l ∈ ls, sep ∉ l) →
    ([sep].intercalate ls).count sep = ls.length - 1
  | [], _ => rfl
  | [l], h => by
    rw [List.intercalate_singleton]
    exact List.count_eq_zero.2 (h l List.mem_cons_self)
  | l :: l' :: ls, h => by
    rw [List.intercalate_cons_cons, List.count_append, List.count_append,
      count_intercalate fun m hm => h m (List.mem_cons_of_mem _ hm),
      List.count_eq_zero.2 (h l List.mem_cons_self), List.count_singleton_self]
    simp only [List.length_cons]
    omega

theorem not_mem_of_mem_splitOn : ∀ {l m : List α}, m ∈ l.splitOn sep → sep ∉ m
  | [], m, h => by
    rw [List.splitOn_nil, List.mem_singleton] at h
    rw [h]
    exact List.not_mem_nil
  | b :: l, m, h => by
    rw [List.splitOn_cons_eq_if_modifyHead] at h
    split at h
    · rcases List.mem_cons.1 h with rfl | h
      · exact List.not_mem_nil
      · exact not_mem_of_mem_splitOn h
    · rename_i hb
      cases hs : l.splitOn sep with
      | nil => exact absurd hs (List.splitOn_ne_nil _ _)
      | cons m' ms =>
        have ih := fun k (hk : k ∈ m' :: ms) => not_mem_of_mem_splitOn (hs ▸ hk)
        rw [hs, List.modifyHead_cons] at h
        rcases List.mem_cons.1 h with rfl | h
        · refine mt List.mem_cons.1 (not_or.2 ⟨fun e => hb ?_, ih m' List.mem_cons_self⟩)
          rw [e, beq_self_eq_true]
        · exact ih m (List.mem_cons_of_mem _ h)

theorem mem_tokens {l m : List α} (h : m ∈ tokens sep l) : m <:+: l ∧ sep ∉ m ∧ m ≠ [] := by
  obtain ⟨hm, hne⟩ := List.mem_filter.1 h
  refine ⟨?_, not_mem_of_mem_splitOn hm, by simpa using hne⟩
  have hpart := infix_intercalate sep hm
  rwa [List.intercalate_splitOn] at hpart

theorem tokens_intercalate {ls : List (List α)} (hsep : ∀ l ∈ ls, sep ∉ l)
    (hne : ∀ l ∈ ls, l ≠ []) : tokens sep ([sep].intercalate ls) = ls := by
  rcases eq_or_ne ls [] with rfl | hls
  · rfl
  · rw [tokens, List.splitOn_intercalate sep hsep hls, List.filter_eq_self]
    exact fun l hl => by simpa using hne l hl

end

/-! ## Numbers -/

section

open ByteLayout

/-- `"%d"` of a number that is not negative. -/
def decimal (n : Nat) : List Byte := (Nat.toDigits 10 n).map fun c => BitVec.ofNat 8 c.toNat

def isspace (b : Byte) : Bool := b = 32 || (9 ≤ b && b ≤ 13)

def isdigit (b : Byte) : Bool := 48 ≤ b && b ≤ 57

/-- The number that the digits at the start of the string make. -/
def number (l : List Byte) : Nat :=
  (l.takeWhile isdigit).foldl (fun n b => 10 * n + (b.toNat - 48)) 0

/-- The number at the start of a string, with its sign. -/
def signed (l : List Byte) : Int :=
  match l.dropWhile isspace with
  | [] => 0
  | b :: l => if b = 45 then -(number l : Int) else if b = 43 then number l else number (b :: l)

/-- `strtol` for base 10 and a `long` of 64 bits: what is out of range becomes `LONG_MIN` or
`LONG_MAX`. -/
def strtol (l : List Byte) : Int := max (-9223372036854775808) (min 9223372036854775807 (signed l))

/-- `atoi`: `strtol`, cut to the 32 bits of an `int`. -/
def atoi (l : List Byte) : Int := (strtol l).bmod 4294967296

theorem toNat_digit {n : Nat} {c : Char} (h : c ∈ Nat.toDigits 10 n) :
    (BitVec.ofNat 8 c.toNat).toNat = c.toNat ∧ 48 ≤ c.toNat ∧ c.toNat ≤ 57 := by
  obtain ⟨h0, h9⟩ := Char.isDigit_iff_toNat.1 (Nat.isDigit_of_mem_toDigits (by decide) (by decide) h)
  have h0' : 48 ≤ c.toNat := h0
  have h9' : c.toNat ≤ 57 := h9
  refine ⟨?_, h0', h9'⟩
  rw [BitVec.toNat_ofNat]
  omega

theorem isdigit_of_mem_decimal {n : Nat} {b : Byte} (h : b ∈ decimal n) : isdigit b = true := by
  obtain ⟨c, hc, rfl⟩ := List.mem_map.1 h
  obtain ⟨heq, h0, h9⟩ := toNat_digit hc
  rw [isdigit, Bool.and_eq_true, decide_eq_true_eq, decide_eq_true_eq, BitVec.le_def, BitVec.le_def,
    heq]
  exact ⟨h0, h9⟩

theorem not_isspace_of_isdigit {b : Byte} (h : isdigit b = true) : ¬ isspace b = true := by
  simp only [isdigit, isspace, Bool.or_eq_true, Bool.and_eq_true, decide_eq_true_eq,
    BitVec.le_def] at h ⊢
  rintro (rfl | ⟨-, h13⟩)
  · exact absurd h.1 (by decide)
  · exact absurd (Nat.le_trans h.1 h13) (by decide)

theorem decimal_ne_nil (n : Nat) : decimal n ≠ [] :=
  mt List.map_eq_nil_iff.1 Nat.toDigits_ne_nil

theorem number_decimal (n : Nat) : number (decimal n) = n := by
  have hfold : ∀ (cs : List Char) (k : Nat), (∀ c ∈ cs, c ∈ Nat.toDigits 10 n) →
      (cs.map fun c => BitVec.ofNat 8 c.toNat).foldl (fun m (b : Byte) => 10 * m + (b.toNat - 48)) k =
        Nat.ofDigitChars 10 cs k := by
    intro cs
    induction cs with
    | nil => exact fun _ _ => rfl
    | cons c cs ih =>
      intro k h
      rw [List.map_cons, List.foldl_cons, (toNat_digit (h c List.mem_cons_self)).1,
        ih _ fun c' hc' => h c' (List.mem_cons_of_mem _ hc'), Nat.ofDigitChars_cons]
      rfl
  rw [number, List.takeWhile_eq_self_iff.2 fun b => isdigit_of_mem_decimal, decimal,
    hfold _ 0 fun _ => id]
  exact Nat.ofDigitChars_ten_toDigits

/-- A string of digits is read whole. -/
theorem signed_of_isdigit {l : List Byte} (hnil : l ≠ []) (h : ∀ b ∈ l, isdigit b = true) :
    signed l = number l := by
  cases l with
  | nil => exact absurd rfl hnil
  | cons b l =>
    have hb := h b List.mem_cons_self
    have h45 : b ≠ 45 := fun e => absurd hb (by rw [e]; decide)
    have h43 : b ≠ 43 := fun e => absurd hb (by rw [e]; decide)
    rw [signed, List.dropWhile_cons_of_neg (not_isspace_of_isdigit hb)]
    simp only
    rw [if_neg h45, if_neg h43]

theorem atoi_of_isdigit {l : List Byte} (hnil : l ≠ []) (h : ∀ b ∈ l, isdigit b = true)
    (hint : number l < 2147483648) : atoi l = number l := by
  have hlong : strtol l = number l := by
    rw [strtol, signed_of_isdigit hnil h]
    omega
  rw [atoi, hlong]
  exact Int.bmod_eq_of_le (by omega) (by omega)

theorem atoi_decimal {n : Nat} (h : n < 2147483648) : atoi (decimal n) = n := by
  have hnumber := number_decimal n
  rw [atoi_of_isdigit (decimal_ne_nil n) (fun _ => isdigit_of_mem_decimal) (by omega), hnumber]

end

end CString
