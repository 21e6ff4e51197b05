import BirRouter.Lib.Layout
import Mathlib.Data.List.GetD

/-!
# Byte memories

A memory gives the byte at every address.  Records are read and written at an address by their
`Layout`; a write changes nothing outside the record (`store_of_out`), so records that do not overlap
do not disturb each other (`load_store_of_disjoint`).
-/

set_option autoImplicit false

namespace ByteMemory

open ByteLayout

variable {α β : Type}

abbrev Memory := Nat → Byte

/-- The `n` bytes from `p` on. -/
def read (m : Memory) (p n : Nat) : List Byte := (List.range n).map fun i => m (p + i)

def load (A : Layout α) (p : Nat) (m : Memory) : α := A.dec (read m p A.size)

def store (A : Layout α) (p : Nat) (a : α) (m : Memory) : Memory := fun i =>
  if p ≤ i ∧ i < p + A.size then (A.enc a).getD (i - p) 0 else m i

variable {A : Layout α} {B : Layout β} {m m' : Memory} {p q i : Nat} {a : α}

@[simp]
theorem length_read (m : Memory) (p n : Nat) : (read m p n).length = n := by
  simp [read]

theorem store_of_out (h : i < p ∨ p + A.size ≤ i) : store A p a m i = m i := if_neg (by omega)

theorem read_congr {n : Nat} (h : ∀ i, p ≤ i → i < p + n → m i = m' i) :
    read m p n = read m' p n := by
  unfold read
  refine List.map_congr_left fun i hi => ?_
  have hi' := List.mem_range.1 hi
  exact h _ (by omega) (by omega)

theorem read_take {data : List Byte} (h : read m p data.length = data) {n : Nat}
    (hn : n ≤ data.length) : read m p n = data.take n := by
  rw [← h, read, read, ← List.map_take, List.take_range, Nat.min_eq_left hn]

/-- A byte among those read is written. -/
theorem read_update {data : List Byte} (h : read m p data.length = data) (i : Nat) (x : Byte) :
    read (Function.update m (p + i) x) p (data.set i x).length = data.set i x := by
  rw [List.length_set]
  refine List.ext_getElem (by simp) fun k hk hk' => ?_
  rw [List.length_set] at hk'
  have hread : m (p + k) = data[k] := by
    have hget := List.getElem_of_eq h (by simpa using hk')
    simpa [read] using hget
  simp only [read, List.getElem_map, List.getElem_range]
  rw [List.getElem_set]
  by_cases hik : i = k
  · subst hik
    rw [Function.update_self, if_pos rfl]
  · rw [if_neg hik, Function.update_of_ne (by omega), hread]

theorem load_congr (h : ∀ i, p ≤ i → i < p + A.size → m i = m' i) :
    load A p m = load A p m' := by
  unfold load
  rw [read_congr h]

theorem read_store_self : read (store A p a m) p A.size = A.enc a := by
  refine List.ext_getElem (by simp [read, A.enc_length]) fun i hi hi' => ?_
  rw [A.enc_length] at hi'
  have hstore : store A p a m (p + i) = (A.enc a).getD (p + i - p) 0 := if_pos (by omega)
  simp only [read, List.getElem_map, List.getElem_range]
  rw [hstore, Nat.add_sub_cancel_left, List.getD_eq_getElem _ _ (by rw [A.enc_length]; exact hi')]

@[simp]
theorem load_store_self : load A p (store A p a m) = a := by
  have h := A.dec_append a []
  rw [List.append_nil] at h
  rw [load, read_store_self, h]

theorem load_store_of_disjoint (h : q + B.size ≤ p ∨ p + A.size ≤ q) :
    load B q (store A p a m) = load B q m :=
  load_congr fun _ hi hi' => store_of_out (by omega)

end ByteMemory
