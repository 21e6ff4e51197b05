import BirRouter.Lib.Layout

/-!
# Lists of length-prefixed labels

The wire form of a list of byte strings: each label behind a byte with its length, and an empty one at
the end, so no label of a list is empty and none has more than 255 bytes (`IsLabel`).

A reader goes over a wire form label by label (`wire_cons_append`); it does not take a length byte for
the end (`IsLabel.length_ne_zero`) and needs no more steps than there are bytes (`length_lt_wire`).
Two lists of equally many labels have different wire forms (`wire_inj`).
-/

set_option autoImplicit false

namespace Labels

open ByteLayout

def IsLabel (label : List Byte) : Prop := 1 ≤ label.length ∧ label.length ≤ 255

instance (label : List Byte) : Decidable (IsLabel label) := inferInstanceAs (Decidable (_ ∧ _))

/-- The labels on the wire. -/
def wire : List (List Byte) → List Byte
  | [] => [0]
  | label :: labels => BitVec.ofNat 8 label.length :: (label ++ wire labels)

theorem wire_cons (label : List Byte) (labels : List (List Byte)) :
    wire (label :: labels) = BitVec.ofNat 8 label.length :: (label ++ wire labels) := rfl

theorem wire_ne_nil : ∀ labels : List (List Byte), wire labels ≠ []
  | [] => List.cons_ne_nil _ _
  | _ :: _ => List.cons_ne_nil _ _

theorem wire_cons_append (label : List Byte) (labels : List (List Byte)) (rest : List Byte) :
    wire (label :: labels) ++ rest = BitVec.ofNat 8 label.length :: (label ++ (wire labels ++ rest)) := by
  rw [wire_cons, List.cons_append, List.append_assoc]

theorem wire_eq_flatMap : ∀ labels : List (List Byte), wire labels =
    (labels.flatMap fun label => BitVec.ofNat 8 label.length :: label) ++ [0]
  | [] => rfl
  | label :: labels => by
    rw [wire_cons, wire_eq_flatMap labels, List.flatMap_cons, List.cons_append, List.cons_append,
      List.append_assoc]

/-- A label takes a byte at least, and so does the end. -/
theorem length_lt_wire : ∀ labels : List (List Byte), labels.length < (wire labels).length
  | [] => Nat.one_pos
  | label :: labels => by
    have ih := length_lt_wire labels
    rw [wire_cons, List.length_cons, List.length_cons, List.length_append]
    omega

theorem IsLabel.toNat_length {label : List Byte} (h : IsLabel label) :
    (BitVec.ofNat 8 label.length).toNat = label.length := by
  obtain ⟨_, h255⟩ := h
  rw [BitVec.toNat_ofNat]
  omega

theorem IsLabel.length_ne_zero {label : List Byte} (h : IsLabel label) :
    BitVec.ofNat 8 label.length ≠ 0 := by
  intro h0
  have hn := h.toNat_length
  have hz : (0 : Byte).toNat = 0 := rfl
  rw [h0, hz] at hn
  exact absurd h.1 (by omega)

/-- Equal length bytes are equal lengths. -/
theorem length_inj {l l' : List Byte} (hl : l.length ≤ 255) (hl' : l'.length ≤ 255)
    (h : BitVec.ofNat 8 l.length = BitVec.ofNat 8 l'.length) : l.length = l'.length := by
  have hn := congrArg BitVec.toNat h
  rw [BitVec.toNat_ofNat, BitVec.toNat_ofNat] at hn
  omega

/-- **Lists of equally many labels are told apart on the wire**, also if labels are empty. -/
theorem wire_inj : ∀ {labels labels' : List (List Byte)}, labels.length = labels'.length →
    (∀ l ∈ labels, l.length ≤ 255) → (∀ l ∈ labels', l.length ≤ 255) →
    wire labels = wire labels' → labels = labels'
  | [], [], _, _, _, _ => rfl
  | l :: ls, l' :: ls', hcount, hl, hl', h => by
    rw [wire_cons, wire_cons] at h
    obtain ⟨hbyte, htail⟩ := List.cons.inj h
    have hlen := length_inj (hl l List.mem_cons_self) (hl' l' List.mem_cons_self) hbyte
    obtain ⟨rfl, hwire⟩ := List.append_inj htail hlen
    rw [wire_inj (Nat.succ.inj hcount) (fun x hx => hl x (List.mem_cons_of_mem _ hx))
      (fun x hx => hl' x (List.mem_cons_of_mem _ hx)) hwire]

end Labels
