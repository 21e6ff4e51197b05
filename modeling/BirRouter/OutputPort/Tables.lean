import BirRouter.OutputPort.ArpStages

/-!
# What the tables say about a packet

The purpose of the lookup stages, without clocks: from the contents of the tables and a packet's
destination address `d`, whether the packet is for the CPU (`Tables.ToCpu`), and otherwise the route
that is used and the MAC address of the next hop (`Tables.Lowest`, `Tables.Highest`).  `forward` is the
same as a function of the first beat.
-/

set_option autoImplicit false

namespace BirRouter

/-- The contents of the tables and of the MAC address registers. -/
structure Tables where
  dest_ip : BitVec 5 → BitVec 32
  lpm : BitVec 5 → LpmRow
  arp : BitVec 5 → ArpRow
  macs : Macs

namespace Tables

variable (t : Tables)

/-- The lowest row of the routing table that matches. -/
def Lowest (d : BitVec 32) (j : BitVec 5) : Prop :=
  (t.lpm j).Matches d ∧ ∀ i < j, ¬ (t.lpm i).Matches d

/-- The highest row of the ARP table with an address. -/
def Highest (nh : BitVec 32) (j : BitVec 5) : Prop :=
  (t.arp j).ip = nh ∧ ∀ i, j < i → (t.arp i).ip ≠ nh

/-- The packets that the hardware leaves to the software. -/
def ToCpu (b : Beat) (d : BitVec 32) : Prop :=
  b.etherType ≠ 0x0800 ∨ b.ttl ≤ 1 ∨ ¬ (b.version = 4 ∧ b.ihl = 5) ∨ (∃ j, t.dest_ip j = d) ∨
    (∀ j, ¬ (t.lpm j).Matches d) ∨ ∃ j, t.Lowest d j ∧ ∀ k, (t.arp k).ip ≠ (t.lpm j).hop d

/-- The first beat of a packet that is forwarded by the rows `j` and `k`. -/
def send (b : Beat) (j k : BitVec 5) : Beat :=
  let oq := (t.lpm j).oq.extractLsb' 0 8
  { b with
    tuser := setDstPort b.tuser oq
    tdata := Arp3.rewrite t.macs (t.arp k).mac oq b.tdata }

/-- What becomes of a packet's first beat. -/
def forward (b : Beat) (d : BitVec 32) : Beat :=
  if DestIp1.cpuHitArray t.dest_ip b d ≠ 0 then b.setTuser (missPort b.tuser)
  else
    match lowestMatch t.lpm d with
    | none => b.setTuser (missPort b.tuser)
    | some j =>
      match highestMatch t.arp ((t.lpm j).hop d) with
      | none => b.setTuser (missPort b.tuser)
      | some k => t.send b j k

variable {t}

/-! ## The loops -/

theorem lowestMatch_none {d : BitVec 32} (h : lowestMatch t.lpm d = none) (j : BitVec 5) :
    ¬ (t.lpm j).Matches d := by
  unfold lowestMatch at h
  rw [Option.map_eq_none_iff, List.find?_eq_none] at h
  have hno := h j.toNat (List.mem_range.2 j.isLt)
  rw [BitVec.ofNat_toNat, BitVec.setWidth_eq] at hno
  simpa using hno

theorem lowestMatch_some {d : BitVec 32} {j : BitVec 5} (h : lowestMatch t.lpm d = some j) :
    t.Lowest d j := by
  unfold lowestMatch at h
  rw [Option.map_eq_some_iff] at h
  obtain ⟨n, hn, rfl⟩ := h
  rw [List.find?_range_eq_some] at hn
  obtain ⟨hm, hlt, hlow⟩ := hn
  refine ⟨by simpa using hm, fun i hi => ?_⟩
  have hi' : i.toNat < n := by
    rw [BitVec.lt_def, BitVec.toNat_ofNat] at hi
    exact Nat.lt_of_lt_of_le hi (Nat.mod_le _ _)
  have hno := hlow i.toNat hi'
  rw [BitVec.ofNat_toNat, BitVec.setWidth_eq] at hno
  simpa using hno

theorem lowestMatch_isSome {d : BitVec 32} :
    (lowestMatch t.lpm d).isSome = true ↔ ∃ j, (t.lpm j).Matches d := by
  cases hj : lowestMatch t.lpm d with
  | none => exact iff_of_false Bool.false_ne_true fun ⟨j, hm⟩ => lowestMatch_none hj j hm
  | some j => exact iff_of_true rfl ⟨j, (lowestMatch_some hj).1⟩

theorem highestMatch_none {nh : BitVec 32} (h : highestMatch t.arp nh = none) (k : BitVec 5) :
    (t.arp k).ip ≠ nh := by
  unfold highestMatch at h
  rw [Option.map_eq_none_iff, List.find?_eq_none] at h
  have hno := h k.toNat (List.mem_reverse.2 (List.mem_range.2 k.isLt))
  rw [BitVec.ofNat_toNat, BitVec.setWidth_eq] at hno
  exact fun heq => hno (decide_eq_true heq.symm)

theorem highestMatch_some {nh : BitVec 32} {k : BitVec 5} (h : highestMatch t.arp nh = some k) :
    t.Highest nh k := by
  unfold highestMatch at h
  rw [Option.map_eq_some_iff] at h
  obtain ⟨n, hn, rfl⟩ := h
  rw [List.find?_eq_some_iff_getElem] at hn
  obtain ⟨hm, r, hr, hget, hhigh⟩ := hn
  rw [List.length_reverse, List.length_range] at hr
  rw [List.getElem_reverse, List.getElem_range, List.length_range] at hget
  refine ⟨(of_decide_eq_true hm).symm, fun i hi heq => ?_⟩
  have hi' : n < i.toNat := by
    rw [BitVec.lt_def, BitVec.toNat_ofNat, Nat.mod_eq_of_lt (by omega)] at hi
    exact hi
  have hlt := i.isLt
  have hno := hhigh (31 - i.toNat) (by omega)
  rw [List.getElem_reverse, List.getElem_range, List.length_range,
    show 32 - 1 - (31 - i.toNat) = i.toNat by omega, BitVec.ofNat_toNat, BitVec.setWidth_eq] at hno
  simp [heq] at hno

/-- The filter loop. -/
theorem destIpLoop_iff (d : BitVec 32) : destIpLoop t.dest_ip d 32 false = true ↔ ∃ j, t.dest_ip j = d := by
  have hloop : ∀ n, destIpLoop t.dest_ip d n false = true ↔ ∃ j < n, t.dest_ip (BitVec.ofNat 5 j) = d := by
    intro n
    induction n with
    | zero => simp [destIpLoop]
    | succ n ih =>
      rw [destIpLoop, Bool.or_eq_true, decide_eq_true_eq, ih]
      constructor
      · rintro (h | ⟨j, hj, h⟩)
        · exact ⟨n, Nat.lt_succ_self n, h.symm⟩
        · exact ⟨j, Nat.lt_succ_of_lt hj, h⟩
      · rintro ⟨j, hj, h⟩
        rcases Nat.lt_succ_iff_lt_or_eq.1 hj with hj | rfl
        · exact .inr ⟨j, hj, h⟩
        · exact .inl h.symm
  rw [hloop]
  constructor
  · rintro ⟨j, -, h⟩
    exact ⟨_, h⟩
  · rintro ⟨j, h⟩
    refine ⟨j.toNat, j.isLt, ?_⟩
    rwa [BitVec.ofNat_toNat, BitVec.setWidth_eq]

/-- The packets that `dest_ip1` classifies. -/
theorem cpuHitArray_ne_zero {b : Beat} (hb : b.fromCpu = false) (d : BitVec 32) :
    DestIp1.cpuHitArray t.dest_ip b d ≠ 0 ↔
      b.etherType ≠ 0x0800 ∨ b.ttl ≤ 1 ∨ ¬ (b.version = 4 ∧ b.ihl = 5) ∨ ∃ j, t.dest_ip j = d := by
  unfold DestIp1.cpuHitArray
  rw [hb, if_neg Bool.false_ne_true, ← destIpLoop_iff]
  by_cases h1 : b.etherType ≠ 0x0800
  · rw [if_pos h1]
    exact iff_of_true (by decide) (.inl h1)
  rw [if_neg h1]
  by_cases h2 : b.ttl ≤ 1
  · rw [if_pos h2]
    exact iff_of_true (by decide) (.inr (.inl h2))
  rw [if_neg h2]
  by_cases h3 : b.version = 4 ∧ b.ihl = 5
  · rw [if_neg (by simp [h3])]
    by_cases h4 : destIpLoop t.dest_ip d 32 false = true
    · rw [if_pos h4]
      exact iff_of_true (by decide) (.inr (.inr (.inr h4)))
    · rw [if_neg h4]
      exact iff_of_false (by decide) (by simp_all)
  · rw [if_pos (by by_cases hv : b.version = 4 <;> simp_all)]
    exact iff_of_true (by decide) (.inr (.inr (.inl h3)))

/-- At most one row is the lowest. -/
theorem Lowest.unique {d : BitVec 32} {i j : BitVec 5} (hi : t.Lowest d i) (hj : t.Lowest d j) :
    i = j := by
  rcases BitVec.lt_trichotomy i j with h | h | h
  · exact absurd hi.1 (hj.2 i h)
  · exact h
  · exact absurd hj.1 (hi.2 j h)

/-! ## The result -/

theorem forward_toCpu {b : Beat} (hb : b.fromCpu = false) {d : BitVec 32} (h : t.ToCpu b d) :
    t.forward b d = b.setTuser (missPort b.tuser) := by
  unfold forward
  by_cases hhit : DestIp1.cpuHitArray t.dest_ip b d ≠ 0
  · rw [if_pos hhit]
  rw [if_neg hhit]
  rw [cpuHitArray_ne_zero hb] at hhit
  cases hj : lowestMatch t.lpm d with
  | none => rfl
  | some j =>
    cases hk : highestMatch t.arp ((t.lpm j).hop d) with
    | none => simp only [hk]
    | some k =>
      -- every reason to leave the packet to the software is excluded
      rcases h with h | h | h | h | h | ⟨i, hi, h⟩
      · exact absurd (.inl h) hhit
      · exact absurd (.inr (.inl h)) hhit
      · exact absurd (.inr (.inr (.inl h))) hhit
      · exact absurd (.inr (.inr (.inr h))) hhit
      · exact absurd (lowestMatch_some hj).1 (h j)
      · obtain rfl := hi.unique (lowestMatch_some hj)
        exact absurd (highestMatch_some hk).1 (h k)

theorem forward_send {b : Beat} (hb : b.fromCpu = false) {d : BitVec 32} (h : ¬ t.ToCpu b d) :
    ∃ j k, t.Lowest d j ∧ t.Highest ((t.lpm j).hop d) k ∧ t.forward b d = t.send b j k := by
  unfold forward
  have hhit : ¬ DestIp1.cpuHitArray t.dest_ip b d ≠ 0 := by
    rw [cpuHitArray_ne_zero hb]
    unfold ToCpu at h
    simp_all
  rw [if_neg hhit]
  cases hj : lowestMatch t.lpm d with
  | none => exact absurd (.inr (.inr (.inr (.inr (.inl (lowestMatch_none hj)))))) h
  | some j =>
    cases hk : highestMatch t.arp ((t.lpm j).hop d) with
    | none =>
      exact absurd (.inr (.inr (.inr (.inr (.inr ⟨j, lowestMatch_some hj, highestMatch_none hk⟩))))) h
    | some k =>
      refine ⟨j, k, lowestMatch_some hj, highestMatch_some hk, ?_⟩
      simp only [hk]

/-- **What is to become of a packet** from port `q` with the destination address `d`: all its beats
leave, all but the first unchanged.  If the packet is for the CPU, the data of the first beat are
unchanged and its destination is the CPU queue of the port; otherwise it is sent by the lowest matching
route and the highest matching ARP row. -/
def Outcome (t : Tables) (q : Fin 4) (d : BitVec 32) (p : Packet) (out : List Beat) : Prop :=
  ∃ b, out = b :: p.beats.tail ∧
    (t.ToCpu p.first d → b = p.first.sendTo (2#8 <<< (2 * q.val))) ∧
    (¬ t.ToCpu p.first d → ∃ j k, t.Lowest d j ∧ t.Highest ((t.lpm j).hop d) k ∧
      b = t.send p.first j k)

variable {q : Fin 4} {p : Packet}

theorem outcome_forward (hp : p.first.FromPort q) (d : BitVec 32) :
    t.Outcome q d p (t.forward p.first d :: p.beats.tail) := by
  refine ⟨_, rfl, fun h => ?_, forward_send hp.fromCpu⟩
  rw [forward_toCpu hp.fromCpu h, hp.miss]

/-- A packet that leaves as it came is not treated right. -/
theorem not_outcome_self (hp : p.first.FromPort q) (d : BitVec 32) : ¬ t.Outcome q d p p.beats := by
  rintro ⟨b, hb, hcpu, hsend⟩
  obtain rfl : p.first = b := List.head_eq_of_cons_eq hb
  by_cases h : t.ToCpu p.first d
  · have hdst := (p.first.toCpu_sendTo q).2
    rw [← hcpu h] at hdst
    exact hdst hp.2
  · obtain ⟨j, k, -, -, heq⟩ := hsend h
    have httl : p.first.ttl = p.first.ttl - 1 := (congrArg Beat.ttl heq).trans (Arp3.rewrite_ttl _ _ _ _)
    generalize p.first.ttl = x at httl
    revert x
    decide

end Tables

end BirRouter
