import BirRouter.OutputPort.LookupStages

/-!
# The ARP lookup and the rewriting of the first beat

`arp1.v` compares the next hop with every row of the ARP table, `arp2.v` fetches the MAC address of
the row, `arp3.v` rewrites the first beat of a packet that is forwarded and sends it to its output
queue, and `arp4.v` is a FIFO.
-/

set_option autoImplicit false

namespace BirRouter

open BitField

/-- The columns of a row of the ARP table. -/
abbrev ArpRow := Fin 3 → BitVec 32

def ArpRow.ip (row : ArpRow) : BitVec 32 := row 0

/-- `[79:32]` of the row. -/
def ArpRow.mac (row : ArpRow) : BitVec 48 := (row 2).extractLsb' 0 16 ++ row 1

/-- The registers of `arp1.v` apart from its table. -/
structure Arp1 where
  state : BitVec 2
  arp_hit : Bool
  oq_reg_out : BitVec 32
  index_hit : BitVec 5
  deriving DecidableEq, Repr

/-- `for (j = 0; j < n; j = j+1)`: every match overwrites the hit and index found so far. -/
def arp1Loop (arp_table : BitVec 5 → ArpRow) (nh_reg : BitVec 32) :
    Nat → Bool × BitVec 5 → Bool × BitVec 5
  | 0, found => found
  | j + 1, found =>
    if nh_reg = (arp_table (BitVec.ofNat 5 j)).ip then (true, BitVec.ofNat 5 j)
    else arp1Loop arp_table nh_reg j found

/-- One clock cycle of `arp1.v`, fed by the registers of `lpm3`. -/
def Arp1.step (s : Arp1) (arp_table : BitVec 5 → ArpRow) (l : Lpm3) (b : Axis) (beat : Beat) :
    Arp1 :=
  if s.state = 0 ∧ b.first then
    let s := { s with state := 1, arp_hit := false }
    if beat.dstPort = 0 ∧ l.arp_lookup then
      let found := arp1Loop arp_table l.nh_reg 32 (s.arp_hit, s.index_hit)
      { s with oq_reg_out := l.oq_reg, arp_hit := found.1, index_hit := found.2 }
    else s
  else if s.state = 1 ∧ b.last then { s with state := 0 }
  else s

/-- The registers of `arp2.v`. -/
structure Arp2 where
  state : BitVec 2
  dest_mac : BitVec 48
  arp_hit : Bool
  oq_reg_out : BitVec 32
  deriving DecidableEq, Repr

/-- One clock cycle of `arp2.v`, fed by the registers of `arp1`. -/
def Arp2.step (s : Arp2) (arp_table : BitVec 5 → ArpRow) (a : Arp1) (b : Axis) (beat : Beat) :
    Arp2 :=
  if s.state = 0 ∧ b.first then
    let s := { s with state := 1, arp_hit := false }
    if beat.dstPort = 0 ∧ a.arp_hit then
      { s with
        dest_mac := (arp_table a.index_hit).mac
        arp_hit := true
        oq_reg_out := a.oq_reg_out }
    else s
  else if s.state = 1 ∧ b.last then { s with state := 0 }
  else s

/-- The registers of `arp3.v`. -/
structure Arp3 where
  state : BitVec 2
  arp_miss_count : BitVec 32
  forwarded_count : BitVec 32
  deriving DecidableEq, Repr

namespace Arp3

/-- `case(oq_reg[7:0])`: the source address of the port that is sent to, if it is one. -/
def setSrcMac (m : Macs) (oq : BitVec 8) (tdata : BitVec 256) : BitVec 256 :=
  if oq = 1 then replaceBits tdata 160 m.mac0
  else if oq = 4 then replaceBits tdata 160 m.mac1
  else if oq = 16 then replaceBits tdata 160 m.mac2
  else if oq = 64 then replaceBits tdata 160 m.mac3
  else tdata

/-- The first beat of a forwarded packet: both MAC addresses, the TTL and the high byte of the
checksum. -/
def rewrite (m : Macs) (dest_mac : BitVec 48) (oq : BitVec 8) (tdata : BitVec 256) : BitVec 256 :=
  let t := replaceBits tdata 208 dest_mac
  let t := setSrcMac m oq t
  let t := replaceBits t 72 (tdata.extractLsb' 72 8 - 1)
  replaceBits t 56 (tdata.extractLsb' 56 8 + 1)

section

variable (m : Macs) (dest_mac : BitVec 48) (oq : BitVec 8) (tdata : BitVec 256)

theorem setSrcMac_field {start n : Nat} (h : start + n ≤ 160) :
    (setSrcMac m oq tdata).extractLsb' start n = tdata.extractLsb' start n := by
  have hkeep : ∀ mac : BitVec 48,
      (replaceBits tdata 160 mac).extractLsb' start n = tdata.extractLsb' start n := by
    intro mac
    exact extractLsb'_replaceBits_of_disjoint tdata mac (by omega) (.inl h)
  simp only [setSrcMac, apply_ite (BitVec.extractLsb' start n), hkeep, ite_self]

theorem rewrite_ttl : (rewrite m dest_mac oq tdata).extractLsb' 72 8 = tdata.extractLsb' 72 8 - 1 := by
  unfold rewrite
  rw [extractLsb'_replaceBits_of_disjoint _ _ (by decide) (.inr (by decide)),
    extractLsb'_replaceBits _ _ (by decide)]

theorem rewrite_checksum :
    (rewrite m dest_mac oq tdata).extractLsb' 56 8 = tdata.extractLsb' 56 8 + 1 := by
  unfold rewrite
  rw [extractLsb'_replaceBits _ _ (by decide)]

/-- The fields behind the MAC addresses, TTL and checksum apart. -/
theorem rewrite_field {start n : Nat}
    (h : start + n ≤ 56 ∨ 64 ≤ start ∧ start + n ≤ 72 ∨ 80 ≤ start ∧ start + n ≤ 160) :
    (rewrite m dest_mac oq tdata).extractLsb' start n = tdata.extractLsb' start n := by
  unfold rewrite
  rw [extractLsb'_replaceBits_of_disjoint _ _ (by omega) (by omega),
    extractLsb'_replaceBits_of_disjoint _ _ (by omega) (by omega), setSrcMac_field m oq _ (by omega),
    extractLsb'_replaceBits_of_disjoint _ _ (by omega) (by omega)]

end

/-- What happens to a packet's first beat. -/
def onFirst (m : Macs) (a : Arp2) (beat : Beat) : Beat :=
  if beat.dstPort = 0 then
    if a.arp_hit then
      { beat with
        tuser := setDstPort beat.tuser (a.oq_reg_out.extractLsb' 0 8)
        tdata := rewrite m a.dest_mac (a.oq_reg_out.extractLsb' 0 8) beat.tdata }
    else beat.setTuser (missPort beat.tuser)
  else beat

theorem onFirst_tlast (m : Macs) (a : Arp2) (beat : Beat) :
    (onFirst m a beat).tlast = beat.tlast := by
  simp only [onFirst, Beat.setTuser, apply_ite Beat.tlast, ite_self]

theorem onFirst_of_sent (m : Macs) (a : Arp2) {beat : Beat} (h : beat.dstPort ≠ 0) :
    onFirst m a beat = beat := if_neg h

/-- The beat at the output, in a cycle in which it is handed on. -/
def out (s : Arp3) (m : Macs) (a : Arp2) (beat : Beat) : Beat :=
  if s.state = 0 ∧ !beat.tlast then onFirst m a beat else beat

/-- A cycle without a counter reset. -/
def next (s : Arp3) (a : Arp2) (b : Axis) (beat : Beat) : Arp3 :=
  if s.state = 0 ∧ b.first then
    let s := { s with state := 1 }
    if beat.dstPort = 0 then
      if a.arp_hit then { s with forwarded_count := s.forwarded_count + 1 }
      else { s with arp_miss_count := s.arp_miss_count + 1 }
    else s
  else if s.state = 1 ∧ b.last then { s with state := 0 }
  else s

def step (s : Arp3) (a : Arp2) (b : Axis) (beat : Beat) (reset : BitVec 32) : Arp3 :=
  let n := s.next a b beat
  if reset = 1 then { n with arp_miss_count := 0, forwarded_count := 0 } else n

end Arp3

/-! ## What the ARP lookup finds -/

/-- The highest row with an address. -/
def highestMatch (arp_table : BitVec 5 → ArpRow) (nh_reg : BitVec 32) : Option (BitVec 5) :=
  ((List.range 32).reverse.find? fun j => nh_reg = (arp_table (BitVec.ofNat 5 j)).ip).map
    (BitVec.ofNat 5)

theorem arp1Loop_highestMatch (arp_table : BitVec 5 → ArpRow) (nh_reg : BitVec 32)
    (found : Bool × BitVec 5) :
    arp1Loop arp_table nh_reg 32 found
      = (highestMatch arp_table nh_reg).elim found fun j => (true, j) := by
  have hloop : ∀ n, arp1Loop arp_table nh_reg n found
      = (((List.range n).reverse.find? fun j => nh_reg = (arp_table (BitVec.ofNat 5 j)).ip).map
        (BitVec.ofNat 5)).elim found fun j => (true, j) := by
    intro n
    induction n with
    | zero => rfl
    | succ n ih =>
      rw [arp1Loop, List.range_succ, List.reverse_append, List.reverse_singleton,
        List.singleton_append, List.find?_cons]
      by_cases h : nh_reg = (arp_table (BitVec.ofNat 5 n)).ip
      · simp [h]
      · simp only [h, if_false, decide_false]
        exact ih
  exact hloop 32

section

variable (arp_table : BitVec 5 → ArpRow) (b : Axis) (beat : Beat) {h : Bool}

theorem Arp1.step_eq {s : Arp1} (hs : s.state = flag 2 h) (l : Lpm3) :
    s.step arp_table l b beat =
      if !h && b.first then
        if beat.dstPort = 0 ∧ l.arp_lookup then
          { state := 1
            arp_hit := (highestMatch arp_table l.nh_reg).isSome
            oq_reg_out := l.oq_reg
            index_hit := (highestMatch arp_table l.nh_reg).getD s.index_hit }
        else { s with state := 1, arp_hit := false }
      else { s with state := flag 2 (headerNext h b) } := by
  obtain ⟨state, arp_hit, oq_reg_out, index_hit⟩ := s
  obtain rfl : state = flag 2 h := hs
  have hfound : arp1Loop arp_table l.nh_reg 32 (false, index_hit)
      = ((highestMatch arp_table l.nh_reg).isSome,
        (highestMatch arp_table l.nh_reg).getD index_hit) := by
    rw [arp1Loop_highestMatch]
    cases highestMatch arp_table l.nh_reg <;> rfl
  cases h <;> cases hf : b.first <;> cases hl : b.last <;>
    simp [step, flag, headerNext, hf, hl, hfound]

theorem Arp2.step_eq {s : Arp2} (hs : s.state = flag 2 h) (a : Arp1) :
    s.step arp_table a b beat =
      if !h && b.first then
        if beat.dstPort = 0 ∧ a.arp_hit then
          { state := 1
            dest_mac := (arp_table a.index_hit).mac
            arp_hit := true
            oq_reg_out := a.oq_reg_out }
        else { s with state := 1, arp_hit := false }
      else { s with state := flag 2 (headerNext h b) } := by
  obtain ⟨state, dest_mac, arp_hit, oq_reg_out⟩ := s
  obtain rfl : state = flag 2 h := hs
  cases h <;> cases hf : b.first <;> cases hl : b.last <;>
    simp [step, flag, headerNext, hf, hl]

theorem Arp3.next_eq {s : Arp3} (hs : s.state = flag 2 h) (a : Arp2) :
    s.next a b beat =
      if !h && b.first then
        { state := 1
          arp_miss_count :=
            if beat.dstPort = 0 ∧ a.arp_hit = false then s.arp_miss_count + 1 else s.arp_miss_count
          forwarded_count :=
            if beat.dstPort = 0 ∧ a.arp_hit then s.forwarded_count + 1 else s.forwarded_count }
      else { s with state := flag 2 (headerNext h b) } := by
  obtain ⟨state, arp_miss_count, forwarded_count⟩ := s
  obtain rfl : state = flag 2 h := hs
  cases ha : a.arp_hit <;> cases h <;> cases hf : b.first <;> cases hl : b.last <;>
    simp [next, flag, headerNext, hf, hl, ha] <;> split <;> rfl

variable {arp_table b beat}

theorem Arp3.out_eq {s : Arp3} (hs : s.state = flag 2 h) (m : Macs) (a : Arp2) :
    s.out m a beat = if !h && !beat.tlast then onFirst m a beat else beat := by
  unfold out
  rw [hs]
  cases h <;> cases beat.tlast <;> simp [flag]

theorem Arp1.step_state {s : Arp1} (hs : s.state = flag 2 h) (l : Lpm3) :
    (s.step arp_table l b beat).state = flag 2 (headerNext h b) := by
  rw [step_eq arp_table b beat hs]
  simp only [apply_ite Arp1.state, ite_self]
  unfold headerNext
  split <;> rfl

theorem Arp2.step_state {s : Arp2} (hs : s.state = flag 2 h) (a : Arp1) :
    (s.step arp_table a b beat).state = flag 2 (headerNext h b) := by
  rw [step_eq arp_table b beat hs]
  simp only [apply_ite Arp2.state, ite_self]
  unfold headerNext
  split <;> rfl

theorem Arp3.step_state {s : Arp3} (hs : s.state = flag 2 h) (a : Arp2) (reset : BitVec 32) :
    (s.step a b beat reset).state = flag 2 (headerNext h b) := by
  unfold step
  rw [next_eq b beat hs]
  simp only [apply_ite Arp3.state, ite_self]
  unfold headerNext
  split <;> rfl

theorem Arp3.step_counts {s : Arp3} (hs : s.state = flag 2 h) (a : Arp2) {reset : BitVec 32}
    (hr : reset ≠ 1) :
    (s.step a b beat reset).arp_miss_count
        = (if (!h && b.first) && (decide (beat.dstPort = 0) && !a.arp_hit) then s.arp_miss_count + 1
          else s.arp_miss_count) ∧
      (s.step a b beat reset).forwarded_count
        = (if (!h && b.first) && (decide (beat.dstPort = 0) && a.arp_hit) then s.forwarded_count + 1
          else s.forwarded_count) := by
  unfold step
  rw [next_eq b beat hs, if_neg hr]
  cases (!h && b.first) <;> simp

/-- The registers of `arp1` hold what it finds for a packet. -/
def Arp1.Found (s : Arp1) (arp_table : BitVec 5 → ArpRow) (oq_reg nh_reg : BitVec 32) : Prop :=
  s.arp_hit = (highestMatch arp_table nh_reg).isSome ∧ s.oq_reg_out = oq_reg ∧
    ∀ j ∈ highestMatch arp_table nh_reg, s.index_hit = j

/-- The registers of `arp2` hold the MAC address for a packet. -/
def Arp2.Found (s : Arp2) (arp_table : BitVec 5 → ArpRow) (oq_reg nh_reg : BitVec 32) : Prop :=
  s.arp_hit = (highestMatch arp_table nh_reg).isSome ∧
    ∀ j ∈ highestMatch arp_table nh_reg, s.dest_mac = (arp_table j).mac ∧ s.oq_reg_out = oq_reg

/-- What `arp3` does to a packet for which `arp2` has looked up the next hop. -/
theorem Arp3.onFirst_of_found (m : Macs) {a : Arp2} (hd : beat.dstPort = 0) {oq_reg nh_reg : BitVec 32}
    (ha : a.Found arp_table oq_reg nh_reg) :
    onFirst m a beat = match highestMatch arp_table nh_reg with
      | none => beat.setTuser (missPort beat.tuser)
      | some j =>
        { beat with
          tuser := setDstPort beat.tuser (oq_reg.extractLsb' 0 8)
          tdata := rewrite m (arp_table j).mac (oq_reg.extractLsb' 0 8) beat.tdata } := by
  obtain ⟨hhit, hmac⟩ := ha
  unfold onFirst
  rw [if_pos hd, hhit]
  cases hj : highestMatch arp_table nh_reg with
  | none => rfl
  | some j =>
    obtain ⟨h1, h2⟩ := hmac j hj
    rw [h1, h2]
    rfl

theorem Arp1.found_step {s : Arp1} (hs : s.state = flag 2 h) (ho : (!h && b.first) = true)
    (hd : beat.dstPort = 0) {l : Lpm3} (hl : l.arp_lookup = true) :
    (s.step arp_table l b beat).Found arp_table l.oq_reg l.nh_reg := by
  rw [step_eq arp_table b beat hs, if_pos ho, if_pos ⟨hd, hl⟩]
  refine ⟨rfl, rfl, fun j hj => ?_⟩
  simp only [Option.mem_def.1 hj, Option.getD_some]

theorem Arp1.found_keep {s : Arp1} (hs : s.state = flag 2 h) (ho : (!h && b.first) = false)
    (l : Lpm3) {oq_reg nh_reg : BitVec 32} (hf : s.Found arp_table oq_reg nh_reg) :
    (s.step arp_table l b beat).Found arp_table oq_reg nh_reg := by
  rw [step_eq arp_table b beat hs, ho]
  exact hf

theorem Arp2.found_step {s : Arp2} (hs : s.state = flag 2 h) (ho : (!h && b.first) = true)
    (hd : beat.dstPort = 0) {a : Arp1} {oq_reg nh_reg : BitVec 32}
    (ha : a.Found arp_table oq_reg nh_reg) :
    (s.step arp_table a b beat).Found arp_table oq_reg nh_reg := by
  rw [step_eq arp_table b beat hs, if_pos ho]
  obtain ⟨hhit, hoq, hidx⟩ := ha
  cases hm : highestMatch arp_table nh_reg with
  | none =>
    rw [hm] at hhit
    rw [if_neg (fun hc => by simp [hhit] at hc)]
    refine ⟨by rw [hm]; rfl, fun j hj => ?_⟩
    rw [hm] at hj
    cases hj
  | some k =>
    rw [hm] at hhit
    rw [if_pos ⟨hd, hhit⟩]
    refine ⟨by rw [hm]; rfl, fun j hj => ?_⟩
    rw [hidx j hj]
    exact ⟨rfl, hoq⟩

theorem Arp2.found_keep {s : Arp2} (hs : s.state = flag 2 h) (ho : (!h && b.first) = false)
    (a : Arp1) {oq_reg nh_reg : BitVec 32} (hf : s.Found arp_table oq_reg nh_reg) :
    (s.step arp_table a b beat).Found arp_table oq_reg nh_reg := by
  rw [step_eq arp_table b beat hs, ho]
  exact hf

end

/-! ## The chain -/

structure ArpPipe where
  arp_table : BitVec 5 → ArpRow
  arp1 : Stage 2 Arp1
  arp2 : Stage 2 Arp2
  arp3 : Stage 2 Arp3
  arp4 : Stage 2 Unit

namespace ArpPipe

def offer (s : ArpPipe) : Option Beat := s.arp4.offer id

/-- One clock cycle, `l` being the registers of `lpm3`. -/
def step (s : ArpPipe) (s_axis : Option Beat) (m_tready : Bool) (reset : BitVec 32) (m : Macs)
    (l : Lpm3) (arp_wr : Option (BitVec 5 × ArpRow)) : ArpPipe where
  arp_table := LookupPipe.writeRow s.arp_table arp_wr
  arp1 :=
    s.arp1.tick s_axis s.arp2.tready
      (s.arp1.regs.step s.arp_table l (s.arp1.axis s.arp2.tready) s.arp1.beat)
  arp2 :=
    s.arp2.tick (s.arp1.offer id) s.arp3.tready
      (s.arp2.regs.step s.arp_table s.arp1.regs (s.arp2.axis s.arp3.tready) s.arp2.beat)
  arp3 :=
    s.arp3.tick (s.arp2.offer id) s.arp4.tready
      (s.arp3.regs.step s.arp2.regs (s.arp3.axis s.arp4.tready) s.arp3.beat reset)
  arp4 := s.arp4.tick (s.arp3.offer (s.arp3.regs.out m s.arp2.regs)) m_tready ()

def reset (word : Beat) : ArpPipe where
  arp_table _ _ := 0xFFFFFFFF
  arp1 := .reset word ⟨0, false, 0, 0⟩
  arp2 := .reset word ⟨0, 0, false, 0⟩
  arp3 := .reset word ⟨0, 0, 0⟩
  arp4 := .reset word ()

end ArpPipe

end BirRouter
