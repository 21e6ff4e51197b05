import BirRouter.Packets
import Mathlib.Logic.Function.Basic

/-!
# The hardware route table

* `TableRegs` — the register block `ipif_table_regs.v` with the 32-row table behind it: a row is
  written column by column and committed with `WR_ADDR`, and read back through `RD_ADDR`.
* `Lpm1`, `Lpm2`, `Lpm3` — the three lookup stages of the output port lookup, one clock cycle each:
  the masked comparison with every row, the fetch of the row's output queue and next hop, and the
  miss counter with the redirection of missed packets to the CPU.

`lpm1Loop_eq` says what the comparison loop finds: it runs from row 31 down and the last match
wins, so the *lowest* matching row is taken.
-/

set_option autoImplicit false

namespace BirRouter

/-! ## Registers -/

/-- `ipif_table_regs` with `cols` columns. -/
structure TableRegs (cols : Nat) where
  wr_port : Fin cols → BitVec 32
  rd_port : Fin cols → BitVec 32
  wr_addr : BitVec 5
  rd_addr : BitVec 5
  table : BitVec 5 → Fin cols → BitVec 32

namespace TableRegs

variable {cols : Nat}

/-- Registers `0 … cols-1` are the columns, then come `WR_ADDR` and `RD_ADDR`. -/
def writeReg (t : TableRegs cols) (addr : Nat) (data : BitVec 32) : TableRegs cols :=
  if h : addr < cols then
    { t with wr_port := Function.update t.wr_port ⟨addr, h⟩ data }
  else if addr = cols then
    { t with
      wr_addr := data.setWidth 5
      table := Function.update t.table (data.setWidth 5) t.wr_port }
  else if addr = cols + 1 then
    { t with rd_addr := data.setWidth 5, rd_port := t.table (data.setWidth 5) }
  else t

def readReg (t : TableRegs cols) (addr : Nat) : BitVec 32 :=
  if h : addr < cols then t.rd_port ⟨addr, h⟩
  else if addr = cols then t.wr_addr.setWidth 32
  else t.rd_addr.setWidth 32

@[simp] theorem readReg_col (t : TableRegs cols) (c : Fin cols) : t.readReg c = t.rd_port c :=
  dif_pos c.isLt

/-- A loop that writes rows `off, off+1, …` one after another. -/
theorem table_foldl_rows (row : Nat → Fin cols → BitVec 32) (off : Nat)
    {write : TableRegs cols → Nat → TableRegs cols}
    (hw : ∀ t i, i + off < 32 →
      (write t i).table = Function.update t.table (BitVec.ofNat 5 (i + off)) (row i))
    (t : TableRegs cols) {k : Nat} (hk : k < 32) : ∀ n, n + off ≤ 32 →
    ((List.range n).foldl write t).table (BitVec.ofNat 5 k) =
      if off ≤ k ∧ k < off + n then row (k - off) else t.table (BitVec.ofNat 5 k)
  | 0, _ => by rw [if_neg (by omega)]; rfl
  | n + 1, hn => by
    rw [List.range_succ, List.foldl_append, List.foldl_cons, List.foldl_nil, hw _ _ (by omega)]
    by_cases hkn : k = n + off
    · subst hkn
      rw [Function.update_self, if_pos (by omega), Nat.add_sub_cancel]
    · have hne : BitVec.ofNat 5 k ≠ BitVec.ofNat 5 (n + off) := by
        intro h
        have := congrArg BitVec.toNat h
        simp only [BitVec.toNat_ofNat] at this
        omega
      rw [Function.update_of_ne hne, table_foldl_rows row off hw t hk n (by omega)]
      by_cases hin : off ≤ k ∧ k < off + n
      · rw [if_pos hin, if_pos (by omega)]
      · rw [if_neg hin, if_neg (by omega)]

end TableRegs

/-! ## The lookup stages -/

/-- The columns of a row of the LPM table. -/
abbrev LpmRow := Fin 4 → BitVec 32

def LpmRow.ip (row : LpmRow) : BitVec 32 := row 0
def LpmRow.mask (row : LpmRow) : BitVec 32 := row 1
def LpmRow.nextHop (row : LpmRow) : BitVec 32 := row 2
def LpmRow.oq (row : LpmRow) : BitVec 32 := row 3

/-- What a stage sees at the output of its input FIFO in one cycle. -/
structure Axis where
  tvalid : Bool
  tready : Bool
  tlast : Bool
  tuser : BitVec 128
  deriving DecidableEq, Repr

/-- `SRC_PORT_POS` and `DST_PORT_POS`. -/
def srcPortPos : Nat := 16
def dstPortPos : Nat := 24

namespace Axis

/-- A beat that is taken and does not end its packet. -/
def first (b : Axis) : Bool := b.tvalid && !b.tlast && b.tready

def last (b : Axis) : Bool := b.tlast && b.tvalid && b.tready

/-- An earlier stage has already sent the packet to one of the CPU queues. -/
def toCpu (b : Axis) : Bool :=
  b.tuser.getLsbD (dstPortPos + 1) || b.tuser.getLsbD (dstPortPos + 3) ||
    b.tuser.getLsbD (dstPortPos + 5) || b.tuser.getLsbD (dstPortPos + 7)

end Axis

/-- The registers of `lpm1.v`. -/
structure Lpm1 where
  header : BitVec 2
  lpm_hit : Bool
  index_hit : BitVec 5
  ip_addr_out : BitVec 32
  deriving DecidableEq, Repr

/-- The test of one row. -/
def LpmRow.Matches (row : LpmRow) (ip_addr : BitVec 32) : Prop :=
  ip_addr &&& row.mask = row.ip &&& row.mask

instance (row : LpmRow) (ip_addr : BitVec 32) : Decidable (row.Matches ip_addr) :=
  inferInstanceAs (Decidable (ip_addr &&& row.mask = row.ip &&& row.mask))

/-- `for (j = n-1; j >= 0; j = j-1)`: every match overwrites the hit and index found so far. -/
def lpm1Loop (lpm_table : BitVec 5 → LpmRow) (ip_addr : BitVec 32) :
    Nat → Bool × BitVec 5 → Bool × BitVec 5
  | 0, found => found
  | j + 1, found =>
    lpm1Loop lpm_table ip_addr j
      (if (lpm_table (BitVec.ofNat 5 j)).Matches ip_addr then (true, BitVec.ofNat 5 j) else found)

/-- One clock cycle of `lpm1.v`. -/
def Lpm1.step (s : Lpm1) (lpm_table : BitVec 5 → LpmRow) (ip_addr : BitVec 32) (b : Axis) : Lpm1 :=
  if s.header = 0 ∧ b.first then
    let found :=
      if b.toCpu then (false, s.index_hit)
      else lpm1Loop lpm_table ip_addr 32 (false, s.index_hit)
    { header := 1, lpm_hit := found.1, index_hit := found.2, ip_addr_out := ip_addr }
  else if s.header = 1 ∧ b.last then { s with header := 0 }
  else s

/-- The registers of `lpm2.v`. -/
structure Lpm2 where
  header : BitVec 2
  lpm_hit : Bool
  nh_reg : BitVec 32
  oq_reg : BitVec 32
  deriving DecidableEq, Repr

/-- One clock cycle of `lpm2.v`, fed by the registers of `lpm1`. -/
def Lpm2.step (s : Lpm2) (lpm_table : BitVec 5 → LpmRow) (l : Lpm1) (b : Axis) : Lpm2 :=
  if s.header = 0 ∧ b.first then
    let s := { s with header := 1, lpm_hit := l.lpm_hit }
    if !b.toCpu && l.lpm_hit then
      let row := lpm_table l.index_hit
      { s with
        oq_reg := row.oq
        nh_reg := if row.nextHop ≠ 0 then row.nextHop else l.ip_addr_out }
    else s
  else if s.header = 1 ∧ b.last then { s with header := 0 }
  else s

/-- The registers of `lpm3.v`. -/
structure Lpm3 where
  header : BitVec 1
  lpm_miss_count : BitVec 32
  arp_lookup : Bool
  nh_reg : BitVec 32
  oq_reg : BitVec 32
  deriving DecidableEq, Repr

/-- `TUSER` with its destination port byte replaced. -/
def setDstPort (tuser : BitVec 128) (port : BitVec 8) : BitVec 128 :=
  tuser.extractLsb' 32 96 ++ port ++ tuser.extractLsb' 0 24

/-- The CPU queue of the port a packet came from; a later `if` of the source overrides. -/
def missPort (tuser : BitVec 128) : BitVec 128 :=
  if tuser.getLsbD (srcPortPos + 6) then setDstPort tuser 0x80
  else if tuser.getLsbD (srcPortPos + 4) then setDstPort tuser 0x20
  else if tuser.getLsbD (srcPortPos + 2) then setDstPort tuser 0x08
  else if tuser.getLsbD srcPortPos then setDstPort tuser 0x02
  else tuser

/-- One clock cycle of `lpm3.v` without a counter reset, fed by the registers of `lpm2`; the second
component is `M_AXIS_TUSER`. -/
def Lpm3.step (s : Lpm3) (l : Lpm2) (b : Axis) : Lpm3 × BitVec 128 :=
  if s.header = 0 ∧ b.first then
    let s := { s with header := 1 }
    if b.toCpu then (s, b.tuser)
    else if l.lpm_hit then
      ({ s with oq_reg := l.oq_reg, nh_reg := l.nh_reg, arp_lookup := l.lpm_hit }, b.tuser)
    else ({ s with lpm_miss_count := s.lpm_miss_count + 1 }, missPort b.tuser)
  else if s.header = 1 ∧ b.last then ({ s with header := 0 }, b.tuser)
  else (s, b.tuser)

/-! ## What the lookup finds -/

/-- **The comparison loop.**  The lowest matching row below `n`, or what was there before. -/
theorem lpm1Loop_eq (lpm_table : BitVec 5 → LpmRow) (ip_addr : BitVec 32) :
    ∀ (n : Nat) (found : Bool × BitVec 5),
      (∀ j < n, ¬ (lpm_table (BitVec.ofNat 5 j)).Matches ip_addr) ∧
          lpm1Loop lpm_table ip_addr n found = found ∨
        ∃ j < n, (lpm_table (BitVec.ofNat 5 j)).Matches ip_addr ∧
          (∀ i < j, ¬ (lpm_table (BitVec.ofNat 5 i)).Matches ip_addr) ∧
          lpm1Loop lpm_table ip_addr n found = (true, BitVec.ofNat 5 j)
  | 0, found => .inl ⟨fun _ h => absurd h (Nat.not_lt_zero _), rfl⟩
  | n + 1, found => by
    rw [lpm1Loop]
    -- the rounds after this one look at the rows below `n`
    rcases lpm1Loop_eq lpm_table ip_addr n
        (if (lpm_table (BitVec.ofNat 5 n)).Matches ip_addr then (true, BitVec.ofNat 5 n) else found)
      with ⟨hno, heq⟩ | ⟨j, hj, hm, hlow, heq⟩
    · by_cases hn : (lpm_table (BitVec.ofNat 5 n)).Matches ip_addr
      · refine .inr ⟨n, Nat.lt_succ_self n, hn, hno, ?_⟩
        rw [heq, if_pos hn]
      · refine .inl ⟨fun j hj => ?_, by rw [heq, if_neg hn]⟩
        rcases Nat.lt_succ_iff_lt_or_eq.1 hj with hlt | rfl
        · exact hno j hlt
        · exact hn
    · exact .inr ⟨j, Nat.lt_succ_of_lt hj, hm, hlow, heq⟩

end BirRouter
