import BirRouter.Djikstra
import BirRouter.IpTable

/-!
# Hardware and software route lookup

The hardware takes the lowest matching row.  The rows hold the own addresses, then the routing
table, which `djikstra_recompute` leaves in ascending order of netmasks, then rows of zeros.

* `hardwareLookup_cases` — what the stages find for a destination that is not an own address: the
  first match in table order among the entries that have a row, an unused row, or nothing.
* `hardware_agrees_iff` — since the order is ascending, the hardware forwards by the *least*
  specific match where the software forwards by the most specific one; they agree exactly when
  those two forward alike, or when nothing matches and no row is unused.
* `unused_row_hits` — a row of zeros matches every destination, so as long as there is one, no
  lookup ever misses.
-/

set_option autoImplicit false

namespace BirRouter

open ByteLayout Distinct

/-! ## Rows and entries -/

theorem and_bytes (a b c d a' b' c' d' : Byte) :
    (a ++ b ++ c ++ d) &&& (a' ++ b' ++ c' ++ d') =
      (a &&& a') ++ (b &&& b') ++ (c &&& c') ++ (d &&& d') := by
  rw [BitVec.and_append, BitVec.and_append, BitVec.and_append]

theorem ntohl_and (a b : BitVec 32) : ntohl (a &&& b) = ntohl a &&& ntohl b := by
  unfold ntohl
  simp only [BitVec.extractLsb'_and]
  exact (and_bytes _ _ _ _ _ _ _ _).symm

theorem routeRow_matches (r : Router) (e : RtableEntry) (dst : AddrIp) :
    (routeRow r e).Matches (ntohl dst) ↔ e.Matches dst := by
  show ntohl dst &&& ntohl e.netmask = ntohl e.subnet &&& ntohl e.netmask ↔ _
  rw [← ntohl_and, ← ntohl_and]
  exact ⟨ntohl_injective, congrArg ntohl⟩

theorem ownRow_matches (f : Interface) (dst : AddrIp) :
    (ownRow f).Matches (ntohl dst) ↔ f.ip = dst := by
  have hones : ntohl 0xffffffff = BitVec.allOnes 32 := by decide
  show ntohl dst &&& ntohl 0xffffffff = ntohl f.ip &&& ntohl 0xffffffff ↔ _
  rw [hones, BitVec.and_allOnes, BitVec.and_allOnes]
  exact ⟨fun h => (ntohl_injective h).symm, fun h => congrArg ntohl h.symm⟩

theorem unusedRow_matches (ip_addr : BitVec 32) : unusedRow.Matches ip_addr := by
  have h0 : ntohl 0 = 0#32 := by decide
  show ip_addr &&& ntohl 0 = ntohl 0 &&& ntohl 0
  rw [h0, BitVec.and_zero, BitVec.and_zero]

/-! ## The lookup -/

/-- The number of rows left for the routing table. -/
def Router.freeRows (r : Router) : Nat := 32 - r.num_interfaces

/-- The entries that have a row. -/
def Router.inHardware (r : Router) : List RtableEntry := r.ip_table.take r.freeRows

/-- The first matching entry that has a row. -/
def Router.firstMatch (r : Router) (dst : AddrIp) : Option RtableEntry :=
  r.inHardware.find? fun e => e.Matches dst

/-- A packet's first beat at a stage, not yet sent to the CPU. -/
structure Axis.Starts (b : Axis) : Prop where
  first : b.first = true
  not_cpu : b.toCpu = false

theorem lpm1_step {s : Lpm1} {b : Axis} (hs : s.header = 0) (hb : b.Starts)
    (lpm_table : BitVec 5 → LpmRow) (ip_addr : BitVec 32) :
    s.step lpm_table ip_addr b =
      { header := 1
        lpm_hit := (lpm1Loop lpm_table ip_addr 32 (false, s.index_hit)).1
        index_hit := (lpm1Loop lpm_table ip_addr 32 (false, s.index_hit)).2
        ip_addr_out := ip_addr } := by
  unfold Lpm1.step
  rw [if_pos ⟨hs, hb.first⟩, hb.not_cpu]
  rfl

section Lookup

variable {r : Router} {dst : AddrIp}

/-- The row written at `k`. -/
def rowAt (r : Router) (k : Nat) : LpmRow := (updateHardwarearp r).table (BitVec.ofNat 5 k)

theorem rowAt_own (hd : r.Foreign dst) {k : Nat} (hk : k < r.num_interfaces) :
    ¬ (rowAt r k).Matches (ntohl dst) := by
  have := r.num_le
  unfold rowAt
  rw [updateHardwarearp_table r (by omega), if_pos hk, ownRow_matches]
  exact hd k hk

theorem rowAt_entry {i : Nat} {e : RtableEntry} (hi : i < r.freeRows) (he : r.ip_table[i]? = some e) :
    rowAt r (r.num_interfaces + i) = routeRow r e := by
  have := r.num_le
  unfold Router.freeRows at hi
  unfold rowAt
  rw [updateHardwarearp_table r (by omega), if_neg (by omega), Nat.add_sub_cancel_left, he]

theorem rowAt_unused {i : Nat} (hi : i < r.freeRows) (he : r.ip_table[i]? = none) :
    rowAt r (r.num_interfaces + i) = unusedRow := by
  have := r.num_le
  unfold Router.freeRows at hi
  unfold rowAt
  rw [updateHardwarearp_table r (by omega), if_neg (by omega), Nat.add_sub_cancel_left, he]

/-- If no row below the `m`-th table row matches, no entry with one of those rows does. -/
theorem not_matches_of_rows {m : Nat} (hm : m ≤ r.freeRows)
    (h : ∀ k < r.num_interfaces + m, ¬ (rowAt r k).Matches (ntohl dst)) :
    ∀ i < m, ∀ e, r.ip_table[i]? = some e → ¬ e.Matches dst := by
  intro i hi e he
  have hrow := h (r.num_interfaces + i) (by omega)
  rwa [rowAt_entry (by omega) he, routeRow_matches] at hrow

theorem firstMatch_none (h : ∀ i < r.freeRows, ∀ e, r.ip_table[i]? = some e → ¬ e.Matches dst) :
    r.firstMatch dst = none := by
  unfold Router.firstMatch Router.inHardware
  rw [List.find?_eq_none]
  intro e he
  obtain ⟨i, hi⟩ := List.mem_iff_getElem?.1 he
  rw [List.getElem?_take] at hi
  split at hi
  · rename_i hlt
    simpa using h i hlt e hi
  · cases hi

theorem firstMatch_some {i : Nat} {e : RtableEntry} (hi : i < r.freeRows)
    (he : r.ip_table[i]? = some e) (hm : e.Matches dst)
    (h : ∀ j < i, ∀ e, r.ip_table[j]? = some e → ¬ e.Matches dst) :
    r.firstMatch dst = some e := by
  obtain ⟨hlt, hget⟩ := List.getElem?_eq_some_iff.1 he
  unfold Router.firstMatch Router.inHardware
  rw [List.find?_eq_some_iff_getElem]
  refine ⟨by simpa using hm, i, by rw [List.length_take]; omega, ?_, ?_⟩
  · rw [List.getElem_take, hget]
  · intro j hj
    have := h j hj _ (List.getElem?_eq_getElem (by omega))
    simpa [List.getElem_take] using this

/-- **What the comparison loop finds** after `update_hardwarearp`, for a foreign destination. -/
theorem hardwareLookup_cases (hd : r.Foreign dst) (index : BitVec 5) :
    (r.firstMatch dst = none ∧ r.freeRows ≤ r.ip_table.length ∧
        lpm1Loop (updateHardwarearp r).table (ntohl dst) 32 (false, index) = (false, index)) ∨
      ∃ k : BitVec 5,
        lpm1Loop (updateHardwarearp r).table (ntohl dst) 32 (false, index) = (true, k) ∧
        ((∃ e, r.firstMatch dst = some e ∧ (updateHardwarearp r).table k = routeRow r e) ∨
          r.firstMatch dst = none ∧ r.ip_table.length < r.freeRows ∧
            (updateHardwarearp r).table k = unusedRow) := by
  have hnum := r.num_le
  have hfree : r.num_interfaces + r.freeRows = 32 := by unfold Router.freeRows; omega
  rcases lpm1Loop_eq (updateHardwarearp r).table (ntohl dst) 32 (false, index)
    with ⟨hno, heq⟩ | ⟨k, hk, hm, hlow, heq⟩
  · refine .inl ⟨firstMatch_none (not_matches_of_rows (Nat.le_refl _) ?_), ?_, heq⟩
    · intro k hk
      exact hno k (by omega)
    · -- an unused row would have matched
      by_contra hlt
      have hhit : (rowAt r (r.num_interfaces + r.ip_table.length)).Matches (ntohl dst) := by
        rw [rowAt_unused (by omega) (List.getElem?_eq_none (Nat.le_refl _))]
        exact unusedRow_matches _
      exact hno _ (by omega) hhit
  · refine .inr ⟨BitVec.ofNat 5 k, heq, ?_⟩
    have hge : r.num_interfaces ≤ k := by
      by_contra hlt
      exact rowAt_own hd (by omega) hm
    obtain ⟨i, rfl⟩ := Nat.exists_eq_add_of_le hge
    have hbefore : ∀ j < i, ∀ e, r.ip_table[j]? = some e → ¬ e.Matches dst :=
      not_matches_of_rows (by omega) hlow
    cases he : r.ip_table[i]? with
    | some e =>
      have hrow := rowAt_entry (by omega) he
      have hmatch : e.Matches dst := (routeRow_matches r e dst).1 (hrow ▸ hm)
      exact .inl ⟨e, firstMatch_some (by omega) he hmatch hbefore, hrow⟩
    | none =>
      have hlen : r.ip_table.length ≤ i := List.getElem?_eq_none_iff.1 he
      refine .inr ⟨firstMatch_none fun j hj e hje => ?_, by omega, rowAt_unused (by omega) he⟩
      have := (List.getElem?_eq_some_iff.1 hje).1
      exact hbefore j (by omega) e hje

end Lookup

/-! ## Agreement -/

/-- The output queue and next hop of an entry, as the hardware holds them. -/
def Router.forwarding (r : Router) (e : RtableEntry) (dst : AddrIp) : BitVec 32 × BitVec 32 :=
  ((r.interface e.interface).hw_oq.setWidth 32, ntohl (e.nextHop dst))

/-- The lookup misses, or it yields the forwarding of the entry the software selects. -/
def Router.Agrees (r : Router) (dst : AddrIp) (l : Lpm2) : Prop :=
  l.lpm_hit = false ∨ ∃ i e, ipLongestprefixmatch r.ip_table dst = some (i, e) ∧
    (l.oq_reg, l.nh_reg) = r.forwarding e dst

/-- Two entries send a packet for `dst` to the same queue and next hop. -/
def Router.SameForwarding (r : Router) (dst : AddrIp) (e e' : RtableEntry) : Prop :=
  (r.interface e.interface).hw_oq = (r.interface e'.interface).hw_oq ∧
    e.nextHop dst = e'.nextHop dst

/-- The first match with the smallest netmask. -/
def leastSpecific (table : List RtableEntry) (dst : AddrIp) : Option RtableEntry :=
  (table.filter fun e => e.Matches dst).argmin fun e => e.netmask.toNat

theorem forwarding_eq_iff (r : Router) (dst : AddrIp) (e e' : RtableEntry) :
    r.forwarding e dst = r.forwarding e' dst ↔ r.SameForwarding dst e e' := by
  unfold Router.forwarding Router.SameForwarding
  rw [Prod.mk.injEq]
  refine and_congr ⟨fun h => ?_, congrArg _⟩ ⟨ntohl_injective, congrArg _⟩
  have hw := congrArg (BitVec.setWidth 8) h
  simpa using hw

theorem lpm2_step {s : Lpm2} {b : Axis} {l : Lpm1} (hs : s.header = 0) (hb : b.Starts)
    (lpm_table : BitVec 5 → LpmRow) :
    s.step lpm_table l b =
      if l.lpm_hit then
        { header := 1
          lpm_hit := true
          oq_reg := (lpm_table l.index_hit).oq
          nh_reg := if (lpm_table l.index_hit).nextHop ≠ 0 then (lpm_table l.index_hit).nextHop
            else l.ip_addr_out }
      else { s with header := 1, lpm_hit := false } := by
  unfold Lpm2.step
  rw [if_pos ⟨hs, hb.first⟩, hb.not_cpu]
  cases h : l.lpm_hit <;> simp

theorem routeRow_forwarding (r : Router) (e : RtableEntry) (dst : AddrIp) :
    ((routeRow r e).oq, if (routeRow r e).nextHop ≠ 0 then (routeRow r e).nextHop else ntohl dst) =
      r.forwarding e dst := by
  have hz : ntohl e.router_ip ≠ 0 ↔ ¬ e.router_ip = 0 :=
    not_congr ⟨fun h => ntohl_injective (h.trans (by decide : (0 : BitVec 32) = ntohl 0)),
      fun h => by rw [h]; decide⟩
  show (_, if ntohl e.router_ip ≠ 0 then ntohl e.router_ip else ntohl dst) = _
  unfold Router.forwarding RtableEntry.nextHop
  by_cases h : e.router_ip = 0
  · rw [if_neg (fun hne => hz.1 hne h), if_pos h]
    rfl
  · rw [if_pos (hz.2 h), if_neg h]
    rfl

/-- The table is in ascending order of netmasks. -/
theorem newTable_ascending (env : Env) (r : Router) :
    (newTable env r).Pairwise fun a b => a.netmask.toNat ≤ b.netmask.toNat := by
  unfold newTable
  generalize hentries : dynamicEntries env r (gather r) (bestRoutes r (gather r)) ++
    r.ip_table.filter (fun e => !e.dynamic) = entries
  obtain ⟨sub, hsub, hsl⟩ := foldl_addNew_sublist (env.qsort.sort entries) []
  have hasc : (env.qsort.sort entries).Pairwise fun a b => a.netmask.toNat ≤ b.netmask.toNat := by
    refine (env.qsort.ascending entries).imp fun {a b} h => ?_
    unfold cmpfunc at h
    split at h
    · rename_i hle
      exact BitVec.le_def.1 hle
    · omega
  simp only [hentries, hsub, List.nil_append]
  exact hasc.sublist hsl

theorem firstMatch_eq_leastSpecific {r : Router} {dst : AddrIp}
    (h : r.ip_table.Pairwise fun a b => a.netmask.toNat ≤ b.netmask.toNat) :
    r.firstMatch dst = leastSpecific r.inHardware dst :=
  find?_eq_argmin _ (h.sublist (List.take_sublist _ _))

/-- The software side of the agreement, by entries instead of positions. -/
theorem selected_iff (table : List RtableEntry) (dst : AddrIp) (P : RtableEntry → Prop) :
    (∃ i e, ipLongestprefixmatch table dst = some (i, e) ∧ P e) ↔
      ∃ e, mostSpecific table dst = some e ∧ P e := by
  rw [← ipLongestprefixmatch_eq]
  constructor
  · rintro ⟨i, e, he, hp⟩
    exact ⟨e, by rw [he]; rfl, hp⟩
  · rintro ⟨e, he, hp⟩
    obtain ⟨⟨i, e'⟩, hi, rfl⟩ := Option.map_eq_some_iff.1 he
    exact ⟨i, e', hi, hp⟩

theorem mostSpecific_none {r : Router} {dst : AddrIp} (hf : r.firstMatch dst = none)
    (hlen : r.ip_table.length < r.freeRows) : mostSpecific r.ip_table dst = none := by
  unfold Router.firstMatch Router.inHardware at hf
  rw [List.take_of_length_le hlen.le, List.find?_eq_none] at hf
  have hc : candidates r.ip_table dst = [] := by
    unfold candidates
    rw [List.filter_eq_nil_iff]
    intro e he
    have := hf e he
    simp only [decide_eq_true_eq] at this ⊢
    exact fun h => this h.1
  unfold mostSpecific
  rw [hc]
  rfl

/-- When the two lookups agree: the least specific match that has a row forwards like the most
specific match of the whole table; without a match, no row is unused. -/
def Router.Agreeable (r : Router) (dst : AddrIp) : Prop :=
  match leastSpecific r.inHardware dst with
  | none => r.freeRows ≤ r.ip_table.length
  | some e => ∃ e', mostSpecific r.ip_table dst = some e' ∧ r.SameForwarding dst e e'

theorem agrees_iff {r : Router} {dst : AddrIp}
    (hasc : r.ip_table.Pairwise fun a b => a.netmask.toNat ≤ b.netmask.toNat)
    (hd : r.Foreign dst) {s1 : Lpm1} {s2 : Lpm2} {b1 b2 : Axis} (h1 : s1.header = 0)
    (h2 : s2.header = 0) (hb1 : b1.Starts) (hb2 : b2.Starts) :
    r.Agrees dst (s2.step (updateHardwarearp r).table
        (s1.step (updateHardwarearp r).table (ntohl dst) b1) b2) ↔ r.Agreeable dst := by
  rw [lpm1_step h1 hb1, lpm2_step h2 hb2]
  unfold Router.Agreeable Router.Agrees
  rw [← firstMatch_eq_leastSpecific hasc, selected_iff]
  rcases hardwareLookup_cases hd s1.index_hit with
    ⟨hf, hlen, hloop⟩ | ⟨k, hloop, ⟨e, hf, hrow⟩ | ⟨hf, hlen, -⟩⟩
  · -- nothing matches and every row holds a route: a miss
    simp only [hloop, hf, Bool.false_eq_true, if_false, true_or, hlen]
  · simp only [hloop, hf, if_true, hrow, Bool.true_eq_false, false_or, routeRow_forwarding,
      forwarding_eq_iff]
  · -- an unused row is hit although no entry matches
    simp only [hloop, hf, if_true, mostSpecific_none hf hlen, Bool.true_eq_false, false_or,
      reduceCtorEq, false_and, exists_false, false_iff]
    omega

/-- **Hardware and software routing.**  After `djikstra_recompute`, for every destination that is
not an own address and from any idle state of the stages: the hardware misses or forwards like the
software exactly if the least and the most specific match forward alike, or nothing matches and no
row is unused. -/
theorem hardware_agrees_iff (env : Env) (r : Router) {dst : AddrIp} (hd : r.Foreign dst)
    {s1 : Lpm1} {s2 : Lpm2} {b1 b2 : Axis} (h1 : s1.header = 0) (h2 : s2.header = 0)
    (hb1 : b1.Starts) (hb2 : b2.Starts) :
    (djikstraRecompute env r).Agrees dst
        (s2.step (djikstraRecompute env r).nf.table
          (s1.step (djikstraRecompute env r).nf.table (ntohl dst) b1) b2) ↔
      (djikstraRecompute env r).Agreeable dst :=
  agrees_iff (r := { r with ip_table := newTable env r }) (newTable_ascending env r) hd h1 h2 hb1 hb2

/-- The first beat of a packet from port 0. -/
def firstBeat : Axis := ⟨true, true, false, 0x10000⟩

theorem firstBeat_starts : firstBeat.Starts := ⟨by decide, by decide⟩

/-- Only the route to 10.0.0.0/8 matches 10.2.0.1, so hardware and software agree there. -/
theorem hardware_agrees_single_match :
    (djikstraRecompute smallEnv smallRouter).Agrees (ipConvert 10 2 0 1)
      (Lpm2.step ⟨0, false, 0, 0⟩ (djikstraRecompute smallEnv smallRouter).nf.table
        (Lpm1.step ⟨0, false, 0, 0⟩ (djikstraRecompute smallEnv smallRouter).nf.table
          (ntohl (ipConvert 10 2 0 1)) firstBeat) firstBeat) := by
  rw [hardware_agrees_iff smallEnv smallRouter (smallRouter_foreign (by decide) (by decide)) rfl rfl
    firstBeat_starts firstBeat_starts]
  have hl : leastSpecific (djikstraRecompute smallEnv smallRouter).inHardware (ipConvert 10 2 0 1)
      = some ⟨0, ipConvert 10 0 0 0, ipConvert 255 0 0 0, 0, 0, false, 0⟩ := by decide
  unfold Router.Agreeable
  rw [hl]
  exact ⟨_, by decide, rfl, rfl⟩

/-- 10.1.2.3 lies in 10.0.0.0/8 on eth0 and in 10.1.0.0/16 behind eth1; the hardware sends it to
eth0, the software to the neighbour on eth1. -/
theorem hardware_prefers_shorter_prefix :
    ¬ (djikstraRecompute smallEnv smallRouter).Agrees (ipConvert 10 1 2 3)
      (Lpm2.step ⟨0, false, 0, 0⟩ (djikstraRecompute smallEnv smallRouter).nf.table
        (Lpm1.step ⟨0, false, 0, 0⟩ (djikstraRecompute smallEnv smallRouter).nf.table
          (ntohl (ipConvert 10 1 2 3)) firstBeat) firstBeat) := by
  have hiff := agrees_iff (r := { smallRouter with ip_table := newTable smallEnv smallRouter })
    (newTable_ascending smallEnv smallRouter)
    (smallRouter_foreign (show smallEth0.ip ≠ ipConvert 10 1 2 3 by decide) (by decide))
    (show (⟨0, false, 0, 0⟩ : Lpm1).header = 0 from rfl)
    (show (⟨0, false, 0, 0⟩ : Lpm2).header = 0 from rfl) firstBeat_starts firstBeat_starts
  refine fun hagree => absurd (hiff.1 hagree) ?_
  have hl : leastSpecific (djikstraRecompute smallEnv smallRouter).inHardware (ipConvert 10 1 2 3)
      = some ⟨0, ipConvert 10 0 0 0, ipConvert 255 0 0 0, 0, 0, false, 0⟩ := by decide
  have hm : mostSpecific (newTable smallEnv smallRouter) (ipConvert 10 1 2 3) = some
      ⟨ipConvert 192 168 1 2, ipConvert 10 1 0 0, ipConvert 255 255 0 0, 1, 1, true, 0⟩ := by decide
  show ¬ (djikstraRecompute smallEnv smallRouter).Agreeable (ipConvert 10 1 2 3)
  unfold Router.Agreeable
  rw [hl]
  rintro ⟨e, he, hoq, -⟩
  rw [show mostSpecific (djikstraRecompute smallEnv smallRouter).ip_table _ = _ from hm] at he
  cases he
  exact absurd hoq (by decide)

/-! ## Unused rows -/

/-- **An unused row catches everything.**  With fewer entries than rows for them, every destination
that is no own address — also one that matches no entry — is reported as a hit by `lpm1`, whatever
the stages held before; `lpm3` neither counts a miss nor sends the packet to the CPU. -/
theorem unused_row_hits {r : Router} {dst : AddrIp} (hlen : r.ip_table.length < r.freeRows)
    (hd : r.Foreign dst) {s1 : Lpm1} {s2 : Lpm2} {s3 : Lpm3} {b1 b2 b3 : Axis}
    (h1 : s1.header = 0) (h2 : s2.header = 0) (h3 : s3.header = 0)
    (hb1 : b1.Starts) (hb2 : b2.Starts) (hb3 : b3.Starts) :
    let l1 := s1.step (updateHardwarearp r).table (ntohl dst) b1
    let l2 := s2.step (updateHardwarearp r).table l1 b2
    l1.lpm_hit = true ∧ (s3.step l2 b3).1.lpm_miss_count = s3.lpm_miss_count ∧
      (s3.step l2 b3).2 = b3.tuser := by
  intro l1 l2
  have hhit : l1.lpm_hit = true := by
    have hl1 : l1 = _ := lpm1_step h1 hb1 _ _
    rw [hl1]
    rcases hardwareLookup_cases hd s1.index_hit with ⟨-, hge, -⟩ | ⟨k, hloop, -⟩
    · omega
    · rw [hloop]
  refine ⟨hhit, ?_⟩
  have hl2 : l2.lpm_hit = true := by
    have h : l2 = _ := lpm2_step h2 hb2 _
    rw [h, hhit]
    rfl
  unfold Lpm3.step
  rw [if_pos ⟨h3, hb3.first⟩, hb3.not_cpu, hl2]
  exact ⟨rfl, rfl⟩

/-- With two routes and 28 unused rows, 8.8.8.8 is a hit. -/
theorem unused_row_hits_sample :
    (Lpm1.step ⟨0, false, 0, 0⟩ (updateHardwarearp smallRouter).table
      (ntohl (ipConvert 8 8 8 8)) firstBeat).lpm_hit = true :=
  (unused_row_hits (r := smallRouter) (by decide) (smallRouter_foreign (by decide) (by decide))
    rfl (show (⟨0, false, 0, 0⟩ : Lpm2).header = 0 from rfl)
    (show (⟨0, 0, false, 0, 0⟩ : Lpm3).header = 0 from rfl)
    firstBeat_starts firstBeat_starts firstBeat_starts).1

/-- 8.8.8.8 is no own address and matches no entry of a table that leaves rows unused. -/
theorem unused_row_hits_unrouted :
    smallRouter.ip_table.length < smallRouter.freeRows ∧
      (∀ i < smallRouter.num_interfaces, (smallRouter.interface i).ip ≠ ipConvert 8 8 8 8) ∧
      (∀ e ∈ smallRouter.ip_table, ¬ e.Matches (ipConvert 8 8 8 8)) ∧
      (Lpm1.step ⟨0, false, 0, 0⟩ (updateHardwarearp smallRouter).table
        (ntohl (ipConvert 8 8 8 8)) firstBeat).lpm_hit ≠ false := by
  refine ⟨by decide, by decide, by decide, ?_⟩
  rw [lpm1_step rfl firstBeat_starts]
  rcases hardwareLookup_cases (r := smallRouter)
      (smallRouter_foreign (show smallEth0.ip ≠ ipConvert 8 8 8 8 by decide) (by decide)) 0
    with ⟨-, hge, -⟩ | ⟨k, hloop, -⟩
  · exact absurd hge (by decide)
  · rw [hloop]
    exact Bool.noConfusion

end BirRouter
