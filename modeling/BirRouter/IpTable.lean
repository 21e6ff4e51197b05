import BirRouter.Router
import Mathlib.Data.List.MinMax

/-!
# Lookups in the routing table (`ip.c`)

`ipLongestprefixmatch` scans the whole table and keeps the last entry whose netmask is larger, as
an unsigned number, than that of every match before it.  As a function of the table
(`ipLongestprefixmatch_eq`) it is the first entry with the largest netmask among the matching
entries whose netmask is not 0: an entry with netmask 0 is never selected.

`LongestPrefix` is what a lookup is for, in terms of prefix lengths.  The words that hold the masks
in network byte order are ordered like the lengths (`prefixMask_lt_iff`), so the scan meets it
except where only default routes match (`ipLongestprefixmatch_longest_iff`).

`ipPutintable` adds an entry unless the first one for its address is on the same interface.  So the
table that a sequence of calls leaves is determined by the first call for each address
(`count_putAll`), and has one entry for each route only for some sequences (`putAll_once_iff`).
-/

set_option autoImplicit false

namespace BirRouter

open ByteLayout

/-- `(ip & entry->netmask) == (entry->subnet & entry->netmask)`. -/
def RtableEntry.Matches (entry : RtableEntry) (ip : AddrIp) : Prop :=
  ip &&& entry.netmask = entry.subnet &&& entry.netmask

instance (entry : RtableEntry) (ip : AddrIp) : Decidable (entry.Matches ip) :=
  inferInstanceAs (Decidable (ip &&& entry.netmask = entry.subnet &&& entry.netmask))

/-- `maxmatch`, and `answer` with the entry copied to `result`. -/
structure LpmScan where
  maxmatch : AddrIp
  answer : Option (Nat × RtableEntry)

/-- The body of the scan at entry `i`. -/
def LpmScan.step (ip : AddrIp) (s : LpmScan) (e : RtableEntry × Nat) : LpmScan :=
  if e.1.Matches ip ∧ s.maxmatch < e.1.netmask then ⟨e.1.netmask, some (e.2, e.1)⟩ else s

/-- The index and entry found, `none` for -1. -/
def ipLongestprefixmatch (table : List RtableEntry) (ip : AddrIp) : Option (Nat × RtableEntry) :=
  (table.zipIdx.foldl (LpmScan.step ip) ⟨0, none⟩).answer

/-- `ip_directmatch`: the first entry with that subnet address, and its index. -/
def ipDirectmatch (table : List RtableEntry) (ip : AddrIp) : Option (Nat × RtableEntry) :=
  (table.zipIdx.find? fun e => e.1.subnet = ip).map fun e => (e.2, e.1)

/-- `ip_putintable`.  The new entry is put together on the stack, where `padding` is what nobody
wrote; the warning about a conflict is left out. -/
def ipPutintable (padding : BitVec 56) (table : List RtableEntry) (subnet : AddrIp)
    (interface : Nat) (netmask : AddrIp) (dynamic : Bool) (metric : Int) (ip : AddrIp) :
    List RtableEntry :=
  let entry : RtableEntry := ⟨ip, subnet, netmask, interface, metric, dynamic, padding⟩
  match ipDirectmatch table subnet with
  | some (_, existing) => if existing.interface = interface then table else table ++ [entry]
  | none => table ++ [entry]

/-- The address to resolve: the entry's router, or the destination itself on a direct link. -/
def RtableEntry.nextHop (entry : RtableEntry) (ip : AddrIp) : AddrIp :=
  if entry.router_ip = 0 then ip else entry.router_ip

/-- An interface that is not in the table yet gets its entry. -/
theorem ipPutintable_new {table : List RtableEntry} {interface : Nat}
    (h : ∀ e ∈ table, e.interface ≠ interface) (padding : BitVec 56) (subnet netmask : AddrIp)
    (dynamic : Bool) (metric : Int) (ip : AddrIp) :
    ipPutintable padding table subnet interface netmask dynamic metric ip =
      table ++ [⟨ip, subnet, netmask, interface, metric, dynamic, padding⟩] := by
  unfold ipPutintable
  simp only
  split
  · rename_i i existing hfound
    obtain ⟨e, he, heq⟩ := Option.map_eq_some_iff.1 hfound
    have hmem := List.fst_mem_of_mem_zipIdx (List.mem_of_find?_eq_some he)
    simp only [Prod.mk.injEq] at heq
    rw [heq.2] at hmem
    rw [if_neg (h existing hmem)]
  · rfl

/-- The entries a scan can select. -/
def candidates (table : List RtableEntry) (ip : AddrIp) : List RtableEntry :=
  table.filter fun e => e.Matches ip ∧ e.netmask ≠ 0

/-- The first candidate with the largest netmask. -/
def mostSpecific (table : List RtableEntry) (ip : AddrIp) : Option RtableEntry :=
  (candidates table ip).argmax fun e => e.netmask.toNat

/-- The netmask a match has to exceed to be preferred. -/
def bestMask (best : Option RtableEntry) : AddrIp := (best.map RtableEntry.netmask).getD 0

theorem mostSpecific_concat (table : List RtableEntry) (e : RtableEntry) (ip : AddrIp) :
    mostSpecific (table ++ [e]) ip =
      if e.Matches ip ∧ bestMask (mostSpecific table ip) < e.netmask then some e
      else mostSpecific table ip := by
  have hcand : candidates (table ++ [e]) ip =
      if e.Matches ip ∧ e.netmask ≠ 0 then candidates table ip ++ [e] else candidates table ip := by
    unfold candidates
    rw [List.filter_append]
    by_cases h : e.Matches ip ∧ e.netmask ≠ 0
    · rw [if_pos h, List.filter_singleton, decide_eq_true h, cond_true]
    · rw [if_neg h, List.filter_singleton, decide_eq_false h, cond_false, List.append_nil]
  unfold mostSpecific
  rw [hcand]
  by_cases hc : e.Matches ip ∧ e.netmask ≠ 0
  · rw [if_pos hc, List.argmax_concat]
    cases hb : (candidates table ip).argmax fun e => e.netmask.toNat with
    | none =>
      have hpos : bestMask none < e.netmask := by
        have := BitVec.toNat_ne_iff_ne.2 hc.2
        exact BitVec.lt_def.2 (Nat.pos_of_ne_zero this)
      rw [if_pos ⟨hc.1, hpos⟩]
    | some c =>
      have hlt : bestMask (some c) < e.netmask ↔ c.netmask.toNat < e.netmask.toNat := BitVec.lt_def
      simp only [hc.1, true_and, hlt]
  · rw [if_neg hc, if_neg]
    rintro ⟨hm, hlt⟩
    -- a matching entry that is no candidate has netmask 0, which exceeds nothing
    have h0 : e.netmask = 0 := by
      by_contra h0
      exact hc ⟨hm, h0⟩
    rw [h0] at hlt
    exact absurd (BitVec.lt_def.1 hlt) (Nat.not_lt_zero _)

/-- The scan holds the best candidate so far, and `maxmatch` its netmask. -/
theorem lpmScan_eq (table : List RtableEntry) (ip : AddrIp) :
    (table.zipIdx.foldl (LpmScan.step ip) ⟨0, none⟩).answer.map Prod.snd = mostSpecific table ip ∧
      (table.zipIdx.foldl (LpmScan.step ip) ⟨0, none⟩).maxmatch =
        bestMask (mostSpecific table ip) := by
  induction table using List.reverseRecOn with
  | nil => exact ⟨rfl, rfl⟩
  | append_singleton table e ih =>
    obtain ⟨iha, ihm⟩ := ih
    rw [List.zipIdx_append, List.foldl_append, List.zipIdx_singleton, List.foldl_cons,
      List.foldl_nil, mostSpecific_concat, ← ihm, LpmScan.step]
    split
    · exact ⟨rfl, rfl⟩
    · exact ⟨iha, ihm⟩

/-- **Longest prefix match.** -/
theorem ipLongestprefixmatch_eq (table : List RtableEntry) (ip : AddrIp) :
    (ipLongestprefixmatch table ip).map Prod.snd = mostSpecific table ip :=
  (lpmScan_eq table ip).1

/-! ## Prefix lengths -/

/-- The netmask of a prefix of `n` bits, in network byte order. -/
def prefixMask (n : Nat) : AddrIp := htonl (BitVec.allOnes 32 <<< (32 - n))

/-- The length of the prefix a netmask selects. -/
def prefixLength (mask : AddrIp) : Nat := (List.range 33).findIdx fun n => mask = prefixMask n

/-- Every netmask is a contiguous prefix. -/
def ContiguousMasks (table : List RtableEntry) : Prop :=
  ∀ e ∈ table, ∃ n ≤ 32, e.netmask = prefixMask n

/-- **The words are ordered like the prefixes**, although their bytes are swapped. -/
theorem prefixMask_lt {m n : Nat} (hmn : m < n) (hn : n ≤ 32) : prefixMask m < prefixMask n := by
  -- one more bit always gives a larger word: the bytes fill up from the low one
  have hstep : ∀ k : Fin 32, prefixMask k.val < prefixMask (k.val + 1) := by decide +kernel
  induction n, hmn using Nat.le_induction with
  | base => exact hstep ⟨m, hn⟩
  | succ n hmn ih =>
    have hlt : prefixMask m < prefixMask n := ih (by omega)
    exact BitVec.lt_trans hlt (hstep ⟨n, hn⟩)

theorem prefixMask_lt_iff {m n : Nat} (hm : m ≤ 32) (hn : n ≤ 32) :
    prefixMask m < prefixMask n ↔ m < n := by
  constructor
  · intro hlt
    by_contra hge
    rcases Nat.eq_or_lt_of_le (Nat.le_of_not_lt hge) with rfl | hgt
    · exact BitVec.lt_irrefl _ hlt
    · exact BitVec.lt_asymm hlt (prefixMask_lt hgt hm)
  · intro hlt
    exact prefixMask_lt hlt hn

theorem prefixLength_prefixMask {n : Nat} (hn : n ≤ 32) : prefixLength (prefixMask n) = n := by
  have hall : ∀ k : Fin 33, prefixLength (prefixMask k.val) = k.val := by decide +kernel
  exact hall ⟨n, by omega⟩

/-- Comparing contiguous netmasks is comparing their lengths. -/
theorem netmask_lt_iff {table : List RtableEntry} (hc : ContiguousMasks table) {e e' : RtableEntry}
    (he : e ∈ table) (he' : e' ∈ table) :
    e.netmask < e'.netmask ↔ prefixLength e.netmask < prefixLength e'.netmask := by
  obtain ⟨m, hm, hme⟩ := hc e he
  obtain ⟨n, hn, hne⟩ := hc e' he'
  rw [hme, hne, prefixMask_lt_iff hm hn, prefixLength_prefixMask hm, prefixLength_prefixMask hn]

/-! ## What a lookup is for -/

/-- The answer of a longest prefix match: nothing if no entry matches, otherwise the first of the
matching entries with the longest prefix, with its index. -/
def LongestPrefix (table : List RtableEntry) (ip : AddrIp) : Option (Nat × RtableEntry) → Prop
  | none => ∀ e ∈ table, ¬ e.Matches ip
  | some (i, e) => table[i]? = some e ∧ e.Matches ip ∧
      ∀ j e', table[j]? = some e' → e'.Matches ip →
        prefixLength e'.netmask ≤ prefixLength e.netmask ∧
          (j < i → prefixLength e'.netmask < prefixLength e.netmask)

/-- What the scan knows after the entries of `table`. -/
structure LpmScan.Scanned (table : List RtableEntry) (ip : AddrIp) (s : LpmScan) : Prop where
  le : ∀ e ∈ table, e.Matches ip → e.netmask ≤ s.maxmatch
  unanswered : s.answer = none → s.maxmatch = 0
  answered : ∀ i e, s.answer = some (i, e) → table[i]? = some e ∧ e.Matches ip ∧
    e.netmask = s.maxmatch ∧ e.netmask ≠ 0 ∧
    ∀ j e', j < i → table[j]? = some e' → e'.Matches ip → e'.netmask < e.netmask

theorem LpmScan.Scanned.step {table : List RtableEntry} {ip : AddrIp} {s : LpmScan}
    (h : s.Scanned table ip) (e : RtableEntry) :
    (LpmScan.step ip s (e, table.length)).Scanned (table ++ [e]) ip := by
  have hold : ∀ {j : Nat} {e' : RtableEntry}, j < table.length → (table ++ [e])[j]? = some e' →
      table[j]? = some e' := by
    intro j e' hj hget
    rwa [List.getElem?_append_left hj] at hget
  unfold LpmScan.step
  split
  · rename_i hsel
    have hless : ∀ e' ∈ table, e'.Matches ip → e'.netmask < e.netmask := by
      intro e' he' hm
      exact BitVec.lt_def.2 (lt_of_le_of_lt (BitVec.le_def.1 (h.le e' he' hm)) hsel.2)
    refine ⟨?_, fun hn => absurd hn (by simp), ?_⟩
    · intro e' he' hm
      rcases List.mem_append.1 he' with he' | he'
      · exact BitVec.le_of_lt (hless e' he' hm)
      · rw [List.mem_singleton.1 he']
        exact BitVec.le_refl _
    · intro i e' heq
      obtain ⟨rfl, rfl⟩ : table.length = i ∧ e = e' := by simpa using heq
      have hne : e.netmask ≠ 0 := by
        intro h0
        rw [h0] at hsel
        exact absurd (BitVec.lt_def.1 hsel.2) (Nat.not_lt_zero _)
      refine ⟨by simp, hsel.1, rfl, hne, ?_⟩
      intro j e' hj hget hm
      exact hless e' (List.mem_of_getElem? (hold hj hget)) hm
  · rename_i hsel
    refine ⟨?_, h.unanswered, ?_⟩
    · intro e' he' hm
      rcases List.mem_append.1 he' with he' | he'
      · exact h.le e' he' hm
      · obtain rfl := List.mem_singleton.1 he'
        exact BitVec.not_lt.1 fun hlt => hsel ⟨hm, hlt⟩
    · intro i e' heq
      obtain ⟨hget, hm, hmax, hne, hbefore⟩ := h.answered i e' heq
      have hi : i < table.length := (List.getElem?_eq_some_iff.1 hget).1
      refine ⟨by rw [List.getElem?_append_left hi]; exact hget, hm, hmax, hne, ?_⟩
      intro j e'' hj hget' hm'
      exact hbefore j e'' hj (hold (by omega) hget') hm'

theorem lpmScan_scanned (table : List RtableEntry) (ip : AddrIp) :
    (table.zipIdx.foldl (LpmScan.step ip) ⟨0, none⟩).Scanned table ip := by
  induction table using List.reverseRecOn with
  | nil => exact ⟨by simp, fun _ => rfl, by simp⟩
  | append_singleton table e ih =>
    rw [List.zipIdx_append, List.foldl_append, List.zipIdx_singleton, List.foldl_cons,
      List.foldl_nil, Nat.zero_add]
    exact ih.step e

/-- A default route: it matches everything, and the scan never selects it. -/
def defaultRoute : RtableEntry where
  router_ip := ipConvert 10 0 0 254
  subnet := 0
  netmask := 0
  interface := 0
  metric := 0
  dynamic := false
  padding := 0

/-- **Longest prefix match**, exactly where it is one: not where every matching entry is a default
route. -/
theorem ipLongestprefixmatch_longest_iff (table : List RtableEntry) (hc : ContiguousMasks table)
    (ip : AddrIp) :
    LongestPrefix table ip (ipLongestprefixmatch table ip) ↔
      ((∃ e ∈ table, e.Matches ip) → ∃ e ∈ table, e.Matches ip ∧ e.netmask ≠ 0) := by
  have hscan := lpmScan_scanned table ip
  unfold ipLongestprefixmatch
  generalize table.zipIdx.foldl (LpmScan.step ip) ⟨0, none⟩ = s at hscan ⊢
  cases hans : s.answer with
  | none =>
    have h0 := hscan.unanswered hans
    constructor
    · rintro hno ⟨e, he, hm⟩
      exact absurd hm (hno e he)
    · rintro hsome e he hm
      obtain ⟨e', he', hm', hne⟩ := hsome ⟨e, he, hm⟩
      have hle := hscan.le e' he' hm'
      rw [h0] at hle
      exact hne (BitVec.eq_of_toNat_eq (Nat.le_zero.1 (BitVec.le_def.1 hle)))
  | some a =>
    obtain ⟨i, e⟩ := a
    obtain ⟨hget, hm, hmax, hne, hbefore⟩ := hscan.answered i e hans
    have he : e ∈ table := List.mem_of_getElem? hget
    refine ⟨fun _ _ => ⟨e, he, hm, hne⟩, fun _ => ⟨hget, hm, ?_⟩⟩
    intro j e' hget' hm'
    have he' : e' ∈ table := List.mem_of_getElem? hget'
    constructor
    · refine Nat.le_of_not_lt fun hlt => ?_
      have hlt' := (netmask_lt_iff hc he he').2 hlt
      rw [hmax] at hlt'
      exact absurd (hscan.le e' he' hm') (BitVec.not_le.2 hlt')
    · intro hj
      exact (netmask_lt_iff hc he' he).1 (hbefore j e' hj hget' hm')

theorem ipLongestprefixmatch_longest_iff_small :
    ContiguousMasks smallRouter.ip_table ∧
      (LongestPrefix smallRouter.ip_table (ipConvert 10 1 2 3)
          (ipLongestprefixmatch smallRouter.ip_table (ipConvert 10 1 2 3)) ↔
        ((∃ e ∈ smallRouter.ip_table, e.Matches (ipConvert 10 1 2 3)) →
          ∃ e ∈ smallRouter.ip_table, e.Matches (ipConvert 10 1 2 3) ∧ e.netmask ≠ 0)) := by
  have hc : ContiguousMasks smallRouter.ip_table := by
    intro e he
    simp only [smallRouter, List.mem_cons, List.not_mem_nil, or_false] at he
    rcases he with rfl | rfl
    · exact ⟨8, by decide, by decide⟩
    · exact ⟨24, by decide, by decide⟩
  exact ⟨hc, ipLongestprefixmatch_longest_iff _ hc _⟩

/-- With the default route alone every address matches, and the lookup finds nothing. -/
theorem ipLongestprefixmatch_default_not_found :
    ContiguousMasks [defaultRoute] ∧
      ¬ LongestPrefix [defaultRoute] (ipConvert 8 8 8 8)
        (ipLongestprefixmatch [defaultRoute] (ipConvert 8 8 8 8)) := by
  refine ⟨?_, ?_⟩
  · intro e he
    rw [List.mem_singleton.1 he]
    exact ⟨0, by decide, by decide⟩
  · have hnone : ipLongestprefixmatch [defaultRoute] (ipConvert 8 8 8 8) = none := by decide
    rw [hnone]
    intro hno
    exact hno defaultRoute List.mem_cons_self (by decide)

/-! ## Filling the table -/

/-- What identifies a route for the table: the subnet, the netmask and the interface. -/
def RtableEntry.key (e : RtableEntry) : AddrIp × AddrIp × Nat := (e.subnet, e.netmask, e.interface)

/-- A call of `ip_putintable` with the fields of `e`. -/
def putEntry (table : List RtableEntry) (e : RtableEntry) : List RtableEntry :=
  ipPutintable e.padding table e.subnet e.interface e.netmask e.dynamic e.metric e.router_ip

/-- A sequence of calls on the empty table. -/
def putAll (puts : List RtableEntry) : List RtableEntry := puts.foldl putEntry []

/-- The first entry with a subnet address. -/
def firstFor (table : List RtableEntry) (subnet : AddrIp) : Option RtableEntry :=
  table.find? fun e => e.subnet = subnet

theorem ipDirectmatch_entry (table : List RtableEntry) (ip : AddrIp) :
    (ipDirectmatch table ip).map Prod.snd = firstFor table ip := by
  have hfrom : ∀ (l : List RtableEntry) (n : Nat),
      ((l.zipIdx n).find? fun e => e.1.subnet = ip).map Prod.fst = firstFor l ip := by
    intro l
    unfold firstFor
    induction l with
    | nil =>
      intro n
      rfl
    | cons e l ih =>
      intro n
      rw [List.zipIdx_cons]
      by_cases he : e.subnet = ip
      · rw [List.find?_cons_of_pos (by simpa using he), List.find?_cons_of_pos (by simpa using he)]
        rfl
      · rw [List.find?_cons_of_neg (by simpa using he), List.find?_cons_of_neg (by simpa using he)]
        exact ih (n + 1)
  unfold ipDirectmatch
  rw [Option.map_map]
  exact hfrom table 0

/-- A call in terms of the first entry for its subnet. -/
theorem putEntry_eq (table : List RtableEntry) (e : RtableEntry) :
    putEntry table e =
      if (firstFor table e.subnet).map RtableEntry.interface = some e.interface then table
      else table ++ [e] := by
  unfold putEntry ipPutintable
  rw [← ipDirectmatch_entry]
  cases ipDirectmatch table e.subnet with
  | none => rfl
  | some found => simp

theorem putAll_concat (puts : List RtableEntry) (e : RtableEntry) :
    putAll (puts ++ [e]) = putEntry (putAll puts) e := by
  unfold putAll
  rw [List.foldl_append]
  rfl

theorem firstFor_concat (table : List RtableEntry) (e : RtableEntry) (subnet : AddrIp) :
    firstFor (table ++ [e]) subnet =
      (firstFor table subnet).or (if e.subnet = subnet then some e else none) := by
  unfold firstFor
  rw [List.find?_append, List.find?_singleton]
  simp only [decide_eq_true_eq]

/-- **Step lemma**: the first call for a subnet is always in the table, and in front. -/
theorem firstFor_putAll (puts : List RtableEntry) (subnet : AddrIp) :
    firstFor (putAll puts) subnet = firstFor puts subnet := by
  induction puts using List.reverseRecOn generalizing subnet with
  | nil => rfl
  | append_singleton puts e ih =>
    rw [putAll_concat, putEntry_eq, firstFor_concat, ih e.subnet]
    split
    · rename_i hskip
      -- a call that is skipped was not the first one for its subnet
      rw [ih subnet]
      cases hfirst : firstFor puts subnet with
      | some first => rfl
      | none =>
        have hne : e.subnet ≠ subnet := by
          rintro rfl
          rw [hfirst] at hskip
          cases hskip
        rw [if_neg hne]
        rfl
    · rw [firstFor_concat, ih subnet]

theorem count_key_of_firstFor_none {puts : List RtableEntry} {subnet : AddrIp}
    (h : firstFor puts subnet = none) (netmask : AddrIp) (interface : Nat) :
    (puts.map RtableEntry.key).count (subnet, netmask, interface) = 0 := by
  refine List.count_eq_zero_of_not_mem fun hmem => ?_
  obtain ⟨p, hp, hkey⟩ := List.mem_map.1 hmem
  have hno := List.find?_eq_none.1 h p hp
  exact hno (decide_eq_true (congrArg Prod.fst hkey))

theorem count_key_singleton (e : RtableEntry) (subnet netmask : AddrIp) (interface : Nat) :
    [e.key].count (subnet, netmask, interface) =
      if e.subnet = subnet ∧ e.netmask = netmask ∧ e.interface = interface then 1 else 0 := by
  unfold RtableEntry.key
  rw [List.count_singleton]
  simp only [beq_iff_eq, Prod.mk.injEq]

/-- One call more: it adds its route unless it is on the interface of the first one. -/
theorem count_putAll_concat (puts : List RtableEntry) (e : RtableEntry)
    (k : AddrIp × AddrIp × Nat) :
    ((putAll (puts ++ [e])).map RtableEntry.key).count k =
      ((putAll puts).map RtableEntry.key).count k +
        if (firstFor puts e.subnet).map RtableEntry.interface = some e.interface then 0
        else [e.key].count k := by
  rw [putAll_concat, putEntry_eq, firstFor_putAll]
  split
  · rfl
  · rw [List.map_append, List.count_append]
    rfl

/-- **How often a route is in the table.**  On the interface of the first call for its subnet only
the route of that call is there; on other interfaces every call has added an entry. -/
theorem count_putAll (puts : List RtableEntry) (subnet netmask : AddrIp) (interface : Nat) :
    ((putAll puts).map RtableEntry.key).count (subnet, netmask, interface) =
      match firstFor puts subnet with
      | none => 0
      | some first =>
        if first.interface = interface then if first.netmask = netmask then 1 else 0
        else (puts.map RtableEntry.key).count (subnet, netmask, interface) := by
  induction puts using List.reverseRecOn with
  | nil => rfl
  | append_singleton puts e ih =>
    rw [count_putAll_concat, ih, firstFor_concat, List.map_append, List.count_append,
      List.map_singleton, count_key_singleton]
    by_cases hsub : e.subnet = subnet
    · subst hsub
      cases hfirst : firstFor puts e.subnet with
      | none =>
        rw [count_key_of_firstFor_none hfirst]
        by_cases hint : e.interface = interface
        · simp [hint]
        · simp [hint]
      | some first =>
        -- a call on the interface of the first one adds nothing
        by_cases hint : first.interface = interface
        · subst hint
          by_cases he : first.interface = e.interface
          · simp [he]
          · simp [he, Ne.symm he]
        · by_cases he : first.interface = e.interface
          · simp [he, he ▸ hint]
          · simp [hint, he]
    · simp [hsub]

/-- Only routes that were put are there. -/
theorem count_putAll_of_not_mem {puts : List RtableEntry} {subnet netmask : AddrIp} {interface : Nat}
    (h : (subnet, netmask, interface) ∉ puts.map RtableEntry.key) :
    ((putAll puts).map RtableEntry.key).count (subnet, netmask, interface) = 0 := by
  rw [count_putAll]
  cases hfirst : firstFor puts subnet with
  | none => rfl
  | some first =>
    have hin := List.mem_of_find?_eq_some hfirst
    have hsub : first.subnet = subnet := by simpa using List.find?_some hfirst
    simp only
    split
    · rename_i hint
      rw [if_neg]
      rintro rfl
      exact h (List.mem_map.2 ⟨first, hin, by rw [RtableEntry.key, hsub, hint]⟩)
    · exact List.count_eq_zero_of_not_mem h

/-- Exactly one entry for each route that was put, and none for any other. -/
def OncePerRoute (puts table : List RtableEntry) : Prop :=
  ∀ subnet netmask interface, (table.map RtableEntry.key).count (subnet, netmask, interface) =
    if (subnet, netmask, interface) ∈ puts.map RtableEntry.key then 1 else 0

/-- The sequences whose table is as it should be: on the interface of the first call for its subnet a
call has the netmask of that one, on another interface its route is put only once. -/
def RoutesApart (puts : List RtableEntry) : Prop :=
  ∀ p ∈ puts, ∀ first, firstFor puts p.subnet = some first →
    (p.interface = first.interface → p.netmask = first.netmask) ∧
      (p.interface ≠ first.interface → (puts.map RtableEntry.key).count p.key = 1)

theorem firstFor_of_mem {puts : List RtableEntry} {p : RtableEntry} (h : p ∈ puts) :
    ∃ first, firstFor puts p.subnet = some first :=
  Option.isSome_iff_exists.1 (List.find?_isSome.2 ⟨p, h, decide_eq_true rfl⟩)

/-- **Filling the table**: one entry for each route exactly for these sequences. -/
theorem putAll_once_iff (puts : List RtableEntry) :
    OncePerRoute puts (putAll puts) ↔ RoutesApart puts := by
  constructor
  · intro h p hp first hfirst
    have hone := h p.subnet p.netmask p.interface
    have hmem : (p.subnet, p.netmask, p.interface) ∈ puts.map RtableEntry.key :=
      List.mem_map.2 ⟨p, hp, rfl⟩
    rw [if_pos hmem, count_putAll, hfirst] at hone
    constructor
    · intro hint
      simp only [hint, if_true] at hone
      by_contra hmask
      rw [if_neg (Ne.symm hmask)] at hone
      cases hone
    · intro hint
      simp only [if_neg (Ne.symm hint)] at hone
      exact hone
  · intro h subnet netmask interface
    by_cases hmem : (subnet, netmask, interface) ∈ puts.map RtableEntry.key
    · obtain ⟨p, hp, hkey⟩ := List.mem_map.1 hmem
      obtain ⟨rfl, rfl, rfl⟩ : p.subnet = subnet ∧ p.netmask = netmask ∧ p.interface = interface := by
        simpa [RtableEntry.key] using hkey
      obtain ⟨first, hfirst⟩ := firstFor_of_mem hp
      obtain ⟨hsame, hother⟩ := h p hp first hfirst
      rw [if_pos hmem, count_putAll, hfirst]
      by_cases hint : first.interface = p.interface
      · simp only [if_pos hint, hsame hint.symm, if_true]
      · simp only [if_neg hint]
        exact hother (Ne.symm hint)
    · rw [if_neg hmem]
      exact count_putAll_of_not_mem hmem

/-- A static route to 10.1.0.0 through an interface. -/
def sampleStatic (netmask : AddrIp) (interface : Nat) : RtableEntry where
  router_ip := 0
  subnet := ipConvert 10 1 0 0
  netmask := netmask
  interface := interface
  metric := 0
  dynamic := false
  padding := 0

/-- A second netmask on the same interface is lost, and a repeated route on a second interface is
there twice. -/
theorem putAll_not_once :
    putAll [sampleStatic (ipConvert 255 255 0 0) 0, sampleStatic (ipConvert 255 255 255 0) 0] =
        [sampleStatic (ipConvert 255 255 0 0) 0] ∧
      putAll [sampleStatic (ipConvert 255 255 0 0) 0, sampleStatic (ipConvert 255 255 0 0) 1,
          sampleStatic (ipConvert 255 255 0 0) 1] =
        [sampleStatic (ipConvert 255 255 0 0) 0, sampleStatic (ipConvert 255 255 0 0) 1,
          sampleStatic (ipConvert 255 255 0 0) 1] ∧
      ¬ OncePerRoute
        [sampleStatic (ipConvert 255 255 0 0) 0, sampleStatic (ipConvert 255 255 255 0) 0]
        (putAll
          [sampleStatic (ipConvert 255 255 0 0) 0, sampleStatic (ipConvert 255 255 255 0) 0]) := by
  refine ⟨by decide, by decide, fun h => ?_⟩
  have hnone := h (ipConvert 10 1 0 0) (ipConvert 255 255 255 0) 0
  exact absurd hnone (by decide)

end BirRouter
