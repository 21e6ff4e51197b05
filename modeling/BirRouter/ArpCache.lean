import BirRouter.ArpSync
import BirRouter.Lib.FirstMatch
import BirRouter.Lib.Sweep

/-!
# The contents of the ARP cache (`arp.c`)

* `arpSweepAll_eq` — the loops that clear the cache are `sweep`, so each of them leaves what it should
  exactly if no two neighbouring entries are to go (`arp_clearing_iff`);
* `arp_maintenance_iff` — the same for the maintenance, which does not cut the cache to its threshold;
* `arpPutincache_cache` — an insertion overwrites the first entry with the MAC, else the first one
  with the address, else it appends;
* `ArpState.exec_macs_nodup` — no operation makes a MAC come twice;
* `arp_bijection_iff` — the addresses stay distinct, and the last insertion can be looked up, exactly
  in the runs that never insert a MAC of the cache together with an address of another entry.
-/

set_option autoImplicit false

namespace BirRouter

open FirstMatch Sweep Trace

/-! ## Clearing -/

/-- Behind the end of the cache the loop stops. -/
theorem arpSweep_end {expired : Nat → ArpCacheEntry → Bool} {i : Nat} {cache : List ArpCacheEntry}
    (h : cache.length ≤ i) (n : Nat) (changed : Bool) :
    arpSweep expired n i (cache, changed) = (cache, changed) := by
  cases n with
  | zero => rfl
  | succ n =>
    unfold arpSweep
    rw [List.getElem?_eq_none h]

/-- The loop from the position behind `pre` on. -/
theorem arpSweep_append (p : ArpCacheEntry → Bool) (n : Nat) :
    ∀ (pre l : List ArpCacheEntry) (changed : Bool), l.length ≤ n →
      (arpSweep (fun _ => p) n pre.length (pre ++ l, changed)).1 = pre ++ sweep p l := by
  induction n with
  | zero =>
    intro pre l changed hlen
    have hnil : l = [] := List.length_eq_zero_iff.1 (by omega)
    simp [hnil, arpSweep]
  | succ n ih =>
    intro pre l changed hlen
    cases l with
    | nil =>
      rw [arpSweep_end (by simp)]
      simp
    | cons entry rest =>
      have hget : (pre ++ entry :: rest)[pre.length]? = some entry := by simp
      have herase : (pre ++ entry :: rest).eraseIdx pre.length = pre ++ rest := by
        rw [List.eraseIdx_append_of_length_le (Nat.le_refl _)]
        simp
      unfold arpSweep
      simp only [hget, herase]
      by_cases hp : p entry = true
      · rw [if_pos hp]
        cases rest with
        | nil =>
          rw [arpSweep_end (by simp), sweep_singleton hp]
        | cons next rest =>
          -- the entry that moved up is not looked at
          have hstep := ih (pre ++ [next]) rest true (by simp at hlen; omega)
          rw [List.append_assoc, List.append_assoc, List.length_append] at hstep
          rw [sweep_of_pos hp]
          exact hstep
      · have hstep := ih (pre ++ [entry]) rest changed (by simp at hlen; omega)
        rw [List.append_assoc, List.append_assoc, List.length_append] at hstep
        rw [if_neg hp, sweep_of_neg hp]
        exact hstep

theorem arpSweepAll_eq (p : ArpCacheEntry → Bool) (cache : List ArpCacheEntry) :
    (arpSweepAll (fun _ => p) cache).1 = sweep p cache :=
  arpSweep_append p cache.length [] cache false (Nat.le_refl _)

namespace ArpCacheEntry

/-- The marker of static entries. -/
def isStatic (entry : ArpCacheEntry) : Bool := entry.tv_sec = -1

def isDynamic (entry : ArpCacheEntry) : Bool := entry.tv_sec ≠ -1

def isStaticFor (ip : AddrIp) (entry : ArpCacheEntry) : Bool := entry.ip = ip && entry.tv_sec = -1

theorem not_isDynamic (entry : ArpCacheEntry) : (!entry.isDynamic) = entry.isStatic := by
  simp [isDynamic, isStatic]

theorem not_isStatic (entry : ArpCacheEntry) : (!entry.isStatic) = entry.isDynamic := by
  simp [isDynamic, isStatic]

end ArpCacheEntry

open ArpCacheEntry

theorem arpClearDynamic_cache (s : ArpState) :
    (arpClearDynamic s).arp_cache = sweep isDynamic s.arp_cache := arpSweepAll_eq isDynamic _

theorem arpClearStatic_cache (s : ArpState) :
    (arpClearStatic s).arp_cache = sweep isStatic s.arp_cache := arpSweepAll_eq isStatic _

theorem arpRemoveStaticIp_cache (s : ArpState) (ip : AddrIp) :
    (arpRemoveStaticIp s ip).arp_cache = sweep (isStaticFor ip) s.arp_cache :=
  arpSweepAll_eq (isStaticFor ip) _

/-- **Selective clearing.**  Each function leaves exactly the entries it is to leave, in their order,
if and only if no two neighbouring entries are to go. -/
theorem arp_clearing_iff (s : ArpState) :
    ((arpClearDynamic s).arp_cache = s.arp_cache.filter isStatic ↔ Apart isDynamic s.arp_cache) ∧
      ((arpClearStatic s).arp_cache = s.arp_cache.filter isDynamic ↔ Apart isStatic s.arp_cache) ∧
      ∀ ip, (arpRemoveStaticIp s ip).arp_cache = s.arp_cache.filter (fun e => !isStaticFor ip e) ↔
        Apart (isStaticFor ip) s.arp_cache := by
  refine ⟨?_, ?_, ?_⟩
  · rw [arpClearDynamic_cache, ← sweep_eq_filter_iff]
    simp only [not_isDynamic]
  · rw [arpClearStatic_cache, ← sweep_eq_filter_iff]
    simp only [not_isStatic]
  · intro ip
    rw [arpRemoveStaticIp_cache, ← sweep_eq_filter_iff]

/-- A cache with two static entries. -/
def twoStatic : ArpState :=
  { arp_cache :=
      [⟨ipConvert 10 0 0 2, ⟨2, 0, 0, 0, 0, 2⟩, -1⟩, ⟨ipConvert 10 0 0 3, ⟨2, 0, 0, 0, 0, 3⟩, -1⟩]
    nf := emptyArp.nf }

/-- The second one survives. -/
theorem arp_clearing_second_left :
    twoStatic.arp_cache.filter isDynamic = [] ∧
      (arpClearStatic twoStatic).arp_cache = [⟨ipConvert 10 0 0 3, ⟨2, 0, 0, 0, 0, 3⟩, -1⟩] := by
  rw [arpClearStatic_cache]
  decide

/-! ## Maintenance -/

/-- A dynamic entry whose time is over. -/
def ArpCacheEntry.isExpired (now : Int) (entry : ArpCacheEntry) : Bool :=
  entry.tv_sec ≠ -1 && entry.tv_sec - now ≤ 0

theorem arpMaintainCache_cache (s : ArpState) (now : Int) :
    (arpMaintainCache s fun _ => now).arp_cache = sweep (isExpired now) s.arp_cache := by
  have hsweep := arpSweepAll_eq (isExpired now) s.arp_cache
  rw [arpMaintainCache_eq, ← hsweep]
  simp only
  split
  · rfl
  · rfl

/-- What a pass of the maintenance at time `now` is for: expired entries go, the others stay as far as
there is room. -/
structure Maintained (now : Int) (before after : List ArpCacheEntry) : Prop where
  expired : ∀ entry ∈ after, ¬ isExpired now entry = true
  size : (after.length : Int) ≤ arpThreshold
  kept : ((before.filter fun e => !isExpired now e).length : Int) ≤ arpThreshold →
    (before.filter fun e => !isExpired now e).Sublist after

/-- **Maintenance of the cache.**  A pass does what it is for if and only if no two neighbouring entries
are expired and the others are not more than the threshold: an expired entry behind a removed one is
skipped, and the loop that would cut the cache to its threshold never runs. -/
theorem arp_maintenance_iff (s : ArpState) (now : Int) :
    Maintained now s.arp_cache (arpMaintainCache s fun _ => now).arp_cache ↔
      Apart (isExpired now) s.arp_cache ∧
        ((s.arp_cache.filter fun e => !isExpired now e).length : Int) ≤ arpThreshold := by
  rw [arpMaintainCache_cache]
  constructor
  · intro h
    have hall : sweep (isExpired now) s.arp_cache = s.arp_cache.filter fun e => !isExpired now e := by
      rw [← filter_sweep, List.filter_eq_self.2]
      intro e he
      simpa using h.expired e he
    refine ⟨(sweep_eq_filter_iff _).1 hall, ?_⟩
    rw [← hall]
    exact h.size
  · rintro ⟨happ, hsize⟩
    rw [(sweep_eq_filter_iff _).2 happ]
    refine ⟨?_, hsize, fun _ => List.Sublist.refl _⟩
    intro e he
    have hnot := (List.mem_filter.1 he).2
    simpa using hnot

/-- Two expired entries, and 33 static ones. -/
def twoExpired : ArpState :=
  { arp_cache :=
      [⟨ipConvert 10 0 0 2, ⟨2, 0, 0, 0, 0, 2⟩, 90⟩, ⟨ipConvert 10 0 0 3, ⟨2, 0, 0, 0, 0, 3⟩, 95⟩]
    nf := emptyArp.nf }

def manyStatic : ArpState :=
  { arp_cache := (List.range 33).map fun i =>
      ⟨ipConvert 10 0 1 i, ⟨2, 0, 0, 0, 1, BitVec.ofNat 8 i⟩, -1⟩
    nf := emptyArp.nf }

/-- At time 100 the second expired entry stays, and no static entry is cut off. -/
theorem arp_maintenance_leaves :
    (∃ e ∈ (arpMaintainCache twoExpired fun _ => 100).arp_cache, isExpired 100 e = true) ∧
      (arpMaintainCache manyStatic fun _ => 100).arp_cache.length = 33 := by
  rw [arpMaintainCache_cache, arpMaintainCache_cache]
  decide

/-! ## Inserting -/

theorem arpPosition_findIdx? {cache : List ArpCacheEntry} {p : ArpCacheEntry → Bool} {id : Nat}
    {entry : ArpCacheEntry} (h : arpPosition cache p = some (id, entry)) :
    cache.findIdx? p = some id ∧ cache.getD id entry = entry := by
  have hget := (arpPosition_some h).1
  unfold arpPosition at h
  cases hid : cache.findIdx? p with
  | none =>
    rw [hid] at h
    cases h
  | some j =>
    obtain ⟨e, he⟩ : ∃ e, cache[j]? = some e :=
      ⟨_, List.getElem?_eq_getElem (List.findIdx?_eq_some_iff_getElem.1 hid).1⟩
    rw [hid, Option.bind_some, he, Option.map_some] at h
    cases h
    rw [List.getD_eq_getElem?_getD, he]
    exact ⟨rfl, rfl⟩

theorem findIdx?_of_arpPosition_none {cache : List ArpCacheEntry} {p : ArpCacheEntry → Bool}
    (h : arpPosition cache p = none) : cache.findIdx? p = none := by
  cases hid : cache.findIdx? p with
  | none => rfl
  | some j =>
    have hj := (List.findIdx?_eq_some_iff_getElem.1 hid).1
    unfold arpPosition at h
    rw [hid, Option.bind_some, List.getElem?_eq_getElem hj] at h
    cases h

/-- The entry an insertion leaves. -/
def insertedEntry (ip : AddrIp) (mac : AddrMac) (timeout now : Int) : ArpCacheEntry :=
  ⟨ip, mac, arpDeadline timeout now⟩

/-- **An insertion**: in the place of the first entry with the MAC, else of the first one with the
address, else at the end. -/
theorem arpPutincache_cache (s : ArpState) (ip : AddrIp) (mac : AddrMac) (timeout now : Int) :
    (arpPutincache s ip mac timeout now).arp_cache =
      if mac ∈ s.arp_cache.map ArpCacheEntry.mac then
        upsert (fun e => e.mac = mac) (fun _ => insertedEntry ip mac timeout now)
          (insertedEntry ip mac timeout now) s.arp_cache
      else
        upsert (fun e => e.ip = ip) (fun _ => insertedEntry ip mac timeout now)
          (insertedEntry ip mac timeout now) s.arp_cache := by
  unfold arpPutincache
  cases hmac : arpPosition s.arp_cache fun entry => entry.mac = mac with
  | some found =>
    obtain ⟨id, result⟩ := found
    obtain ⟨hidx, hget⟩ := arpPosition_findIdx? hmac
    obtain ⟨hres, hp⟩ := arpPosition_some hmac
    have hmem : mac ∈ s.arp_cache.map ArpCacheEntry.mac := by
      rw [← of_decide_eq_true hp]
      exact List.mem_map_of_mem (List.mem_of_getElem? hres)
    rw [if_pos hmem]
    have hset := set_eq_upsert
      (fun e : ArpCacheEntry => { e with ip := ip, tv_sec := arpDeadline timeout now })
      (insertedEntry ip mac timeout now) result hidx
    rw [hget] at hset
    refine hset.trans (upsert_congr ?_ _)
    intro e he
    have : e.mac = mac := of_decide_eq_true he
    subst this
    rfl
  | none =>
    have hidx := findIdx?_of_arpPosition_none hmac
    have hmem : mac ∉ s.arp_cache.map ArpCacheEntry.mac := by
      intro hm
      obtain ⟨e, he, rfl⟩ := List.mem_map.1 hm
      have := List.findIdx?_eq_none_iff.1 hidx e he
      simp at this
    rw [if_neg hmem]
    cases hip : arpPosition s.arp_cache fun entry => entry.ip = ip with
    | some found =>
      obtain ⟨id, result⟩ := found
      obtain ⟨hidx, hget⟩ := arpPosition_findIdx? hip
      have hset := set_eq_upsert
        (fun e : ArpCacheEntry => { e with mac := mac, tv_sec := arpDeadline timeout now })
        (insertedEntry ip mac timeout now) result hidx
      rw [hget] at hset
      refine hset.trans (upsert_congr ?_ _)
      intro e he
      have : e.ip = ip := of_decide_eq_true he
      subst this
      rfl
    | none => exact append_eq_upsert _ _ (findIdx?_of_arpPosition_none hip)

/-! ## What the operations do to the entries -/

theorem arpSweep_sublist {expired : Nat → ArpCacheEntry → Bool} (n : Nat) :
    ∀ (i : Nat) (c : List ArpCacheEntry × Bool), (arpSweep expired n i c).1.Sublist c.1 := by
  induction n with
  | zero =>
    intro i c
    exact List.Sublist.refl _
  | succ n ih =>
    intro i c
    obtain ⟨cache, changed⟩ := c
    unfold arpSweep
    split
    · exact List.Sublist.refl _
    · split
      · exact (ih _ _).trans (List.eraseIdx_sublist ..)
      · exact ih _ _

/-- The addresses of an insertion. -/
def ArpOp.insertion : ArpOp → Option (AddrIp × AddrMac)
  | .putincache ip mac _ _ | .addStatic ip mac _ => some (ip, mac)
  | _ => none

namespace ArpState

variable {s : ArpState} {op : ArpOp} {ip : AddrIp} {mac : AddrMac}

theorem exec_insertion (h : op.insertion = some (ip, mac)) :
    ∃ timeout now, s.exec op = arpPutincache s ip mac timeout now := by
  cases op with
  | putincache ip' mac' timeout now =>
    cases h
    exact ⟨timeout, now, rfl⟩
  | addStatic ip' mac' now =>
    cases h
    exact ⟨-1, now, rfl⟩
  | _ => cases h

/-- All other operations only remove entries. -/
theorem exec_sublist (h : op.insertion = none) : (s.exec op).arp_cache.Sublist s.arp_cache := by
  cases op with
  | putincache ip mac timeout now => cases h
  | addStatic ip mac now => cases h
  | removeIpMac ip mac =>
    show (arpRemoveIpMac s ip mac).arp_cache.Sublist _
    unfold arpRemoveIpMac
    split
    · exact List.eraseIdx_sublist ..
    · exact List.Sublist.refl _
  | removeStaticIp ip =>
    show (arpRemoveStaticIp s ip).arp_cache.Sublist _
    rw [arpRemoveStaticIp_cache]
    exact sweep_sublist _
  | clearStatic =>
    show (arpClearStatic s).arp_cache.Sublist _
    rw [arpClearStatic_cache]
    exact sweep_sublist _
  | clearDynamic =>
    show (arpClearDynamic s).arp_cache.Sublist _
    rw [arpClearDynamic_cache]
    exact sweep_sublist _
  | clearAll => exact List.nil_sublist _
  | maintainCache clock =>
    show (arpMaintainCache s clock).arp_cache.Sublist _
    rw [arpMaintainCache_eq]
    simp only
    split
    · exact arpSweep_sublist ..
    · exact arpSweep_sublist ..

/-! ## Distinct MACs -/

/-- **Step lemma**: an operation leaves every MAC at most once. -/
theorem exec_macs_nodup (op : ArpOp) (h : (s.arp_cache.map ArpCacheEntry.mac).Nodup) :
    ((s.exec op).arp_cache.map ArpCacheEntry.mac).Nodup := by
  cases hop : op.insertion with
  | none => exact ((exec_sublist hop).map _).nodup h
  | some addresses =>
    obtain ⟨ip, mac⟩ := addresses
    obtain ⟨timeout, now, heq⟩ := exec_insertion (s := s) hop
    rw [heq, arpPutincache_cache]
    split
    · exact nodup_upsert (x := mac) (fun _ _ => rfl) rfl h
    · rename_i hmac
      exact nodup_upsert_of_not_mem (fun _ _ _ => rfl) rfl hmac h

/-! ## Distinct addresses -/

/-- No two entries with one address, and no two with one MAC. -/
structure Bijection (cache : List ArpCacheEntry) : Prop where
  ips : (cache.map ArpCacheEntry.ip).Nodup
  macs : (cache.map ArpCacheEntry.mac).Nodup

/-- An insertion of a MAC that is in the cache finds its address nowhere but at that MAC. -/
def PutsApart (s : ArpState) (op : ArpOp) : Prop :=
  ∀ ip mac, op.insertion = some (ip, mac) → mac ∈ s.arp_cache.map ArpCacheEntry.mac →
    ∀ e ∈ s.arp_cache, e.ip = ip → e.mac = mac

/-- The cache is a bijection, and what was inserted last can be looked up. -/
structure Lawful (op : ArpOp) (s : ArpState) : Prop where
  bijection : Bijection s.arp_cache
  lookup : ∀ ip mac, op.insertion = some (ip, mac) →
    (arpGetcachebyip s.arp_cache ip).map ArpCacheEntry.mac = some mac

theorem mac_split {cache : List ArpCacheEntry} (h : mac ∈ cache.map ArpCacheEntry.mac)
    (new : ArpCacheEntry) : ∃ l₁ b l₂, cache = l₁ ++ b :: l₂ ∧ b.mac = mac ∧
      upsert (fun e => e.mac = mac) (fun _ => new) new cache = l₁ ++ new :: l₂ := by
  obtain ⟨e, he, hmac⟩ := List.mem_map.1 h
  have hsome : (cache.find? fun e => e.mac = mac).isSome :=
    List.find?_isSome.2 ⟨e, he, decide_eq_true hmac⟩
  obtain ⟨b, hb⟩ := Option.isSome_iff_exists.1 hsome
  obtain ⟨l₁, l₂, hl, hu⟩ := upsert_of_find?_some (fun _ => new) new hb
  exact ⟨l₁, b, l₂, hl, by simpa using List.find?_some hb, hu⟩

/-- With distinct MACs, only the entry of the MAC has the address if no other one has. -/
theorem only_at_mac_iff {l₁ l₂ : List ArpCacheEntry} {b : ArpCacheEntry}
    (h : ((l₁ ++ b :: l₂).map ArpCacheEntry.mac).Nodup) (hb : b.mac = mac) :
    (∀ e ∈ l₁ ++ b :: l₂, e.ip = ip → e.mac = mac) ↔ ip ∉ (l₁ ++ l₂).map ArpCacheEntry.ip := by
  rw [List.map_append, List.map_cons, List.nodup_middle, List.nodup_cons, ← List.map_append, hb] at h
  constructor
  · intro honly hmem
    obtain ⟨e, he, hip⟩ := List.mem_map.1 hmem
    have hin : e ∈ l₁ ++ b :: l₂ := by
      rw [List.mem_append, List.mem_cons]
      exact (List.mem_append.1 he).imp_right .inr
    have hmac := honly e hin hip
    exact h.1 (hmac ▸ List.mem_map_of_mem he)
  · intro hnot e he hip
    rw [List.mem_append, List.mem_cons] at he
    rcases he with he | rfl | he
    · exact absurd (List.mem_map.2 ⟨e, List.mem_append_left _ he, hip⟩) hnot
    · exact hb
    · exact absurd (List.mem_map.2 ⟨e, List.mem_append_right _ he, hip⟩) hnot

/-- After an insertion the addresses are distinct exactly if the MAC was new or its address nowhere
else. -/
theorem insert_ips_nodup_iff (h : Bijection s.arp_cache) (ip : AddrIp) (mac : AddrMac)
    (timeout now : Int) :
    ((arpPutincache s ip mac timeout now).arp_cache.map ArpCacheEntry.ip).Nodup ↔
      (mac ∈ s.arp_cache.map ArpCacheEntry.mac → ∀ e ∈ s.arp_cache, e.ip = ip → e.mac = mac) := by
  rw [arpPutincache_cache]
  by_cases hmem : mac ∈ s.arp_cache.map ArpCacheEntry.mac
  · rw [if_pos hmem]
    obtain ⟨l₁, b, l₂, hl, hb, hu⟩ := mac_split hmem (insertedEntry ip mac timeout now)
    have hips := h.ips
    have hmacs := h.macs
    rw [hl, List.map_append, List.map_cons, List.nodup_middle, List.nodup_cons,
      ← List.map_append] at hips
    rw [hl] at hmacs
    rw [hu, List.map_append, List.map_cons, List.nodup_middle, List.nodup_cons, ← List.map_append]
    constructor
    · intro hnodup _
      rw [hl]
      exact (only_at_mac_iff hmacs hb).2 hnodup.1
    · intro honly
      exact ⟨(only_at_mac_iff hmacs hb).1 (hl ▸ honly hmem), hips.2⟩
  · rw [if_neg hmem]
    constructor
    · intro _ hmem'
      exact absurd hmem' hmem
    · intro _
      exact nodup_upsert (x := ip) (fun _ _ => rfl) rfl h.ips

theorem insertedEntry_mem (s : ArpState) (ip : AddrIp) (mac : AddrMac) (timeout now : Int) :
    insertedEntry ip mac timeout now ∈ (arpPutincache s ip mac timeout now).arp_cache := by
  rw [arpPutincache_cache]
  split
  · exact mem_upsert_const _
  · exact mem_upsert_const _

/-- **One operation**: from a bijection it leads to a lawful cache exactly if it puts apart. -/
theorem putsApart_iff_lawful (h : Bijection s.arp_cache) :
    s.PutsApart op ↔ Lawful op (s.exec op) := by
  have hmacs := exec_macs_nodup op h.macs
  cases hop : op.insertion with
  | none =>
    have hips := ((exec_sublist (s := s) hop).map ArpCacheEntry.ip).nodup h.ips
    constructor
    · intro _
      exact ⟨⟨hips, hmacs⟩, fun ip mac hins => by rw [hop] at hins; cases hins⟩
    · intro _ ip mac hins
      rw [hop] at hins
      cases hins
  | some addresses =>
    obtain ⟨ip, mac⟩ := addresses
    obtain ⟨timeout, now, heq⟩ := exec_insertion (s := s) hop
    have hiff := insert_ips_nodup_iff h ip mac timeout now
    rw [← heq] at hiff
    constructor
    · intro hapart
      have hips := hiff.2 (hapart ip mac hop)
      refine ⟨⟨hips, hmacs⟩, ?_⟩
      intro ip' mac' hins
      rw [hop] at hins
      cases hins
      have hmem := insertedEntry_mem s ip mac timeout now
      rw [← heq] at hmem
      have hfind := find?_key_of_mem hips hmem
      exact congrArg (Option.map ArpCacheEntry.mac) hfind
    · intro hlaw ip' mac' hins
      rw [hop] at hins
      cases hins
      exact hiff.1 hlaw.bijection.ips

/-- The operations as steps. -/
def Executes (s : ArpState) (op : ArpOp) (s' : ArpState) : Prop := s' = s.exec op

end ArpState

/-- **The cache is a bijection.**  From the empty cache, the runs whose insertions all meet
`PutsApart` are exactly those in which every operation leads to a cache without repeated addresses
or MACs, and every insertion can be looked up directly after it. -/
theorem arp_bijection_iff (nf : TableRegs 3) (ops : List ArpOp) (s : ArpState) :
    Exec (Restrict ArpState.PutsApart ArpState.Executes) ⟨[], nf⟩ ops s ↔
      Exec (Ensure (fun _ op s' => ArpState.Lawful op s') ArpState.Executes) ⟨[], nf⟩ ops s := by
  apply Exec.restrict_iff_ensure (I := fun s => ArpState.Bijection s.arp_cache)
  · exact ⟨List.nodup_nil, List.nodup_nil⟩
  · rintro t op u ht rfl
    exact ArpState.putsApart_iff_lawful ht
  · rintro t op u ht hok rfl
    exact ((ArpState.putsApart_iff_lawful ht).1 hok).bijection

/-- A host takes over the address of another one: the address is in the cache twice, and its lookup
finds the old MAC. -/
theorem arp_bijection_address_taken :
    let s := ((emptyArp.exec (.putincache (ipConvert 10 0 0 1) ⟨2, 0, 0, 0, 0, 1⟩ 120 0)).exec
      (.putincache (ipConvert 10 0 0 2) ⟨2, 0, 0, 0, 0, 2⟩ 120 0)).exec
      (.putincache (ipConvert 10 0 0 1) ⟨2, 0, 0, 0, 0, 2⟩ 120 0)
    ¬ ArpState.Bijection s.arp_cache ∧
      (arpGetcachebyip s.arp_cache (ipConvert 10 0 0 1)).map ArpCacheEntry.mac =
        some ⟨2, 0, 0, 0, 0, 1⟩ := by
  refine ⟨fun h => absurd h.ips ?_, ?_⟩
  · decide
  · decide

end BirRouter
