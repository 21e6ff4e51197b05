import BirRouter.Arp
import BirRouter.Lib.Trace
import BirRouter.OutputPort.ArpStages

/-!
# The hardware copy of the ARP cache (`arp.c`)

The operations on the ARP cache and the 32 rows that `hardware_arp_synccache` writes from it.

* `ArpOp`, `ArpState.exec` — the operations, with the early returns of their loops;
* `synccache_mirrors` — a synchronisation makes every row the copy of its cache entry;
* `arp_mirror_runs` — the rows stay copies in every run in which `arp_remove_ip_mac` finds nothing
  among the first 32 entries: where it finds an entry it returns before the synchronisation.
-/

set_option autoImplicit false

namespace BirRouter

/-! ## State -/

/-- What the cache operations work on: the cache and the registers of the hardware table. -/
structure ArpState where
  arp_cache : List ArpCacheEntry
  nf : TableRegs 3

/-- `mac_hi`. -/
def macHi (mac : AddrMac) : BitVec 16 := mac.octet0.setWidth 16 <<< 8 + mac.octet1.setWidth 16

/-- `mac_lo`. -/
def macLo (mac : AddrMac) : BitVec 32 :=
  mac.octet2.setWidth 32 <<< 24 + mac.octet3.setWidth 32 <<< 16 + mac.octet4.setWidth 32 <<< 8 +
    mac.octet5.setWidth 32

/-- `MAC_ZERO`. -/
def AddrMac.zero : AddrMac := ⟨0, 0, 0, 0, 0, 0⟩

/-! ## Writing the rows -/

/-- `hardware_arp_putincache`: registers 0 to 2 are `ARP_IP`, `ARP_MAC_LOW` and `ARP_MAC_HIGH`, then
come `ARP_WR_ADDR` and `ARP_RD_ADDR`. -/
def hardwareArpPutincache (t : TableRegs 3) (ip : AddrIp) (mac : AddrMac) (id : Int) : TableRegs 3 :=
  if id < 0 ∨ id > 31 then t
  else
    let t := t.writeReg 0 (ntohl ip)
    let t := t.writeReg 2 ((macHi mac).setWidth 32)
    let t := t.writeReg 1 (macLo mac)
    let t := t.writeReg 3 (BitVec.ofInt 32 id)
    let t := t.writeReg 0 0
    let t := t.writeReg 2 0
    let t := t.writeReg 1 0
    t.writeReg 4 (BitVec.ofInt 32 id)

/-- `hardware_arp_synccache`. -/
def hardwareArpSynccache (s : ArpState) : ArpState :=
  { s with
    nf := (List.range 32).foldl
      (fun t i =>
        match s.arp_cache[i]? with
        | some entry => hardwareArpPutincache t entry.ip entry.mac i
        | none => hardwareArpPutincache t 0 AddrMac.zero i) s.nf }

/-! ## The operations -/

/-- The position of the first entry that meets `p`, and a copy of it. -/
def arpPosition (cache : List ArpCacheEntry) (p : ArpCacheEntry → Bool) :
    Option (Nat × ArpCacheEntry) :=
  (cache.findIdx? p).bind fun id => cache[id]?.map fun entry => (id, entry)

/-- `timeout` seconds from now; `-1` marks a static entry. -/
def arpDeadline (timeout now : Int) : Int := if timeout ≠ -1 then timeout + now else timeout

/-- `arp_putincache`. -/
def arpPutincache (s : ArpState) (ip : AddrIp) (mac : AddrMac) (timeout now : Int) : ArpState :=
  match arpPosition s.arp_cache fun entry => entry.mac = mac with
  | some (id, result) =>
    let result := { result with ip := ip, tv_sec := arpDeadline timeout now }
    hardwareArpSynccache { s with arp_cache := s.arp_cache.set id result }
  | none =>
    match arpPosition s.arp_cache fun entry => entry.ip = ip with
    | some (id, result) =>
      let result := { result with mac := mac, tv_sec := arpDeadline timeout now }
      hardwareArpSynccache { s with arp_cache := s.arp_cache.set id result }
    | none =>
      hardwareArpSynccache
        { s with arp_cache := s.arp_cache ++ [⟨ip, mac, arpDeadline timeout now⟩] }

/-- `arp_remove_ip_mac`: the loop returns where it removes. -/
def arpRemoveIpMac (s : ArpState) (ip : AddrIp) (mac : AddrMac) : ArpState :=
  match arpPosition s.arp_cache fun entry => entry.ip = ip ∧ entry.mac = mac with
  | some (id, _) => { s with arp_cache := s.arp_cache.eraseIdx id }
  | none => hardwareArpSynccache s

/-- `for (i = 0; i < cache->size; i++)` with `queue_unlockidandremove(cache, i)` for the entries that
`expired` says, in at most `n` rounds; the entry that moves to position `i` is skipped.  The second
component is `changed`. -/
def arpSweep (expired : Nat → ArpCacheEntry → Bool) :
    Nat → Nat → List ArpCacheEntry × Bool → List ArpCacheEntry × Bool
  | 0, _, c => c
  | n + 1, i, (cache, changed) =>
    match cache[i]? with
    | none => (cache, changed)
    | some entry =>
      if expired i entry then arpSweep expired n (i + 1) (cache.eraseIdx i, true)
      else arpSweep expired n (i + 1) (cache, changed)

/-- The whole loop: it ends after `cache->size` rounds at the latest. -/
def arpSweepAll (expired : Nat → ArpCacheEntry → Bool) (cache : List ArpCacheEntry) :
    List ArpCacheEntry × Bool :=
  arpSweep expired cache.length 0 (cache, false)

/-- `arp_remove_static_ip`. -/
def arpRemoveStaticIp (s : ArpState) (ip : AddrIp) : ArpState :=
  hardwareArpSynccache { s with
    arp_cache := (arpSweepAll (fun _ entry => entry.ip = ip && entry.tv_sec = -1) s.arp_cache).1 }

/-- `arp_clear_static`. -/
def arpClearStatic (s : ArpState) : ArpState :=
  hardwareArpSynccache
    { s with arp_cache := (arpSweepAll (fun _ entry => entry.tv_sec = -1) s.arp_cache).1 }

/-- `arp_clear_dynamic`. -/
def arpClearDynamic (s : ArpState) : ArpState :=
  hardwareArpSynccache
    { s with arp_cache := (arpSweepAll (fun _ entry => entry.tv_sec ≠ -1) s.arp_cache).1 }

/-- `arp_clear_all`. -/
def arpClearAll (s : ArpState) : ArpState := hardwareArpSynccache { s with arp_cache := [] }

/-- `ARP_THRESHOLD`. -/
def arpThreshold : Int := 32

/-- `for (i = 0; i < ARP_THRESHOLD - cache->size; i++)`, in at most `n` rounds. -/
def arpTrim : Nat → Nat → List ArpCacheEntry × Bool → List ArpCacheEntry × Bool
  | 0, _, c => c
  | n + 1, i, (cache, changed) =>
    if (i : Int) < arpThreshold - cache.length then
      match cache[i]? with
      | some _ => arpTrim n (i + 1) (cache.eraseIdx i, true)
      | none => arpTrim n (i + 1) (cache, changed)
    else (cache, changed)

/-- One pass of `arp_maintain_cache`; `clock i` is the time it reads for position `i`. -/
def arpMaintainCache (s : ArpState) (clock : Nat → Int) : ArpState :=
  let c := arpSweepAll (fun i entry => entry.tv_sec ≠ -1 && entry.tv_sec - clock i ≤ 0) s.arp_cache
  let c := if (c.1.length : Int) > arpThreshold then arpTrim 32 0 c else c
  let s := { s with arp_cache := c.1 }
  if c.2 then hardwareArpSynccache s else s

/-- The calls that change the cache. -/
inductive ArpOp where
  | putincache (ip : AddrIp) (mac : AddrMac) (timeout now : Int)
  | addStatic (ip : AddrIp) (mac : AddrMac) (now : Int)
  | removeIpMac (ip : AddrIp) (mac : AddrMac)
  | removeStaticIp (ip : AddrIp)
  | clearStatic
  | clearDynamic
  | clearAll
  | maintainCache (clock : Nat → Int)

namespace ArpState

def exec (s : ArpState) : ArpOp → ArpState
  | .putincache ip mac timeout now => arpPutincache s ip mac timeout now
  | .addStatic ip mac now => arpPutincache s ip mac (-1) now
  | .removeIpMac ip mac => arpRemoveIpMac s ip mac
  | .removeStaticIp ip => arpRemoveStaticIp s ip
  | .clearStatic => arpClearStatic s
  | .clearDynamic => arpClearDynamic s
  | .clearAll => arpClearAll s
  | .maintainCache clock => arpMaintainCache s clock

/-! ## Mirroring -/

/-- A MAC address as the hardware compares it. -/
def macBits (mac : AddrMac) : BitVec 48 := macHi mac ++ macLo mac

/-- Every row holds the addresses of its cache entry, and zeros if there is none. -/
def Mirrors (s : ArpState) : Prop :=
  ∀ i < 32,
    ArpRow.ip (s.nf.table (BitVec.ofNat 5 i)) = (s.arp_cache[i]?.elim 0 fun e => ntohl e.ip) ∧
      ArpRow.mac (s.nf.table (BitVec.ofNat 5 i)) = (s.arp_cache[i]?.elim 0 fun e => macBits e.mac)

instance (s : ArpState) : Decidable s.Mirrors := inferInstanceAs (Decidable (∀ i < 32, _))

end ArpState

/-- The row written for an entry. -/
def arpRow (ip : AddrIp) (mac : AddrMac) : ArpRow
  | 0 => ntohl ip
  | 1 => macLo mac
  | 2 => (macHi mac).setWidth 32

theorem arpRow_mac (ip : AddrIp) (mac : AddrMac) :
    ArpRow.mac (arpRow ip mac) = ArpState.macBits mac := by
  have hhi : ((macHi mac).setWidth 32).extractLsb' 0 16 = macHi mac := by
    apply BitVec.eq_of_getLsbD_eq
    intro i hi
    simp [hi, show i < 32 by omega]
  show ((macHi mac).setWidth 32).extractLsb' 0 16 ++ macLo mac = _
  rw [hhi]
  rfl

/-- Writing a row changes that row only, and the read-back finds what was written. -/
theorem hardwareArpPutincache_spec (t : TableRegs 3) (ip : AddrIp) (mac : AddrMac) {id : Nat}
    (h : id < 32) :
    (hardwareArpPutincache t ip mac id).table
        = Function.update t.table (BitVec.ofNat 5 id) (arpRow ip mac) ∧
      ∀ c : Fin 3, (hardwareArpPutincache t ip mac id).readReg c = arpRow ip mac c := by
  have hport : ∀ q : ArpRow, Function.update (Function.update (Function.update q 0 (ntohl ip)) 2
      ((macHi mac).setWidth 32)) 1 (macLo mac) = arpRow ip mac := by
    intro q
    funext c
    match c with
    | 0 => rfl
    | 1 => rfl
    | 2 => rfl
  unfold hardwareArpPutincache
  rw [if_neg (by omega)]
  simp [TableRegs.writeReg, hport]

/-- **After a synchronisation every row is the copy of its entry.** -/
theorem synccache_mirrors (s : ArpState) : (hardwareArpSynccache s).Mirrors := by
  intro i hi
  have hrow : (hardwareArpSynccache s).nf.table (BitVec.ofNat 5 i)
      = (s.arp_cache[i]?.elim (arpRow 0 AddrMac.zero) fun e => arpRow e.ip e.mac) := by
    refine (TableRegs.table_foldl_rows
      (fun i => s.arp_cache[i]?.elim (arpRow 0 AddrMac.zero) fun e => arpRow e.ip e.mac) 0
      ?_ s.nf hi 32 (Nat.le_refl _)).trans ?_
    · intro t j hj
      cases hj' : s.arp_cache[j]? with
      | none => exact (hardwareArpPutincache_spec t 0 AddrMac.zero hj).1
      | some e => exact (hardwareArpPutincache_spec t e.ip e.mac hj).1
    · rw [if_pos (by omega), Nat.sub_zero]
  rw [hrow]
  show _ = s.arp_cache[i]?.elim 0 _ ∧ _ = s.arp_cache[i]?.elim 0 _
  cases s.arp_cache[i]? with
  | none => exact ⟨rfl, rfl⟩
  | some e => exact ⟨rfl, arpRow_mac e.ip e.mac⟩

/-! ## Each operation -/

theorem arpPosition_some {cache : List ArpCacheEntry} {p : ArpCacheEntry → Bool} {id : Nat}
    {entry : ArpCacheEntry} (h : arpPosition cache p = some (id, entry)) :
    cache[id]? = some entry ∧ p entry = true := by
  unfold arpPosition at h
  cases hid : cache.findIdx? p with
  | none => rw [hid] at h; cases h
  | some j =>
    obtain ⟨hj, hp, -⟩ := List.findIdx?_eq_some_iff_getElem.1 hid
    rw [hid, Option.bind_some, List.getElem?_eq_getElem hj] at h
    cases h
    exact ⟨List.getElem?_eq_getElem hj, hp⟩

theorem arpPutincache_mirrors (s : ArpState) (ip : AddrIp) (mac : AddrMac) (timeout now : Int) :
    (arpPutincache s ip mac timeout now).Mirrors := by
  unfold arpPutincache
  split
  · exact synccache_mirrors _
  · split <;> exact synccache_mirrors _

/-- Removing an entry behind the hardware's rows does not change them. -/
theorem arpRemoveIpMac_mirrors {s : ArpState} (hs : s.Mirrors) {ip : AddrIp} {mac : AddrMac}
    (h : ∀ e ∈ s.arp_cache.take 32, ¬ (e.ip = ip ∧ e.mac = mac)) :
    (arpRemoveIpMac s ip mac).Mirrors := by
  unfold arpRemoveIpMac
  split
  · rename_i id entry hpos
    obtain ⟨hentry, hp⟩ := arpPosition_some hpos
    have hid : 32 ≤ id := by
      by_contra hlt
      have hmem : entry ∈ s.arp_cache.take 32 := by
        rw [List.mem_iff_getElem?]
        exact ⟨id, by rw [List.getElem?_take_of_lt (by omega), hentry]⟩
      exact h entry hmem (of_decide_eq_true hp)
    intro i hi
    have hkeep : (s.arp_cache.eraseIdx id)[i]? = s.arp_cache[i]? :=
      List.getElem?_eraseIdx_of_lt (by omega)
    simp only [hkeep]
    exact hs i hi
  · exact synccache_mirrors s

theorem arpSweep_unchanged {expired : Nat → ArpCacheEntry → Bool} :
    ∀ (n i : Nat) (c : List ArpCacheEntry × Bool), (arpSweep expired n i c).2 = false →
      arpSweep expired n i c = c ∧ c.2 = false
  | 0, _, _, h => ⟨rfl, h⟩
  | n + 1, i, (cache, changed), h => by
    unfold arpSweep at h ⊢
    split at h
    · exact ⟨rfl, h⟩
    · split at h
      · -- a removal sets `changed`, and the later rounds keep it
        cases (arpSweep_unchanged n (i + 1) _ h).2
      · rename_i hne
        rw [if_neg hne]
        exact arpSweep_unchanged n (i + 1) _ h

/-- The second loop of `arp_maintain_cache` never runs: its bound is negative. -/
theorem arpTrim_eq {c : List ArpCacheEntry × Bool} (h : (c.1.length : Int) > arpThreshold) (n : Nat) :
    arpTrim n 0 c = c := by
  cases n with
  | zero => rfl
  | succ n =>
    unfold arpTrim
    rw [if_neg (by omega)]

/-- So a pass of `arp_maintain_cache` is its first loop. -/
theorem arpMaintainCache_eq (s : ArpState) (clock : Nat → Int) :
    arpMaintainCache s clock =
      let c := arpSweepAll (fun i entry => entry.tv_sec ≠ -1 && entry.tv_sec - clock i ≤ 0) s.arp_cache
      if c.2 then hardwareArpSynccache { s with arp_cache := c.1 } else { s with arp_cache := c.1 } := by
  unfold arpMaintainCache
  generalize arpSweepAll (fun i entry => entry.tv_sec ≠ -1 && entry.tv_sec - clock i ≤ 0)
    s.arp_cache = c
  have htrim : (if (c.1.length : Int) > arpThreshold then arpTrim 32 0 c else c) = c := by
    split
    · rename_i h
      exact arpTrim_eq h 32
    · rfl
  simp only [htrim]

theorem arpMaintainCache_mirrors {s : ArpState} (hs : s.Mirrors) (clock : Nat → Int) :
    (arpMaintainCache s clock).Mirrors := by
  rw [arpMaintainCache_eq]
  simp only
  split
  · exact synccache_mirrors _
  · rename_i hch
    have hsame := arpSweep_unchanged _ _ _ (Bool.eq_false_iff.2 hch)
    unfold arpSweepAll
    rw [hsame.1]
    exact hs

/-! ## Runs -/

namespace ArpState

/-- The operations after which the rows are still copies: `arp_remove_ip_mac` finds none of the
entries the hardware holds. -/
def Kept (s : ArpState) : ArpOp → Prop
  | .removeIpMac ip mac => ∀ e ∈ s.arp_cache.take 32, ¬ (e.ip = ip ∧ e.mac = mac)
  | _ => True

theorem exec_mirrors {s : ArpState} (hs : s.Mirrors) {op : ArpOp} (hop : s.Kept op) :
    (s.exec op).Mirrors := by
  cases op with
  | putincache ip mac timeout now => exact arpPutincache_mirrors s ip mac timeout now
  | addStatic ip mac now => exact arpPutincache_mirrors s ip mac (-1) now
  | removeIpMac ip mac => exact arpRemoveIpMac_mirrors hs hop
  | removeStaticIp ip => exact synccache_mirrors _
  | clearStatic => exact synccache_mirrors _
  | clearDynamic => exact synccache_mirrors _
  | clearAll => exact synccache_mirrors _
  | maintainCache clock => exact arpMaintainCache_mirrors hs clock

end ArpState

/-- **The hardware mirrors the cache in every run in which `arp_remove_ip_mac` meets its
condition.** -/
theorem arp_mirror_runs {s₀ s : ArpState} {ops : List ArpOp} (h0 : s₀.Mirrors)
    (h : Trace.Exec (Trace.Restrict ArpState.Kept fun s op s' => s' = s.exec op) s₀ ops s) :
    s.Mirrors := by
  refine h.invariant h0 ?_
  rintro t op u ht ⟨hop, rfl⟩
  exact ArpState.exec_mirrors ht hop

/-- The start: an empty cache and a cleared table. -/
def emptyArp : ArpState where
  arp_cache := []
  nf := ⟨fun _ => 0, fun _ => 0, 0, 0, fun _ _ => 0⟩

theorem arp_mirror_runs_sample :
    (((emptyArp.exec (.addStatic (ipConvert 10 0 0 2) ⟨2, 0, 0, 0, 0, 1⟩ 100)).exec
      (.removeIpMac (ipConvert 10 0 0 3) ⟨2, 0, 0, 0, 0, 1⟩)).exec .clearStatic).Mirrors :=
  @arp_mirror_runs emptyArp _
    [.addStatic (ipConvert 10 0 0 2) ⟨2, 0, 0, 0, 0, 1⟩ 100,
      .removeIpMac (ipConvert 10 0 0 3) ⟨2, 0, 0, 0, 0, 1⟩, .clearStatic]
    (by decide +kernel)
    (.cons ⟨trivial, rfl⟩ (.cons ⟨by unfold ArpState.Kept; decide +kernel, rfl⟩
      (.cons ⟨trivial, rfl⟩ .nil)))

/-- A removed entry stays in the hardware. -/
theorem arp_remove_not_mirrored :
    emptyArp.Mirrors ∧
      (emptyArp.exec (.addStatic (ipConvert 10 0 0 2) ⟨2, 0, 0, 0, 0, 1⟩ 100)).Mirrors ∧
      ¬ ((emptyArp.exec (.addStatic (ipConvert 10 0 0 2) ⟨2, 0, 0, 0, 0, 1⟩ 100)).exec
        (.removeIpMac (ipConvert 10 0 0 2) ⟨2, 0, 0, 0, 0, 1⟩)).Mirrors := by
  decide +kernel

end BirRouter
