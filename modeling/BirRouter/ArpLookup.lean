import BirRouter.ArpCache
import BirRouter.OutputPort.ArpStages

/-!
# Looking an address up in hardware and in software

`arp1.v` takes the highest row with the next hop's address and `arp2.v` that row's MAC; the rows behind
the end of the cache hold the address 0.  `arp_getcachebyip` takes the first entry.

* `arpLookup` — both stages without clocks (`arpLookup_stages`);
* `arpLookup_rows` — on the copy of a cache it finds the last entry among the first 32;
* `arp_lookup_agrees_iff` — when the hardware only finds MACs that the software finds too.
-/

set_option autoImplicit false

namespace BirRouter

open Trace

/-- The index of `arp1.v` and the MAC that `arp2.v` fetches for it, if there is a hit. -/
def arpLookup (arp_table : BitVec 5 → ArpRow) (nh_reg : BitVec 32) : Option (BitVec 48) :=
  let found := arp1Loop arp_table nh_reg 32 (false, 0)
  if found.1 then some (arp_table found.2).mac else none

theorem arpLookup_highestMatch (arp_table : BitVec 5 → ArpRow) (nh_reg : BitVec 32) :
    arpLookup arp_table nh_reg = (highestMatch arp_table nh_reg).map fun j => (arp_table j).mac := by
  unfold arpLookup
  rw [arp1Loop_highestMatch]
  cases highestMatch arp_table nh_reg with
  | none => rfl
  | some j => rfl

/-- **The stages look up.**  For a packet that is to be forwarded, with its first beat in `arp1` in one
cycle and in `arp2` in a later one, `arp2` has a hit and a MAC as `arpLookup` says. -/
theorem arpLookup_stages (arp_table : BitVec 5 → ArpRow) {s : Arp1} {t : Arp2} {l : Lpm3}
    {b b' : Axis} {beat beat' : Beat} {h h' : Bool} (hs : s.state = flag 2 h)
    (hb : (!h && b.first) = true) (ht : t.state = flag 2 h') (hb' : (!h' && b'.first) = true)
    (hd : beat.dstPort = 0) (hd' : beat'.dstPort = 0) (hl : l.arp_lookup = true) :
    let t' := t.step arp_table (s.step arp_table l b beat) b' beat'
    t'.arp_hit = (arpLookup arp_table l.nh_reg).isSome ∧
      ∀ mac ∈ arpLookup arp_table l.nh_reg, t'.dest_mac = mac := by
  have hfound : (s.step arp_table l b beat).Found arp_table l.oq_reg l.nh_reg :=
    Arp1.found_step hs hb hd hl
  obtain ⟨hhit, hmac⟩ := Arp2.found_step ht hb' hd' hfound
  rw [arpLookup_highestMatch]
  refine ⟨by rw [hhit, Option.isSome_map], ?_⟩
  intro mac hm
  obtain ⟨j, hj, rfl⟩ := Option.map_eq_some_iff.1 hm
  exact (hmac j hj).1

/-! ## MAC addresses as the hardware compares them -/

theorem macHi_toNat (mac : AddrMac) : (macHi mac).toNat = mac.octet0.toNat * 256 + mac.octet1.toNat := by
  have h0 := mac.octet0.isLt
  have h1 := mac.octet1.isLt
  unfold macHi
  simp only [BitVec.toNat_add, BitVec.toNat_shiftLeft, BitVec.toNat_setWidth, Nat.shiftLeft_eq]
  omega

theorem macLo_toNat (mac : AddrMac) :
    (macLo mac).toNat = mac.octet2.toNat * 16777216 + mac.octet3.toNat * 65536 +
      mac.octet4.toNat * 256 + mac.octet5.toNat := by
  have h2 := mac.octet2.isLt
  have h3 := mac.octet3.isLt
  have h4 := mac.octet4.isLt
  have h5 := mac.octet5.isLt
  unfold macLo
  simp only [BitVec.toNat_add, BitVec.toNat_shiftLeft, BitVec.toNat_setWidth, Nat.shiftLeft_eq]
  omega

theorem macBits_toNat (mac : AddrMac) :
    (ArpState.macBits mac).toNat = (macHi mac).toNat * 4294967296 + (macLo mac).toNat := by
  have hlo : (macLo mac).toNat < 2 ^ 32 := (macLo mac).isLt
  unfold ArpState.macBits
  rw [BitVec.toNat_append, ← Nat.shiftLeft_add_eq_or_of_lt hlo, Nat.shiftLeft_eq]

theorem macBits_injective {a b : AddrMac} (h : ArpState.macBits a = ArpState.macBits b) : a = b := by
  have hn := congrArg BitVec.toNat h
  rw [macBits_toNat, macBits_toNat, macHi_toNat, macHi_toNat, macLo_toNat, macLo_toNat] at hn
  obtain ⟨a0, a1, a2, a3, a4, a5⟩ := a
  obtain ⟨b0, b1, b2, b3, b4, b5⟩ := b
  simp only at hn
  have h5 : a5 = b5 := by bv_omega
  have h4 : a4 = b4 := by bv_omega
  have h3 : a3 = b3 := by bv_omega
  have h2 : a2 = b2 := by bv_omega
  have h1 : a1 = b1 := by bv_omega
  have h0 : a0 = b0 := by bv_omega
  rw [h0, h1, h2, h3, h4, h5]

/-! ## The copy of a cache -/

section Rows

variable {s : ArpState} {ip : AddrIp}

/-- The entries with an address among those that the hardware has rows for. -/
def ArpState.copied (s : ArpState) (ip : AddrIp) : List ArpCacheEntry :=
  (s.arp_cache.take 32).filter fun entry => entry.ip = ip

theorem arp1Loop_rows (hs : s.Mirrors) (hfull : ip = 0 → 32 ≤ s.arp_cache.length) {n : Nat}
    (hn : n ≤ 32) :
    (let found := arp1Loop s.nf.table (ntohl ip) n (false, 0)
      if found.1 then some (ArpRow.mac (s.nf.table found.2)) else none) =
    (((s.arp_cache.take n).filter fun entry => entry.ip = ip).getLast?).map
      fun entry => ArpState.macBits entry.mac := by
  induction n with
  | zero => rfl
  | succ n ih =>
    obtain ⟨hip, hmac⟩ := hs n (by omega)
    have ih := ih (by omega)
    rw [List.take_add_one, List.filter_append, arp1Loop]
    cases hn' : s.arp_cache[n]? with
    | none =>
      -- a row of zeros, which is not what is looked for
      have hlen := List.getElem?_eq_none_iff.1 hn'
      have hne : ntohl ip ≠ ArpRow.ip (s.nf.table (BitVec.ofNat 5 n)) := by
        rw [hip, hn']
        intro hz
        have hzero : ip = 0 := ntohl_injective hz
        have := hfull hzero
        omega
      rw [if_neg hne]
      simpa using ih
    | some entry =>
      rw [hn'] at hip hmac
      by_cases he : entry.ip = ip
      · have heq : ntohl ip = ArpRow.ip (s.nf.table (BitVec.ofNat 5 n)) := by
          rw [hip, ← he]
          rfl
        rw [if_pos heq]
        simp [he, hmac]
      · have hne : ntohl ip ≠ ArpRow.ip (s.nf.table (BitVec.ofNat 5 n)) := by
          rw [hip]
          exact fun hz => he (ntohl_injective hz).symm
        rw [if_neg hne]
        simpa [he] using ih

/-- **The hardware finds the last copied entry.** -/
theorem arpLookup_rows (hs : s.Mirrors) (hfull : ip = 0 → 32 ≤ s.arp_cache.length) :
    arpLookup s.nf.table (ntohl ip) =
      (s.copied ip).getLast?.map fun entry => ArpState.macBits entry.mac :=
  arp1Loop_rows hs hfull (Nat.le_refl _)

/-- Address 0 is found in every row that no entry is copied to. -/
theorem arpLookup_zero (hs : s.Mirrors) (hfree : s.arp_cache.length < 32) :
    arpLookup s.nf.table (ntohl 0) = some 0 := by
  obtain ⟨hip, hmac⟩ := hs 31 (by decide)
  rw [List.getElem?_eq_none (by omega)] at hip hmac
  have heq : ntohl 0 = ArpRow.ip (s.nf.table (BitVec.ofNat 5 31)) := hip.symm
  unfold arpLookup
  rw [arp1Loop, if_pos heq]
  exact congrArg some hmac

/-- The software finds the first one. -/
theorem arpGetcachebyip_copied {entry : ArpCacheEntry} {rest : List ArpCacheEntry}
    (h : s.copied ip = entry :: rest) : arpGetcachebyip s.arp_cache ip = some entry := by
  have hsplit : s.arp_cache.filter (fun e => e.ip = ip) =
      s.copied ip ++ (s.arp_cache.drop 32).filter fun e => e.ip = ip := by
    unfold ArpState.copied
    rw [← List.filter_append, List.take_append_drop]
  unfold arpGetcachebyip
  rw [← List.head?_filter, hsplit, h]
  rfl

end Rows

/-! ## Agreement -/

/-- A hit of the hardware is the MAC that the software finds. -/
def LookupsAgree (s : ArpState) (ip : AddrIp) : Prop :=
  ∀ mac, arpLookup s.nf.table (ntohl ip) = some mac →
    ∃ entry, arpGetcachebyip s.arp_cache ip = some entry ∧ ArpState.macBits entry.mac = mac

/-- The addresses that are looked up alike: not more than one copied entry has the address; for
address 0, if the cache does not fill the rows, the first entry with it has the MAC 0. -/
def LookedUpAlike (cache : List ArpCacheEntry) (ip : AddrIp) : Prop :=
  if ip = 0 ∧ cache.length < 32 then
    (arpGetcachebyip cache 0).map ArpCacheEntry.mac = some AddrMac.zero
  else ((cache.take 32).filter fun entry => entry.ip = ip).length ≤ 1

instance (cache : List ArpCacheEntry) (ip : AddrIp) : Decidable (LookedUpAlike cache ip) :=
  inferInstanceAs (Decidable (if ip = 0 ∧ cache.length < 32 then _ = some _ else _ ≤ 1))

/-- First and last entry have the same MAC only if there is just one. -/
theorem copied_ends {s : ArpState} (hmacs : (s.arp_cache.map ArpCacheEntry.mac).Nodup) {ip : AddrIp}
    {first last : ArpCacheEntry} {rest : List ArpCacheEntry} (hf : s.copied ip = first :: rest)
    (hl : (s.copied ip).getLast? = some last) : first.mac = last.mac ↔ rest = [] := by
  have hsub : (s.copied ip).Sublist s.arp_cache :=
    List.filter_sublist.trans (List.take_sublist 32 s.arp_cache)
  have hnodup := (hsub.map ArpCacheEntry.mac).nodup hmacs
  rw [hf, List.map_cons, List.nodup_cons] at hnodup
  rw [hf] at hl
  constructor
  · intro heq
    by_contra hne
    rw [List.getLast?_cons_of_ne_nil hne] at hl
    exact hnodup.1 (heq ▸ List.mem_map_of_mem (List.mem_of_getLast? hl))
  · rintro rfl
    rw [List.getLast?_singleton] at hl
    cases hl
    rfl

theorem lookupsAgree_iff {s : ArpState} (hs : s.Mirrors)
    (hmacs : (s.arp_cache.map ArpCacheEntry.mac).Nodup) (ip : AddrIp) :
    LookupsAgree s ip ↔ LookedUpAlike s.arp_cache ip := by
  have hzeroBits : ArpState.macBits AddrMac.zero = 0 := by decide
  unfold LookupsAgree LookedUpAlike
  split
  · rename_i hzero
    obtain ⟨rfl, hfree⟩ := hzero
    rw [arpLookup_zero hs hfree, Option.map_eq_some_iff]
    constructor
    · intro h
      obtain ⟨entry, hentry, hbits⟩ := h 0 rfl
      exact ⟨entry, hentry, macBits_injective (hbits.trans hzeroBits.symm)⟩
    · rintro ⟨entry, hentry, hmac⟩ mac hhit
      cases hhit
      exact ⟨entry, hentry, hmac ▸ hzeroBits⟩
  · rename_i hzero
    have hfull : ip = 0 → 32 ≤ s.arp_cache.length :=
      fun h => Nat.le_of_not_lt fun hlt => hzero ⟨h, hlt⟩
    rw [arpLookup_rows hs hfull]
    show _ ↔ (s.copied ip).length ≤ 1
    cases hf : s.copied ip with
    | nil => simp
    | cons first rest =>
      obtain ⟨last, hl⟩ : ∃ last, (s.copied ip).getLast? = some last :=
        Option.isSome_iff_exists.1 (by rw [hf]; rfl)
      have hends := copied_ends hmacs hf hl
      rw [← hf, hl, Option.map_some, arpGetcachebyip_copied hf]
      constructor
      · intro h
        obtain ⟨entry, hentry, hbits⟩ := h _ rfl
        cases hentry
        rw [hf, hends.1 (macBits_injective hbits)]
        exact Nat.le_refl 1
      · intro hlen mac hmac
        rw [hf, List.length_cons] at hlen
        have hnil : rest = [] := List.length_eq_zero_iff.1 (by omega)
        cases hmac
        exact ⟨first, rfl, congrArg ArpState.macBits (hends.2 hnil)⟩

/-- **Hardware and software resolve the same MAC** for the addresses that are looked up alike, and for
no others, whatever operations filled the cache that is copied. -/
theorem arp_lookup_agrees_iff {nf : TableRegs 3} {ops : List ArpOp} {s : ArpState}
    (h : Exec ArpState.Executes ⟨[], nf⟩ ops s) (ip : AddrIp) :
    LookupsAgree (hardwareArpSynccache s) ip ↔ LookedUpAlike s.arp_cache ip := by
  have hmacs : (s.arp_cache.map ArpCacheEntry.mac).Nodup := by
    refine h.invariant (I := fun t => (t.arp_cache.map ArpCacheEntry.mac).Nodup) List.nodup_nil ?_
    rintro t op u ht rfl
    exact ArpState.exec_macs_nodup op ht
  exact lookupsAgree_iff (synccache_mirrors s) hmacs ip

/-- Two hosts of which the second takes over the address of the first. -/
def takeover : List ArpOp :=
  [.putincache (ipConvert 10 0 0 2) ⟨2, 0, 0, 0, 0, 2⟩ 120 100,
    .putincache (ipConvert 10 0 0 3) ⟨2, 0, 0, 0, 0, 3⟩ 120 101,
    .putincache (ipConvert 10 0 0 2) ⟨2, 0, 0, 0, 0, 3⟩ 120 102]

/-- Before the second host takes it over, the address is looked up alike. -/
theorem arp_lookup_agrees_two :
    LookupsAgree (hardwareArpSynccache ((takeover.take 2).foldl ArpState.exec emptyArp))
      (ipConvert 10 0 0 2) := by
  have hrun : Exec ArpState.Executes emptyArp (takeover.take 2)
      ((takeover.take 2).foldl ArpState.exec emptyArp) :=
    .of_foldl ArpState.Executes ArpState.exec (fun _ _ => rfl) ..
  exact (arp_lookup_agrees_iff hrun _).2 (by decide +kernel)

/-- Afterwards the hardware finds the second host and the software the first; and the hardware finds
the address 0 although the cache has no entry for it. -/
theorem arp_lookup_differs :
    let s := hardwareArpSynccache (takeover.foldl ArpState.exec emptyArp)
    arpLookup s.nf.table (ntohl (ipConvert 10 0 0 2)) =
        some (ArpState.macBits ⟨2, 0, 0, 0, 0, 3⟩) ∧
      (arpGetcachebyip s.arp_cache (ipConvert 10 0 0 2)).map ArpCacheEntry.mac =
        some ⟨2, 0, 0, 0, 0, 2⟩ ∧
      arpLookup s.nf.table (ntohl 0) = some 0 ∧ arpGetcachebyip s.arp_cache 0 = none := by
  decide +kernel

end BirRouter
