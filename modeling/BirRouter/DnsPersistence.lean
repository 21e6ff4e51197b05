import BirRouter.Dns
import BirRouter.Lib.Trace
import Mathlib.Data.List.Forall2

/-!
# Persistence of the DNS database

* `dnsSaveChanges_populateDatabase_iff` — a database that commands lead to is read back from its
  file exactly if it has at most 256 entries, its labels are not empty and hold no space or newline,
  and no line is longer than the buffer it is read into (`DnsDbEntry.Storable`).

In one direction a storable entry is read back from its line (`loadEntry_line`).  In the other,
every line gives at least one piece to `fgets`, so that as many entries as lines means that each line
came in one piece; and a loaded label is a token, which is not empty and has no space.
-/

set_option autoImplicit false

namespace BirRouter

open ByteLayout CString Trace

/-! ## Labels of a converted name -/

structure DnsDbEntry.WellFormed (e : DnsDbEntry) : Prop where
  count : e.names.length < 256
  labels : ∀ l ∈ e.names, dot ∉ l ∧ 0 ∉ l

theorem addLabel_wellFormed {names : List (List Byte)} {sub : List Byte}
    (hcount : names.length < 256) (hnames : ∀ l ∈ names, dot ∉ l ∧ 0 ∉ l) (hsub : dot ∉ sub) :
    (addLabel names sub).length < 256 ∧ ∀ l ∈ addLabel names sub, dot ∉ l ∧ 0 ∉ l := by
  rw [addLabel]
  split
  · exact ⟨by decide, fun l hl => absurd hl List.not_mem_nil⟩
  · rename_i hwrap
    rw [List.length_append, List.length_singleton] at hwrap ⊢
    refine ⟨by omega, fun l hl => ?_⟩
    rcases List.mem_append.1 hl with hl | hl
    · exact hnames l hl
    · rw [List.mem_singleton.1 hl]
      refine ⟨fun hd => hsub ((List.takeWhile_prefix _).subset hd), fun h0 => ?_⟩
      simpa using List.mem_takeWhile_imp h0

theorem convertNames_wellFormed : ∀ (l cur : List Byte) (names : List (List Byte)),
    names.length < 256 → (∀ l ∈ names, dot ∉ l ∧ 0 ∉ l) → dot ∉ cur →
    (convertNames cur names l).1.length < 256 ∧
      ∀ l' ∈ (convertNames cur names l).1, dot ∉ l' ∧ 0 ∉ l'
  | [], _, _, hcount, hnames, _ => ⟨hcount, hnames⟩
  | b :: l, cur, names, hcount, hnames, hcur => by
    have hconcat : b ≠ dot → dot ∉ cur ++ [b] := fun hb =>
      mt List.mem_append.1 (not_or.2 ⟨hcur, fun hd => hb (List.mem_singleton.1 hd).symm⟩)
    rw [convertNames]
    split
    · exact ⟨hcount, hnames⟩
    rename_i hend
    split
    · split
      · exact ⟨hcount, hnames⟩
      · have hsub : dot ∉ (if l = [] then cur ++ [b] else cur) := by
          split
          · exact hconcat fun hb => hend ⟨hb, ‹l = []›⟩
          · exact hcur
        obtain ⟨hcount', hnames'⟩ := addLabel_wellFormed hcount hnames hsub
        exact convertNames_wellFormed _ _ _ hcount' hnames' List.not_mem_nil
    · rename_i hmid
      exact convertNames_wellFormed _ _ _ hcount hnames (hconcat fun hb => hmid (Or.inl hb))

theorem cliManipDnsAdd_eq (data : GrossDns) (db : List DnsDbEntry) :
    cliManipDnsAdd data db = if (dnsConvertGroosDnsToDbEntry data).2 then db
      else db ++ [(dnsConvertGroosDnsToDbEntry data).1] := rfl

theorem dnsConvert_wellFormed (data : GrossDns) :
    (dnsConvertGroosDnsToDbEntry data).1.WellFormed := by
  obtain ⟨hcount, hnames⟩ := convertNames_wellFormed
    (data.hostname.take 1 ++ (data.hostname.drop 1).takeWhile (· ≠ 0)) [] [] (by decide)
    (fun l hl => absurd hl List.not_mem_nil) List.not_mem_nil
  exact ⟨hcount, hnames⟩

theorem dnsStep_wellFormed {db db' : List DnsDbEntry} {c : DnsCommand}
    (h : ∀ e ∈ db, e.WellFormed) (hs : DnsStep db c db') : ∀ e ∈ db', e.WellFormed := by
  intro e he
  cases hs with
  | @add _ data _ _ =>
    rw [cliManipDnsAdd_eq] at he
    split at he
    · exact h e he
    · rcases List.mem_append.1 he with he | he
      · exact h e he
      · rw [List.mem_singleton.1 he]
        exact dnsConvert_wellFormed data
  | del _ _ => exact h e (List.mem_of_mem_erase he)

/-! ## Lines -/

/-- The domain name that `concat_names` writes. -/
def DnsDbEntry.name (e : DnsDbEntry) : List Byte := [dot].intercalate e.names

/-- What the file can hold of a well-formed entry. -/
structure DnsDbEntry.Storable (e : DnsDbEntry) : Prop where
  names : e.names ≠ []
  labels : ∀ l ∈ e.names, l ≠ [] ∧ space ∉ l ∧ newline ∉ l
  fits : (e.line e.name).length ≤ 255

/-- The line without its newline. -/
def DnsDbEntry.body (e : DnsDbEntry) (name : List Byte) : List Byte :=
  [space].intercalate [name, decimal e.type.toNat, decimal e.class_.toNat, ipToString e.rdata]

theorem DnsDbEntry.line_eq (e : DnsDbEntry) (name : List Byte) :
    e.line name = e.body name ++ [newline] := by
  simp only [DnsDbEntry.line, DnsDbEntry.body, List.intercalate_cons_cons,
    List.intercalate_singleton, List.append_assoc]

theorem not_mem_decimal {b : Byte} (hb : isdigit b = false) (n : Nat) : b ∉ decimal n := by
  intro hm
  rw [isdigit_of_mem_decimal hm] at hb
  cases hb

theorem not_mem_ipToString {b : Byte} (hb : isdigit b = false) (hdot : b ≠ dot) (ip : BitVec 32) :
    b ∉ ipToString ip := by
  intro hm
  rcases mem_intercalate hm with h | ⟨l, hl, hm⟩
  · exact hdot h
  · obtain ⟨o, -, rfl⟩ := List.mem_map.1 hl
    exact not_mem_decimal hb _ hm

/-- What is neither a digit nor one of the separators can only come from the name. -/
theorem mem_name_of_mem_body {e : DnsDbEntry} {name : List Byte} {b : Byte} (h : b ∈ e.body name)
    (hb : isdigit b = false) (hdot : b ≠ dot) (hspace : b ≠ space) : b ∈ name := by
  rcases mem_intercalate h with h | ⟨l, hl, hm⟩
  · exact absurd h hspace
  · simp only [List.mem_cons, List.not_mem_nil, or_false] at hl
    rcases hl with rfl | rfl | rfl | rfl
    · exact hm
    · exact absurd hm (not_mem_decimal hb _)
    · exact absurd hm (not_mem_decimal hb _)
    · exact absurd hm (not_mem_ipToString hb hdot _)

theorem name_infix_body (e : DnsDbEntry) (name : List Byte) : name <:+: e.body name :=
  infix_intercalate _ List.mem_cons_self

/-! ## Reading a line back -/

theorem octet_bit (ip : BitVec 32) {i : Nat} (hi : i < 32) (k : Nat) :
    (BitVec.ofInt 32 ((ip.extractLsb' k 8).toNat : Int) <<< k).getLsbD i =
      (decide (k ≤ i ∧ i < k + 8) && ip.getLsbD i) := by
  rw [BitVec.ofInt_natCast, BitVec.ofNat_toNat, BitVec.getLsbD_shiftLeft, BitVec.getLsbD_setWidth,
    BitVec.getLsbD_extractLsb', decide_eq_true hi]
  by_cases hk : k ≤ i
  · have h1 : i - k < 32 := by omega
    have h2 : k + (i - k) = i := by omega
    have h3 : i - k < 8 ↔ k ≤ i ∧ i < k + 8 := by omega
    simp [hk, h1, h2, h3]
  · simp [hk, Nat.lt_of_not_le hk]

theorem ipConvertInt_octets (ip : BitVec 32) :
    ipConvertInt (ip.extractLsb' 0 8).toNat (ip.extractLsb' 8 8).toNat (ip.extractLsb' 16 8).toNat
      (ip.extractLsb' 24 8).toNat = ip := by
  apply BitVec.eq_of_getLsbD_eq
  intro i hi
  have h0 := octet_bit ip hi 0
  rw [BitVec.shiftLeft_zero] at h0
  rw [ipConvertInt, BitVec.getLsbD_or, BitVec.getLsbD_or, BitVec.getLsbD_or, h0, octet_bit ip hi,
    octet_bit ip hi, octet_bit ip hi]
  cases ip.getLsbD i with
  | false => simp
  | true =>
    -- bit `i` belongs to one of the four octets
    simp only [Bool.and_true, Bool.or_eq_true, decide_eq_true_eq]
    omega

theorem loadAddress_line (ip : BitVec 32) :
    loadAddress (ipToString ip ++ [newline]) = some ip := by
  have htake : (ipToString ip ++ [newline]).takeWhile (· ≠ newline) = ipToString ip := by
    rw [List.takeWhile_append_of_pos fun b hb => ?_, List.takeWhile_cons_of_neg (by simp),
      List.append_nil]
    exact decide_eq_true fun e => not_mem_ipToString (by decide) (by decide) ip (e ▸ hb)
  have htokens : tokens dot (ipToString ip) = (u32le.enc ip).map fun b => decimal b.toNat := by
    refine tokens_intercalate (fun l hl => ?_) fun l hl => ?_
    · obtain ⟨o, -, rfl⟩ := List.mem_map.1 hl
      exact not_mem_decimal (by decide) _
    · obtain ⟨o, -, rfl⟩ := List.mem_map.1 hl
      exact decimal_ne_nil _
  have hatoi : ((u32le.enc ip).map fun b => decimal b.toNat).map atoi =
      (u32le.enc ip).map fun b => (b.toNat : Int) := by
    rw [List.map_map]
    exact List.map_congr_left fun b _ => atoi_decimal (by omega)
  have hline : (ipToString ip ++ [newline]).contains newline = true :=
    List.contains_iff_mem.2 (List.mem_append_right _ (List.mem_singleton.2 rfl))
  rw [loadAddress, if_pos hline, htake, htokens, hatoi]
  exact congrArg some (ipConvertInt_octets ip)

theorem loadNames_intercalate {e : DnsDbEntry} (h : e.WellFormed) (hs : e.Storable) :
    loadNames e.name = some e.names := by
  have htokens : tokens dot e.name = e.names :=
    tokens_intercalate (fun l hl => (h.labels l hl).1) fun l hl => (hs.labels l hl).1
  have hpos := List.length_pos_of_ne_nil hs.names
  have hlt := h.count
  have hcount : (e.name.count dot + 1) % 256 = e.names.length := by
    rw [DnsDbEntry.name, count_intercalate fun l hl => (h.labels l hl).1, Nat.sub_add_cancel hpos,
      Nat.mod_eq_of_lt hlt]
  rw [loadNames, htokens, hcount, if_neg (Nat.lt_irrefl _), List.take_length]

theorem intercalate_ne_nil {sep : Byte} {ls : List (List Byte)} (hls : ls ≠ [])
    (hne : ∀ l ∈ ls, l ≠ []) : [sep].intercalate ls ≠ [] := by
  obtain ⟨l, hl⟩ := List.exists_mem_of_ne_nil ls hls
  intro hnil
  have hpart := infix_intercalate sep hl
  rw [hnil] at hpart
  exact hne l hl (List.eq_nil_of_infix_nil hpart)

theorem loadEntry_line {e : DnsDbEntry} (h : e.WellFormed) (hs : e.Storable) :
    loadEntry (e.line e.name) = some e := by
  have hnul : (e.line e.name).takeWhile (· ≠ 0) =
      e.line e.name := by
    refine List.takeWhile_eq_self_iff.2 fun b hb => decide_eq_true ?_
    rintro rfl
    rw [e.line_eq] at hb
    rcases List.mem_append.1 hb with hb | hb
    · have hname := mem_name_of_mem_body hb (by decide) (by decide) (by decide)
      rcases mem_intercalate hname with h0 | ⟨l, hl, h0⟩
      · exact absurd h0 (by decide)
      · exact (h.labels l hl).2 h0
    · exact absurd (List.mem_singleton.1 hb) (by decide)
  have htokens : tokens space (e.line e.name) =
      [e.name, decimal e.type.toNat, decimal e.class_.toNat,
        ipToString e.rdata ++ [newline]] := by
    refine tokens_intercalate ?_ ?_
    · simp only [List.forall_mem_cons]
      refine ⟨fun hm => ?_, not_mem_decimal (by decide) _, not_mem_decimal (by decide) _,
        fun hm => ?_, fun l hl => absurd hl List.not_mem_nil⟩
      · rcases mem_intercalate hm with hd | ⟨l, hl, hm⟩
        · exact absurd hd (by decide)
        · exact (hs.labels l hl).2.1 hm
      · rcases List.mem_append.1 hm with hm | hm
        · exact not_mem_ipToString (by decide) (by decide) _ hm
        · exact absurd (List.mem_singleton.1 hm) (by decide)
    · simp only [List.forall_mem_cons]
      exact ⟨intercalate_ne_nil hs.names fun l hl => (hs.labels l hl).1, decimal_ne_nil _,
        decimal_ne_nil _, List.append_ne_nil_of_right_ne_nil _ (List.cons_ne_nil _ _),
        fun l hl => absurd hl List.not_mem_nil⟩
  have hatoi : ∀ v : BitVec 16, BitVec.ofInt 16 (atoi (decimal v.toNat)) = v := by
    intro v
    rw [atoi_decimal (by omega), BitVec.ofInt_natCast, BitVec.ofNat_toNat, BitVec.setWidth_eq]
  rw [loadEntry, hnul, htokens]
  simp only [loadNames_intercalate h hs, loadAddress_line, hatoi, Option.bind_some, Option.map_some]

/-! ## What a loaded line was -/

theorem loadNames_some {domain : List Byte} {names : List (List Byte)}
    (h : loadNames domain = some names) :
    (∀ l ∈ names, l ∈ tokens dot domain) ∧ names.length = (domain.count dot + 1) % 256 := by
  rw [loadNames] at h
  split at h
  · cases h
  · rename_i hle
    cases h
    exact ⟨fun l => List.mem_of_mem_take, List.length_take_of_le (Nat.le_of_not_lt hle)⟩

/-- The labels of a loaded entry are tokens of its line. -/
theorem loadEntry_labels {line : List Byte} {e : DnsDbEntry} (h : loadEntry line = some e) :
    ∃ domain, domain <:+: line ∧ space ∉ domain ∧ (∀ l ∈ e.names, l ∈ tokens dot domain) ∧
      e.names.length = (domain.count dot + 1) % 256 := by
  rw [loadEntry] at h
  split at h
  case h_1 domain type class_ data more htokens =>
    obtain ⟨hpart, hspace, -⟩ := mem_tokens (htokens ▸ List.mem_cons_self)
    rw [Option.bind_eq_some_iff] at h
    obtain ⟨names, hnames, h⟩ := h
    rw [Option.map_eq_some_iff] at h
    obtain ⟨rdata, -, rfl⟩ := h
    obtain ⟨hlabels, hcount⟩ := loadNames_some hnames
    exact ⟨domain, hpart.trans (List.takeWhile_prefix _).isInfix, hspace, hlabels, hcount⟩
  case h_2 => cases h

/-- An entry that is read back from a line that `fgets` reads at once is storable. -/
theorem storable_of_loadEntry {e : DnsDbEntry}
    (hload : loadEntry (e.line e.name) = some e)
    (hline : newline ∉ e.body e.name)
    (hfits : (e.body e.name).length < 255) : e.Storable := by
  obtain ⟨domain, hdomain, hspace, hlabels, hcount⟩ := loadEntry_labels hload
  rw [e.line_eq] at hdomain
  -- the newline is not a dot, so the count of labels does not wrap
  have hdots : domain.count dot < 255 := by
    have hle := hdomain.count_le dot
    rw [List.count_append, List.count_singleton, if_neg (by decide)] at hle
    exact lt_of_le_of_lt (hle.trans List.count_le_length) hfits
  refine ⟨?_, fun l hl => ?_, ?_⟩
  · intro hnil
    rw [hnil, List.length_nil, Nat.mod_eq_of_lt (by omega)] at hcount
    omega
  · obtain ⟨hpart, -, hne⟩ := mem_tokens (hlabels l hl)
    refine ⟨hne, fun hm => hspace (hpart.subset hm), fun hm => hline ?_⟩
    exact (name_infix_body e _).subset ((infix_intercalate dot hl).subset hm)
  · rw [e.line_eq, List.length_append, List.length_singleton]
    omega

/-! ## The whole file -/

theorem mapM_eq_some_iff {α β : Type} {f : α → Option β} : ∀ {l : List α} {l' : List β},
    l.mapM f = some l' ↔ List.Forall₂ (fun a b => f a = some b) l l'
  | [], l' => by
    rw [List.mapM_nil, List.forall₂_nil_left_iff]
    exact ⟨fun h => (Option.some.inj h).symm, fun h => h ▸ rfl⟩
  | a :: l, l' => by
    rw [List.mapM_cons, List.forall₂_cons_left_iff]
    simp only [Option.bind_eq_bind, Option.bind_eq_some_iff, mapM_eq_some_iff]
    constructor
    · rintro ⟨b, hb, bs, hbs, h⟩
      exact ⟨b, bs, hb, hbs, (Option.some.inj h).symm⟩
    · rintro ⟨b, bs, hb, hbs, rfl⟩
      exact ⟨b, hb, bs, hbs, rfl⟩

/-- The pieces that `fgets` makes of a file are those of its lines. -/
theorem fgets_flatten : ∀ bodies : List (List Byte),
    fgets 255 newline [] (bodies.map (· ++ [newline])).flatten =
      (bodies.map fun l => fgets 255 newline [] (l ++ [newline])).flatten
  | [] => rfl
  | l :: bodies => by
    rw [List.map_cons, List.flatten_cons, List.append_assoc, List.singleton_append, fgets_line,
      fgets_flatten bodies, List.map_cons, List.flatten_cons]

/-- Lists that are not empty and together have as many elements as there are lists have one element
each. -/
theorem length_le_flatten {α : Type} : ∀ {ls : List (List α)}, (∀ l ∈ ls, l ≠ []) →
    ls.length ≤ ls.flatten.length ∧
      (ls.flatten.length = ls.length → ∀ l ∈ ls, l.length = 1)
  | [], _ => ⟨Nat.le_refl _, fun _ _ h => absurd h List.not_mem_nil⟩
  | l :: ls, hne => by
    obtain ⟨hl, hls⟩ := List.forall_mem_cons.1 hne
    obtain ⟨hle, hone⟩ := length_le_flatten hls
    have hpos := List.length_pos_of_ne_nil hl
    rw [List.flatten_cons, List.length_append, List.length_cons]
    refine ⟨by omega, fun heq => List.forall_mem_cons.2 ⟨by omega, hone (by omega)⟩⟩

theorem dnsSaveChanges_eq_some_iff {db : List DnsDbEntry} {file : List Byte} :
    dnsSaveChanges db = some file ↔ (∀ e ∈ db, e.name.length < 256) ∧
      file = ((db.map fun e => e.body e.name).map (· ++ [newline])).flatten := by
  have hentry : ∀ (e : DnsDbEntry) (l : List Byte), (concatNames e.names).map e.line = some l ↔
      e.name.length < 256 ∧ e.body e.name ++ [newline] = l := by
    intro e l
    rw [concatNames, ← e.line_eq]
    show (if e.name.length < 256 then some e.name else none).map e.line = some l ↔ _
    split <;> simp [*]
  rw [dnsSaveChanges, Option.map_eq_some_iff]
  simp only [mapM_eq_some_iff, hentry, List.forall₂_and_left]
  constructor
  · rintro ⟨ls, ⟨hlen, hls⟩, rfl⟩
    rw [← List.forall₂_map_left_iff (f := fun e : DnsDbEntry => e.body e.name ++ [newline]) (R := Eq),
      List.forall₂_eq_eq_eq] at hls
    rw [← hls, List.map_map]
    exact ⟨hlen, rfl⟩
  · rintro ⟨hlen, rfl⟩
    refine ⟨_, ⟨hlen, ?_⟩, rfl⟩
    rw [← List.forall₂_map_left_iff (f := fun e : DnsDbEntry => e.body e.name ++ [newline]) (R := Eq),
      List.forall₂_eq_eq_eq, List.map_map]
    rfl

/-- As many pieces as lines: each line was read at once. -/
theorem fgets_once_of_length {db : List DnsDbEntry}
    (h : (fgets 255 newline []
      ((db.map fun e => e.body e.name).map (· ++ [newline])).flatten).length = db.length) :
    ∀ e ∈ db, newline ∉ e.body e.name ∧ (e.body e.name).length < 255 := by
  intro e he
  rw [fgets_flatten, List.map_map] at h
  have hne : ∀ p ∈ db.map ((fun l => fgets 255 newline [] (l ++ [newline])) ∘
      fun e => e.body e.name), p ≠ [] := by
    intro p hp
    obtain ⟨e', -, rfl⟩ := List.mem_map.1 hp
    exact fgets_ne_nil [] _
  have hone := (length_le_flatten hne).2 (by rw [h, List.length_map]) _ (List.mem_map_of_mem he)
  simpa using (fgets_once [] _ (by decide)).1.1 hone

/-- Lines that `fgets` reads at once are loaded one by one. -/
theorem fgets_lines {db : List DnsDbEntry}
    (h : ∀ e ∈ db, newline ∉ e.body e.name ∧ (e.body e.name).length < 255) :
    fgets 255 newline [] ((db.map fun e => e.body e.name).map (· ++ [newline])).flatten =
      db.map fun e => e.line e.name := by
  have hpieces : ((db.map fun e => e.body e.name).map fun l => fgets 255 newline [] (l ++ [newline])) =
      db.map fun e => [e.line e.name] := by
    rw [List.map_map]
    refine List.map_congr_left fun e he => ?_
    obtain ⟨hn, hlt⟩ := h e he
    rw [e.line_eq]
    exact (fgets_once [] _ (by decide)).2 hn (by simpa using hlt)
  rw [fgets_flatten, hpieces, ← List.flatMap_def, ← List.map_eq_flatMap]

/-- **Persistence.**  Of the databases that commands lead to, those come back from their file that
have no more than 256 entries, all of them storable. -/
theorem dnsSaveChanges_populateDatabase_iff {commands : List DnsCommand} {db : List DnsDbEntry}
    (h : Exec DnsStep [] commands db) :
    (∃ file, dnsSaveChanges db = some file ∧ populateDatabase file = some db) ↔
      db.length ≤ 256 ∧ ∀ e ∈ db, e.Storable := by
  have hwell : ∀ e ∈ db, e.WellFormed :=
    h.invariant (fun e he => absurd he List.not_mem_nil) dnsStep_wellFormed
  constructor
  · rintro ⟨file, hsave, hload⟩
    obtain ⟨-, rfl⟩ := dnsSaveChanges_eq_some_iff.1 hsave
    rw [populateDatabase] at hload
    split at hload
    · cases hload
    rename_i hcount
    have hlen := (mapM_eq_some_iff.1 hload).length_eq
    have honce := fgets_once_of_length hlen
    rw [fgets_lines honce] at hload hlen hcount
    rw [List.length_map] at hcount
    refine ⟨Nat.le_of_not_lt hcount, fun e he => ?_⟩
    have hentries := mapM_eq_some_iff.1 hload
    rw [List.forall₂_map_left_iff, List.forall₂_same] at hentries
    exact storable_of_loadEntry (hentries e he) (honce e he).1 (honce e he).2
  · rintro ⟨hcount, hstorable⟩
    have honce : ∀ e ∈ db, newline ∉ e.body e.name ∧ (e.body e.name).length < 255 := by
      intro e he
      have hfits := (hstorable e he).fits
      rw [e.line_eq, List.length_append, List.length_singleton] at hfits
      refine ⟨fun hm => ?_, by omega⟩
      have hname := mem_name_of_mem_body hm (by decide) (by decide) (by decide)
      rcases mem_intercalate hname with hd | ⟨l, hl, hn⟩
      · exact absurd hd (by decide)
      · exact ((hstorable e he).labels l hl).2.2 hn
    refine ⟨_, dnsSaveChanges_eq_some_iff.2 ⟨fun e he => ?_, rfl⟩, ?_⟩
    · have hle := (name_infix_body e e.name).length_le
      have := (honce e he).2
      omega
    · rw [populateDatabase, fgets_lines honce, List.length_map, if_neg (Nat.not_lt.2 hcount),
        mapM_eq_some_iff, List.forall₂_map_left_iff, List.forall₂_same]
      exact fun e he => loadEntry_line (hwell e he) (hstorable e he)

/-- `dns add 10.0.0.2 1 1 "r1.cl"` -/
theorem dnsSaveChanges_populateDatabase_name :
    ∃ file, dnsSaveChanges [⟨[[114, 49], [99, 108]], 1, 1, 0x0200000a⟩] = some file ∧
      populateDatabase file = some [⟨[[114, 49], [99, 108]], 1, 1, 0x0200000a⟩] := by
  have hadd : cliManipDnsAdd ⟨0x0200000a, [114, 49, 46, 99, 108], 1, 1⟩ [] =
      [⟨[[114, 49], [99, 108]], 1, 1, 0x0200000a⟩] := by decide +kernel
  have hstep : DnsStep [] (.add ⟨0x0200000a, 1, 1, [114, 49, 46, 99, 108], []⟩)
      (cliManipDnsAdd ⟨0x0200000a, [114, 49, 46, 99, 108], 1, 1⟩ []) :=
    DnsStep.add (Or.inr (by decide)) rfl
  rw [hadd] at hstep
  refine (dnsSaveChanges_populateDatabase_iff (Exec.nil.snoc hstep)).2 ⟨by decide, fun e he => ?_⟩
  rw [List.mem_singleton.1 he]
  exact ⟨by decide, by decide, by decide +kernel⟩

/-- `dns add 10.0.0.2 1 1 "a b"`: the file is written, but its line has one token too many and the
address read from it no newline. -/
theorem populateDatabase_space_undefined :
    Exec DnsStep [] [.add ⟨0x0200000a, 1, 1, [97, 32, 98], []⟩]
        [⟨[[97, 32, 98]], 1, 1, 0x0200000a⟩] ∧
      ∃ file, dnsSaveChanges [⟨[[97, 32, 98]], 1, 1, 0x0200000a⟩] = some file ∧
        populateDatabase file = none := by
  have hadd : cliManipDnsAdd ⟨0x0200000a, [97, 32, 98, 0], 1, 1⟩ [] =
      [⟨[[97, 32, 98]], 1, 1, 0x0200000a⟩] := by decide +kernel
  have hstep : DnsStep [] (.add ⟨0x0200000a, 1, 1, [97, 32, 98], []⟩)
      (cliManipDnsAdd ⟨0x0200000a, [97, 32, 98, 0], 1, 1⟩ []) :=
    DnsStep.add (Or.inr (by decide)) rfl
  rw [hadd] at hstep
  exact ⟨Exec.nil.snoc hstep,
    [97, 32, 98, 32, 49, 32, 49, 32, 49, 48, 46, 48, 46, 48, 46, 50, 10],
    by decide +kernel, by decide +kernel⟩

end BirRouter
