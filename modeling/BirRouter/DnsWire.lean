import BirRouter.DnsReceive
import BirRouter.IpVerdict
import BirRouter.Lib.Labels
import Mathlib.Data.List.Forall2

/-!
# DNS names, questions and records on the wire (`dns.c`)

The parsers of `dns.c` are given an address and a count, not the length of the packet; its writers take
labels for C strings.

* `parseNames_iff`, `dnsMallocandparseQueryArray_iff` — what the parsers accept is a wire form, and they
  read it and nothing behind it;
* `questions_inside_iff` — so parsing the questions of a query stays inside the packet exactly if the
  packet holds as many complete questions as its header says, and one at least;
* `question_echo_iff` — a question is written back as it came exactly if no label holds a NUL;
* `records_roundTrip_iff` — records that are written are read back, whatever their data, only without a
  `ttl` and with data in the last one at most: of the `ttl` half is read, and the data of a record is
  not skipped.
-/

set_option autoImplicit false

namespace BirRouter

open ByteLayout Labels

/-! ## Names -/

theorem parseNames_wire : ∀ (names : List (List Byte)) (rest : List Byte) (fuel : Nat),
    (∀ l ∈ names, IsLabel l) → names.length < fuel →
    parseNames fuel (wire names ++ rest) = some (names, rest)
  | [], _, fuel + 1, _, _ => rfl
  | name :: names, rest, fuel + 1, h, hfuel => by
    have hname := h name List.mem_cons_self
    have ih := parseNames_wire names rest fuel (fun l hl => h l (List.mem_cons_of_mem _ hl))
      (Nat.lt_of_succ_lt_succ hfuel)
    have hlen : ¬ (name ++ (wire names ++ rest)).length < name.length := by
      rw [List.length_append]
      omega
    rw [wire_cons_append, parseNames, if_neg hname.length_ne_zero, hname.toNat_length, if_neg hlen,
      List.drop_left, List.take_left, ih]
    rfl

theorem wire_of_parseNames : ∀ {fuel : Nat} {address rest : List Byte} {names : List (List Byte)},
    parseNames fuel address = some (names, rest) →
    address = wire names ++ rest ∧ ∀ l ∈ names, IsLabel l
  | 0, _, _, _, h => nomatch h
  | _ + 1, [], _, _, h => nomatch h
  | fuel + 1, char_size :: address, rest, names, h => by
    rw [parseNames] at h
    split at h
    · rename_i hzero
      cases h
      rw [hzero]
      exact ⟨rfl, fun _ hl => absurd hl List.not_mem_nil⟩
    · rename_i hzero
      split at h
      · cases h
      · rename_i hlong
        -- a label of as many bytes as its length says, and the labels behind it
        obtain ⟨⟨names, rest⟩, htail, heq⟩ := Option.map_eq_some_iff.1 h
        cases heq
        obtain ⟨hwire, hlabels⟩ := wire_of_parseNames htail
        have hlen : (address.take char_size.toNat).length = char_size.toNat := by
          rw [List.length_take]
          omega
        have hpos : 1 ≤ char_size.toNat :=
          Nat.pos_of_ne_zero fun h0 => hzero (BitVec.eq_of_toNat_eq h0)
        have h255 := char_size.isLt
        refine ⟨?_, List.forall_mem_cons.2 ⟨⟨by omega, by omega⟩, hlabels⟩⟩
        rw [wire_cons_append, hlen, ← hwire, List.take_append_drop, BitVec.ofNat_toNat,
          BitVec.setWidth_eq]

/-- **The parser of names** accepts the wire forms of lists of labels. -/
theorem parseNames_iff {address rest : List Byte} {names : List (List Byte)} :
    parseNames address.length address = some (names, rest) ↔
      address = wire names ++ rest ∧ ∀ l ∈ names, IsLabel l := by
  constructor
  · exact wire_of_parseNames
  · rintro ⟨rfl, hlabels⟩
    refine parseNames_wire names rest _ hlabels ?_
    have := length_lt_wire names
    rw [List.length_append]
    omega

/-! ## Questions -/

theorem htons_ntohs (v : BitVec 16) : htons (ntohs v) = v := ntohs_htons v

namespace DnsQueryHo

/-- The labels are as the wire can hold them. -/
def Labelled (q : DnsQueryHo) : Prop := ∀ l ∈ q.query_names, IsLabel l

/-- A question on the wire. -/
def wire (q : DnsQueryHo) : List Byte :=
  Labels.wire q.query_names ++ (u16le.enc (htons q.qtype) ++ u16le.enc (htons q.qclass))

end DnsQueryHo

/-- The words behind the names of a question. -/
def queryWords : Layout (BitVec 16 × BitVec 16) := u16le.seq u16le

/-- One round of `dns_mallocandparse_query_array`. -/
theorem dnsMallocandparseQueryArray_wire {q : DnsQueryHo} (hq : q.Labelled) (rest : List Byte)
    (size : Nat) : dnsMallocandparseQueryArray (q.wire ++ rest) (size + 1) =
      (dnsMallocandparseQueryArray rest size).map (q :: ·) := by
  have hnames := parseNames_iff.2 ⟨List.append_assoc (wire q.query_names)
    (queryWords.enc (htons q.qtype, htons q.qclass)) rest, hq⟩
  have hlen : (queryWords.enc (htons q.qtype, htons q.qclass)).length = 4 := queryWords.enc_length _
  have hlong : ¬ (queryWords.enc (htons q.qtype, htons q.qclass) ++ rest).length < 4 := by
    rw [List.length_append]
    omega
  have hwords : (u16le.load 0 (queryWords.enc (htons q.qtype, htons q.qclass) ++ rest),
      u16le.load 2 (queryWords.enc (htons q.qtype, htons q.qclass) ++ rest)) =
      (htons q.qtype, htons q.qclass) := queryWords.dec_append _ rest
  obtain ⟨htype, hclass⟩ := Prod.mk.inj hwords
  rw [dnsMallocandparseQueryArray, show q.wire = wire q.query_names ++
    queryWords.enc (htons q.qtype, htons q.qclass) from rfl, hnames]
  simp only [if_neg hlong, htype, hclass, ntohs_htons, List.drop_left' hlen]

theorem wire_of_dnsMallocandparseQueryArray {address : List Byte} {size : Nat}
    {questions : List DnsQueryHo}
    (h : dnsMallocandparseQueryArray address (size + 1) = some questions) :
    ∃ q qs rest, questions = q :: qs ∧ q.Labelled ∧ address = q.wire ++ rest ∧
      dnsMallocandparseQueryArray rest size = some qs := by
  rw [dnsMallocandparseQueryArray] at h
  cases hnames : parseNames address.length address with
  | none =>
    rw [hnames] at h
    cases h
  | some p =>
    obtain ⟨names, rest⟩ := p
    obtain ⟨haddress, hlabels⟩ := parseNames_iff.1 hnames
    simp only [hnames] at h
    split at h
    · cases h
    · rename_i hlong
      obtain ⟨qs, htail, rfl⟩ := Option.map_eq_some_iff.1 h
      have henc : u16le.enc (u16le.load 0 rest) ++ u16le.enc (u16le.load 2 rest) = rest.take 4 :=
        queryWords.enc_dec rest (Nat.le_of_not_lt hlong)
      refine ⟨_, qs, rest.drop 4, rfl, hlabels, ?_, htail⟩
      rw [haddress, DnsQueryHo.wire, htons_ntohs, htons_ntohs, henc, List.append_assoc,
        List.take_append_drop]

/-- **The parser of questions** reads as many as it is told, and reads them from their wire form. -/
theorem dnsMallocandparseQueryArray_iff : ∀ {size : Nat} {address : List Byte}
    {questions : List DnsQueryHo}, dnsMallocandparseQueryArray address size = some questions ↔
      questions.length = size ∧ (∀ q ∈ questions, q.Labelled) ∧
        questions.flatMap DnsQueryHo.wire <+: address
  | 0, address, questions => by
    rw [dnsMallocandparseQueryArray]
    constructor
    · intro h
      cases h
      exact ⟨rfl, fun _ hq => absurd hq List.not_mem_nil, List.nil_prefix⟩
    · rintro ⟨hnil, _⟩
      rw [List.length_eq_zero_iff.1 hnil]
  | size + 1, address, questions => by
    constructor
    · intro h
      obtain ⟨q, qs, rest, rfl, hq, rfl, htail⟩ := wire_of_dnsMallocandparseQueryArray h
      obtain ⟨hlen, hqs, hprefix⟩ := dnsMallocandparseQueryArray_iff.1 htail
      refine ⟨by rw [List.length_cons, hlen], List.forall_mem_cons.2 ⟨hq, hqs⟩, ?_⟩
      rw [List.flatMap_cons]
      exact (List.prefix_append_right_inj _).2 hprefix
    · rintro ⟨hlen, hqs, hprefix⟩
      obtain ⟨q, qs, rfl⟩ := List.exists_cons_of_length_eq_add_one hlen
      obtain ⟨hq, hqs⟩ := List.forall_mem_cons.1 hqs
      rw [List.flatMap_cons] at hprefix
      obtain ⟨tail, rfl⟩ := hprefix
      have ih : dnsMallocandparseQueryArray (qs.flatMap DnsQueryHo.wire ++ tail) size = some qs :=
        dnsMallocandparseQueryArray_iff.2 ⟨Nat.succ.inj hlen, hqs, List.prefix_append _ _⟩
      rw [List.append_assoc, dnsMallocandparseQueryArray_wire hq, ih]
      rfl

/-! ## The questions of a packet -/

def PacketInfo.dns (pi : PacketInfo) : PacketDns := PacketDns.layout.load 42 pi.packet

def PacketInfo.totalquestions (pi : PacketInfo) : Nat := (ntohs pi.dns.totalquestions).toNat

/-- The parser reads bytes of the frame only, and the question that `handle_question` is given is one
it read there, whatever the memory behind the frame and the unset array hold. -/
def QuestionsInside (env : Env) (d : DnsEnv) (pi : PacketInfo) : Prop :=
  ∃ parsed, dnsMallocandparseQueryArray (pi.packet.drop 54) pi.totalquestions = some parsed ∧
    ∀ questions, dnsMallocandparseQueryArray ((pi.memory env d.readable).drop 54)
      pi.totalquestions = some questions → ∃ q ∈ parsed, dnsQuestion d questions = some q

/-- Behind the DNS header the memory starts with the rest of the frame. -/
theorem memory_drop_dns (env : Env) {pi : PacketInfo} (h : 54 ≤ pi.packet.length) (n : Nat) :
    (pi.memory env n).drop 54 = pi.packet.drop 54 ++ (List.range n).map env.beyond :=
  List.drop_append_of_le_length h

/-- What is parsed in the frame is parsed in the memory. -/
theorem dnsMallocandparseQueryArray_append {address : List Byte} {size : Nat}
    {questions : List DnsQueryHo} (h : dnsMallocandparseQueryArray address size = some questions)
    (tail : List Byte) : dnsMallocandparseQueryArray (address ++ tail) size = some questions := by
  obtain ⟨hlen, hlabelled, hprefix⟩ := dnsMallocandparseQueryArray_iff.1 h
  exact dnsMallocandparseQueryArray_iff.2
    ⟨hlen, hlabelled, hprefix.trans (List.prefix_append _ _)⟩

/-- **Parsing stays inside the packet** exactly if the packet has a question, and holds as many complete
questions as its header says. -/
theorem questions_inside_iff (env : Env) (d : DnsEnv) (r : Router) (pi : PacketInfo)
    (h : DnsQuery env r pi) :
    QuestionsInside env d pi ↔ 1 ≤ pi.totalquestions ∧ ∃ qs : List DnsQueryHo,
      qs.length = pi.totalquestions ∧ (∀ q ∈ qs, q.Labelled) ∧
      qs.flatMap DnsQueryHo.wire <+: pi.packet.drop 54 := by
  simp only [← dnsMallocandparseQueryArray_iff]
  constructor
  · rintro ⟨parsed, hparsed, hgiven⟩
    refine ⟨?_, parsed, hparsed⟩
    have hmemory := dnsMallocandparseQueryArray_append hparsed ((List.range d.readable).map env.beyond)
    rw [← memory_drop_dns env h.dns_fits] at hmemory
    obtain ⟨q, hq, _⟩ := hgiven parsed hmemory
    rw [← (dnsMallocandparseQueryArray_iff.1 hparsed).1]
    exact List.length_pos_of_mem hq
  · rintro ⟨hpos, qs, hqs⟩
    refine ⟨qs, hqs, fun questions hquestions => ?_⟩
    rw [memory_drop_dns env h.dns_fits, dnsMallocandparseQueryArray_append hqs] at hquestions
    cases hquestions
    rw [← (dnsMallocandparseQueryArray_iff.1 hqs).1] at hpos
    obtain ⟨q, tail, rfl⟩ := List.exists_cons_of_length_pos hpos
    exact ⟨q, List.mem_cons_self, rfl⟩

/-- A DNS query from 192.168.1.7 to the router. -/
def dnsSample (totalquestions : BitVec 16) (sections : List Byte) : PacketInfo :=
  .ofParts ⟨smallEth1.mac, ⟨2, 0, 0, 0, 0, 9⟩, htons ethIpType⟩
    (PacketIp4.updateChecksum ⟨5, 4, 0, htons 40, 7, 0, 64, 17, 0, ipConvert 192 168 1 7,
      ipConvert 192 168 1 1⟩)
    (PacketUdp.layout.enc ⟨htons 9, htons 53, htons 20, 0⟩ ++
      (PacketDns.layout.enc ⟨7, 0, 0, htons totalquestions, 0, 0, 0⟩ ++ sections)) 1

/-- A query without a question, and one with a label that is cut off. -/
theorem questions_inside_truncated :
    (DnsQuery smallEnv smallRouter (dnsSample 0 []) ∧ (dnsSample 0 []).dns.qr = false ∧
      ¬ QuestionsInside smallEnv noDns (dnsSample 0 [])) ∧
    (DnsQuery smallEnv smallRouter (dnsSample 1 [63]) ∧ (dnsSample 1 [63]).dns.qr = false ∧
      ¬ QuestionsInside smallEnv noDns (dnsSample 1 [63])) := by
  refine ⟨⟨ipVerdict_dns_iff.1 (by decide +kernel), by decide +kernel, ?_⟩,
    ⟨ipVerdict_dns_iff.1 (by decide +kernel), by decide +kernel, ?_⟩⟩
  · rintro ⟨parsed, hparsed, hgiven⟩
    have hnone : (dnsSample 0 []).totalquestions = 0 := by decide +kernel
    rw [hnone, dnsMallocandparseQueryArray] at hparsed hgiven
    cases hparsed
    obtain ⟨q, hq, _⟩ := hgiven [] rfl
    exact absurd hq List.not_mem_nil
  · rintro ⟨parsed, hparsed, _⟩
    have hnone : (dnsMallocandparseQueryArray ((dnsSample 1 [63]).packet.drop 54)
        (dnsSample 1 [63]).totalquestions).isSome = false := by decide +kernel
    rw [hparsed] at hnone
    cases hnone

/-- A question for the address of `ab`. -/
def plainQuestion : DnsQueryHo := ⟨[[97, 98]], dnsTypeA, dnsClassIn⟩

theorem plainQuestion_labelled : plainQuestion.Labelled := by
  unfold DnsQueryHo.Labelled
  decide

theorem questions_inside_plain : QuestionsInside smallEnv noDns (dnsSample 1 plainQuestion.wire) := by
  refine (questions_inside_iff smallEnv noDns smallRouter _
    (ipVerdict_dns_iff.1 (by decide +kernel))).2
    ⟨by decide +kernel, [plainQuestion], by decide +kernel, ?_, by decide +kernel⟩
  exact List.forall_mem_singleton.2 plainQuestion_labelled

/-! ## The question of an answer -/

theorem encodeDnsString_eq_wire (names : List (List Byte)) :
    encodeDnsString names = wire (names.map cstr) := by
  rw [wire_eq_flatMap, List.flatMap_map]
  rfl

theorem cstr_eq_self_iff {buffer : List Byte} : cstr buffer = buffer ↔ 0 ∉ buffer := by
  rw [cstr, List.takeWhile_eq_self_iff]
  constructor
  · intro h hmem
    exact absurd (h 0 hmem) (by decide)
  · intro h b hb
    exact decide_eq_true fun h0 => h (h0 ▸ hb)

theorem cstr_length_le (buffer : List Byte) : (cstr buffer).length ≤ buffer.length :=
  (List.takeWhile_prefix _).length_le

theorem map_cstr_eq_self_iff {names : List (List Byte)} :
    names.map cstr = names ↔ ∀ l ∈ names, 0 ∉ l := by
  have hid : names = names.map id := (List.map_id names).symm
  rw [hid, List.map_map, List.map_inj_left, ← hid]
  exact forall₂_congr fun l _ => cstr_eq_self_iff

/-- A question with the strings that are in the buffers of its labels. -/
def DnsQueryHo.strings (q : DnsQueryHo) : DnsQueryHo :=
  { q with query_names := q.query_names.map cstr }

/-- The assertion at the end of `dns_answer_add_query_to_end` holds, and what it adds is the question
as strings. -/
theorem dnsAnswerAddQueryToEnd_eq (answer : DnsAnswer) (q : DnsQueryHo) :
    dnsAnswerAddQueryToEnd answer q = some
      { header := { answer.header with
          totalquestions := htons (ntohs answer.header.totalquestions + 1) }
        sections := answer.sections ++ q.strings.wire } := by
  rw [dnsAnswerAddQueryToEnd]
  simp only [if_pos (encodeDnsString_length q.query_names)]
  rw [encodeDnsString_eq_wire, List.append_assoc, List.append_assoc]
  rfl

theorem strings_wire_iff {q : DnsQueryHo} (hq : q.Labelled) :
    q.strings.wire = q.wire ↔ ∀ l ∈ q.query_names, 0 ∉ l := by
  rw [← map_cstr_eq_self_iff]
  constructor
  · intro h
    refine wire_inj (List.length_map _) ?_ (fun l hl => (hq l hl).2) (List.append_cancel_right h)
    intro l hl
    obtain ⟨name, hname, rfl⟩ := List.mem_map.1 hl
    exact (cstr_length_le name).trans (hq name hname).2
  · intro h
    rw [DnsQueryHo.strings, h]

/-- **A question is echoed exactly** if no label of it holds a NUL.  The question is the one that the
parser finds first, with whatever it reads behind it. -/
theorem question_echo_iff (env : Env) (d : DnsEnv) (pi : PacketInfo) (q : DnsQueryHo)
    (rest : List Byte) (hq : q.Labelled) (hfirst : pi.packet.drop 54 = q.wire ++ rest)
    (hpos : 1 ≤ pi.totalquestions) :
    (∀ questions, dnsMallocandparseQueryArray ((pi.memory env d.readable).drop 54)
      pi.totalquestions = some questions → dnsQuestion d questions = some q) ∧
    ((dnsAnswerAddQueryToEnd (dnsMallocAnswer pi.dns.id) q).map DnsAnswer.sections = some q.wire ↔
      ∀ l ∈ q.query_names, 0 ∉ l) := by
  constructor
  · intro questions hquestions
    have hfits : 54 ≤ pi.packet.length := by
      have hwire := length_lt_wire q.query_names
      have hlen := congrArg List.length hfirst
      rw [DnsQueryHo.wire, List.length_drop, List.length_append, List.length_append] at hlen
      omega
    obtain ⟨n, hn⟩ := Nat.exists_eq_add_of_le' hpos
    rw [memory_drop_dns env hfits, hfirst, List.append_assoc, hn,
      dnsMallocandparseQueryArray_wire hq] at hquestions
    obtain ⟨qs, _, rfl⟩ := Option.map_eq_some_iff.1 hquestions
    rfl
  · rw [dnsAnswerAddQueryToEnd_eq, Option.map_some, Option.some_inj]
    exact strings_wire_iff hq

/-- A question with the one label `[97, 0, 98]`. -/
def nulQuestion : DnsQueryHo := ⟨[[97, 0, 98]], dnsTypeA, dnsClassIn⟩

theorem question_echo_nul :
    nulQuestion.Labelled ∧ (dnsSample 1 nulQuestion.wire).packet.drop 54 = nulQuestion.wire ++ [] ∧
      1 ≤ (dnsSample 1 nulQuestion.wire).totalquestions ∧
      (dnsAnswerAddQueryToEnd (dnsMallocAnswer (dnsSample 1 nulQuestion.wire).dns.id)
        nulQuestion).map DnsAnswer.sections ≠ some nulQuestion.wire := by
  refine ⟨by unfold DnsQueryHo.Labelled; decide, by decide +kernel, by decide +kernel,
    by decide +kernel⟩

theorem question_echo_plain :
    (dnsAnswerAddQueryToEnd (dnsMallocAnswer (dnsSample 1 plainQuestion.wire).dns.id)
      plainQuestion).map DnsAnswer.sections = some plainQuestion.wire :=
  (question_echo_iff smallEnv noDns (dnsSample 1 plainQuestion.wire) plainQuestion []
    plainQuestion_labelled (by decide +kernel) (by decide +kernel)).2.2 (by decide)

/-! ## Resource records -/

/-- `dns_resource_basic_final_entry_t`: the words of a record behind its name. -/
structure DnsResourceEntry where
  type : BitVec 16
  class_ : BitVec 16
  ttl : BitVec 32
  length : BitVec 16
  deriving DecidableEq, Repr

def DnsResourceEntry.layout : Layout DnsResourceEntry :=
  (u16le.seq (u16le.seq (u32le.seq u16le))).iso (fun (t, c, l, n) => ⟨t, c, l, n⟩)
    (fun e => (e.type, e.class_, e.ttl, e.length)) (fun _ => rfl) (fun _ => rfl)

/-- `dns_cache_entry_t`; `rdata` points to the memory behind the record. -/
structure DnsCacheEntry where
  names : List (List Byte)
  type : BitVec 16
  class_ : BitVec 16
  ttl : BitVec 32
  length : BitVec 16
  rdata : List Byte
  deriving DecidableEq, Repr

/-- What the parser makes of the words of a record.  `ntohs` of the 32-bit `ttl` looks at its low half
only. -/
def DnsResourceEntry.entry (e : DnsResourceEntry) (names : List (List Byte)) (rdata : List Byte) :
    DnsCacheEntry where
  names := names
  type := ntohs e.type
  class_ := ntohs e.class_
  ttl := (ntohs (e.ttl.setWidth 16)).setWidth 32
  length := ntohs e.length
  rdata := rdata

/-- `dns_mallocandparse_other_array`.  The data of a record is not skipped. -/
def dnsMallocandparseOtherArray : List Byte → Nat → Option (List DnsCacheEntry)
  | _, 0 => some []
  | address, size + 1 =>
    match parseNames address.length address with
    | none => none
    | some (names, rest) =>
      if rest.length < 10 then none
      else
        let curr := (DnsResourceEntry.layout.load 0 rest).entry names (rest.drop 10)
        (dnsMallocandparseOtherArray (rest.drop 10) size).map (curr :: ·)

/-- A resource record. -/
structure DnsResource where
  names : List (List Byte)
  type : BitVec 16
  class_ : BitVec 16
  ttl : BitVec 32
  data : List Byte

namespace DnsResource

/-- The words behind the name. -/
def middle (rec : DnsResource) : DnsResourceEntry :=
  ⟨htons rec.type, htons rec.class_, htonl rec.ttl, htons (BitVec.ofNat 16 rec.data.length)⟩

/-- A record on the wire. -/
def wire (rec : DnsResource) : List Byte :=
  Labels.wire rec.names ++ (DnsResourceEntry.layout.enc rec.middle ++ rec.data)

/-- A record with the strings that are in the buffers of its labels. -/
def strings (rec : DnsResource) : DnsResource := { rec with names := rec.names.map cstr }

end DnsResource

/-- The assertion behind `dns_answer_add_generic_answer_to_end` holds if the size of the data fits its
word; what is added is the record as strings. -/
theorem dnsAnswerAddGenericAnswerToEnd_eq (answer : DnsAnswer) (rec : DnsResource)
    (h : rec.data.length < 65536) :
    dnsAnswerAddGenericAnswerToEnd answer rec.names rec.ttl rec.type rec.class_
      (BitVec.ofNat 16 rec.data.length) rec.data = some
      { header := { answer.header with
          totalanswerrrs := htons (ntohs answer.header.totalanswerrrs + 1) }
        sections := answer.sections ++ rec.strings.wire } := by
  have hdata : (BitVec.ofNat 16 rec.data.length).toNat = rec.data.length := by
    rw [BitVec.toNat_ofNat]
    omega
  rw [dnsAnswerAddGenericAnswerToEnd]
  simp only [encodeDnsString_length, hdata, if_true]
  rw [encodeDnsString_eq_wire]
  simp only [List.append_assoc]
  rfl

/-- A record with labels that are strings on the wire and data whose size fits its word. -/
structure DnsRecord extends DnsResource where
  labels : ∀ l ∈ names, IsLabel l ∧ 0 ∉ l
  data_fits : data.length < 65536

theorem DnsRecord.strings_eq (rec : DnsRecord) : rec.strings = rec.toDnsResource := by
  rw [DnsResource.strings, map_cstr_eq_self_iff.2 fun l hl => (rec.labels l hl).2]

/-- Successive calls of `dns_answer_add_generic_answer_to_end`, with the data filled in. -/
def addRecords : DnsAnswer → List DnsRecord → Option DnsAnswer
  | answer, [] => some answer
  | answer, rec :: records =>
    (dnsAnswerAddGenericAnswerToEnd answer rec.names rec.ttl rec.type rec.class_
      (BitVec.ofNat 16 rec.data.length) rec.data).bind (addRecords · records)

/-- The bytes of a list of records. -/
def recordBytes (records : List DnsRecord) : List Byte := records.flatMap fun rec => rec.wire

theorem recordBytes_cons (rec : DnsRecord) (records : List DnsRecord) :
    recordBytes (rec :: records) = rec.wire ++ recordBytes records := List.flatMap_cons

theorem addRecords_eq : ∀ (records : List DnsRecord) (answer : DnsAnswer),
    ∃ answer', addRecords answer records = some answer' ∧
      answer'.sections = answer.sections ++ recordBytes records
  | [], answer => ⟨answer, rfl, (List.append_nil _).symm⟩
  | rec :: records, answer => by
    obtain ⟨answer', hadd, hsections⟩ := addRecords_eq records
      { header := { answer.header with
          totalanswerrrs := htons (ntohs answer.header.totalanswerrrs + 1) }
        sections := answer.sections ++ rec.wire }
    refine ⟨answer', ?_, ?_⟩
    · rw [addRecords, dnsAnswerAddGenericAnswerToEnd_eq answer rec.toDnsResource rec.data_fits,
        rec.strings_eq]
      exact hadd
    · rw [hsections, recordBytes_cons, List.append_assoc]

/-- One round of `dns_mallocandparse_other_array`. -/
theorem dnsMallocandparseOtherArray_wire {names : List (List Byte)} (hnames : ∀ l ∈ names, IsLabel l)
    (e : DnsResourceEntry) (rest : List Byte) (size : Nat) :
    dnsMallocandparseOtherArray (wire names ++ (DnsResourceEntry.layout.enc e ++ rest)) (size + 1) =
      (dnsMallocandparseOtherArray rest size).map (e.entry names rest :: ·) := by
  have hlen : (DnsResourceEntry.layout.enc e).length = 10 := DnsResourceEntry.layout.enc_length e
  have hdrop : (DnsResourceEntry.layout.enc e ++ rest).drop 10 = rest := List.drop_left' hlen
  have hlong : ¬ (DnsResourceEntry.layout.enc e ++ rest).length < 10 := by
    rw [List.length_append]
    omega
  rw [dnsMallocandparseOtherArray, parseNames_iff.2 ⟨rfl, hnames⟩]
  simp only [if_neg hlong, hdrop, Layout.load, List.drop_zero, DnsResourceEntry.layout.dec_append]

theorem wire_of_dnsMallocandparseOtherArray {address : List Byte} {size : Nat}
    {entries : List DnsCacheEntry}
    (h : dnsMallocandparseOtherArray address (size + 1) = some entries) :
    ∃ names e rest es, address = wire names ++ (DnsResourceEntry.layout.enc e ++ rest) ∧
      entries = e.entry names rest :: es ∧ (∀ l ∈ names, IsLabel l) ∧
      dnsMallocandparseOtherArray rest size = some es := by
  rw [dnsMallocandparseOtherArray] at h
  cases hnames : parseNames address.length address with
  | none =>
    rw [hnames] at h
    cases h
  | some p =>
    obtain ⟨names, rest⟩ := p
    obtain ⟨haddress, hlabels⟩ := parseNames_iff.1 hnames
    simp only [hnames] at h
    split at h
    · cases h
    · rename_i hlong
      obtain ⟨es, htail, rfl⟩ := Option.map_eq_some_iff.1 h
      have henc : DnsResourceEntry.layout.enc (DnsResourceEntry.layout.load 0 rest) = rest.take 10 :=
        DnsResourceEntry.layout.enc_dec _ (Nat.le_of_not_lt hlong)
      refine ⟨names, DnsResourceEntry.layout.load 0 rest, rest.drop 10, es, ?_, rfl, hlabels, htail⟩
      rw [henc, List.take_append_drop, haddress]

/-- A parsed entry is the record: its fields, and the data that `rdata` points to. -/
structure DnsCacheEntry.Is (entry : DnsCacheEntry) (rec : DnsRecord) : Prop where
  names : entry.names = rec.names
  type : entry.type = rec.type
  class_ : entry.class_ = rec.class_
  ttl : entry.ttl = rec.ttl
  length : entry.length.toNat = rec.data.length
  rdata : rec.data <+: entry.rdata

/-- Parsing as many entries as there are records yields the records. -/
def RoundTrips (address : List Byte) (records : List DnsRecord) : Prop :=
  ∃ entries, dnsMallocandparseOtherArray address records.length = some entries ∧
    List.Forall₂ DnsCacheEntry.Is entries records

/-- The bytes start with a record as the parser reads it: the `ttl` is what stands in the first two
bytes of its word, and what follows the words starts with the data and is where the next record is
looked for. -/
def Overlaid : List Byte → List DnsRecord → Prop
  | _, [] => True
  | address, rec :: records => ∃ e rest,
      address = wire rec.names ++ (DnsResourceEntry.layout.enc e ++ rest) ∧
      (e.type = htons rec.type ∧ e.class_ = htons rec.class_ ∧
        (ntohs (e.ttl.setWidth 16)).toNat = rec.ttl.toNat ∧
        e.length = htons (BitVec.ofNat 16 rec.data.length)) ∧
      rec.data <+: rest ∧ Overlaid rest records

theorem ntohs_eq_iff {v w : BitVec 16} : ntohs v = w ↔ v = htons w := by
  constructor
  · rintro rfl
    exact (htons_ntohs v).symm
  · rintro rfl
    exact ntohs_htons w

theorem entry_is_iff (e : DnsResourceEntry) (names : List (List Byte)) (rest : List Byte)
    (rec : DnsRecord) : (e.entry names rest).Is rec ↔ names = rec.names ∧
      (e.type = htons rec.type ∧ e.class_ = htons rec.class_ ∧
        (ntohs (e.ttl.setWidth 16)).toNat = rec.ttl.toNat ∧
        e.length = htons (BitVec.ofNat 16 rec.data.length)) ∧ rec.data <+: rest := by
  have httl : (ntohs (e.ttl.setWidth 16)).setWidth 32 = rec.ttl ↔
      (ntohs (e.ttl.setWidth 16)).toNat = rec.ttl.toNat := by
    have hlt := (ntohs (e.ttl.setWidth 16)).isLt
    rw [← BitVec.toNat_inj, BitVec.toNat_setWidth, Nat.mod_eq_of_lt (by omega)]
  have hlength : (ntohs e.length).toNat = rec.data.length ↔
      e.length = htons (BitVec.ofNat 16 rec.data.length) := by
    rw [← ntohs_eq_iff, ← BitVec.toNat_inj, BitVec.toNat_ofNat, Nat.mod_eq_of_lt rec.data_fits]
  rw [← httl, ← hlength, ← ntohs_eq_iff, ← ntohs_eq_iff]
  constructor
  · exact fun h => ⟨h.names, ⟨h.type, h.class_, h.ttl, h.length⟩, h.rdata⟩
  · rintro ⟨hnames, ⟨htype, hclass, ht, hlen⟩, hdata⟩
    exact ⟨hnames, htype, hclass, ht, hlen, hdata⟩

theorem roundTrips_iff : ∀ {address : List Byte} {records : List DnsRecord},
    RoundTrips address records ↔ Overlaid address records
  | address, [] => iff_of_true ⟨[], rfl, .nil⟩ trivial
  | address, rec :: records => by
    constructor
    · rintro ⟨entries, hparse, hsame⟩
      obtain ⟨names, e, rest, es, haddress, rfl, _, htail⟩ :=
        wire_of_dnsMallocandparseOtherArray hparse
      obtain ⟨his, hrest⟩ := List.forall₂_cons.1 hsame
      obtain ⟨rfl, hfields, hdata⟩ := (entry_is_iff e names rest rec).1 his
      exact ⟨e, rest, haddress, hfields, hdata, roundTrips_iff.1 ⟨es, htail, hrest⟩⟩
    · rintro ⟨e, rest, rfl, hfields, hdata, hover⟩
      obtain ⟨es, htail, hsame⟩ := roundTrips_iff.2 hover
      refine ⟨e.entry rec.names rest :: es, ?_, List.forall₂_cons.2
        ⟨(entry_is_iff e rec.names rest rec).2 ⟨rfl, hfields, hdata⟩, hsame⟩⟩
      rw [List.length_cons, dnsMallocandparseOtherArray_wire fun l hl => (rec.labels l hl).1, htail]
      rfl

/-- The two bytes that the parser takes for the `ttl` are its upper half. -/
theorem toNat_ntohs_htonl (v : BitVec 32) :
    (ntohs ((htonl v).setWidth 16)).toNat = v.toNat / 65536 := by
  have hlow : ∀ w : BitVec 32, (ntohs (w.setWidth 16)).toNat =
      w.toNat % 256 * 256 + w.toNat / 256 % 256 := by
    intro w
    have h8 : w.toNat % 65536 / 256 = w.toNat / 256 % 256 := by omega
    unfold ntohs
    rw [toNat_append_byte, toNat_byteAt, toNat_byteAt, BitVec.toNat_setWidth, Nat.pow_zero,
      Nat.div_one]
    omega
  have hbytes : ∀ b : BitVec 16, ∀ c d : Byte, (b ++ c ++ d : BitVec 32).toNat % 256 = d.toNat ∧
      (b ++ c ++ d : BitVec 32).toNat / 256 % 256 = c.toNat := by
    intro b c d
    have hc := c.isLt
    have hd := d.isLt
    rw [toNat_append_byte, toNat_append_byte]
    omega
  have hv := v.isLt
  have hq : v.toNat / 65536 / 256 = v.toNat / 16777216 := Nat.div_div_eq_div_mul _ _ _
  obtain ⟨h0, h1⟩ := hbytes (v.extractLsb' 0 8 ++ v.extractLsb' 8 8) (v.extractLsb' 16 8)
    (v.extractLsb' 24 8)
  rw [hlow, htonl, ntohl, h0, h1, toNat_byteAt, toNat_byteAt]
  omega

/-- The first record is read from its own bytes, so its `ttl` has to be the upper half of itself; the
others are looked for from the data of the first one on. -/
theorem overlaid_wire (rec : DnsRecord) (records : List DnsRecord) (rest : List Byte) :
    Overlaid (rec.wire ++ rest) (rec :: records) ↔
      rec.ttl = 0 ∧ Overlaid (rec.data ++ rest) records := by
  have hwire : rec.wire ++ rest =
      wire rec.names ++ (DnsResourceEntry.layout.enc rec.middle ++ (rec.data ++ rest)) := by
    rw [DnsResource.wire, List.append_assoc, List.append_assoc]
  have httl : (ntohs (rec.middle.ttl.setWidth 16)).toNat = rec.ttl.toNat ↔ rec.ttl = 0 := by
    have hz : (0 : BitVec 32).toNat = 0 := rfl
    rw [DnsResource.middle, toNat_ntohs_htonl, ← BitVec.toNat_inj, hz]
    omega
  constructor
  · rintro ⟨e, rest', haddress, ⟨_, _, ht, _⟩, _, hover⟩
    rw [hwire] at haddress
    have hlen : (DnsResourceEntry.layout.enc rec.middle).length =
        (DnsResourceEntry.layout.enc e).length := by
      rw [Layout.enc_length, Layout.enc_length]
    obtain ⟨henc, rfl⟩ := List.append_inj (List.append_cancel_left haddress) hlen
    obtain rfl := DnsResourceEntry.layout.enc_injective henc
    exact ⟨httl.1 ht, hover⟩
  · rintro ⟨h0, hover⟩
    exact ⟨rec.middle, rec.data ++ rest, hwire, ⟨rfl, rfl, httl.2 h0, rfl⟩,
      List.prefix_append _ _, hover⟩

/-- Two records that differ in the bytes of their data only. -/
structure DnsRecord.SameShape (rec rec' : DnsRecord) : Prop where
  names : rec'.names = rec.names
  type : rec'.type = rec.type
  class_ : rec'.class_ = rec.class_
  ttl : rec'.ttl = rec.ttl
  length : rec'.data.length = rec.data.length

theorem DnsRecord.sameShape_refl (rec : DnsRecord) : rec.SameShape rec := ⟨rfl, rfl, rfl, rfl, rfl⟩

/-- The record with another first byte of data. -/
theorem DnsRecord.exists_head_ne (rec : DnsRecord) (hdata : rec.data ≠ []) (b : Byte) :
    ∃ rec' : DnsRecord, rec.SameShape rec' ∧ ∃ c data, rec'.data = c :: data ∧ c ≠ b := by
  obtain ⟨c, data, hrec⟩ := List.exists_cons_of_ne_nil hdata
  have hlength : ((b + 1) :: data).length = rec.data.length := by rw [hrec]; rfl
  have hfits : ((b + 1) :: data).length < 65536 := hlength ▸ rec.data_fits
  refine ⟨{ rec with data := (b + 1) :: data, data_fits := hfits }, ⟨rfl, rfl, rfl, rfl, hlength⟩,
    b + 1, data, rfl, ?_⟩
  bv_omega

/-- Bytes that start otherwise than a name do not hold a record of that name. -/
theorem not_overlaid_of_head_ne {rec : DnsRecord} {records : List DnsRecord} {b c : Byte}
    {name address : List Byte} (hname : wire rec.names = b :: name) (hne : c ≠ b) :
    ¬ Overlaid (c :: address) (rec :: records) := by
  rintro ⟨e, rest, haddress, _⟩
  rw [hname, List.cons_append] at haddress
  exact hne (List.cons.inj haddress).1

/-- **Whatever the data is**, the parser finds the records exactly if no `ttl` is set and none but
the last has data: each is looked for where the data of the one before it begins. -/
theorem overlaid_sameShape_iff (tail : List Byte) : ∀ records : List DnsRecord,
    (∀ records', List.Forall₂ DnsRecord.SameShape records records' →
      Overlaid (recordBytes records' ++ tail) records') ↔
    (∀ rec ∈ records, rec.ttl = 0) ∧ ∀ rec ∈ records.dropLast, rec.data = []
  | [] => by
    refine iff_of_true (fun records' h => ?_) ⟨nofun, nofun⟩
    cases h
    trivial
  | [rec] => by
    rw [List.forall_mem_singleton, List.dropLast_singleton]
    constructor
    · intro h
      have hone := h [rec] (.cons rec.sameShape_refl .nil)
      rw [recordBytes_cons, List.append_assoc, overlaid_wire] at hone
      exact ⟨hone.1, nofun⟩
    · rintro ⟨httl, _⟩ _ (_ | ⟨hshape, _ | _⟩)
      rw [recordBytes_cons, List.append_assoc, overlaid_wire]
      exact ⟨hshape.ttl.trans httl, trivial⟩
  | rec :: next :: records => by
    have ih := overlaid_sameShape_iff tail (next :: records)
    have hself : List.Forall₂ DnsRecord.SameShape (next :: records) (next :: records) :=
      List.forall₂_same.2 fun rec _ => rec.sameShape_refl
    rw [List.dropLast_cons_cons, List.forall_mem_cons (a := rec), List.forall_mem_cons (a := rec)]
    constructor
    · intro h
      have hcons : ∀ rec' records', rec.SameShape rec' →
          List.Forall₂ DnsRecord.SameShape (next :: records) records' →
          rec'.ttl = 0 ∧ Overlaid (rec'.data ++ (recordBytes records' ++ tail)) records' := by
        intro rec' records' hshape hshapes
        have hover := h (rec' :: records') (.cons hshape hshapes)
        rwa [recordBytes_cons, List.append_assoc, overlaid_wire] at hover
      obtain ⟨b, name, hname⟩ := List.exists_cons_of_ne_nil (wire_ne_nil next.names)
      -- data that does not begin like the next name is not read as the next record
      have hdata : rec.data = [] := by
        by_contra hne
        obtain ⟨rec', hshape, c, data, hc, hcb⟩ := rec.exists_head_ne hne b
        have hover := (hcons rec' (next :: records) hshape hself).2
        rw [hc, List.cons_append] at hover
        exact not_overlaid_of_head_ne hname hcb hover
      obtain ⟨httls, hdatas⟩ := ih.1 fun records' hshapes => by
        have hover := (hcons rec records' rec.sameShape_refl hshapes).2
        rwa [hdata, List.nil_append] at hover
      exact ⟨⟨(hcons rec _ rec.sameShape_refl hself).1, httls⟩, hdata, hdatas⟩
    · rintro ⟨⟨httl, httls⟩, hdata, hdatas⟩ _ (_ | ⟨hshape, hshapes⟩)
      rename_i rec' records'
      have hnil : rec'.data = [] := by
        rw [← List.length_eq_zero_iff, hshape.length, hdata]
        rfl
      rw [recordBytes_cons, List.append_assoc, overlaid_wire, hnil, List.nil_append]
      exact ⟨hshape.ttl.trans httl, ih.2 ⟨httls, hdatas⟩ records' hshapes⟩

/-- **Records are read back**, whatever bytes their data has, exactly if no `ttl` is set and none but
the last has data. -/
theorem records_roundTrip_iff (id : BitVec 16) (records : List DnsRecord) (tail : List Byte) :
    (∀ records', List.Forall₂ DnsRecord.SameShape records records' →
      ∃ answer, addRecords (dnsMallocAnswer id) records' = some answer ∧
        RoundTrips (answer.sections ++ tail) records') ↔
    (∀ rec ∈ records, rec.ttl = 0) ∧ ∀ rec ∈ records.dropLast, rec.data = [] := by
  rw [← overlaid_sameShape_iff tail]
  refine forall₂_congr fun records' _ => ?_
  obtain ⟨answer, hadd, hsections⟩ := addRecords_eq records' (dnsMallocAnswer id)
  have hbytes : answer.sections = recordBytes records' := hsections
  rw [← roundTrips_iff, ← hbytes]
  constructor
  · rintro ⟨answer', hadd', htrip⟩
    cases hadd.symm.trans hadd'
    exact htrip
  · intro htrip
    exact ⟨answer, hadd, htrip⟩

/-- A record of the name `a`. -/
def addressRecord (ttl : BitVec 32) : DnsRecord where
  names := [[97]]
  type := dnsTypeA
  class_ := dnsClassIn
  ttl := ttl
  data := [10, 0, 1, 1]
  labels := by decide
  data_fits := by decide

/-- A `ttl` of a day is read as 1, and the data of one record is read as the name of the next. -/
theorem records_roundTrip_address :
    (∃ answer, addRecords (dnsMallocAnswer 7) [addressRecord dnsTtl] = some answer ∧
      ¬ RoundTrips answer.sections [addressRecord dnsTtl]) ∧
    ∃ answer, addRecords (dnsMallocAnswer 7) [addressRecord 0, addressRecord 0] = some answer ∧
      ¬ RoundTrips answer.sections [addressRecord 0, addressRecord 0] := by
  constructor
  · refine ⟨⟨⟨7, 0x80, 0, 0, htons 1, 0, 0⟩, (addressRecord dnsTtl).wire⟩, by decide +kernel, ?_⟩
    rintro ⟨entries, hparse, hsame⟩
    have hread : (dnsMallocandparseOtherArray (addressRecord dnsTtl).wire 1).map
        (List.map DnsCacheEntry.ttl) = some [1] := by decide +kernel
    cases hsame with
    | cons his htail =>
      cases htail
      rw [show dnsMallocandparseOtherArray (addressRecord dnsTtl).wire 1 = some _ from hparse,
        Option.map_some, List.map_singleton, his.ttl] at hread
      exact absurd hread (by decide)
  · refine ⟨⟨⟨7, 0x80, 0, 0, htons 2, 0, 0⟩, (addressRecord 0).wire ++ (addressRecord 0).wire⟩,
      by decide +kernel, ?_⟩
    rintro ⟨entries, hparse, _⟩
    have hread : (dnsMallocandparseOtherArray ((addressRecord 0).wire ++ (addressRecord 0).wire)
        2).isSome = false := by decide +kernel
    rw [show dnsMallocandparseOtherArray ((addressRecord 0).wire ++ (addressRecord 0).wire) 2 =
      some entries from hparse] at hread
    cases hread

end BirRouter
