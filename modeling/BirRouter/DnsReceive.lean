import BirRouter.Dns
import BirRouter.Ip
import Mathlib.Algebra.GroupWithZero.Nat

/-!
# Answering DNS queries (`dns.c`)

`dns_onreceive` reads the questions of a query, answers the first one from the database and sends the
answer back to where the query came from.

* `dnsReply` — the answer to a query, if there is one to be sent;
* `sendDnsProtoResponse` — the frame it goes back in;
* `dnsOnreceive_effect` — of the router only the frames sent change, by at most one.

Reading behind the packet finds the memory there.  Where it leaves the readable memory, where an
assertion fails and where a negative number of bytes is copied, there is no result.
-/

set_option autoImplicit false

namespace BirRouter

open ByteLayout CString

/-! ## Packets -/

/-- `packet_dns_t`; the bit fields are `flags` (`RD`, `TC`, `AA`, `Opcode`, `QR` from the lowest bit
on) and `rcodes` (`Rcode`, `CD`, `AD`, `Z`, `RA`). -/
structure PacketDns where
  id : BitVec 16
  flags : Byte
  rcodes : Byte
  totalquestions : BitVec 16
  totalanswerrrs : BitVec 16
  totalauthorityrrs : BitVec 16
  totaladditionalrrs : BitVec 16
  deriving DecidableEq, Repr

namespace PacketDns

def layout : Layout PacketDns :=
  (u16le.seq (u8.seq (u8.seq (u16le.seq (u16le.seq (u16le.seq u16le)))))).iso
    (fun (i, f, c, q, an, au, ad) => ⟨i, f, c, q, an, au, ad⟩)
    (fun d => (d.id, d.flags, d.rcodes, d.totalquestions, d.totalanswerrrs, d.totalauthorityrrs,
      d.totaladditionalrrs))
    (fun _ => rfl) (fun _ => rfl)

/-- `QR`. -/
def qr (dns : PacketDns) : Bool := dns.flags.getLsbD 7

/-- `dns->Rcode = err_code`. -/
def setRcode (dns : PacketDns) (err_code : Byte) : PacketDns :=
  { dns with rcodes := (dns.rcodes &&& 0xf0) ||| (err_code &&& 0x0f) }

end PacketDns

/-! `DNS_TYPE_*`, `DNS_CLASS_IN` and `DNS_ERROR_*`. -/

def dnsTypeA : BitVec 16 := 1
def dnsTypePtr : BitVec 16 := 12
def dnsClassIn : BitVec 16 := 1
def dnsErrorNoError : Byte := 0
def dnsErrorNameerror : Byte := 3
def dnsErrorNotimplemented : Byte := 4

/-! ## Questions -/

/-- `dns_query_ho_t`; `count` is the length of `query_names`. -/
structure DnsQueryHo where
  query_names : List (List Byte)
  qtype : BitVec 16
  qclass : BitVec 16
  deriving DecidableEq, Repr

/-- The labels up to the empty one and the memory behind it. -/
def parseNames : Nat → List Byte → Option (List (List Byte) × List Byte)
  | 0, _ => none
  | _ + 1, [] => none
  | n + 1, char_size :: address =>
    if char_size = 0 then some ([], address)
    else if address.length < char_size.toNat then none
    else
      (parseNames n (address.drop char_size.toNat)).map fun (names, rest) =>
        (address.take char_size.toNat :: names, rest)

/-- `dns_mallocandparse_query_array`; every label takes a byte at least, so `address.length` rounds are
enough for the labels of a question. -/
def dnsMallocandparseQueryArray : List Byte → Nat → Option (List DnsQueryHo)
  | _, 0 => some []
  | address, size + 1 =>
    match parseNames address.length address with
    | none => none
    | some (names, rest) =>
      if rest.length < 4 then none
      else
        let question : DnsQueryHo :=
          ⟨names, ntohs (u16le.load 0 rest), ntohs (u16le.load 2 rest)⟩
        (dnsMallocandparseQueryArray (rest.drop 4) size).map (question :: ·)

/-! ## Answers -/

/-- The string in a buffer. -/
def cstr (buffer : List Byte) : List Byte := buffer.takeWhile (· ≠ 0)

/-- What `encode_dns_string` writes. -/
def encodeDnsString (names : List (List Byte)) : List Byte :=
  (names.flatMap fun name => BitVec.ofNat 8 (cstr name).length :: cstr name) ++ [0]

def calctotalsizeofencoding (names : List (List Byte)) : Nat :=
  (names.map fun name => (cstr name).length + 1).sum + 1

theorem encodeDnsString_length (names : List (List Byte)) :
    (encodeDnsString names).length = calctotalsizeofencoding names := by
  unfold encodeDnsString calctotalsizeofencoding
  rw [List.length_append, List.length_flatMap]
  rfl

/-- `dns_answer_proto_packet_t`: the header and what follows it. -/
structure DnsAnswer where
  header : PacketDns
  sections : List Byte
  deriving DecidableEq, Repr

def DnsAnswer.totalsize (answer : DnsAnswer) : Nat := 12 + answer.sections.length

def DnsAnswer.packet (answer : DnsAnswer) : List Byte :=
  PacketDns.layout.enc answer.header ++ answer.sections

/-- `dns_malloc_answer`. -/
def dnsMallocAnswer (id : BitVec 16) : DnsAnswer := ⟨⟨id, 0x80, 0, 0, 0, 0, 0⟩, []⟩

/-- `dns_answer_add_query_to_end`, with the assertion at its end. -/
def dnsAnswerAddQueryToEnd (answer : DnsAnswer) (question : DnsQueryHo) : Option DnsAnswer :=
  let name := encodeDnsString question.query_names
  if name.length = calctotalsizeofencoding question.query_names then
    some
      { header := { answer.header with
          totalquestions := htons (ntohs answer.header.totalquestions + 1) }
        sections := answer.sections ++ name ++ u16le.enc (htons question.qtype) ++
          u16le.enc (htons question.qclass) }
  else none

/-- `dns_answer_add_generic_answer_to_end` with the `data` that its callers write behind the record,
and the assertion that they make. -/
def dnsAnswerAddGenericAnswerToEnd (answer : DnsAnswer) (names : List (List Byte))
    (ttlseconds : BitVec 32) (type class_ additional_data_size : BitVec 16) (data : List Byte) :
    Option DnsAnswer :=
  let name := encodeDnsString names
  if name.length + data.length = calctotalsizeofencoding names + additional_data_size.toNat then
    some
      { header := { answer.header with
          totalanswerrrs := htons (ntohs answer.header.totalanswerrrs + 1) }
        sections := answer.sections ++ name ++ u16le.enc (htons type) ++ u16le.enc (htons class_) ++
          u32le.enc (htonl ttlseconds) ++ u16le.enc (htons additional_data_size) ++ data }
  else none

/-- `60*60*24`. -/
def dnsTtl : BitVec 32 := 86400

/-- `dns_answer_add_PTR_answer_to_end`. -/
def dnsAnswerAddPTRAnswerToEnd (answer : DnsAnswer) (names answer_names : List (List Byte)) :
    Option DnsAnswer :=
  dnsAnswerAddGenericAnswerToEnd answer names dnsTtl dnsTypePtr dnsClassIn
    (BitVec.ofNat 16 (calctotalsizeofencoding answer_names)) (encodeDnsString answer_names)

/-- `dns_answer_add_A_answer_to_end`. -/
def dnsAnswerAddAAnswerToEnd (answer : DnsAnswer) (names : List (List Byte)) (ip : AddrIp) :
    Option DnsAnswer :=
  dnsAnswerAddGenericAnswerToEnd answer names dnsTtl dnsTypeA dnsClassIn 4 (u32le.enc ip)

/-! ## The database -/

/-- `get_by_domainname_array_safe`. -/
def getByDomainnameArraySafe (db : List DnsDbEntry) (dn : List (List Byte)) : Option DnsDbEntry :=
  db.find? fun entry => dn.map cstr = entry.names.map cstr

/-- `get_by_ip_safe`. -/
def getByIpSafe (db : List DnsDbEntry) (ip : AddrIp) : Option DnsDbEntry :=
  db.find? fun entry => entry.rdata = ip

/-- `parse_ip`: the first four labels are the octets, the last one first. -/
def parseIp (names : List (List Byte)) : AddrIp :=
  let octet i := atoi (cstr (names.getD i []))
  ipConvertInt (octet 3) (octet 2) (octet 1) (octet 0)

/-! ## Replying -/

/-- The answer of `handle_question` and its error code. -/
def handleQuestion (db : List DnsDbEntry) (dns : PacketDns) (question : DnsQueryHo) :
    Option (DnsAnswer × Byte) :=
  let names := question.query_names
  match dnsAnswerAddQueryToEnd (dnsMallocAnswer dns.id) question with
  | none => none
  | some answer =>
    if question.qclass ≠ dnsClassIn then some (answer, dnsErrorNotimplemented)
    else if question.qtype = dnsTypePtr then
      if names.length < 4 then some (answer, dnsErrorNameerror)
      else
        match getByIpSafe db (parseIp names) with
        | some entry =>
          (dnsAnswerAddPTRAnswerToEnd answer names entry.names).map fun a => (a, dnsErrorNoError)
        | none => some (answer, dnsErrorNameerror)
    else if question.qtype = dnsTypeA then
      match getByDomainnameArraySafe db names with
      | some entry =>
        (dnsAnswerAddAAnswerToEnd answer names entry.rdata).map fun a => (a, dnsErrorNoError)
      | none => some (answer, dnsErrorNameerror)
    else some (answer, dnsErrorNotimplemented)

/-- What `dns_onreceive` finds outside the packet. -/
structure DnsEnv where
  db : List DnsDbEntry
  /-- The number of readable bytes behind the packet. -/
  readable : Nat
  /-- What `questions[0]` holds if there are no questions; none if using it ends the process. -/
  unset : Option DnsQueryHo

/-- An empty database, and nothing behind the packet. -/
def noDns : DnsEnv := ⟨[], 0, none⟩

/-- The question `dns_onreceive` answers: the first of the array. -/
def dnsQuestion (d : DnsEnv) (questions : List DnsQueryHo) : Option DnsQueryHo :=
  match questions with
  | [] => d.unset
  | question :: _ => some question

/-- The answer to a packet, none if it is a response itself. -/
def dnsReply (env : Env) (d : DnsEnv) (pi : PacketInfo) : Option (Option (DnsAnswer × Byte)) :=
  let dns := PacketDns.layout.load 42 pi.packet
  if dns.qr then some none
  else
    match dnsMallocandparseQueryArray ((pi.memory env d.readable).drop 54)
        (ntohs dns.totalquestions).toNat with
    | none => none
    | some questions => (dnsQuestion d questions).bind fun q => (handleQuestion d.db dns q).map some

/-- The UDP header of an answer, without its checksum. -/
def dnsUdp (answer : DnsAnswer) (original : PacketUdp) : PacketUdp where
  source_port := original.destination_port
  destination_port := original.source_port
  length := htons (BitVec.ofNat 16 (8 + answer.totalsize))
  checksum := 0

/-- The frame of an answer around a UDP header. -/
def dnsFrame (r : Router) (pi : PacketInfo) (answer : DnsAnswer) (udp : PacketUdp) : PacketInfo :=
  let f := r.interface pi.interface
  .ofParts ⟨pi.eth.source_mac, f.mac, htons ethIpType⟩
    (generateIpv4Header f.ip (8 + answer.totalsize) ipTypeUdp pi.ipv4.src_ip).updateChecksum
    (PacketUdp.layout.enc udp ++ answer.packet) pi.interface

/-- `send_dns_proto_response`. -/
def sendDnsProtoResponse (env : Env) (r : Router) (pi : PacketInfo) (answer : DnsAnswer)
    (original : PacketUdp) (dns_err_code : Byte) : Option Router :=
  let answer := { answer with header := answer.header.setRcode dns_err_code }
  let udp := dnsUdp answer original
  match udpPseudoHeader env (dnsFrame r pi answer udp) udp with
  | none => none
  | some pseudo =>
    let frame := dnsFrame r pi answer { udp with checksum := generatechecksum pseudo }
    some (r.output pi.interface frame.packet)

/-- `dns_onreceive`. -/
def dnsOnreceive (env : Env) (d : DnsEnv) (pi : PacketInfo) (r : Router) : Option Router :=
  match dnsReply env d pi with
  | none => none
  | some none => some r
  | some (some (answer, err_code)) =>
    sendDnsProtoResponse env r pi answer (PacketUdp.layout.load 34 pi.packet) err_code

/-- The environment with `dns_onreceive` as it is. -/
def Env.withDns (env : Env) (d : DnsEnv) : Env :=
  { env with dnsOnreceive := BirRouter.dnsOnreceive env d }

/-! ## What an answer does -/

/-- **At most one frame** is sent, and nothing else of the router changes. -/
theorem dnsOnreceive_effect {env : Env} {d : DnsEnv} {pi : PacketInfo} {r r' : Router}
    (h : dnsOnreceive env d pi r = some r') :
    r' = r ∨ ∃ packet, r' = r.output pi.interface packet := by
  unfold dnsOnreceive at h
  split at h
  · cases h
  · cases h
    exact .inl rfl
  · unfold sendDnsProtoResponse at h
    simp only at h
    split at h
    · cases h
    · cases h
      exact .inr ⟨_, rfl⟩

theorem udpPseudoHeader_isSome (env : Env) (pi : PacketInfo) (udp : PacketUdp) :
    (udpPseudoHeader env pi udp).isSome = true ↔ 8 ≤ (ntohs udp.length).toNat := by
  unfold udpPseudoHeader
  simp only
  split
  · exact iff_of_false Bool.false_ne_true (by omega)
  · exact iff_of_true rfl (by omega)

theorem sendDnsProtoResponse_isSome (env : Env) (r : Router) (pi : PacketInfo) (answer : DnsAnswer)
    (original : PacketUdp) (dns_err_code : Byte) :
    (sendDnsProtoResponse env r pi answer original dns_err_code).isSome = true ↔
      8 ≤ (8 + answer.totalsize) % 65536 := by
  have hlen : (ntohs (dnsUdp { answer with header := answer.header.setRcode dns_err_code }
      original).length).toNat = (8 + answer.totalsize) % 65536 := by
    unfold dnsUdp
    rw [ntohs_htons, BitVec.toNat_ofNat]
    rfl
  rw [← hlen, ← udpPseudoHeader_isSome env (dnsFrame r pi
    { answer with header := answer.header.setRcode dns_err_code }
    (dnsUdp { answer with header := answer.header.setRcode dns_err_code } original))]
  unfold sendDnsProtoResponse
  simp only
  cases udpPseudoHeader env (dnsFrame r pi
    { answer with header := answer.header.setRcode dns_err_code }
    (dnsUdp { answer with header := answer.header.setRcode dns_err_code } original))
    (dnsUdp { answer with header := answer.header.setRcode dns_err_code } original) with
  | none => exact Iff.rfl
  | some pseudo => exact iff_of_true rfl rfl

end BirRouter
