import BirRouter.Datagrams
import BirRouter.DnsPersistence
import BirRouter.DnsWire

/-!
# The responses to DNS queries (`handle_question`, `send_dns_proto_response`)

`dnsOutcome` says what `handle_question` comes to, a record or an error code, without the building of
packets; `handleQuestion_eq` connects the two.

* `dns_response_wellFormed` — a response that fits a datagram is built without a failed assertion, its
  header counts what is in it, and the frame it goes out in is accepted by the receive path;
* `ipOnreceive_answers` — so a query with complete questions is answered with one such frame;
* `dnsOnreceive_isSome` — which queries end the process instead;
* `dns_answers_sound_iff` — answers say what the database holds exactly if the lookups find entries that
  may be given: names are compared as C strings, the type and class of an entry are not looked at, and
  of a reverse name only the first four labels are.
-/

set_option autoImplicit false

namespace BirRouter

open ByteLayout CString

/-! ## What is answered -/

/-- The record of an A answer. -/
def aRecord (q : DnsQueryHo) (ip : AddrIp) : DnsResource :=
  ⟨q.query_names, dnsTypeA, dnsClassIn, dnsTtl, u32le.enc ip⟩

/-- The record of a PTR answer. -/
def ptrRecord (q : DnsQueryHo) (answer_names : List (List Byte)) : DnsResource :=
  ⟨q.query_names, dnsTypePtr, dnsClassIn, dnsTtl, encodeDnsString answer_names⟩

/-- What `handle_question` makes of a question. -/
inductive DnsOutcome
  | answered (rec : DnsResource)
  | failed (err_code : Byte)

/-- The record that answers a question, or the error code. -/
def dnsOutcome (db : List DnsDbEntry) (q : DnsQueryHo) : DnsOutcome :=
  if q.qclass ≠ dnsClassIn then .failed dnsErrorNotimplemented
  else if q.qtype = dnsTypePtr then
    if q.query_names.length < 4 then .failed dnsErrorNameerror
    else
      match getByIpSafe db (parseIp q.query_names) with
      | some entry => .answered (ptrRecord q entry.names)
      | none => .failed dnsErrorNameerror
  else if q.qtype = dnsTypeA then
    match getByDomainnameArraySafe db q.query_names with
    | some entry => .answered (aRecord q entry.rdata)
    | none => .failed dnsErrorNameerror
  else .failed dnsErrorNotimplemented

namespace DnsOutcome

/-- The records that are sent. -/
def records : DnsOutcome → List DnsResource
  | answered rec => [rec.strings]
  | failed _ => []

def err_code : DnsOutcome → Byte
  | answered _ => dnsErrorNoError
  | failed err_code => err_code

end DnsOutcome

/-- A response to the question with these records. -/
def dnsResponse (dns : PacketDns) (q : DnsQueryHo) (records : List DnsResource) : DnsAnswer where
  header := ⟨dns.id, 0x80, 0, htons 1, htons (BitVec.ofNat 16 records.length), 0, 0⟩
  sections := q.strings.wire ++ records.flatMap DnsResource.wire

/-- `dns_answer_add_generic_answer_to_end` for a record. -/
def addResource (answer : DnsAnswer) (rec : DnsResource) : Option DnsAnswer :=
  dnsAnswerAddGenericAnswerToEnd answer rec.names rec.ttl rec.type rec.class_
    (BitVec.ofNat 16 rec.data.length) rec.data

theorem dnsAnswerAddPTRAnswerToEnd_eq (answer : DnsAnswer) (q : DnsQueryHo)
    (answer_names : List (List Byte)) :
    dnsAnswerAddPTRAnswerToEnd answer q.query_names answer_names =
      addResource answer (ptrRecord q answer_names) := by
  rw [dnsAnswerAddPTRAnswerToEnd, ← encodeDnsString_length]
  rfl

/-- `handle_question` adds the record of the outcome to the question. -/
theorem handleQuestion_outcome (db : List DnsDbEntry) (dns : PacketDns) (q : DnsQueryHo) :
    handleQuestion db dns q = match dnsOutcome db q with
      | .answered rec => (addResource (dnsResponse dns q []) rec).map fun a => (a, dnsErrorNoError)
      | .failed err_code => some (dnsResponse dns q [], err_code) := by
  have hquery : dnsAnswerAddQueryToEnd (dnsMallocAnswer dns.id) q = some (dnsResponse dns q []) := by
    have hone : htons (ntohs 0 + 1) = htons 1 := by decide
    have hzero : htons (BitVec.ofNat 16 0) = 0 := by decide
    rw [dnsAnswerAddQueryToEnd_eq, dnsResponse, List.flatMap_nil, List.append_nil]
    simp only [dnsMallocAnswer, hone, List.nil_append, List.length_nil, hzero]
  unfold handleQuestion dnsOutcome
  simp only [hquery]
  by_cases hclass : q.qclass = dnsClassIn
  · rw [if_neg (not_not.2 hclass), if_neg (not_not.2 hclass)]
    by_cases hptr : q.qtype = dnsTypePtr
    · rw [if_pos hptr, if_pos hptr]
      by_cases hshort : q.query_names.length < 4
      · rw [if_pos hshort, if_pos hshort]
      · rw [if_neg hshort, if_neg hshort]
        cases getByIpSafe db (parseIp q.query_names) with
        | none => rfl
        | some entry => simp only [dnsAnswerAddPTRAnswerToEnd_eq]
    · rw [if_neg hptr, if_neg hptr]
      by_cases ha : q.qtype = dnsTypeA
      · rw [if_pos ha, if_pos ha]
        cases getByDomainnameArraySafe db q.query_names with
        | none => rfl
        | some entry => rfl
      · rw [if_neg ha, if_neg ha]
  · rw [if_pos hclass, if_pos hclass]

theorem addResource_response (dns : PacketDns) (q : DnsQueryHo) {rec : DnsResource}
    (h : rec.data.length < 65536) :
    addResource (dnsResponse dns q []) rec = some (dnsResponse dns q [rec.strings]) := by
  have hone : htons (ntohs (htons (BitVec.ofNat 16 0)) + 1) = htons (BitVec.ofNat 16 1) := by decide
  rw [addResource, dnsAnswerAddGenericAnswerToEnd_eq _ _ h]
  simp only [dnsResponse, List.length_nil, hone, List.flatMap_nil, List.append_nil,
    List.length_singleton, List.flatMap_singleton]

/-- Data that its word cannot count fails the assertion. -/
theorem addResource_none (answer : DnsAnswer) {rec : DnsResource} (h : 65536 ≤ rec.data.length) :
    addResource answer rec = none := by
  have hcut : (BitVec.ofNat 16 rec.data.length).toNat < 65536 := (BitVec.ofNat 16 _).isLt
  rw [addResource, dnsAnswerAddGenericAnswerToEnd]
  simp only [encodeDnsString_length]
  rw [if_neg (by omega)]

/-- **`handle_question` responds** with the outcome, if the data of the record fits its word. -/
theorem handleQuestion_eq (db : List DnsDbEntry) (dns : PacketDns) (q : DnsQueryHo)
    (h : ∀ rec ∈ (dnsOutcome db q).records, rec.data.length < 65536) :
    handleQuestion db dns q =
      some (dnsResponse dns q (dnsOutcome db q).records, (dnsOutcome db q).err_code) := by
  rw [handleQuestion_outcome]
  cases houtcome : dnsOutcome db q with
  | answered rec =>
    rw [houtcome] at h
    have hdata : rec.data.length < 65536 := h rec.strings List.mem_cons_self
    simp only [addResource_response dns q hdata]
    rfl
  | failed err_code => rfl

theorem handleQuestion_isSome (db : List DnsDbEntry) (dns : PacketDns) (q : DnsQueryHo) :
    (handleQuestion db dns q).isSome = true ↔
      ∀ rec ∈ (dnsOutcome db q).records, rec.data.length < 65536 := by
  constructor
  · intro hsome rec hrec
    refine Nat.lt_of_not_le fun hlarge => ?_
    rw [handleQuestion_outcome] at hsome
    cases houtcome : dnsOutcome db q with
    | answered rec' =>
      rw [houtcome] at hrec hsome
      obtain rfl := List.mem_singleton.1 hrec
      have hnone : addResource (dnsResponse dns q []) rec' = none := addResource_none _ hlarge
      simp only [hnone, Option.map_none, Option.isSome_none, Bool.false_eq_true] at hsome
    | failed err_code =>
      rw [houtcome] at hrec
      exact absurd hrec List.not_mem_nil
  · intro h
    rw [handleQuestion_eq db dns q h]
    rfl

/-! ## The frame of a response -/

/-- The bytes of a response behind the UDP header. -/
def dnsResponseSize (db : List DnsDbEntry) (q : DnsQueryHo) : Nat :=
  12 + q.strings.wire.length + ((dnsOutcome db q).records.flatMap DnsResource.wire).length

theorem dnsResponse_totalsize (db : List DnsDbEntry) (dns : PacketDns) (q : DnsQueryHo) :
    (dnsResponse dns q (dnsOutcome db q).records).totalsize = dnsResponseSize db q := by
  rw [DnsAnswer.totalsize, dnsResponse, List.length_append, dnsResponseSize, Nat.add_assoc]

theorem DnsAnswer.packet_length (answer : DnsAnswer) : answer.packet.length = answer.totalsize := by
  rw [DnsAnswer.packet, List.length_append, PacketDns.layout.enc_length]
  rfl

/-- A frame with a datagram: the UDP header, and behind it the data. -/
theorem ofParts_udp (e : PacketEthernet) (h : PacketIp4) (udp : PacketUdp) (data : List Byte)
    (interface : Nat) :
    (PacketInfo.ofParts e h (PacketUdp.layout.enc udp ++ data) interface).udp = udp ∧
    (PacketInfo.ofParts e h (PacketUdp.layout.enc udp ++ data) interface).packet.drop 42 = data := by
  have hlen : (PacketEthernet.layout.enc e ++ PacketIp4.layout.enc h).length = 34 := by
    rw [List.length_append, Layout.enc_length, Layout.enc_length]
    rfl
  have hpacket : (PacketInfo.ofParts e h (PacketUdp.layout.enc udp ++ data) interface).packet =
      PacketEthernet.layout.enc e ++ PacketIp4.layout.enc h ++ (PacketUdp.layout.enc udp ++ data) := by
    rw [PacketInfo.ofParts_packet, List.append_assoc]
  have hlen' : (PacketEthernet.layout.enc e ++ PacketIp4.layout.enc h ++
      PacketUdp.layout.enc udp).length = 42 := by
    rw [List.length_append, hlen, Layout.enc_length]
    rfl
  constructor
  · rw [PacketInfo.udp, hpacket, PacketUdp.layout.load_append udp data hlen]
  · rw [hpacket, ← List.append_assoc, List.drop_left' hlen']

/-- A checksum in the pseudo header makes it check. -/
theorem generatechecksum_pseudoHeader (ipv4 : PacketIp4) (udp : PacketUdp) (data : List Byte)
    (h : data.length ≤ 65535) :
    generatechecksum (pseudoHeader ipv4 { udp with
      checksum := generatechecksum (pseudoHeader ipv4 { udp with checksum := 0 } data) } data) = 0 := by
  -- the checksum is the last word of the UDP header, behind 18 bytes
  have hsplit : ∀ c : BitVec 16, pseudoHeader ipv4 { udp with checksum := c } data =
      (u32le.enc ipv4.src_ip ++ u32le.enc ipv4.dst_ip ++ [0, ipv4.protocol] ++ u16le.enc udp.length ++
        u16le.enc udp.source_port ++ u16le.enc udp.destination_port ++ u16le.enc udp.length) ++
        (u16le.enc c ++ data) := by
    intro c
    simp only [pseudoHeader, List.append_assoc]
    rfl
  have hlen : (u32le.enc ipv4.src_ip ++ u32le.enc ipv4.dst_ip ++ [0, ipv4.protocol] ++
      u16le.enc udp.length ++ u16le.enc udp.source_port ++ u16le.enc udp.destination_port ++
      u16le.enc udp.length).length = 18 := rfl
  rw [hsplit, hsplit 0]
  exact generatechecksum_store (by rw [hlen]) (by omega)

/-- A response that goes out: its header, and as many questions and records as the header says. -/
structure DnsAnswer.Answers (answer : DnsAnswer) (dns : PacketDns) (q : DnsQueryHo)
    (records : List DnsResource) : Prop where
  id : answer.header.id = dns.id
  qr : answer.header.qr = true
  questions : ntohs answer.header.totalquestions = 1
  answers : (ntohs answer.header.totalanswerrrs).toNat = records.length
  others : answer.header.totalauthorityrrs = 0 ∧ answer.header.totaladditionalrrs = 0
  sections : answer.sections = q.strings.wire ++ records.flatMap DnsResource.wire

theorem dnsResponse_answers (db : List DnsDbEntry) (dns : PacketDns) (q : DnsQueryHo) :
    (dnsResponse dns q (dnsOutcome db q).records).Answers dns q (dnsOutcome db q).records := by
  have hqr : (0x80 : Byte).getLsbD 7 = true := by decide
  refine ⟨rfl, hqr, ntohs_htons 1, ?_, ⟨rfl, rfl⟩, rfl⟩
  rw [dnsResponse, ntohs_htons]
  cases dnsOutcome db q <;> rfl

/-- A frame that the receive path takes: its IP header and its UDP checksum are accepted, whatever is
in the memory behind it. -/
structure AcceptedDatagram (frame : PacketInfo) : Prop where
  header : ipHeaderCheck frame.ipv4 = true
  checksum : ∀ env, (udpPseudoHeader env frame frame.udp).map generatechecksum = some 0

section Frame

variable (r : Router) (pi : PacketInfo) (answer : DnsAnswer) (original : PacketUdp)

/-- The pseudo header of a response, with any checksum in it, covers the whole response. -/
theorem udpPseudoHeader_dnsFrame (env : Env) (c : BitVec 16) (h : 28 + answer.totalsize ≤ 65535) :
    udpPseudoHeader env (dnsFrame r pi answer { dnsUdp answer original with checksum := c })
        { dnsUdp answer original with checksum := c } =
      some (pseudoHeader (dnsFrame r pi answer (dnsUdp answer original)).ipv4
        { dnsUdp answer original with checksum := c } answer.packet) := by
  have hlength : (ntohs { dnsUdp answer original with checksum := c }.length).toNat =
      8 + answer.totalsize := by
    rw [dnsUdp, ntohs_htons, BitVec.toNat_ofNat]
    omega
  have hdrop : (dnsFrame r pi answer { dnsUdp answer original with checksum := c }).packet.drop 42 =
      answer.packet := (ofParts_udp _ _ _ _ _).2
  have hpacket : 34 + (8 + answer.totalsize) ≤
      (dnsFrame r pi answer { dnsUdp answer original with checksum := c }).packet.length := by
    have hlen := congrArg List.length hdrop
    rw [List.length_drop, answer.packet_length] at hlen
    have : 12 ≤ answer.totalsize := Nat.le_add_right 12 _
    omega
  have hipv4 : (dnsFrame r pi answer { dnsUdp answer original with checksum := c }).ipv4 =
      (dnsFrame r pi answer (dnsUdp answer original)).ipv4 := by
    rw [dnsFrame, dnsFrame, PacketInfo.ofParts_ipv4, PacketInfo.ofParts_ipv4]
  rw [udpPseudoHeader_inside env (by rw [hlength]; omega) (by rw [hlength]; exact hpacket), hlength,
    hdrop, hipv4, Nat.add_sub_cancel_left, ← answer.packet_length, List.take_length]

theorem ipHeaderCheck_dnsFrame (udp : PacketUdp) (h : 28 + answer.totalsize ≤ 65535) :
    ipHeaderCheck (dnsFrame r pi answer udp).ipv4 = true := by
  have hlength : htons (BitVec.ofNat 16 (20 + (8 + answer.totalsize))) ≠ 0 :=
    htons_ofNat_ne_zero (by omega) (by omega)
  rw [dnsFrame, PacketInfo.ofParts_ipv4]
  exact PacketIp4.ipHeaderCheck_fresh rfl rfl hlength unfragmented

/-- **The frame of a response is accepted**: its IP header, and its UDP checksum. -/
theorem sendDnsProtoResponse_accepted (env : Env) (dns_err_code : Byte)
    (h : 28 + answer.totalsize ≤ 65535) :
    ∃ frame : PacketInfo, sendDnsProtoResponse env r pi answer original dns_err_code =
        some (r.output pi.interface frame.packet) ∧
      frame.packet.drop 42 =
        { answer with header := answer.header.setRcode dns_err_code : DnsAnswer }.packet ∧
      AcceptedDatagram frame := by
  obtain ⟨answer', hanswer'⟩ : ∃ answer', answer' =
    { answer with header := answer.header.setRcode dns_err_code : DnsAnswer } := ⟨_, rfl⟩
  have hsize : 28 + answer'.totalsize ≤ 65535 := by rw [hanswer']; exact h
  have hpseudo := udpPseudoHeader_dnsFrame r pi answer' original env 0 hsize
  refine ⟨dnsFrame r pi answer' { dnsUdp answer' original with
      checksum := generatechecksum (pseudoHeader (dnsFrame r pi answer' (dnsUdp answer' original)).ipv4
        { dnsUdp answer' original with checksum := 0 } answer'.packet) }, ?_, ?_,
    ipHeaderCheck_dnsFrame r pi answer' _ hsize, fun env' => ?_⟩
  · unfold sendDnsProtoResponse
    simp only [← hanswer']
    rw [show udpPseudoHeader env (dnsFrame r pi answer' (dnsUdp answer' original))
      (dnsUdp answer' original) = _ from hpseudo]
  · rw [← hanswer']
    exact (ofParts_udp _ _ _ _ _).2
  · have hudp : ∀ udp, (dnsFrame r pi answer' udp).udp = udp := fun _ => (ofParts_udp _ _ _ _ _).1
    rw [hudp, udpPseudoHeader_dnsFrame r pi answer' original env' _ hsize, Option.map_some,
      generatechecksum_pseudoHeader _ (dnsUdp answer' original) answer'.packet
        (by rw [answer'.packet_length]; omega)]

end Frame

theorem DnsAnswer.Answers.setRcode {answer : DnsAnswer} {dns : PacketDns} {q : DnsQueryHo}
    {records : List DnsResource} (h : answer.Answers dns q records) (err_code : Byte) :
    { answer with header := answer.header.setRcode err_code : DnsAnswer }.Answers dns q records :=
  ⟨h.id, h.qr, h.questions, h.answers, h.others, h.sections⟩

theorem data_length_le (db : List DnsDbEntry) (q : DnsQueryHo) :
    ∀ rec ∈ (dnsOutcome db q).records, rec.data.length ≤ dnsResponseSize db q := by
  intro rec hrec
  obtain ⟨before, after, hrecords⟩ := List.append_of_mem hrec
  have hwire : rec.data.length ≤ rec.wire.length := by
    rw [DnsResource.wire, List.length_append, List.length_append]
    omega
  rw [dnsResponseSize, hrecords, List.flatMap_append, List.flatMap_cons, List.length_append,
    List.length_append]
  omega

/-- If the whole response fits, so does the data of its record. -/
theorem handleQuestion_fits {db : List DnsDbEntry} (dns : PacketDns) {q : DnsQueryHo}
    (h : 28 + dnsResponseSize db q ≤ 65535) :
    handleQuestion db dns q =
      some (dnsResponse dns q (dnsOutcome db q).records, (dnsOutcome db q).err_code) ∧
    28 + (dnsResponse dns q (dnsOutcome db q).records).totalsize ≤ 65535 := by
  refine ⟨handleQuestion_eq db dns q fun rec hrec => ?_, ?_⟩
  · have := data_length_le db q rec hrec
    omega
  · rw [dnsResponse_totalsize]
    exact h

/-- **Responses are well formed** if they fit a datagram: no assertion fails, the header counts what
is there, and the frame has an IP header and a UDP checksum that are accepted. -/
theorem dns_response_wellFormed (env : Env) (r : Router) (pi : PacketInfo) (original : PacketUdp)
    (db : List DnsDbEntry) (dns : PacketDns) (q : DnsQueryHo)
    (h : 28 + dnsResponseSize db q ≤ 65535) :
    ∃ (answer : DnsAnswer) (err_code : Byte) (sent : DnsAnswer) (frame : PacketInfo),
      handleQuestion db dns q = some (answer, err_code) ∧
      sendDnsProtoResponse env r pi answer original err_code =
        some (r.output pi.interface frame.packet) ∧
      frame.packet.drop 42 = sent.packet ∧ sent.Answers dns q (dnsOutcome db q).records ∧
      AcceptedDatagram frame := by
  obtain ⟨hresponds, hsize⟩ := handleQuestion_fits dns h
  obtain ⟨frame, hsend, hpacket, haccepted⟩ := sendDnsProtoResponse_accepted r pi
    (dnsResponse dns q (dnsOutcome db q).records) original env (dnsOutcome db q).err_code hsize
  exact ⟨_, _, _, frame, hresponds, hsend, hpacket, (dnsResponse_answers db dns q).setRcode _,
    haccepted⟩

/-- **A query is answered.**  A query with complete questions goes through `ip_onreceive`, and what is
sent is one frame with the answer to its first question. -/
theorem ipOnreceive_answers (env : Env) (d : DnsEnv) {r : Router} {pi : PacketInfo}
    (h : DnsQuery (env.withDns d) r pi) (hqr : pi.dns.qr = false) {q : DnsQueryHo}
    {qs : List DnsQueryHo} (hcount : (q :: qs).length = pi.totalquestions)
    (hlabelled : ∀ q' ∈ q :: qs, q'.Labelled)
    (hcomplete : (q :: qs).flatMap DnsQueryHo.wire <+: pi.packet.drop 54)
    (hfit : 28 + dnsResponseSize d.db q ≤ 65535) :
    ∃ (sent : DnsAnswer) (frame : PacketInfo),
      ipOnreceive (env.withDns d) r pi = some (r.output pi.interface frame.packet) ∧
      frame.packet.drop 42 = sent.packet ∧ sent.Answers pi.dns q (dnsOutcome d.db q).records ∧
      AcceptedDatagram frame := by
  have hparse : dnsMallocandparseQueryArray ((pi.memory env d.readable).drop 54) pi.totalquestions =
      some (q :: qs) := by
    rw [memory_drop_dns env h.dns_fits]
    exact dnsMallocandparseQueryArray_append
      (dnsMallocandparseQueryArray_iff.2 ⟨hcount, hlabelled, hcomplete⟩) _
  obtain ⟨hresponds, hsize⟩ := handleQuestion_fits pi.dns hfit
  have hreply : dnsReply env d pi = some (some (dnsResponse pi.dns q (dnsOutcome d.db q).records,
      (dnsOutcome d.db q).err_code)) := by
    have hqr' : (PacketDns.layout.load 42 pi.packet).qr = false := hqr
    have hparse' : dnsMallocandparseQueryArray ((pi.memory env d.readable).drop 54)
        (ntohs (PacketDns.layout.load 42 pi.packet).totalquestions).toNat = some (q :: qs) := hparse
    rw [dnsReply]
    simp only [hqr', hparse', dnsQuestion, Option.bind_some]
    rw [if_neg Bool.false_ne_true]
    show (handleQuestion d.db pi.dns q).map some = _
    rw [hresponds]
    rfl
  obtain ⟨frame, hsend, hpacket, haccepted⟩ := sendDnsProtoResponse_accepted r pi
    (dnsResponse pi.dns q (dnsOutcome d.db q).records) (PacketUdp.layout.load 34 pi.packet) env
    (dnsOutcome d.db q).err_code hsize
  refine ⟨_, frame, ?_, hpacket, (dnsResponse_answers d.db pi.dns q).setRcode _, haccepted⟩
  rw [ipOnreceive_perform, ipVerdict_dns_iff.2 h]
  show BirRouter.dnsOnreceive env d pi r = _
  rw [dnsOnreceive, hreply]
  exact hsend

/-- The address of `a`, and a question for it. -/
def addressEntry : DnsDbEntry := ⟨[[97]], dnsTypeA, dnsClassIn, ipConvert 10 0 1 1⟩

def addressQuestion : DnsQueryHo := ⟨[[97]], dnsTypeA, dnsClassIn⟩

theorem dns_response_sample :
    28 + dnsResponseSize [addressEntry] addressQuestion ≤ 65535 ∧
    ∃ (answer : DnsAnswer) (err_code : Byte),
      handleQuestion [addressEntry] (dnsSample 1 addressQuestion.wire).dns addressQuestion =
        some (answer, err_code) := by
  have hsize : 28 + dnsResponseSize [addressEntry] addressQuestion ≤ 65535 := by decide +kernel
  obtain ⟨answer, err_code, _, _, hanswer, _⟩ := dns_response_wellFormed smallEnv smallRouter
    (dnsSample 1 addressQuestion.wire) (dnsSample 1 addressQuestion.wire).udp [addressEntry]
    (dnsSample 1 addressQuestion.wire).dns addressQuestion hsize
  exact ⟨hsize, answer, err_code, hanswer⟩

/-! ## Queries that end the process -/

/-- The question that is answered: the first of as many complete ones as the header says, or what the
unset array holds if it says none. -/
def DnsAsks (env : Env) (d : DnsEnv) (pi : PacketInfo) (q : DnsQueryHo) : Prop :=
  (∃ qs : List DnsQueryHo, (q :: qs).length = pi.totalquestions ∧ (∀ q' ∈ q :: qs, q'.Labelled) ∧
    (q :: qs).flatMap DnsQueryHo.wire <+: (pi.memory env d.readable).drop 54) ∨
  pi.totalquestions = 0 ∧ d.unset = some q

/-- The length of a record's data fits its word, and the UDP length of the response is not below 8
when it is cut to 16 bits. -/
structure DnsResponseFits (db : List DnsDbEntry) (q : DnsQueryHo) : Prop where
  data : ∀ rec ∈ (dnsOutcome db q).records, rec.data.length < 65536
  udp : 8 ≤ (8 + dnsResponseSize db q) % 65536

section Survival

variable {env : Env} {d : DnsEnv} {pi : PacketInfo}

theorem dnsQuestion_iff {q : DnsQueryHo} :
    (dnsMallocandparseQueryArray ((pi.memory env d.readable).drop 54) pi.totalquestions).bind
      (dnsQuestion d) = some q ↔ DnsAsks env d pi q := by
  rw [Option.bind_eq_some_iff]
  constructor
  · rintro ⟨questions, hparse, hfirst⟩
    cases questions with
    | nil => exact .inr ⟨(dnsMallocandparseQueryArray_iff.1 hparse).1.symm, hfirst⟩
    | cons q' qs =>
      cases hfirst
      exact .inl ⟨qs, dnsMallocandparseQueryArray_iff.1 hparse⟩
  · rintro (⟨qs, hqs⟩ | ⟨hnone, hunset⟩)
    · exact ⟨q :: qs, dnsMallocandparseQueryArray_iff.2 hqs, rfl⟩
    · refine ⟨[], ?_, hunset⟩
      rw [hnone, dnsMallocandparseQueryArray]

theorem dnsReply_eq (hqr : ¬ pi.dns.qr = true) :
    dnsReply env d pi =
      ((dnsMallocandparseQueryArray ((pi.memory env d.readable).drop 54) pi.totalquestions).bind
        (dnsQuestion d)).bind fun q => (handleQuestion d.db pi.dns q).map some := by
  unfold PacketInfo.totalquestions
  unfold PacketInfo.dns at hqr ⊢
  unfold dnsReply
  simp only [if_neg hqr]
  cases dnsMallocandparseQueryArray ((pi.memory env d.readable).drop 54)
    (ntohs (PacketDns.layout.load 42 pi.packet).totalquestions).toNat with
  | none => rfl
  | some questions => rfl

/-- **The process outlives** a response, and a query whose question is there and whose answer fits. -/
theorem dnsOnreceive_isSome (r : Router) :
    (dnsOnreceive env d pi r).isSome = true ↔
      pi.dns.qr = true ∨ ∃ q, DnsAsks env d pi q ∧ DnsResponseFits d.db q := by
  unfold dnsOnreceive
  by_cases hqr : pi.dns.qr = true
  · have hreply : dnsReply env d pi = some none := if_pos hqr
    rw [hreply]
    exact iff_of_true rfl (.inl hqr)
  · rw [dnsReply_eq hqr, or_iff_right hqr]
    simp only [← dnsQuestion_iff]
    cases (dnsMallocandparseQueryArray ((pi.memory env d.readable).drop 54) pi.totalquestions).bind
      (dnsQuestion d) with
    | none => exact iff_of_false nofun fun ⟨_, hnone, _⟩ => nomatch hnone
    | some q =>
      have hq : (∃ q', some q = some q' ∧ DnsResponseFits d.db q') ↔ DnsResponseFits d.db q := by
        constructor
        · rintro ⟨_, ⟨⟩, hfits⟩
          exact hfits
        · intro hfits
          exact ⟨q, rfl, hfits⟩
      rw [hq, Option.bind_some]
      by_cases hdata : ∀ rec ∈ (dnsOutcome d.db q).records, rec.data.length < 65536
      · rw [handleQuestion_eq d.db pi.dns q hdata]
        show (sendDnsProtoResponse ..).isSome = true ↔ _
        rw [sendDnsProtoResponse_isSome, dnsResponse_totalsize]
        exact ⟨fun hudp => ⟨hdata, hudp⟩, DnsResponseFits.udp⟩
      · have hnone : handleQuestion d.db pi.dns q = none := by
          rw [← Option.not_isSome_iff_eq_none, handleQuestion_isSome]
          exact hdata
        rw [hnone]
        exact iff_of_false nofun fun hfits => hdata hfits.data

end Survival

/-! ## Sound answers -/

/-- A label that is the decimal numeral of an octet. -/
structure Octet (label : List Byte) (n : Nat) : Prop where
  nonempty : label ≠ []
  digits : ∀ b ∈ label, isdigit b = true
  value : number label = n
  le : n ≤ 255

/-- The labels `in-addr` and `arpa`. -/
def inAddrArpa : List (List Byte) := [[105, 110, 45, 97, 100, 100, 114], [97, 114, 112, 97]]

/-- The labels of `d.c.b.a.in-addr.arpa`. -/
def ReverseName (names : List (List Byte)) (a b c d : Nat) : Prop :=
  ∃ la lb lc ld, names = [ld, lc, lb, la] ++ inAddrArpa ∧
    Octet la a ∧ Octet lb b ∧ Octet lc c ∧ Octet ld d

theorem Octet.atoi {label : List Byte} {n : Nat} (h : Octet label n) : atoi (cstr label) = n := by
  have hnul : cstr label = label := cstr_eq_self_iff.2 fun h0 =>
    absurd (h.digits 0 h0) (by decide)
  have hvalue := h.value
  have hle := h.le
  rw [hnul, atoi_of_isdigit h.nonempty h.digits (by omega), hvalue]

theorem ipConvertInt_eq {a b c d : Nat} (ha : a ≤ 255) (hb : b ≤ 255) (hc : c ≤ 255) (hd : d ≤ 255) :
    ipConvertInt a b c d = ipConvert a b c d := by
  have h := ipConvertInt_octets (ipConvert a b c d)
  -- the octets of the sum, the lower ones first
  have hn : (ipConvert a b c d).toNat = a + 256 * (b + 256 * (c + 256 * d)) := by
    rw [ipConvert, BitVec.toNat_ofNat]
    omega
  have hstep : ∀ x y : Nat, x ≤ 255 → (x + 256 * y) / 256 = y ∧ (x + 256 * y) % 256 = x := by omega
  have h8 : (ipConvert a b c d).toNat / 2 ^ 8 = b + 256 * (c + 256 * d) := by
    rw [hn]
    exact (hstep a _ ha).1
  have h16 : (ipConvert a b c d).toNat / 2 ^ 16 = c + 256 * d := by
    rw [show 2 ^ 16 = 2 ^ 8 * 2 ^ 8 from rfl, ← Nat.div_div_eq_div_mul, h8]
    exact (hstep b _ hb).1
  have h24 : (ipConvert a b c d).toNat / 2 ^ 24 = d := by
    rw [show 2 ^ 24 = 2 ^ 16 * 2 ^ 8 from rfl, ← Nat.div_div_eq_div_mul, h16]
    exact (hstep c _ hc).1
  rwa [toNat_byteAt, toNat_byteAt, toNat_byteAt, toNat_byteAt, h8, h16, h24, hn, Nat.pow_zero,
    Nat.div_one, (hstep a _ ha).2, (hstep b _ hb).2, (hstep c _ hc).2,
    Nat.mod_eq_of_lt (Nat.lt_succ_of_le hd)] at h

theorem ReverseName.parseIp {names : List (List Byte)} {a b c d : Nat}
    (h : ReverseName names a b c d) : parseIp names = ipConvert a b c d := by
  obtain ⟨la, lb, lc, ld, rfl, ha, hb, hc, hd⟩ := h
  rw [← ipConvertInt_eq ha.le hb.le hc.le hd.le, ← ha.atoi, ← hb.atoi, ← hc.atoi, ← hd.atoi]
  rfl

/-- A response that says nothing that is not in the database: an A record with the address of an A entry
of class `IN` with this very name, or a PTR record for a reverse name with the name of an entry with
its address, or no record and an error. -/
inductive SoundResponse (db : List DnsDbEntry) (dns : PacketDns) (q : DnsQueryHo) (answer : DnsAnswer)
    (err_code : Byte) : Prop
  | a (entry : DnsDbEntry) : entry ∈ db → entry.type = dnsTypeA → entry.class_ = dnsClassIn →
      entry.names = q.query_names → answer.Answers dns q [(aRecord q entry.rdata).strings] →
      SoundResponse db dns q answer err_code
  | ptr (a b c d : Nat) (entry : DnsDbEntry) : ReverseName q.query_names a b c d → entry ∈ db →
      entry.rdata = ipConvert a b c d → answer.Answers dns q [(ptrRecord q entry.names).strings] →
      SoundResponse db dns q answer err_code
  | failed : answer.Answers dns q [] → err_code &&& 0x0f ≠ 0 → SoundResponse db dns q answer err_code

/-- The first entry with a property. -/
def FirstEntry (db : List DnsDbEntry) (p : DnsDbEntry → Prop) (entry : DnsDbEntry) : Prop :=
  p entry ∧ ∃ before after, db = before ++ entry :: after ∧ ∀ e ∈ before, ¬ p e

/-- The questions that the database answers soundly. -/
structure SoundLookups (db : List DnsDbEntry) (q : DnsQueryHo) : Prop where
  /-- The first entry that has the name as strings has the address of one that may be given. -/
  a : q.qtype = dnsTypeA → ∀ entry,
    FirstEntry db (fun e => q.query_names.map cstr = e.names.map cstr) entry →
    ∃ e ∈ db, e.type = dnsTypeA ∧ e.class_ = dnsClassIn ∧ e.names = q.query_names ∧
      e.rdata = entry.rdata
  /-- If the first four labels give the address of an entry, the question is a reverse name, and the
  name of the first such entry can be sent. -/
  ptr : q.qtype = dnsTypePtr → 4 ≤ q.query_names.length → ∀ entry,
    FirstEntry db (fun e => e.rdata = parseIp q.query_names) entry →
    (∃ a b c d, ReverseName q.query_names a b c d) ∧ calctotalsizeofencoding entry.names < 65536

theorem find?_eq_some_iff_first {db : List DnsDbEntry} {p : DnsDbEntry → Prop} [DecidablePred p]
    {entry : DnsDbEntry} : db.find? (fun e => p e) = some entry ↔ FirstEntry db p entry := by
  rw [List.find?_eq_some_iff_append]
  simp only [decide_eq_true_eq, Bool.not_eq_true', decide_eq_false_iff_not]
  rfl

/-- A response has one record at most, and it says of which type. -/
theorem DnsAnswer.Answers.inj {answer : DnsAnswer} {dns : PacketDns} {q : DnsQueryHo}
    {x y : DnsResource} (hx : answer.Answers dns q [x]) (hy : answer.Answers dns q [y])
    (hnames : x.names = y.names) : x.type = y.type ∧ x.data = y.data := by
  have hwire : x.wire = y.wire := by
    have h := hx.sections.symm.trans hy.sections
    rw [List.flatMap_singleton, List.flatMap_singleton] at h
    exact List.append_cancel_left h
  rw [DnsResource.wire, DnsResource.wire, hnames] at hwire
  have hlen : (DnsResourceEntry.layout.enc x.middle).length =
      (DnsResourceEntry.layout.enc y.middle).length := by
    rw [Layout.enc_length, Layout.enc_length]
  obtain ⟨hmiddle, hdata⟩ := List.append_inj (List.append_cancel_left hwire) hlen
  have htype := congrArg DnsResourceEntry.type (DnsResourceEntry.layout.enc_injective hmiddle)
  exact ⟨ntohs_injective htype, hdata⟩

theorem DnsAnswer.Answers.not_nil {answer : DnsAnswer} {dns : PacketDns} {q : DnsQueryHo}
    {x : DnsResource} (hx : answer.Answers dns q [x]) : ¬ answer.Answers dns q [] := fun h =>
  absurd (hx.answers.symm.trans h.answers) (by simp)

section Sound

variable {db : List DnsDbEntry} {dns : PacketDns} {q : DnsQueryHo}

theorem aRecord_data (q : DnsQueryHo) (ip : AddrIp) : (aRecord q ip).data.length < 65536 := by
  rw [aRecord, u32le.enc_length]
  decide

theorem dnsOutcome_a (db : List DnsDbEntry) (hclass : q.qclass = dnsClassIn)
    (htype : q.qtype = dnsTypeA) :
    dnsOutcome db q = match getByDomainnameArraySafe db q.query_names with
      | some entry => .answered (aRecord q entry.rdata)
      | none => .failed dnsErrorNameerror := by
  have hptr : q.qtype ≠ dnsTypePtr := by rw [htype]; decide
  rw [dnsOutcome, if_neg (not_not.2 hclass), if_neg hptr, if_pos htype]

theorem dnsOutcome_ptr (db : List DnsDbEntry) (hclass : q.qclass = dnsClassIn)
    (htype : q.qtype = dnsTypePtr) (hlong : 4 ≤ q.query_names.length) :
    dnsOutcome db q = match getByIpSafe db (parseIp q.query_names) with
      | some entry => .answered (ptrRecord q entry.names)
      | none => .failed dnsErrorNameerror := by
  rw [dnsOutcome, if_neg (not_not.2 hclass), if_pos htype, if_neg (Nat.not_lt.2 hlong)]

/-- What is sent for an answer, and that it is sent. -/
theorem handleQuestion_answered (dns : PacketDns) {rec : DnsResource}
    (h : dnsOutcome db q = .answered rec) (hdata : rec.data.length < 65536) :
    ∃ answer, handleQuestion db dns q = some (answer, dnsErrorNoError) ∧
      answer.Answers dns q [rec.strings] := by
  have hresponds := handleQuestion_eq db dns q fun rec' hrec' => by
    rw [h] at hrec'
    rw [List.mem_singleton.1 hrec']
    exact hdata
  have hanswers := dnsResponse_answers db dns q
  rw [h] at hresponds hanswers
  exact ⟨_, hresponds, hanswers⟩

theorem handleQuestion_failed (dns : PacketDns) {err_code : Byte}
    (h : dnsOutcome db q = .failed err_code) (hcode : err_code &&& 0x0f ≠ 0) :
    ∃ answer, handleQuestion db dns q = some (answer, err_code) ∧
      SoundResponse db dns q answer err_code := by
  have hresponds := handleQuestion_eq db dns q fun rec' hrec' => by
    rw [h] at hrec'
    exact absurd hrec' List.not_mem_nil
  have hanswers := dnsResponse_answers db dns q
  rw [h] at hresponds hanswers
  exact ⟨_, hresponds, .failed hanswers hcode⟩

/-- A sound A answer gives the address of an entry that may be given. -/
theorem SoundResponse.of_a {answer : DnsAnswer} {err_code : Byte} {ip : AddrIp}
    (h : SoundResponse db dns q answer err_code)
    (hanswer : answer.Answers dns q [(aRecord q ip).strings]) :
    ∃ e ∈ db, e.type = dnsTypeA ∧ e.class_ = dnsClassIn ∧ e.names = q.query_names ∧ e.rdata = ip := by
  cases h with
  | a e hmem htype hclass hnames hanswer' =>
    have hdata := (hanswer'.inj hanswer rfl).2
    exact ⟨e, hmem, htype, hclass, hnames, u32le.enc_injective hdata⟩
  | ptr a b c d e hname hmem hrdata hanswer' =>
    have htypes : dnsTypePtr ≠ dnsTypeA := by decide
    exact absurd (hanswer'.inj hanswer rfl).1 htypes
  | failed hanswer' hcode => exact absurd hanswer' hanswer.not_nil

/-- A sound PTR answer is one to a reverse name. -/
theorem SoundResponse.of_ptr {answer : DnsAnswer} {err_code : Byte} {names : List (List Byte)}
    (h : SoundResponse db dns q answer err_code)
    (hanswer : answer.Answers dns q [(ptrRecord q names).strings]) :
    ∃ a b c d, ReverseName q.query_names a b c d := by
  cases h with
  | a e hmem htype hclass hnames hanswer' =>
    have htypes : dnsTypeA ≠ dnsTypePtr := by decide
    exact absurd (hanswer'.inj hanswer rfl).1 htypes
  | ptr a b c d e hname hmem hrdata hanswer' => exact ⟨a, b, c, d, hname⟩
  | failed hanswer' hcode => exact absurd hanswer' hanswer.not_nil

theorem sound_of_lookups (hclass : q.qclass = dnsClassIn) (h : SoundLookups db q) :
    ∃ answer err_code, handleQuestion db dns q = some (answer, err_code) ∧
      SoundResponse db dns q answer err_code := by
  by_cases hptr : q.qtype = dnsTypePtr
  · by_cases hshort : q.query_names.length < 4
    · have houtcome : dnsOutcome db q = .failed dnsErrorNameerror := by
        rw [dnsOutcome, if_neg (not_not.2 hclass), if_pos hptr, if_pos hshort]
      obtain ⟨answer, hanswer⟩ := handleQuestion_failed dns houtcome (by decide)
      exact ⟨answer, _, hanswer⟩
    · have houtcome := dnsOutcome_ptr db hclass hptr (Nat.le_of_not_lt hshort)
      cases hfind : getByIpSafe db (parseIp q.query_names) with
      | none =>
        rw [hfind] at houtcome
        obtain ⟨answer, hanswer⟩ := handleQuestion_failed dns houtcome (by decide)
        exact ⟨answer, _, hanswer⟩
      | some entry =>
        rw [hfind] at houtcome
        have hfirst := find?_eq_some_iff_first.1 hfind
        obtain ⟨⟨a, b, c, d, hname⟩, hsize⟩ := h.ptr hptr (Nat.le_of_not_lt hshort) entry hfirst
        obtain ⟨answer, hresponds, hanswer⟩ := handleQuestion_answered dns houtcome
          (by rw [ptrRecord, encodeDnsString_length]; exact hsize)
        refine ⟨answer, _, hresponds, .ptr a b c d entry hname (List.mem_of_find?_eq_some hfind) ?_
          hanswer⟩
        rw [hfirst.1, hname.parseIp]
  · by_cases ha : q.qtype = dnsTypeA
    · have houtcome := dnsOutcome_a db hclass ha
      cases hfind : getByDomainnameArraySafe db q.query_names with
      | none =>
        rw [hfind] at houtcome
        obtain ⟨answer, hanswer⟩ := handleQuestion_failed dns houtcome (by decide)
        exact ⟨answer, _, hanswer⟩
      | some entry =>
        rw [hfind] at houtcome
        obtain ⟨e, hmem, htype, hin, hnames, hrdata⟩ := h.a ha entry
          (find?_eq_some_iff_first.1 hfind)
        obtain ⟨answer, hresponds, hanswer⟩ := handleQuestion_answered dns houtcome
          (aRecord_data q entry.rdata)
        rw [← hrdata] at hanswer
        exact ⟨answer, _, hresponds, .a e hmem htype hin hnames hanswer⟩
    · have houtcome : dnsOutcome db q = .failed dnsErrorNotimplemented := by
        rw [dnsOutcome, if_neg (not_not.2 hclass), if_neg hptr, if_neg ha]
      obtain ⟨answer, hanswer⟩ := handleQuestion_failed dns houtcome (by decide)
      exact ⟨answer, _, hanswer⟩

end Sound

/-- **Answers are sound** exactly if the lookups are: they compare labels as strings and look neither at
the type and class of an entry nor at the rest of a reverse name. -/
theorem dns_answers_sound_iff (db : List DnsDbEntry) (dns : PacketDns) (q : DnsQueryHo)
    (hclass : q.qclass = dnsClassIn) :
    (∃ answer err_code, handleQuestion db dns q = some (answer, err_code) ∧
      SoundResponse db dns q answer err_code) ↔ SoundLookups db q := by
  constructor
  · rintro ⟨answer, err_code, hresponds, hsound⟩
    constructor
    · intro htype entry hfirst
      have houtcome := dnsOutcome_a db hclass htype
      rw [show getByDomainnameArraySafe db q.query_names = some entry from
        find?_eq_some_iff_first.2 hfirst] at houtcome
      obtain ⟨answer', hresponds', hanswer⟩ := handleQuestion_answered dns houtcome
        (aRecord_data q entry.rdata)
      cases hresponds.symm.trans hresponds'
      exact hsound.of_a hanswer
    · intro htype hlong entry hfirst
      have houtcome := dnsOutcome_ptr db hclass htype hlong
      rw [show getByIpSafe db (parseIp q.query_names) = some entry from
        find?_eq_some_iff_first.2 hfirst] at houtcome
      have hdata := (handleQuestion_isSome db dns q).1 (by rw [hresponds]; rfl)
      rw [houtcome] at hdata
      have hsize : (encodeDnsString entry.names).length < 65536 := hdata _ List.mem_cons_self
      obtain ⟨answer', hresponds', hanswer⟩ := handleQuestion_answered dns houtcome hsize
      cases hresponds.symm.trans hresponds'
      exact ⟨hsound.of_ptr hanswer, encodeDnsString_length entry.names ▸ hsize⟩
  · exact sound_of_lookups hclass

/-- An entry of type 2, which is no A entry. -/
def nsEntry : DnsDbEntry := { addressEntry with type := 2 }

/-- A PTR question for `1.1.0.10.example`. -/
def exampleQuestion : DnsQueryHo :=
  ⟨[[49], [49], [48], [49, 48], [101, 120, 97, 109, 112, 108, 101]], dnsTypePtr, dnsClassIn⟩

/-- Both are answered. -/
theorem dns_answers_unsound :
    (addressQuestion.qclass = dnsClassIn ∧
      ¬ ∃ answer err_code, handleQuestion [nsEntry] (dnsSample 1 []).dns addressQuestion =
          some (answer, err_code) ∧
        SoundResponse [nsEntry] (dnsSample 1 []).dns addressQuestion answer err_code) ∧
    (exampleQuestion.qclass = dnsClassIn ∧
      ¬ ∃ answer err_code, handleQuestion [addressEntry] (dnsSample 1 []).dns exampleQuestion =
          some (answer, err_code) ∧
        SoundResponse [addressEntry] (dnsSample 1 []).dns exampleQuestion answer err_code) := by
  refine ⟨⟨rfl, ?_⟩, ⟨rfl, ?_⟩⟩
  · rintro ⟨answer, err_code, hresponds, hsound⟩
    have houtcome : dnsOutcome [nsEntry] addressQuestion =
        .answered (aRecord addressQuestion nsEntry.rdata) := rfl
    obtain ⟨answer', hresponds', hanswer⟩ := handleQuestion_answered (dnsSample 1 []).dns houtcome
      (aRecord_data _ _)
    cases hresponds.symm.trans hresponds'
    obtain ⟨e, hmem, htype, _⟩ := hsound.of_a hanswer
    rw [List.mem_singleton.1 hmem] at htype
    exact absurd htype (by decide)
  · rintro ⟨answer, err_code, hresponds, hsound⟩
    have houtcome : dnsOutcome [addressEntry] exampleQuestion =
        .answered (ptrRecord exampleQuestion addressEntry.names) := rfl
    obtain ⟨answer', hresponds', hanswer⟩ := handleQuestion_answered (dnsSample 1 []).dns houtcome
      (by decide)
    cases hresponds.symm.trans hresponds'
    obtain ⟨a, b, c, d, la, lb, lc, ld, hname, _⟩ := hsound.of_ptr hanswer
    have hlen : 5 = 6 := congrArg List.length hname
    exact absurd hlen (by decide)

/-- The A entry answers it soundly. -/
theorem dns_answers_sound_sample :
    addressQuestion.qclass = dnsClassIn ∧ ∃ answer err_code,
      handleQuestion [addressEntry] (dnsSample 1 []).dns addressQuestion = some (answer, err_code) ∧
      SoundResponse [addressEntry] (dnsSample 1 []).dns addressQuestion answer err_code := by
  refine ⟨rfl, (dns_answers_sound_iff [addressEntry] (dnsSample 1 []).dns addressQuestion rfl).2
    ⟨fun _ entry hfirst => ?_, fun htype => absurd htype (by decide)⟩⟩
  obtain ⟨_, before, after, hdb, _⟩ := hfirst
  have hmem : entry ∈ [addressEntry] := hdb ▸ List.mem_append_right _ List.mem_cons_self
  rw [List.mem_singleton.1 hmem]
  exact ⟨addressEntry, List.mem_cons_self, rfl, rfl, rfl, rfl⟩

end BirRouter
