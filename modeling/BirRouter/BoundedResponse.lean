import BirRouter.DnsResponses

/-!
# Bounded responses to a packet

`ip_onreceive` calls itself on the ICMP errors that it creates.

* `ipOnreceiveN_eq` — two nested activations are enough;
* `ipOnreceive_isSome` — the packets that the process outlives;
* `bounded_response_iff` — these, if they are not PWOSPF, cause at most one ICMP error and one frame.
-/

set_option autoImplicit false

namespace BirRouter

open ByteLayout

/-- What a received packet costs. -/
structure BoundedResponse (env : Env) (r : Router) (pi : PacketInfo) : Prop where
  /-- Two nested activations at most, the second one on an ICMP error. -/
  activations : ∀ n, (activations env n r pi).length ≤ 2
  errors : ∀ n, (BirRouter.activations env n r pi).tail.length ≤ 1
  /-- The recursion comes back, with one frame sent at most. -/
  returns : ∃ r' frames, (∀ n, 2 ≤ n → ipOnreceiveN env n r pi = some r') ∧
    r'.sent = r.sent ++ frames ∧ frames.length ≤ 1

/-- More than two activations change nothing. -/
theorem ipOnreceiveN_eq (env : Env) (r : Router) (pi : PacketInfo) {n : Nat} (h : 2 ≤ n) :
    ipOnreceiveN env n r pi = ipOnreceive env r pi := by
  obtain ⟨n, rfl⟩ := Nat.exists_eq_add_of_le' h
  exact ipOnreceiveStep_congr (fun _ hpi => (hpi.step env _).trans (hpi.step env _).symm) pi

/-- The DNS queries that are responses, or ask a question whose answer fits a datagram. -/
def DnsAnswerable (env : Env) (d : DnsEnv) (pi : PacketInfo) : Prop :=
  pi.dns.qr = true ∨ ∃ q, DnsAsks env d pi q ∧ DnsResponseFits d.db q

/-- **The process outlives** a packet unless it is a short datagram or a DNS query that cannot be
answered. -/
theorem ipOnreceive_isSome (env : Env) (d : DnsEnv) (r : Router) (pi : PacketInfo)
    (h : pi.ipv4.protocol ≠ ipTypeOspf) :
    (ipOnreceive (env.withDns d) r pi).isSome = true ↔
      ¬ ShortUdp r pi ∧ (DnsQuery (env.withDns d) r pi → DnsAnswerable env d pi) := by
  rw [← ipVerdict_copyNegative_iff (env.withDns d), ← ipVerdict_dns_iff,
    ipOnreceive_perform]
  cases hv : ipVerdict (env.withDns d) r pi with
  | error call =>
    show (icmpSend ..).isSome = true ↔ _
    rw [icmpSend_message]
    refine iff_of_true ?_ ⟨nofun, nofun⟩
    cases he : call.message (env.withDns d) r pi with
    | none => rfl
    | some e =>
      have herr : ErrorPacket r e := call.message_errorPacket (ipVerdict_error_type hv) he
      show (ipOnreceive _ r e).isSome = true
      rw [ipOnreceive_error herr]
      rfl
  | pwospf => exact absurd hv (ipVerdict_ne_pwospf h)
  | dns =>
    show (dnsOnreceive env d pi r).isSome = true ↔ _
    rw [dnsOnreceive_isSome]
    exact ⟨fun hsome => ⟨nofun, fun _ => hsome⟩, fun h => h.2 rfl⟩
  | copyNegative => exact iff_of_false nofun fun h => h.1 rfl
  | _ => exact iff_of_true rfl ⟨nofun, nofun⟩

/-- **Responses are bounded** for every packet that the process outlives. -/
theorem bounded_response_iff (env : Env) (d : DnsEnv) (r : Router) (pi : PacketInfo)
    (h : pi.ipv4.protocol ≠ ipTypeOspf) :
    BoundedResponse (env.withDns d) r pi ↔
      ¬ ShortUdp r pi ∧ (DnsQuery (env.withDns d) r pi → DnsAnswerable env d pi) := by
  rw [← ipOnreceive_isSome env d r pi h]
  constructor
  · intro hb
    obtain ⟨r', frames, hreturn, _⟩ := hb.returns
    rw [show ipOnreceive (env.withDns d) r pi = some r' from hreturn 2 (Nat.le_refl 2)]
    rfl
  · intro hsome
    obtain ⟨r', hr'⟩ := Option.isSome_iff_exists.1 hsome
    obtain ⟨frames, hsends, hone⟩ := ipOnreceive_sends_one env d (ipVerdict_ne_pwospf h) hr'
    refine ⟨fun n => activations_length _ n r pi, fun n => ?_, r', frames, fun n hn => ?_,
      hsends.sent, hone⟩
    · have := activations_length (env.withDns d) n r pi
      rw [List.length_tail]
      omega
    · rw [ipOnreceiveN_eq _ r pi hn, hr']

/-- The sample packet with its last hop left, which causes an ICMP error and an ARP request for its
next hop, and a DNS query. -/
theorem bounded_response_sample :
    BoundedResponse (smallEnv.withDns noDns) smallRouter (samplePacket 1) ∧
      BoundedResponse (smallEnv.withDns noDns) smallRouter (dnsSample 1 plainQuestion.wire) := by
  have hproto : (samplePacket 1).ipv4.protocol = 99 := by
    rw [samplePacket_ipv4]
    rfl
  have hudp : ¬ UdpToRouter smallRouter (samplePacket 1) := fun h =>
    absurd (hproto.symm.trans h.protocol) (by decide)
  have hlabelled : ∀ q ∈ [plainQuestion], q.Labelled :=
    List.forall_mem_singleton.2 plainQuestion_labelled
  constructor
  · refine (bounded_response_iff smallEnv noDns smallRouter (samplePacket 1) ?_).2
      ⟨fun h => hudp h.toUdpToRouter, fun h => absurd h.toUdpToRouter hudp⟩
    rw [hproto]
    decide
  · refine (bounded_response_iff smallEnv noDns smallRouter (dnsSample 1 plainQuestion.wire)
      (by decide +kernel)).2 ⟨fun h => absurd h.short (by decide +kernel), fun _ => .inr
        ⟨plainQuestion, .inl ⟨[], by decide +kernel, hlabelled, by decide +kernel⟩,
          by decide +kernel, by decide +kernel⟩⟩

/-- Receiving a datagram with a length field of 4 does not return, nor a query that breaks off in a
label. -/
theorem bounded_response_short :
    ((emptyDatagram 4).ipv4.protocol ≠ ipTypeOspf ∧
      ¬ BoundedResponse (smallEnv.withDns noDns) smallRouter (emptyDatagram 4)) ∧
    ((dnsSample 1 [63]).ipv4.protocol ≠ ipTypeOspf ∧
      ¬ BoundedResponse (smallEnv.withDns noDns) smallRouter (dnsSample 1 [63])) := by
  have hnever : ∀ pi : PacketInfo,
      (ipOnreceive (smallEnv.withDns noDns) smallRouter pi).isSome = false →
      ¬ BoundedResponse (smallEnv.withDns noDns) smallRouter pi := by
    intro pi hnone h
    obtain ⟨r', frames, hreturn, _⟩ := h.returns
    rw [show ipOnreceive (smallEnv.withDns noDns) smallRouter pi = some r' from
      hreturn 2 (Nat.le_refl 2)] at hnone
    cases hnone
  exact ⟨⟨by decide +kernel, hnever _ (by decide +kernel)⟩,
    ⟨by decide +kernel, hnever _ (by decide +kernel)⟩⟩

end BirRouter
