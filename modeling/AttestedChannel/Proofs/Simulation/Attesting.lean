import AttestedChannel.Config
import AttestedChannel.Proofs.Attestation.Appraising
import AttestedChannel.Proofs.Attestation.Evidence
import AttestedChannel.Proofs.Attestation.Indices
import AttestedChannel.Proofs.Attestation.Judging
import AttestedChannel.Simulation.Measurement

/-!
# Attestation between simulated services

What one simulated service quotes for a challenge, and what comes of it when another one verifies
it. `respond_answerOf` says which behaviors lead to a response at all, and `verified_iff` when the
response passes the verifier: the prover has quoted usable evidence, the verifier verifies, and
every property that the verifier asks for has the expected value (`Attests`).
-/

namespace AttestedChannel.Simulation

/-! ## Values -/

/-- The value that a service of this behavior reports for a property. -/
def reportedValue (b : Behavior) (i : UInt8) : Bytes :=
  if b = .tampered then invert (honestValue i) else honestValue i

/-- The values that a service of this behavior reports for the properties of a mask. -/
def reportedValues (b : Behavior) (mask : PropertyMask) : Measurements :=
  if b = .tampered then (honestValues mask).mapValues invert else honestValues mask

theorem length_indices_le (mask : PropertyMask) : mask.indices.length ≤ 32 := by
  unfold PropertyMask.indices
  rw [List.length_map]
  exact List.length_filter_le _ _

theorem entries_honestValues (mask : PropertyMask) :
    (honestValues mask).entries = mask.indices.map fun i => (i, honestValue i) :=
  Measurements.foldl_insert_entries .empty (List.pairwise_map.2 mask.ascending_indices)

/-- The reported values by property. -/
theorem entries_reportedValues (b : Behavior) (mask : PropertyMask) :
    (reportedValues b mask).entries = mask.indices.map fun i => (i, reportedValue b i) := by
  unfold reportedValues reportedValue
  split
  · show (honestValues mask).entries.map _ = _
    rw [entries_honestValues, List.map_map]
    rfl
  · exact entries_honestValues mask

theorem lookup_map_self {is : List UInt8} {i : UInt8} (h : i ∈ is) (f : UInt8 → Bytes) :
    (is.map fun i => (i, f i)).lookup i = some (f i) := by
  induction is with
  | nil => cases h
  | cons j is ih =>
    rw [List.map_cons, Measurements.lookup_cons_ite]
    split
    next he => rw [he]
    next hne => exact ih ((List.mem_cons.1 h).resolve_left hne)

theorem get?_reportedValues (b : Behavior) {mask : PropertyMask} {i : UInt8}
    (h : i ∈ mask.indices) : (reportedValues b mask).get? i = some (reportedValue b i) := by
  rw [Measurements.get?, entries_reportedValues]
  exact lookup_map_self h _

theorem length_reportedValue (b : Behavior) (i : UInt8) : (reportedValue b i).length = 20 := by
  unfold reportedValue
  split <;> simp [invert, honestValue]

theorem length_quote (nonce : Bytes) (m : Measurements) : (quote nonce m).length = 32 := by
  simp [quote, quoteLanes, Bytes.length_bigEndian]

/-- Inverted octets are others. -/
theorem invert_ne {b : Bytes} (h : b ≠ []) : invert b ≠ b := by
  intro he
  cases b with
  | nil => exact h rfl
  | cons x b =>
    have hx : ~~~x = x := (List.cons.inj he).1
    have ht := congrArg UInt8.toNat hx
    rw [UInt8.toNat_not, UInt8.size] at ht
    omega

/-! ## Evidence -/

/-- Evidence over a nonce and reported values is small. -/
theorem length_encode_evidenceFor_le (r : ServiceRequest) {nonce : Bytes} (hn : nonce.length = 32)
    (b : Behavior) :
    (evidenceFor r nonce (reportedValues b r.propertyMask)).encode.length ≤ 2500 := by
  have he := (evidenceFor r nonce (reportedValues b r.propertyMask)).length_encode_le
  have hm := (reportedValues b r.propertyMask).length_write_le
  have hi := length_indices_le r.propertyMask
  have hsum : ∀ is : List UInt8, ((is.map fun i => (i, reportedValue b i)).map
      fun e => 18 + 2 * e.2.length).sum = 58 * is.length := by
    intro is
    induction is with
    | nil => rfl
    | cons i is ih =>
      simp only [List.map_cons, List.sum_cons, List.length_cons, ih, length_reportedValue]
      omega
  rw [entries_reportedValues, hsum] at hm
  simp only [evidenceFor, length_quote, hn] at he
  simp only [evidenceFor]
  omega

/-- What is quoted instead of evidence is none. -/
theorem decode_malformed : ∃ f, Evidence.decode (List.replicate 16 0xFF) = .error f := by
  have h : (Evidence.decode (List.replicate 16 0xFF)).toOption = none := by decide +kernel
  cases he : Evidence.decode (List.replicate 16 0xFF) with
  | error f => exact ⟨f, rfl⟩
  | ok e =>
    rw [he] at h
    cases h

/-! ## Answers -/

/-- The answer of a simulated service. Where it has none, the call runs into its limit. -/
def answerOf (b : Behavior) (r : ServiceRequest) : Answer :=
  match outcome? b r with
  | some outcome => .ofOutcome outcome
  | none => .timeOut

/-- The octets that a service of this behavior quotes for a challenge, if it quotes any. -/
def quoted? (b : Behavior) (ch : Challenge) : Option Bytes :=
  match b with
  | .unresponsive | .failing => none
  | b => (quoteReply b (Coordinator.quoteRequest ch)).evidence

/-- A challenge is answered with what the service quotes. -/
theorem respond_answerOf (b : Behavior) (ch : Challenge) :
    Coordinator.respond ch (answerOf b (Coordinator.quoteRequest ch)) =
      match quoted? b ch with
      | some ev => .ok ⟨ch.nonce, ev⟩
      | none => .error .measurementUnavailable := by
  cases b <;> rfl

/-- The service quotes evidence that a verifier can use. -/
def Behavior.Quotes (b : Behavior) : Prop := b = .honest ∨ b = .rejecting ∨ b = .tampered

/-- The service verifies evidence. -/
def Behavior.Verifies (b : Behavior) : Prop :=
  b = .honest ∨ b = .malformed ∨ b = .tampered ∨ b = .replaying

/-- A service that verifies answers. -/
theorem Behavior.Verifies.ne_unresponsive {b : Behavior} (h : b.Verifies) : b ≠ .unresponsive := by
  rcases h with rfl | rfl | rfl | rfl <;> decide

variable {b prover verifier : Behavior} {ch : Challenge} {ev : Bytes}

/-- Usable evidence is over the nonce of the challenge. -/
theorem quoted_of_quotes (h : b.Quotes) (ch : Challenge) : quoted? b ch =
    some (evidenceFor (Coordinator.quoteRequest ch) ch.nonce
      (reportedValues b (ch.attestationType.selection ch.propertyMask))).encode := by
  rcases h with rfl | rfl | rfl <;> rfl

/-- What is quoted is usable, no evidence at all, or evidence over another nonce. -/
theorem quoted_cases (h : quoted? b ch = some ev) :
    b.Quotes ∨ ev = List.replicate 16 0xFF ∨
      ev = (evidenceFor (Coordinator.quoteRequest ch) (invert ch.nonce)
        (reportedValues .replaying (ch.attestationType.selection ch.propertyMask))).encode := by
  cases b with
  | honest => exact .inl (.inl rfl)
  | rejecting => exact .inl (.inr (.inl rfl))
  | tampered => exact .inl (.inr (.inr rfl))
  | malformed => exact .inr (.inl (Option.some.inj h).symm)
  | replaying => exact .inr (.inr (Option.some.inj h).symm)
  | unresponsive => cases h
  | failing => cases h

/-- Whatever is quoted is small. -/
theorem length_quoted_le (hn : ch.nonce.length = 32) (h : quoted? b ch = some ev) :
    ev.length ≤ 2500 := by
  rcases quoted_cases h with hq | rfl | rfl
  · rw [quoted_of_quotes hq] at h
    cases h
    exact length_encode_evidenceFor_le (Coordinator.quoteRequest ch) hn b
  · simp
  · exact length_encode_evidenceFor_le (Coordinator.quoteRequest ch) (by simpa [invert] using hn) _

/-- Evidence that is quoted is decoded. -/
theorem decode_of_quoted {e : Evidence} (hn : ch.nonce.length = 32)
    (h : quoted? b ch = some e.encode) : Evidence.decode e.encode = .ok e :=
  Evidence.decode_encode (Nat.lt_of_le_of_lt (length_quoted_le hn h) (by decide))

/-! ## Attesting -/

/-- A prover with a service of one behavior convinces a verifier with a service of another: the
prover quotes usable evidence, the verifier verifies, and it asks for something and expects for all
that it asks for the values that the prover reports. -/
structure Attests (c : Config) (verifier prover : Behavior) : Prop where
  quotes : prover.Quotes
  verifies : verifier.Verifies
  selects : ∃ i, i ∈ c.selection.indices
  expects : ∀ i ∈ c.selection.indices,
    c.expectedMeasurements.get? i = some (reportedValue prover i)

/-- The reported values are judged by what is expected of each. -/
theorem judge_reportedValues (expected : Measurements) (b : Behavior) (mask : PropertyMask) :
    Appraisal.judge expected (reportedValues b mask) mask true = .ok () ↔
      (∃ i, i ∈ mask.indices) ∧
        ∀ i ∈ mask.indices, expected.get? i = some (reportedValue b i) := by
  rw [Appraisal.judge_eq_ok_iff, and_iff_right rfl]
  refine and_congr_right fun _ => forall₂_congr fun i hi => ?_
  unfold Appraisal.SameValue
  rw [get?_reportedValues b hi]
  constructor
  · rintro ⟨v, hv, hr⟩
    rw [hv, hr]
  · intro he
    exact ⟨_, he, rfl⟩

/-- A verifier passes genuine evidence over the nonce that it was asked about, and says what was
measured. -/
theorem answerOf_verify (h : verifier.Verifies) {r : ServiceRequest} {e : Evidence}
    (ho : r.operation = .verify) (he : r.evidence = some ev) (hd : Evidence.decode ev = .ok e)
    (hn : e.nonce = r.nonce) (hq : e.quote = quote e.nonce e.measurements) :
    answerOf verifier r = .reply ⟨.pass, none, e.measurements, none⟩ := by
  have hr : verifier ≠ .rejecting := by rcases h with rfl | rfl | rfl | rfl <;> decide
  have hv : verifyReply verifier r = ⟨.pass, none, e.measurements, none⟩ := by
    simp [verifyReply, hr, he, hd, hn, hq]
  rw [← hv]
  rcases h with rfl | rfl | rfl | rfl <;> simp [answerOf, outcome?, ho, Answer.ofOutcome]

/-- No other service has a passing answer to a request for verification. -/
theorem verifies_of_pass {r : ServiceRequest} {reply : ServiceReply} (ho : r.operation = .verify)
    (ha : answerOf b r = .reply reply) (hs : reply.status = .pass) : b.Verifies := by
  cases b with
  | honest => exact .inl rfl
  | malformed => exact .inr (.inl rfl)
  | tampered => exact .inr (.inr (.inl rfl))
  | replaying => exact .inr (.inr (.inr rfl))
  | unresponsive => cases ha
  | failing => cases ha
  | rejecting =>
    simp only [answerOf, outcome?, ho, Answer.ofOutcome, verifyReply, if_true,
      Answer.reply.injEq] at ha
    rw [← ha] at hs
    cases hs

/-- **Usable evidence passes exactly if the verifier verifies and finds the values that are
expected.** -/
theorem verified_evidence_iff (c : Config) {nonce : Bytes} (hq : prover.Quotes)
    (hd : Evidence.decode ev = .ok (evidenceFor
      (Coordinator.quoteRequest ⟨nonce, c.attestationType, c.propertyMask⟩) nonce
      (reportedValues prover c.selection))) :
    (∃ reply, Coordinator.Verified c.expectedMeasurements ⟨nonce, c.attestationType, c.selection⟩
      (answerOf verifier (Coordinator.verifyRequest ⟨nonce, c.attestationType, c.selection⟩
        ⟨nonce, ev⟩)) reply) ↔ Attests c verifier prover := by
  have hanswer := fun h : verifier.Verifies =>
    answerOf_verify h (r := Coordinator.verifyRequest ⟨nonce, c.attestationType, c.selection⟩
      ⟨nonce, ev⟩) rfl rfl hd rfl rfl
  constructor
  · rintro ⟨reply, hv⟩
    have hverifies := verifies_of_pass rfl hv.answer hv.status
    have hreply := hv.answer
    rw [hanswer hverifies] at hreply
    cases hreply
    obtain ⟨hs, he⟩ := (judge_reportedValues _ _ _).1 hv.judged
    exact ⟨hq, hverifies, hs, he⟩
  · intro ha
    exact ⟨_, hanswer ha.verifies, rfl, (judge_reportedValues _ _ _).2 ⟨ha.selects, ha.expects⟩⟩

variable (verifier)

/-- **A response passes exactly if the prover convinces the verifier.** -/
theorem verified_iff (c : Config) {nonce : Bytes} (hn : nonce.length = 32)
    (h : quoted? prover ⟨nonce, c.attestationType, c.propertyMask⟩ = some ev) :
    (∃ e reply, Coordinator.Answers ⟨nonce, c.attestationType, c.selection⟩ ⟨nonce, ev⟩ e ∧
      Coordinator.Verified c.expectedMeasurements ⟨nonce, c.attestationType, c.selection⟩
        (answerOf verifier (Coordinator.verifyRequest ⟨nonce, c.attestationType, c.selection⟩
          ⟨nonce, ev⟩)) reply) ↔
      Attests c verifier prover := by
  have hdecode : ∀ {e : Evidence}, ev = e.encode → Evidence.decode ev = .ok e := by
    rintro e rfl
    exact decode_of_quoted hn h
  have husable := fun hq : prover.Quotes =>
    hdecode (Option.some.inj (h.symm.trans (quoted_of_quotes hq _)))
  constructor
  · rintro ⟨e, reply, ha, hv⟩
    rcases quoted_cases h with hq | hbad | hold
    · exact (verified_evidence_iff c hq (husable hq)).1 ⟨reply, hv⟩
    · obtain ⟨f, hf⟩ := decode_malformed
      rw [← hbad] at hf
      cases hf.symm.trans ha.decoded
    · cases (hdecode hold).symm.trans ha.decoded
      refine absurd ha.evidenceNonce (invert_ne ?_)
      rintro rfl
      cases hn
  · intro ha
    have hd := husable ha.quotes
    obtain ⟨reply, hv⟩ := (verified_evidence_iff c ha.quotes hd).2 ha
    exact ⟨_, reply, ⟨hd, rfl, rfl⟩, hv⟩

/-- **How a response is appraised** by a coordinator that has challenged for it. -/
theorem appraise_run (c : Config) {nonce : Bytes} (hn : nonce.length = 32)
    (h : quoted? prover ⟨nonce, c.attestationType, c.propertyMask⟩ = some ev) {k : Coordinator}
    (he : k.expected = c.expectedMeasurements)
    (hp : k.pending = some ⟨nonce, c.attestationType, c.selection⟩) :
    (Attests c verifier prover ∧
      ∃ s, (k.appraise ⟨nonce, ev⟩).run (answerOf verifier) = (k.reset, .passed s)) ∨
    (¬ Attests c verifier prover ∧ ∃ reason s,
      (k.appraise ⟨nonce, ev⟩).run (answerOf verifier) = (k.reset, .failed reason s)) := by
  have hiff := verified_iff verifier c hn h
  rcases k.appraise_run_cases ⟨nonce, ev⟩ (answerOf verifier) with
    ⟨p, e, reply, hp', ha, hv, -, hrun⟩ | ⟨reason, s, hrun⟩
  · cases hp.symm.trans hp'
    rw [he] at hv
    exact .inl ⟨hiff.1 ⟨e, reply, ha, hv⟩, _, hrun⟩
  · refine .inr ⟨fun hattests => ?_, reason, s, hrun⟩
    obtain ⟨e, reply, ha, hv⟩ := hiff.2 hattests
    rw [← he] at hv
    cases hrun.symm.trans (Coordinator.appraise_of_verified hp ha hv)

end AttestedChannel.Simulation
