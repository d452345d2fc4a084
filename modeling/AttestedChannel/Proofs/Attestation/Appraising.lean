import AttestedChannel.Attestation.Coordinator
import AttestedChannel.Proofs.Attestation.Judging

/-!
# How a response is appraised

`Coordinator.Appraises` lists the four ways an appraisal can go as rules, in the order in which the
coordinator looks for faults, and `appraises` says that there is no other. Only the last rule asks
the service; `conclude_passed` and `conclude_failed` say what its answer is made into.

What an appraisal records is said field by field (`Appraisal.RecordsPass`,
`Appraisal.RecordsFailure`), and so is what a summary takes over from the evidence
(`EvidenceSummary.Summarizes`).
-/

namespace AttestedChannel

/-! ## What is recorded -/

/-- The summary says what the evidence claims. -/
structure EvidenceSummary.Summarizes (s : EvidenceSummary) (e : Evidence) : Prop where
  attestationType : s.attestationType = e.attestationType
  propertyMask : s.propertyMask = e.propertyMask
  measurements : s.measurements = e.measurements

theorem EvidenceSummary.summarizes_iff {s : EvidenceSummary} {e : Evidence} :
    s.Summarizes e ↔ s = .ofEvidence e := by
  constructor
  · rintro ⟨ht, hp, hm⟩
    cases s
    cases ht
    cases hp
    cases hm
    rfl
  · rintro rfl
    exact ⟨rfl, rfl, rfl⟩

namespace Appraisal

/-- The record of a peer that passed: what its evidence claimed, and no reason. -/
structure RecordsPass (a : Appraisal) (s : EvidenceSummary) : Prop where
  verdict : a.verdict = .pass
  evidence : a.evidence = some s
  reason : a.reason = none

/-- The record of a peer that failed for a reason. -/
structure RecordsFailure (a : Appraisal) (reason : FailureReason) : Prop where
  verdict : a.verdict = .fail
  reason : a.reason = some reason

theorem recordsPass_passed (s : EvidenceSummary) : (passed s).RecordsPass s := ⟨rfl, rfl, rfl⟩

theorem recordsFailure_failed (reason : FailureReason) (s : Option EvidenceSummary) :
    (failed reason s).RecordsFailure reason := ⟨rfl, rfl⟩

end Appraisal

/-- Whether a response is turned down for this reason without asking the service. -/
def FailureReason.isFoundUnasked : FailureReason → Bool
  | .noPendingChallenge | .evidenceMalformed | .nonceMismatch => true
  | .measurementUnavailable | .rejectedByService | .measurementMismatch => false

namespace Coordinator

/-! ## What an answer of the service is made into -/

/-- What it takes for an answer of the service to pass the peer. -/
structure Verified (expected : Measurements) (p : OpenChallenge) (a : Answer)
    (reply : ServiceReply) : Prop where
  answer : a = .reply reply
  status : reply.status = .pass
  judged : Appraisal.judge expected reply.measurements p.mask true = .ok ()

/-- A passed appraisal rests on a passing reply whose values are the expected ones. -/
theorem conclude_passed {expected : Measurements} {p : OpenChallenge} {s : EvidenceSummary}
    {a : Answer} (h : (conclude expected p s a).reason = none) :
    conclude expected p s a = .passed s ∧ ∃ reply, Verified expected p a reply := by
  unfold conclude at h ⊢
  split at h
  · next reply =>
    split at h
    · next hs =>
      split at h
      · next hj => exact ⟨rfl, reply, rfl, hs, hj⟩
      · simp [Appraisal.failed] at h
    · simp [Appraisal.failed] at h
    · simp [Appraisal.failed] at h
  · simp [Appraisal.failed] at h
  · simp [Appraisal.failed] at h

/-- A failing appraisal says so in its verdict and gives a reason. -/
theorem conclude_failed {expected : Measurements} {p : OpenChallenge} {s : EvidenceSummary}
    {a : Answer} {reason : FailureReason} (h : (conclude expected p s a).reason = some reason) :
    ∃ s', conclude expected p s a = .failed reason s' := by
  unfold conclude at h ⊢
  repeat' split at h
  all_goals simp_all [Appraisal.failed, Appraisal.passed]

/-- A reason that is found in an answer is none of those that are found without asking. -/
theorem isFoundUnasked_of_conclude {expected : Measurements} {p : OpenChallenge}
    {s : EvidenceSummary} {a : Answer} {reason : FailureReason}
    (h : (conclude expected p s a).reason = some reason) : reason.isFoundUnasked = false := by
  unfold conclude at h
  split at h
  · split at h
    · split at h
      · simp [Appraisal.passed] at h
      · next hj =>
        simp only [Appraisal.failed, Option.some.injEq] at h
        rw [← h, Appraisal.judge_error hj]
        rfl
    all_goals simp only [Appraisal.failed, Option.some.injEq] at h; subst h; rfl
  all_goals simp only [Appraisal.failed, Option.some.injEq] at h; subst h; rfl

/-! ## The rules -/

/-- A response that answers the open challenge: its evidence decodes, and both nonces are that of
the challenge. -/
structure Answers (p : OpenChallenge) (r : Response) (e : Evidence) : Prop where
  decoded : Evidence.decode r.evidence = .ok e
  nonce : r.nonce = p.nonce
  evidenceNonce : e.nonce = p.nonce

/-- The ways an appraisal can go. The open challenge is used up in each. -/
inductive Appraises (c : Coordinator) (r : Response) : Exchange (Coordinator × Appraisal) → Prop
  | unchallenged (hp : c.pending = none) :
    Appraises c r (.finished (c.reset, .failed .noPendingChallenge none))
  | malformed {p : OpenChallenge} {f : Cbor.Failure} (hp : c.pending = some p)
      (he : Evidence.decode r.evidence = .error f) :
    Appraises c r (.finished (c.reset, .failed .evidenceMalformed none))
  | mismatched {p : OpenChallenge} {e : Evidence} (hp : c.pending = some p)
      (he : Evidence.decode r.evidence = .ok e) (hn : ¬ (r.nonce = p.nonce ∧ e.nonce = p.nonce)) :
    Appraises c r (.finished (c.reset, .failed .nonceMismatch (some (.ofEvidence e))))
  | asked {p : OpenChallenge} {e : Evidence} (hp : c.pending = some p) (ha : Answers p r e) :
    Appraises c r (.awaiting (verifyRequest p r) fun a =>
      (c.reset, conclude c.expected p (.ofEvidence e) a))

/-- **An appraisal goes one of these ways.** -/
theorem appraises (c : Coordinator) (r : Response) : Appraises c r (c.appraise r) := by
  unfold appraise
  cases hp : c.pending with
  | none =>
    -- without a challenge there is nothing to use up
    have hc : c.reset = c := by cases c; simp only at hp; rw [hp]; rfl
    have h := Appraises.unchallenged (r := r) hp
    rwa [hc] at h
  | some p =>
    show Appraises c r ((verify c.expected p r).map fun a => (c.reset, a))
    unfold verify
    cases he : Evidence.decode r.evidence with
    | error f => exact .malformed hp he
    | ok e =>
      dsimp only
      by_cases hn : r.nonce = p.nonce ∧ e.nonce = p.nonce
      · rw [if_pos hn]
        exact .asked hp ⟨he, hn.1, hn.2⟩
      · rw [if_neg hn]
        exact .mismatched hp he hn

/-- A response that answers the open challenge passes if the service says so. -/
theorem appraise_of_verified {c : Coordinator} {p : OpenChallenge} {r : Response} {e : Evidence}
    {service : ServiceRequest → Answer} {reply : ServiceReply} (hp : c.pending = some p)
    (ha : Answers p r e)
    (hv : Verified c.expected p (service (verifyRequest p r)) reply) :
    (c.appraise r).run service = (c.reset, .passed (.ofEvidence e)) := by
  have hnonce : r.nonce = p.nonce ∧ e.nonce = p.nonce := ⟨ha.nonce, ha.evidenceNonce⟩
  simp only [appraise, hp, verify, ha.decoded, if_pos hnonce, Exchange.map, Exchange.run, hv.answer,
    conclude, hv.status, hv.judged]

/-- The outcome of an appraisal: either the peer passes, after the one request that an appraisal
makes, or it fails for a reason. The open challenge is used up. -/
theorem appraise_run_cases (c : Coordinator) (r : Response) (service : ServiceRequest → Answer) :
    (∃ p e reply, c.pending = some p ∧ Answers p r e ∧
      Verified c.expected p (service (verifyRequest p r)) reply ∧
      (c.appraise r).request? = some (verifyRequest p r) ∧
      (c.appraise r).run service = (c.reset, .passed (.ofEvidence e))) ∨
    ∃ reason s, (c.appraise r).run service = (c.reset, .failed reason s) := by
  have h := c.appraises r
  revert h
  generalize c.appraise r = x
  intro h
  cases h with
  | unchallenged | malformed | mismatched => exact .inr ⟨_, _, rfl⟩
  | @asked p e hp ha =>
    simp only [Exchange.run, Exchange.request?]
    cases hr : (conclude c.expected p (.ofEvidence e) (service (verifyRequest p r))).reason with
    | none =>
      obtain ⟨hpass, reply, hv⟩ := conclude_passed hr
      exact .inl ⟨p, e, reply, hp, ha, hv, rfl, by rw [hpass]⟩
    | some reason =>
      obtain ⟨s, hf⟩ := conclude_failed hr
      exact .inr ⟨reason, s, by rw [hf]⟩

end Coordinator

/-! ## A service to try it with -/

/-- Evidence of one value over a nonce. -/
def plainEvidence (nonce : Bytes) : Evidence :=
  ⟨nonce, .advanced, .single 0, .ofList [(0, [7])], [1]⟩

/-- A measurement service that finds this value and believes all evidence. -/
def plainService (q : ServiceRequest) : Answer :=
  match q.operation with
  | .quote => .reply ⟨.pass, some (plainEvidence q.nonce).encode, .ofList [(0, [7])], none⟩
  | .verify => .reply ⟨.pass, none, .ofList [(0, [7])], none⟩

end AttestedChannel
