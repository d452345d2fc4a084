import AttestedChannel.Proofs.Attestation.Appraising

/-!
# What decides an appraisal

Six conditions decide whether a response passes. `Coordinator.conditions` lists them in the order in
which they count, each with the reason for which a response fails that does not meet it; the reason
of a failure is that of the first condition that is not met (`FirstUnmet`). What is said of a list
of conditions in general comes first, then `decides_appraise` for the six.
-/

namespace AttestedChannel

/-! ## Conditions in their order -/

/-- A condition, and the reason for failing if it is not met. -/
structure Condition where
  reason : FailureReason
  isMet : Prop

/-- The first of the conditions that is not met gives this reason. -/
inductive FirstUnmet : List Condition → FailureReason → Prop
  | here {k : Condition} {ks : List Condition} (h : ¬ k.isMet) : FirstUnmet (k :: ks) k.reason
  | later {k : Condition} {ks : List Condition} {reason : FailureReason} (h : k.isMet)
      (hks : FirstUnmet ks reason) : FirstUnmet (k :: ks) reason

/-- Where one condition is not met, not all of them are. -/
theorem FirstUnmet.not_forall {ks : List Condition} {reason : FailureReason}
    (h : FirstUnmet ks reason) : ¬ ∀ k ∈ ks, k.isMet := by
  induction h with
  | here h => exact fun hall => h (hall _ List.mem_cons_self)
  | later _ _ ih => exact fun hall => ih fun k hk => hall k (List.mem_cons_of_mem _ hk)

/-- The conditions decide the appraisal of a peer whose evidence claims `s`. -/
inductive Decides (ks : List Condition) (s : Option EvidenceSummary) : Appraisal → Prop
  | passed {s' : EvidenceSummary} (hs : s = some s') (h : ∀ k ∈ ks, k.isMet) :
    Decides ks s (.passed s')
  | failed {reason : FailureReason} (h : FirstUnmet ks reason) : Decides ks s (.failed reason s)

namespace Decides

variable {ks : List Condition} {s : Option EvidenceSummary} {a : Appraisal}

theorem evidence_eq (h : Decides ks s a) : a.evidence = s := by
  cases h with
  | passed hs => exact hs.symm
  | failed => rfl

/-- A peer passes if all conditions are met. -/
theorem verdict_eq_pass_iff (h : Decides ks s a) : a.verdict = .pass ↔ ∀ k ∈ ks, k.isMet := by
  cases h with
  | passed _ hall => exact iff_of_true rfl hall
  | failed hu => exact iff_of_false (fun h => by cases h) hu.not_forall

/-- A peer that passes is given no reason. -/
theorem reason_eq_none (h : Decides ks s a) (hv : a.verdict = .pass) : a.reason = none := by
  cases h with
  | passed => rfl
  | failed => cases hv

/-- A peer that does not pass fails for the reason of the first condition that is not met. -/
theorem fails (h : Decides ks s a) (hv : a.verdict ≠ .pass) :
    a.verdict = .fail ∧ ∃ reason, a.reason = some reason ∧ FirstUnmet ks reason := by
  cases h with
  | passed => exact absurd rfl hv
  | failed hu => exact ⟨rfl, _, rfl, hu⟩

end Decides

namespace Coordinator

variable {c : Coordinator} {r : Response} {service : ServiceRequest → Answer} {p : OpenChallenge}
  {e : Evidence}

/-! ## The conditions of a pass -/

/-- What it takes for a response to pass, in the order in which it counts. -/
def conditions (c : Coordinator) (r : Response) (service : ServiceRequest → Answer) :
    List Condition :=
  [⟨.noPendingChallenge, ∃ p, c.pending = some p⟩,
   ⟨.evidenceMalformed, ∃ e, Evidence.decode r.evidence = .ok e⟩,
   ⟨.nonceMismatch, ∃ p e, c.pending = some p ∧ Evidence.decode r.evidence = .ok e ∧
      r.nonce = p.nonce ∧ e.nonce = p.nonce⟩,
   ⟨.measurementUnavailable, ∃ p reply, c.pending = some p ∧
      service (verifyRequest p r) = .reply reply ∧ reply.status ≠ .error⟩,
   ⟨.rejectedByService, ∃ p reply, c.pending = some p ∧
      service (verifyRequest p r) = .reply reply ∧ reply.status ≠ .fail⟩,
   ⟨.measurementMismatch, ∃ p reply, c.pending = some p ∧
      service (verifyRequest p r) = .reply reply ∧
      Appraisal.judge c.expected reply.measurements p.mask true = .ok ()⟩]

/-- What the evidence of a response claims, if it is looked at and can be read. -/
def claimed? (c : Coordinator) (r : Response) : Option EvidenceSummary :=
  match c.pending, Evidence.decode r.evidence with
  | some _, .ok e => some (.ofEvidence e)
  | _, _ => none

theorem claimed?_eq_some_iff {s : EvidenceSummary} :
    c.claimed? r = some s ↔
      (∃ p, c.pending = some p) ∧ ∃ e, Evidence.decode r.evidence = .ok e ∧ s = .ofEvidence e := by
  unfold claimed?
  cases c.pending with
  | none => simp
  | some p =>
    cases Evidence.decode r.evidence with
    | error f => simp
    | ok e => simp [eq_comm]

/-- All conditions are met exactly if the response answers the open challenge and is verified. -/
theorem forall_conditions_iff :
    (∀ k ∈ conditions c r service, k.isMet) ↔
      ∃ p e reply, c.pending = some p ∧ Answers p r e ∧
        Verified c.expected p (service (verifyRequest p r)) reply := by
  simp only [conditions, List.forall_mem_cons, List.not_mem_nil, false_imp_iff, implies_true,
    and_true]
  constructor
  · rintro ⟨-, -, ⟨p, e, hp, he, hn, hen⟩, ⟨p₁, reply, hp₁, hr, herror⟩,
      ⟨p₂, reply₂, hp₂, hr₂, hfail⟩, p₃, reply₃, hp₃, hr₃, hj⟩
    -- the conditions all speak of the one open challenge and the one answer
    cases hp.symm.trans hp₁
    cases hp.symm.trans hp₂
    cases hp.symm.trans hp₃
    cases hr.symm.trans hr₂
    cases hr.symm.trans hr₃
    refine ⟨p, e, reply, hp, ⟨he, hn, hen⟩, hr, ?_, hj⟩
    cases hs : reply.status with
    | pass => rfl
    | fail => exact absurd hs hfail
    | error => exact absurd hs herror
  · rintro ⟨p, e, reply, hp, ha, hv⟩
    have hne : ∀ s, s ≠ ServiceStatus.pass → reply.status ≠ s := by
      rintro s hs rfl
      exact hs hv.status
    exact ⟨⟨p, hp⟩, ⟨e, ha.decoded⟩, ⟨p, e, hp, ha.decoded, ha.nonce, ha.evidenceNonce⟩,
      ⟨p, reply, hp, hv.answer, hne _ (by decide)⟩, ⟨p, reply, hp, hv.answer, hne _ (by decide)⟩,
      p, reply, hp, hv.answer, hv.judged⟩

/-- Once the response answers the open challenge, the answer of the service decides. -/
theorem decides_conclude (hp : c.pending = some p) (ha : Answers p r e) :
    Decides (conditions c r service) (some (.ofEvidence e))
      (conclude c.expected p (.ofEvidence e) (service (verifyRequest p r))) := by
  have hasked : ∀ {reason}, FirstUnmet ((conditions c r service).drop 3) reason →
      FirstUnmet (conditions c r service) reason := fun h =>
    .later ⟨p, hp⟩ (.later ⟨e, ha.decoded⟩
      (.later ⟨p, e, hp, ha.decoded, ha.nonce, ha.evidenceNonce⟩ h))
  have hnone : (∀ reply, service (verifyRequest p r) ≠ .reply reply) →
      FirstUnmet (conditions c r service) .measurementUnavailable := fun hn => by
    refine hasked (.here ?_)
    rintro ⟨p', reply, hp', hr, -⟩
    cases hp.symm.trans hp'
    exact hn reply hr
  cases hr : service (verifyRequest p r) with
  | fault f => exact .failed (hnone fun reply h => by cases hr.symm.trans h)
  | timeOut => exact .failed (hnone fun reply h => by cases hr.symm.trans h)
  | reply reply =>
    have hunique : ∀ {p' reply'}, c.pending = some p' →
        service (verifyRequest p' r) = .reply reply' → p' = p ∧ reply' = reply := by
      intro p' reply' hp' hr'
      cases hp.symm.trans hp'
      cases hr.symm.trans hr'
      exact ⟨rfl, rfl⟩
    unfold conclude
    dsimp only
    cases hs : reply.status with
    | error =>
      refine .failed (hasked (.here ?_))
      rintro ⟨p', reply', hp', hr', hne⟩
      obtain ⟨rfl, rfl⟩ := hunique hp' hr'
      exact hne hs
    | fail =>
      refine .failed (hasked (.later ⟨p, reply, hp, hr, by simp [hs]⟩ (.here ?_)))
      rintro ⟨p', reply', hp', hr', hne⟩
      obtain ⟨rfl, rfl⟩ := hunique hp' hr'
      exact hne hs
    | pass =>
      dsimp only
      cases hj : Appraisal.judge c.expected reply.measurements p.mask true with
      | ok u => exact .passed rfl (forall_conditions_iff.2 ⟨p, e, reply, hp, ha, hr, hs, hj⟩)
      | error reason =>
        obtain rfl := Appraisal.judge_error hj
        refine .failed (hasked (.later ⟨p, reply, hp, hr, by simp [hs]⟩
          (.later ⟨p, reply, hp, hr, by simp [hs]⟩ (.here ?_))))
        rintro ⟨p', reply', hp', hr', hok⟩
        obtain ⟨rfl, rfl⟩ := hunique hp' hr'
        cases hj.symm.trans hok

/-- **The conditions decide every appraisal.** -/
theorem decides_appraise (c : Coordinator) (r : Response) (service : ServiceRequest → Answer) :
    Decides (conditions c r service) (c.claimed? r) ((c.appraise r).run service).2 := by
  have h := c.appraises r
  revert h
  generalize c.appraise r = x
  intro h
  cases h with
  | unchallenged hp =>
    have hs : c.claimed? r = none := by simp only [claimed?, hp]
    rw [hs]
    exact .failed (.here fun ⟨p, hp'⟩ => by rw [hp] at hp'; cases hp')
  | malformed hp he =>
    have hs : c.claimed? r = none := by simp only [claimed?, hp, he]
    rw [hs]
    exact .failed (.later ⟨_, hp⟩ (.here fun ⟨e, he'⟩ => by rw [he] at he'; cases he'))
  | mismatched hp he hn =>
    rw [claimed?_eq_some_iff.2 ⟨⟨_, hp⟩, _, he, rfl⟩]
    refine .failed (.later ⟨_, hp⟩ (.later ⟨_, he⟩ (.here ?_)))
    rintro ⟨p', e', hp', he', hnonce⟩
    cases hp.symm.trans hp'
    cases he.symm.trans he'
    exact hn hnonce
  | asked hp ha =>
    rw [claimed?_eq_some_iff.2 ⟨⟨_, hp⟩, _, ha.decoded, rfl⟩]
    exact decides_conclude hp ha

/-- A request goes out exactly if the response answers the open challenge. -/
theorem request?_appraise_eq_some_iff {q : ServiceRequest} :
    (c.appraise r).request? = some q ↔
      ∃ p e, c.pending = some p ∧ Answers p r e ∧ q = verifyRequest p r := by
  have h := c.appraises r
  revert h
  generalize c.appraise r = x
  intro h
  cases h with
  | unchallenged hp =>
    refine iff_of_false (fun h => by cases h) ?_
    rintro ⟨p, e, hp', -⟩
    cases hp.symm.trans hp'
  | malformed hp he =>
    refine iff_of_false (fun h => by cases h) ?_
    rintro ⟨p, e, -, ha, -⟩
    cases he.symm.trans ha.decoded
  | mismatched hp he hn =>
    refine iff_of_false (fun h => by cases h) ?_
    rintro ⟨p, e, hp', ha, -⟩
    cases hp.symm.trans hp'
    cases he.symm.trans ha.decoded
    exact hn ⟨ha.nonce, ha.evidenceNonce⟩
  | @asked p e hp ha =>
    constructor
    · intro h
      exact ⟨p, e, hp, ha, (Option.some.inj h).symm⟩
    · rintro ⟨p', e', hp', -, rfl⟩
      cases hp.symm.trans hp'
      rfl

/-- **An appraisal is decided by the first condition that is not met.** Whatever the coordinator,
the response and the service: the response passes if and only if a challenge is open, the evidence
decodes, both nonces are that of the challenge, the service replies that it passes, and the values
are judged to be the expected ones for the selection of the challenge. Otherwise it fails, for the
reason of the first condition that is not met. The service is asked, once, exactly if the first
three are met. A reason is given only to a peer that fails. There is a summary exactly if the
evidence was decoded, and it says of type, selection and values what the evidence claims. Afterwards
no challenge is open. -/
theorem appraisal_is_decided_in_order (c : Coordinator) (r : Response)
    (service : ServiceRequest → Answer) :
    let a := ((c.appraise r).run service).2
    (a.verdict = .pass ↔ ∃ p e reply, c.pending = some p ∧ Answers p r e ∧
      Verified c.expected p (service (verifyRequest p r)) reply) ∧
    (a.verdict = .pass → a.reason = none) ∧
    (a.verdict ≠ .pass → a.verdict = .fail ∧
      ∃ reason, a.reason = some reason ∧ FirstUnmet (conditions c r service) reason) ∧
    (∀ q, (c.appraise r).request? = some q ↔
      ∃ p e, c.pending = some p ∧ Answers p r e ∧ q = verifyRequest p r) ∧
    (∀ s, a.evidence = some s ↔
      (∃ p, c.pending = some p) ∧ ∃ e, Evidence.decode r.evidence = .ok e ∧ s.Summarizes e) ∧
    ((c.appraise r).run service).1 = { c with pending := none } := by
  intro a
  have h : Decides (conditions c r service) (c.claimed? r) a := c.decides_appraise r service
  refine ⟨h.verdict_eq_pass_iff.trans forall_conditions_iff, h.reason_eq_none, h.fails,
    fun q => request?_appraise_eq_some_iff, fun s => ?_, ?_⟩
  · rw [h.evidence_eq]
    simp only [EvidenceSummary.summarizes_iff]
    exact claimed?_eq_some_iff
  · rcases c.appraise_run_cases r service with ⟨_, _, _, _, _, _, _, hrun⟩ | ⟨_, _, hrun⟩
    · rw [hrun]
      rfl
    · rw [hrun]
      rfl

/-- A coordinator that has challenged its peer over the nonce `2, 3`. -/
def plainChallenger : Coordinator :=
  ((ofExpected (.ofList [(0, [7])])).challenge [2, 3] .advanced (.single 0)).1

/-- A response over this nonce is asked about. If the service does not answer in time, it fails for
want of an answer, with a summary of its evidence; one over another nonce fails for its nonce. -/
theorem plainChallenger_decides :
    let silent : ServiceRequest → Answer := fun _ => .timeOut
    (∃ p e, plainChallenger.pending = some p ∧
      Answers p ⟨[2, 3], (plainEvidence [2, 3]).encode⟩ e) ∧
    FirstUnmet (conditions plainChallenger ⟨[2, 3], (plainEvidence [2, 3]).encode⟩ silent)
      .measurementUnavailable ∧
    (∃ s e, ((plainChallenger.appraise ⟨[2, 3], (plainEvidence [2, 3]).encode⟩).run
      silent).2.evidence = some s ∧
      Evidence.decode (plainEvidence [2, 3]).encode = .ok e ∧ s.Summarizes e) ∧
    FirstUnmet (conditions plainChallenger ⟨[4], (plainEvidence [4]).encode⟩ silent)
      .nonceMismatch := by
  intro silent
  obtain ⟨-, -, hsilent, hasked, hsummary, -⟩ := appraisal_is_decided_in_order plainChallenger
    ⟨[2, 3], (plainEvidence [2, 3]).encode⟩ silent
  obtain ⟨-, -, hother, -⟩ := appraisal_is_decided_in_order plainChallenger
    ⟨[4], (plainEvidence [4]).encode⟩ silent
  obtain ⟨-, reason, hr, hu⟩ := hsilent (by decide +kernel)
  obtain ⟨-, reason', hr', hu'⟩ := hother (by decide +kernel)
  have hreason : reason = .measurementUnavailable :=
    Option.some.inj (hr.symm.trans (by decide +kernel))
  have hreason' : reason' = .nonceMismatch := Option.some.inj (hr'.symm.trans (by decide +kernel))
  subst hreason hreason'
  have hs : ((plainChallenger.appraise ⟨[2, 3], (plainEvidence [2, 3]).encode⟩).run
      silent).2.evidence = some ⟨.advanced, .single 0, .ofList [(0, [7])]⟩ := by decide +kernel
  obtain ⟨-, e, he, hclaims⟩ := (hsummary _).1 hs
  refine ⟨?_, hu, ⟨_, e, hs, he, hclaims⟩, hu'⟩
  obtain ⟨p, e, hp, ha, -⟩ := (hasked ⟨.verify, .advanced, .single 0, [2, 3],
    some (plainEvidence [2, 3]).encode⟩).1 (by decide +kernel)
  exact ⟨p, e, hp, ha⟩

end Coordinator

end AttestedChannel
