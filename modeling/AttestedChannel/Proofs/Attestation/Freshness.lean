import AttestedChannel.Proofs.Attestation.Appraising
import Mathlib.Data.List.Induction
import Mathlib.Data.List.TakeWhile

/-!
# Passed responses are fresh

A coordinator passes a response only as the answer to its latest challenge, and only once. A `Call`
is one thing that can be done to a coordinator, with all that comes from outside: the nonce that was
drawn, what the peer sent, and the measurement service as it is at that moment. The `log` of a list
of calls says what each of them did.

Where the open challenge comes from is the invariant (`Awaits`): a challenge that was handed out
before, with nothing but answers to the peer since. Counting works the other way round, from a
coordinator on: a pass uses up a challenge that is open or yet to come (`countP_passes_le`).
-/

namespace AttestedChannel.Coordinator

/-! ## Runs -/

/-- What can be done to a coordinator. -/
inductive Call where
  | challenge (nonce : Bytes) (t : AttestationType) (mask : PropertyMask)
  | appraise (r : Response) (service : ServiceRequest → Answer)
  /-- the challenge is one of the peer -/
  | answer (ch : Challenge) (service : ServiceRequest → Answer)
  | reset

/-- What a call comes to. -/
inductive Outcome where
  | challenged (ch : Challenge)
  | appraised (a : Appraisal)
  | answered (r : Except FailureReason Response)
  | forgotten

/-- What one call did. -/
structure Entry where
  before : Coordinator
  call : Call
  after : Coordinator
  outcome : Outcome
  /-- what the measurement service was asked -/
  request? : Option ServiceRequest

namespace Entry

/-- Whether a challenge was handed out. -/
def challenges (x : Entry) : Bool :=
  match x.outcome with
  | .challenged _ => true
  | _ => false

/-- Whether a response passed. -/
def passes (x : Entry) : Bool :=
  match x.outcome with
  | .appraised a => a.isPass
  | _ => false

/-- Whether a challenge of the peer was answered, or could not be. -/
def answers (x : Entry) : Bool :=
  match x.outcome with
  | .answered _ => true
  | _ => false

end Entry

/-- Does what a call says. -/
def perform (c : Coordinator) (k : Call) : Entry :=
  match k with
  | .challenge nonce t mask =>
    let (c', ch) := c.challenge nonce t mask
    ⟨c, k, c', .challenged ch, none⟩
  | .appraise r service =>
    let (c', a) := (c.appraise r).run service
    ⟨c, k, c', .appraised a, (c.appraise r).request?⟩
  | .answer ch service =>
    ⟨c, k, c, .answered ((Coordinator.answer ch).run service), (Coordinator.answer ch).request?⟩
  | .reset => ⟨c, k, c.reset, .forgotten, none⟩

/-- The coordinator after a list of calls. -/
def run (c : Coordinator) (ks : List Call) : Coordinator :=
  ks.foldl (fun c k => (c.perform k).after) c

/-- What each of a list of calls did. -/
def log : Coordinator → List Call → List Entry
  | _, [] => []
  | c, k :: ks => c.perform k :: (c.perform k).after.log ks

@[simp] theorem run_concat (c : Coordinator) (ks : List Call) (k : Call) :
    c.run (ks ++ [k]) = ((c.run ks).perform k).after := by
  simp [run]

@[simp] theorem log_concat (c : Coordinator) (ks : List Call) (k : Call) :
    c.log (ks ++ [k]) = c.log ks ++ [(c.run ks).perform k] := by
  induction ks generalizing c with
  | nil => rfl
  | cons j ks ih => simp [log, ih, run]

/-- Each part of a log is the log of a part of the calls. -/
theorem log_eq_append {c : Coordinator} {ks : List Call} {h h' : List Entry}
    (he : c.log ks = h ++ h') :
    ∃ js js', ks = js ++ js' ∧ c.log js = h ∧ (c.run js).log js' = h' := by
  induction h generalizing c ks with
  | nil => exact ⟨[], ks, rfl, rfl, he⟩
  | cons x h ih =>
    cases ks with
    | nil => cases he
    | cons k ks =>
      obtain ⟨hx, he⟩ := List.cons.inj he
      obtain ⟨js, js', rfl, hj, hj'⟩ := ih he
      refine ⟨k :: js, js', rfl, ?_, hj'⟩
      rw [log, hj, hx]

/-- An entry of a log is what its call did to the coordinator of that moment. -/
theorem log_eq_append_cons {c : Coordinator} {ks : List Call} {past later : List Entry} {x : Entry}
    (he : c.log ks = past ++ x :: later) :
    ∃ js k js', c.log js = past ∧ (c.run js).perform k = x ∧ x.after.log js' = later := by
  obtain ⟨js, js', -, hj, hj'⟩ := log_eq_append he
  cases js' with
  | nil => cases hj'
  | cons k js' =>
    obtain ⟨hx, hlater⟩ := List.cons.inj hj'
    exact ⟨js, k, js', hj, hx, hx ▸ hlater⟩

/-! ## What one call does -/

theorem perform_appraise (c : Coordinator) (r : Response) (service : ServiceRequest → Answer) :
    c.perform (.appraise r service) =
      ⟨c, .appraise r service, ((c.appraise r).run service).1,
        .appraised ((c.appraise r).run service).2, (c.appraise r).request?⟩ := rfl

/-- A call that passes is an appraisal of a response to the open challenge. -/
theorem pending_of_passes {c : Coordinator} {k : Call} (h : (c.perform k).passes = true) :
    ∃ r service p e, k = .appraise r service ∧ c.pending = some p ∧ Answers p r e ∧
      (c.perform k).after = c.reset := by
  cases k with
  | challenge | answer | reset => cases h
  | appraise r service =>
    rcases c.appraise_run_cases r service with ⟨p, e, -, hp, ha, -, -, hrun⟩ | ⟨reason, s, hrun⟩
    · refine ⟨r, service, p, e, rfl, hp, ha, ?_⟩
      simp only [perform, hrun]
    · simp [perform, hrun, Entry.passes, Appraisal.failed, Appraisal.isPass] at h

/-- An appraisal leaves no challenge open. -/
theorem after_appraise (c : Coordinator) (r : Response) (service : ServiceRequest → Answer) :
    (c.perform (.appraise r service)).after = c.reset := by
  rw [perform_appraise]
  rcases c.appraise_run_cases r service with ⟨_, _, _, _, _, _, _, hrun⟩ | ⟨_, _, hrun⟩
  · rw [hrun]
  · rw [hrun]

/-- Answering the peer changes nothing. -/
theorem after_of_answers {c : Coordinator} {k : Call} (h : (c.perform k).answers = true) :
    (c.perform k).after = c := by
  cases k with
  | challenge | appraise | reset => cases h
  | answer => rfl

/-- A response over another nonce than that of the open challenge does not even reach the service.
-/
theorem perform_appraise_of_ne {c : Coordinator} {r : Response} {p : OpenChallenge} {e : Evidence}
    (hp : c.pending = some p) (he : Evidence.decode r.evidence = .ok e) (hn : r.nonce ≠ p.nonce)
    (service : ServiceRequest → Answer) :
    c.perform (.appraise r service) =
      ⟨c, .appraise r service, c.reset,
        .appraised (.failed .nonceMismatch (some (.ofEvidence e))), none⟩ := by
  have h := c.appraises r
  rw [perform_appraise]
  revert h
  generalize c.appraise r = x
  intro h
  cases h with
  | unchallenged hq => rw [hp] at hq; cases hq
  | malformed _ hf => rw [he] at hf; cases hf
  | mismatched _ he' => rw [he] at he'; cases he'; rfl
  | asked hq ha =>
    rw [hp] at hq
    cases hq
    exact absurd ha.nonce hn

/-- A response that is turned down for its nonce or its evidence causes no request. -/
theorem request_of_isFoundUnasked {c : Coordinator} {k : Call} {a : Appraisal}
    {reason : FailureReason} (ha : (c.perform k).outcome = .appraised a)
    (hr : a.reason = some reason) (hu : reason.isFoundUnasked = true) :
    (c.perform k).request? = none := by
  cases k with
  | challenge | answer | reset => cases ha
  | appraise r service =>
    have h := c.appraises r
    rw [perform_appraise] at ha ⊢
    revert h ha
    generalize c.appraise r = x
    intro ha h
    cases h with
    | unchallenged | malformed | mismatched => rfl
    | asked hp hq =>
      injection ha with ha
      have hf := isFoundUnasked_of_conclude (ha ▸ hr)
      rw [hu] at hf
      cases hf

/-! ## Where the open challenge comes from -/

/-- The latest of these entries, answers to the peer apart, handed out a challenge over the nonce.
-/
def Awaits (h : List Entry) (nonce : Bytes) : Prop :=
  ∃ earlier y between ch, h = earlier ++ y :: between ∧ y.outcome = .challenged ch ∧
    ch.nonce = nonce ∧ ∀ z ∈ between, z.answers = true

theorem Awaits.concat {h : List Entry} {nonce : Bytes} (ha : Awaits h nonce) {x : Entry}
    (hx : x.answers = true) : Awaits (h ++ [x]) nonce := by
  obtain ⟨earlier, y, between, ch, rfl, hy, hn, hb⟩ := ha
  refine ⟨earlier, y, between ++ [x], ch, by simp, hy, hn, ?_⟩
  intro z hz
  rcases List.mem_append.1 hz with hz | hz
  · exact hb z hz
  · rw [List.mem_singleton.1 hz]
    exact hx

/-- **An open challenge has been handed out last.** -/
theorem awaits_of_pending (expected : Measurements) (ks : List Call) {p : OpenChallenge}
    (hp : ((ofExpected expected).run ks).pending = some p) :
    Awaits ((ofExpected expected).log ks) p.nonce := by
  -- from the end of the run, where the log grows
  induction ks using List.reverseRec generalizing p with
  | nil => cases hp
  | append_singleton ks k ih =>
    rw [run_concat] at hp
    rw [log_concat]
    cases k with
    | challenge nonce t mask =>
      cases hp
      refine ⟨_, _, [], ⟨nonce, t, mask⟩, rfl, rfl, rfl, ?_⟩
      intro z hz
      cases hz
    | appraise r service =>
      rw [after_appraise] at hp
      cases hp
    | answer ch service => exact (ih hp).concat rfl
    | reset => cases hp

/-! ## Counting -/

/-- A pass uses up the open challenge, and only a challenge opens one. -/
theorem passes_add_pending_le (c : Coordinator) (k : Call) :
    (c.perform k).passes.toNat + (c.perform k).after.pending.toList.length ≤
      (c.perform k).challenges.toNat + c.pending.toList.length := by
  cases k with
  | challenge nonce t mask => exact Nat.le_add_right 1 _
  | appraise r service =>
    rw [after_appraise]
    cases hpass : (c.perform (.appraise r service)).passes with
    | false => exact Nat.zero_le _
    | true =>
      obtain ⟨_, _, p, _, _, hp, _, _⟩ := pending_of_passes hpass
      rw [hp]
      exact Nat.le_add_left 1 _
  | answer ch service => exact Nat.le_refl _
  | reset => exact Nat.zero_le _

/-- From any coordinator on, passes are no more than challenges and the open challenge. -/
theorem countP_passes_le (c : Coordinator) (ks : List Call) :
    (c.log ks).countP Entry.passes ≤
      (c.log ks).countP Entry.challenges + c.pending.toList.length := by
  induction ks generalizing c with
  | nil => exact Nat.zero_le _
  | cons k ks ih =>
    have hstep := c.passes_add_pending_le k
    have hrun := ih (c.perform k).after
    have htoNat : ∀ b : Bool, b.toNat = if b then 1 else 0 := by decide
    rw [htoNat, htoNat] at hstep
    rw [log, List.countP_cons, List.countP_cons]
    omega

/-- Until the next challenge at most one response passes. -/
theorem countP_passes_le_one {c : Coordinator} {ks : List Call} {h h' : List Entry}
    (he : c.log ks = h ++ h') (hc : ∀ x ∈ h, x.challenges = false) :
    h.countP Entry.passes ≤ 1 := by
  obtain ⟨js, -, -, rfl, -⟩ := log_eq_append he
  have hcount := countP_passes_le c js
  have hnone : (c.log js).countP Entry.challenges = 0 := by
    rw [List.countP_eq_zero]
    intro x hx
    rw [hc x hx]
    exact Bool.false_ne_true
  have hone : c.pending.toList.length ≤ 1 := by cases c.pending <;> simp
  omega

/-- **Passed responses are fresh.** In every run, whatever the peer sends and whatever the
measurement service answers:

* a response that passes answers the latest challenge, with no reset and no other response since,
  and it and its evidence carry the nonce of that challenge; its nonce being another than that of
  the challenge that is open, the same response fails;
* there are no more passes than challenges, and at most one between a challenge and the next;
* a response that is turned down for want of a challenge, for its evidence or for its nonce causes
  no request, and answering the peer leaves the open challenge as it is. -/
theorem passed_responses_are_fresh (expected : Measurements) (ks : List Call) :
    let h := (ofExpected expected).log ks
    (∀ past x later, h = past ++ x :: later → x.passes = true →
      ∃ r service e, x.call = .appraise r service ∧ Awaits past r.nonce ∧
        Evidence.decode r.evidence = .ok e ∧ e.nonce = r.nonce ∧
        ∀ (c : Coordinator) p, c.pending = some p → p.nonce ≠ r.nonce → ∀ service',
          ∃ a s, (c.perform (.appraise r service')).outcome = .appraised a ∧
            a.RecordsFailure .nonceMismatch ∧ a.evidence = some s ∧ s.Summarizes e) ∧
    h.countP Entry.passes ≤ h.countP Entry.challenges ∧
    (∀ past y later, h = past ++ y :: later → y.challenges = true →
      (later.takeWhile fun z => !z.challenges).countP Entry.passes ≤ 1) ∧
    (∀ x ∈ h, ∀ a reason, x.outcome = .appraised a → a.reason = some reason →
      reason.isFoundUnasked = true → x.request? = none) ∧
    ∀ x ∈ h, x.answers = true → x.after.pending = x.before.pending := by
  intro h
  refine ⟨?_, ?_, ?_, ?_, ?_⟩
  · intro past x later he hx
    obtain ⟨js, k, -, rfl, rfl, -⟩ := log_eq_append_cons he
    obtain ⟨r, service, p, e, rfl, hp, ha, -⟩ := pending_of_passes hx
    refine ⟨r, service, e, rfl, ?_, ha.decoded, ha.evidenceNonce.trans ha.nonce.symm, ?_⟩
    · rw [ha.nonce]
      exact awaits_of_pending expected js hp
    · intro c q hq hne service'
      rw [perform_appraise_of_ne hq ha.decoded (Ne.symm hne)]
      exact ⟨_, _, rfl, Appraisal.recordsFailure_failed _ _, rfl,
        EvidenceSummary.summarizes_iff.2 rfl⟩
  · exact countP_passes_le (ofExpected expected) ks
  · intro past y later he _
    obtain ⟨js, k, js', -, -, rfl⟩ := log_eq_append_cons he
    refine countP_passes_le_one (List.takeWhile_append_dropWhile
      (p := fun z : Entry => !z.challenges) (l := y.after.log js')).symm ?_
    intro z hz
    simpa using List.mem_takeWhile_imp hz
  · intro x hx a reason ha hr hu
    obtain ⟨past, later, he⟩ := List.append_of_mem hx
    obtain ⟨js, k, -, -, rfl, -⟩ := log_eq_append_cons he
    exact request_of_isFoundUnasked ha hr hu
  · intro x hx ha
    obtain ⟨past, later, he⟩ := List.append_of_mem hx
    obtain ⟨js, k, -, -, rfl, -⟩ := log_eq_append_cons he
    have hbefore : ((run (ofExpected expected) js).perform k).before = run (ofExpected expected) js := by
      cases k <;> rfl
    rw [after_of_answers ha, hbefore]

/-- A challenge, a challenge of the peer, and the same response twice. -/
def plainCalls : List Call :=
  [.challenge [2, 3] .advanced (.single 0), .answer ⟨[9], .basic, .empty⟩ plainService,
    .appraise ⟨[2, 3], (plainEvidence [2, 3]).encode⟩ plainService,
    .appraise ⟨[2, 3], (plainEvidence [2, 3]).encode⟩ plainService]

/-- The response passes as the answer to the challenge before the one of the peer, but not again, and
the second time causes no request. -/
theorem plainCalls_fresh :
    let h := (ofExpected (.ofList [(0, [7])])).log plainCalls
    h.map Entry.passes = [false, false, true, false] ∧ Awaits (h.take 2) [2, 3] ∧
      ((h.drop 1).takeWhile fun z => !z.challenges).countP Entry.passes ≤ 1 ∧
      ∀ x ∈ h.drop 3, x.request? = none := by
  intro h
  have hpasses : h.map Entry.passes = [false, false, true, false] := by decide +kernel
  obtain ⟨hfresh, -, honce, hunasked, -⟩ :=
    passed_responses_are_fresh (.ofList [(0, [7])]) plainCalls
  refine ⟨hpasses, ?_, honce [] _ (h.drop 1) rfl rfl, ?_⟩
  · obtain ⟨r, _, _, hr, ha, -⟩ :=
      hfresh (h.take 2) _ (h.drop 3) rfl (by decide +kernel)
    cases hr
    exact ha
  · intro x hx
    have hx : x = ((ofExpected (.ofList [(0, [7])])).run (plainCalls.take 3)).perform
        (.appraise ⟨[2, 3], (plainEvidence [2, 3]).encode⟩ plainService) := List.mem_singleton.1 hx
    have hp : ((ofExpected (.ofList [(0, [7])])).run (plainCalls.take 3)).pending = none := by
      decide +kernel
    have ho : x.outcome = .appraised (.failed .noPendingChallenge none) := by
      rw [hx, perform_appraise, appraise, hp]
      rfl
    exact hunasked x (List.mem_of_mem_drop (i := 3) (by rw [hx]; exact List.mem_singleton_self _))
      _ _ ho rfl rfl

end AttestedChannel.Coordinator
