import AttestedChannel.Proofs.Handshake.Sendable
import AttestedChannel.Proofs.Payload.Brevity

/-!
# How a failure is answered

A machine that fails tells its peer so in exactly one frame, unless it is the peer who has told it.
`Moment.Warrants` lists the causes of a failure with the payload that each is answered by. The frame
can always be sent: error texts quote what the peer has sent, but only in few words. A failed
verification is answered by the code of its reason, and no two reasons have the same code
(`FailureReason.codes`).
-/

namespace AttestedChannel

/-! ## Error texts -/

namespace HandshakeError

/-- An error text that is short fits a frame. -/
theorem fits_of_length_le {c : ErrorCode} {s : String} (h : s.length ≤ 52000) :
    (Payload.error ⟨c, s⟩).Fits := by
  have hl := ErrorReport.length_encode_le ⟨c, s⟩
  refine Nat.le_trans hl ?_
  dsimp only
  unfold FrameHeader.maxPayload
  omega

theorem length_malformedFrame_le {f : FrameFault} (h : f.IsShort) :
    (malformedFrame f).message.length ≤ 52000 := by
  unfold FrameFault.IsShort at h
  unfold message
  simp only [String.length_append, show "malformed frame: ".length = 17 by decide]
  omega

theorem length_unsupportedVersion_le (v : UInt8) :
    (unsupportedVersion v).message.length ≤ 52000 := by
  have h := Cbor.length_toString_le_of_lt (Nat.lt_trans v.toNat_lt (by decide))
  unfold message
  simp only [String.length_append, show "unsupported handshake version: ".length = 31 by decide]
  omega

theorem length_quoteFailed_le (r : FailureReason) : (quoteFailed r).message.length ≤ 52000 := by
  have hr : r.name.length ≤ 30 := by cases r <;> decide
  unfold message
  simp only [String.length_append, show "local attestation failed: ".length = 26 by decide]
  omega

theorem length_timeOut_le (d : Duration) : (timeOut d).message.length ≤ 52000 := by
  have h := d.length_text_le
  unfold message
  simp only [String.length_append, show "handshake timeout after ".length = 24 by decide]
  omega

theorem length_unexpectedMessage_le (s : HandshakeState) (t : MessageType) :
    (unexpectedMessage s t).message.length ≤ 52000 := by
  have hs : s.name.length ≤ 20 := by cases s <;> decide
  have ht : t.name.length ≤ 20 := by cases t <;> decide
  unfold message
  simp only [String.length_append, show "unexpected ".length = 11 by decide,
    show " in state ".length = 10 by decide]
  omega

end HandshakeError

/-! ## Reasons and their codes -/

namespace FailureReason

/-- What a peer is told that has failed verification for a reason. -/
def codes : List (FailureReason × String) :=
  [(.measurementUnavailable, "measurement-unavailable"),
   (.nonceMismatch, "nonce-mismatch"),
   (.evidenceMalformed, "evidence-malformed"),
   (.measurementMismatch, "measurement-mismatch"),
   (.rejectedByService, "rejected-by-service"),
   (.noPendingChallenge, "no-pending-challenge")]

/-- The name of a reason is its code, and that of no other reason. -/
theorem mem_codes_name (other reason : FailureReason) :
    (other, reason.name) ∈ codes ↔ other = reason := by
  cases other <;> cases reason <;> decide

end FailureReason

/-! ## Causes -/

/-- An event that comes in: octets, or a payload that can be written. -/
def Event.IsInbound (e : Event) : Prop := (∃ b, e = .ofBytes b) ∨ ∃ p, ofPayload p = .ok e

/-- A delivery of an event that comes in, or a look at the clock. -/
def Command.IsStep (k : Command) : Prop :=
  (∃ now nonce service e, k = .feed now nonce service e ∧ e.IsInbound) ∨ ∃ now, k = .tick now

namespace Moment

/-- The machine is fed octets in which a fault is found. -/
def ReceivesFault (x : Moment) (f : FrameFault) : Prop :=
  ∃ now nonce service e, x.command = .feed now nonce service e ∧ e.fault = some f

/-- The machine is fed this challenge, and the service has no evidence for it. -/
def LacksQuote (x : Moment) (ch : Challenge) (reason : FailureReason) : Prop :=
  ∃ now nonce service e, x.command = .feed now nonce service e ∧ e.Carries (.challenge ch) ∧
    Coordinator.respond ch (service (Coordinator.quoteRequest ch)) = .error reason

/-- It is the peer who tells the machine that the handshake has failed. -/
def IsTold (x : Moment) : Prop :=
  (∃ r, x.Receives (.error r)) ∨
    x.before.state = .verdictPending ∧ ∃ r, x.Receives (.result r) ∧ r.verdict ≠ .pass

/-- The causes of a failure that the machine finds out itself, and what they are answered by. -/
inductive Warrants (x : Moment) : Payload → Prop
  | malformed {f : FrameFault} (h : x.ReceivesFault f) :
    Warrants x (.error ⟨.malformedFrame, (HandshakeError.malformedFrame f).message⟩)
  | version {h : Hello} (hx : x.Receives (.hello h)) (ht : x.before.Takes (.hello h))
      (hv : h.version ≠ Hello.currentVersion) :
    Warrants x (.error ⟨.unsupportedVersion, (HandshakeError.unsupportedVersion h.version).message⟩)
  | quote {ch : Challenge} {reason : FailureReason} (hx : x.LacksQuote ch reason)
      (ht : x.before.Takes (.challenge ch)) :
    Warrants x (.error ⟨.attestationFailed, (HandshakeError.quoteFailed reason).message⟩)
  | time {now : Instant} {d : Duration} (hx : x.command = .tick now) :
    Warrants x (.error ⟨.handshakeTimeout, (HandshakeError.timeOut d).message⟩)
  | unexpected {p : Payload} (hx : x.Receives p) (ht : ¬ x.before.Takes p) :
    Warrants x (.error ⟨.protocolViolation,
      (HandshakeError.unexpectedMessage x.before.state p.messageType).message⟩)
  | verification {r : Response} {a : Appraisal} {reason : FailureReason} {text : String}
      (hx : x.Receives (.response r)) (ht : x.before.Takes (.response r))
      (ha : x.after.appraisal = some a) (hf : a.RecordsFailure reason)
      (hc : ∀ other, (other, text) ∈ FailureReason.codes ↔ other = reason) :
    Warrants x (.result ⟨.fail, some text⟩)

theorem Receives.unique {x : Moment} {p q : Payload} (hp : x.Receives p) (hq : x.Receives q) :
    p = q := by
  obtain ⟨now, nonce, service, e, hk, hp⟩ := hp
  obtain ⟨now', nonce', service', e', hk', hq⟩ := hq
  cases hk.symm.trans hk'
  exact hp.2.symm.trans hq.2

theorem LacksQuote.receives {x : Moment} {ch : Challenge} {reason : FailureReason}
    (h : x.LacksQuote ch reason) : x.Receives (.challenge ch) := by
  obtain ⟨now, nonce, service, e, hk, he, -⟩ := h
  exact ⟨now, nonce, service, e, hk, he⟩

/-- Octets in which a fault is found are no message of the peer. -/
theorem ReceivesFault.not_receives {x : Moment} {f : FrameFault} {p : Payload}
    (hf : x.ReceivesFault f) : ¬ x.Receives p := by
  rintro ⟨now, nonce, service, e, hk, hp⟩
  obtain ⟨now', nonce', service', e', hk', hf⟩ := hf
  cases hk.symm.trans hk'
  cases hf.symm.trans hp.1

theorem IsTold.receives {x : Moment} (h : x.IsTold) :
    ∃ p, x.Receives p ∧ x.before.Takes p ∧ p.IsFatal := by
  rcases h with ⟨r, hr⟩ | ⟨hs, r, hr, hv⟩
  · exact ⟨_, hr, trivial, trivial⟩
  · exact ⟨_, hr, hs, hv⟩

/-- What the machine finds out itself it is not told by the peer. -/
theorem Warrants.not_isTold {x : Moment} {p : Payload} (h : x.Warrants p) : ¬ x.IsTold := by
  intro ht
  obtain ⟨q, hq, htakes, hfatal⟩ := ht.receives
  cases h with
  | malformed h => exact h.not_receives hq
  | version hx | verification hx =>
    cases hx.unique hq
    exact hfatal
  | quote hx =>
    cases hx.receives.unique hq
    exact hfatal
  | time hx =>
    obtain ⟨now, nonce, service, e, hk, -⟩ := hq
    cases hx.symm.trans hk
  | unexpected hx hn =>
    cases hx.unique hq
    exact hn htakes

/-- Octets in which a fault is found warrant nothing else. -/
theorem Warrants.eq_of_receivesFault {x : Moment} {p : Payload} {f : FrameFault} (h : x.Warrants p)
    (hf : x.ReceivesFault f) :
    p = .error ⟨.malformedFrame, (HandshakeError.malformedFrame f).message⟩ := by
  cases h with
  | malformed hf' =>
    obtain ⟨now, nonce, service, e, hk, he⟩ := hf
    obtain ⟨now', nonce', service', e', hk', he'⟩ := hf'
    cases hk.symm.trans hk'
    cases he.symm.trans he'
    rfl
  | version hx | verification hx | unexpected hx => exact absurd hx hf.not_receives
  | quote hx => exact absurd hx.receives hf.not_receives
  | time hx =>
    obtain ⟨now, nonce, service, e, hk, -⟩ := hf
    cases hx.symm.trans hk

/-- A response that is taken warrants nothing but the code of the reason that is recorded. -/
theorem Warrants.exists_code {x : Moment} {p : Payload} {r : Response} (h : x.Warrants p)
    (hx : x.Receives (.response r)) (ht : x.before.Takes (.response r)) :
    ∃ a reason text, x.after.appraisal = some a ∧ a.RecordsFailure reason ∧
      (∀ other, (other, text) ∈ FailureReason.codes ↔ other = reason) ∧
      p = .result ⟨.fail, some text⟩ := by
  cases h with
  | malformed hf => exact absurd hx hf.not_receives
  | version hy => cases hx.unique hy
  | quote hy => cases hx.unique hy.receives
  | time hy =>
    obtain ⟨now, nonce, service, e, hk, -⟩ := hx
    cases hy.symm.trans hk
  | unexpected hy hn =>
    cases hx.unique hy
    exact absurd ht hn
  | verification _ _ ha hf hc => exact ⟨_, _, _, ha, hf, hc, rfl⟩

end Moment

/-- Octets that carry no payload are an event with that fault. -/
theorem Event.fault_ofBytes {b : Bytes} {f : FrameFault} (h : payloadOf b = .error f) :
    (ofBytes b).fault = some f := by
  unfold ofBytes
  rw [h]

namespace Machine

variable {m : Machine} {now : Instant} {nonce : Bytes} {service : ServiceRequest → Answer}
  {e : Event}

/-- The fault of an event that comes in takes few words. -/
theorem isShort_of_isInbound (he : e.IsInbound) {f : FrameFault} (hf : e.fault = some f) :
    f.IsShort := by
  rcases he with ⟨b, rfl⟩ | ⟨p, hp⟩
  · unfold Event.ofBytes at hf
    split at hf
    · cases hf
    · next hb =>
      cases hf
      exact FrameFault.isShort_of_payloadOf hb
  · unfold Event.ofPayload at hp
    split at hp
    · cases hp
      cases hf
    · cases hp

/-- A reported failure is one frame. -/
theorem actions_settle_of_reply {err : HandshakeError} {q : Payload} (hq : m.reply? err = some q) :
    (settle e (m.refuse err)).actions = [m.outbound q] := by
  rw [actions_settle_refuse, hq]
  rfl

/-- A failure at an event is told by the peer and not answered, or answered by what its cause
warrants. -/
theorem feed_failing (hm : m.state.isTerminal = false) (he : e.IsInbound)
    (hf : (m.perform (.feed now nonce service e)).after.state = .failed) :
    ((m.perform (.feed now nonce service e)).IsTold ∧
        (m.perform (.feed now nonce service e)).actions = []) ∨
      ∃ p, (m.perform (.feed now nonce service e)).Warrants p ∧
        (m.perform (.feed now nonce service e)).actions = [m.outbound p] ∧ p.Fits := by
  obtain ⟨req, pr, tr, hrun⟩ := feed_transition hm now nonce e service
  have hreceives : ∀ {p}, e.Carries p → (m.perform (.feed now nonce service e)).Receives p :=
    fun hp => ⟨now, nonce, service, e, rfl, hp⟩
  have hafter : (m.perform (.feed now nonce service e)).after = (settle e pr).machine :=
    congrArg Turn.machine hrun
  have hactions : (m.perform (.feed now nonce service e)).actions = (settle e pr).actions :=
    congrArg Turn.actions hrun
  rw [hactions]
  rw [hafter] at hf
  cases tr with
  | @malformed f h =>
    refine .inr ⟨_, .malformed ⟨now, nonce, service, e, rfl, h⟩,
      actions_settle_of_reply (reply_of_code rfl), ?_⟩
    exact HandshakeError.fits_of_length_le
      (HandshakeError.length_malformedFrame_le (isShort_of_isInbound he h))
  | peerError h => exact .inl ⟨.inl ⟨_, hreceives h⟩, actions_settle_refuse _ _ _⟩
  | unexpected h ht =>
    refine .inr ⟨_, .unexpected (hreceives h) ht, actions_settle_of_reply (reply_of_code rfl), ?_⟩
    exact HandshakeError.fits_of_length_le (HandshakeError.length_unexpectedMessage_le _ _)
  | unsupported h ht hv =>
    refine .inr ⟨_, .version (hreceives h) ht hv, actions_settle_of_reply (reply_of_code rfl), ?_⟩
    exact HandshakeError.fits_of_length_le (HandshakeError.length_unsupportedVersion_le _)
  | @appraisalFailed r reason s h ht =>
    have hb := ((m.noteStart now).appraised (.failed reason s)).becomes_settle_refuse e
      (.attestationFailed reason)
    refine .inr ⟨_, .verification (hreceives h) ht (hafter ▸ hb.appraisal)
      (Appraisal.recordsFailure_failed reason s) fun other => other.mem_codes_name reason,
      actions_settle_of_reply rfl, ?_⟩
    exact Nat.le_trans (Appraisal.failed reason s).length_encode_report_le (by decide)
  | quoteFailed h ht hq =>
    refine .inr ⟨_, .quote ⟨now, nonce, service, e, rfl, h, hq⟩ ht,
      actions_settle_of_reply (reply_of_code rfl), ?_⟩
    exact HandshakeError.fits_of_length_le (HandshakeError.length_quoteFailed_le _)
  | rejected h ht hv => exact .inl ⟨.inr ⟨ht, _, hreceives h, hv⟩, actions_settle_refuse _ _ _⟩
  | passedToAcceptor =>
    replace hf : (if m.isMutual = true then HandshakeState.responseReceived else .metadata) =
      .failed := hf
    split at hf <;> cases hf
  | challenged | passedToInitiator | quoted | acceptedAcceptor | acceptedMutually | acceptedOneWay
  | describedToAcceptor | describedToInitiator => cases hf

/-- A failure at a look at the clock is a time-out. -/
theorem tick_failing (hm : m.state.isTerminal = false)
    (hf : (m.perform (.tick now)).after.state = .failed) :
    ∃ p, (m.perform (.tick now)).Warrants p ∧ (m.perform (.tick now)).actions = [m.outbound p] ∧
      p.Fits := by
  replace hf : (m.tick now).1.state = .failed := hf
  have hactions : (m.perform (.tick now)).actions = (m.tick now).2 := rfl
  rw [hactions]
  rcases m.tick_cases now with h | ⟨-, elapsed, h⟩
  · rw [h] at hf
    rw [hf] at hm
    cases hm
  · have hr : m.reply? (.timeOut elapsed) =
        some (.error ⟨.handshakeTimeout, (HandshakeError.timeOut elapsed).message⟩) := rfl
    refine ⟨_, .time rfl, ?_, HandshakeError.fits_of_length_le (HandshakeError.length_timeOut_le
      elapsed)⟩
    rw [h, fail_actions, hr]
    rfl

end Machine

open Machine

/-- **A failure is answered once, unless the peer has told of it.** A running machine that fails at
an event or at a look at the clock does nothing if it is told by an error report or by a verdict
that it waits for. In every other case it sends exactly one frame, which can be written, whatever
has come in; it carries what the cause of the failure warrants. In particular it tells a peer that
has failed verification the code of the reason that is recorded, which is that of no other reason.
Octets in which a fault is found are never taken for an error report of the peer. -/
theorem failure_is_answered_once {m : Machine} (hm : m.state.isTerminal = false) {k : Command}
    (hk : k.IsStep) (hf : (m.perform k).after.state = .failed) :
    ((m.perform k).IsTold → (m.perform k).actions = []) ∧
    (¬ (m.perform k).IsTold → ∃ p f b, (m.perform k).Warrants p ∧ (m.perform k).actions = [.send f] ∧
      f = p.toFrame (.ofType p.messageType m.nextSequence) ∧ f.encode = .ok b) ∧
    ∀ b f, (∃ now nonce service, k = .feed now nonce service (.ofBytes b)) →
      Event.payloadOf b = .error f →
      (m.perform k).actions = [m.outbound
        (.error ⟨.malformedFrame, (HandshakeError.malformedFrame f).message⟩)] := by
  have hcases : ((m.perform k).IsTold ∧ (m.perform k).actions = []) ∨
      ∃ p, (m.perform k).Warrants p ∧ (m.perform k).actions = [m.outbound p] ∧ p.Fits := by
    rcases hk with ⟨now, nonce, service, e, rfl, he⟩ | ⟨now, rfl⟩
    · exact feed_failing hm he hf
    · exact .inr (tick_failing hm hf)
  refine ⟨fun ht => ?_, fun hn => ?_, ?_⟩
  · rcases hcases with ⟨-, h⟩ | ⟨p, hp, -⟩
    · exact h
    · exact absurd ht hp.not_isTold
  · rcases hcases with ⟨ht, -⟩ | ⟨p, hp, hactions, hfits⟩
    · exact absurd ht hn
    · exact ⟨p, _, _, hp, hactions, rfl, by rw [Payload.encode_toFrame, if_pos hfits]⟩
  · rintro b f ⟨now, nonce, service, rfl⟩ hb
    have hfault : (m.perform (.feed now nonce service (.ofBytes b))).ReceivesFault f :=
      ⟨now, nonce, service, _, rfl, Event.fault_ofBytes hb⟩
    rcases hcases with ⟨ht, -⟩ | ⟨p, hp, hactions, -⟩
    · obtain ⟨q, hq, -⟩ := ht.receives
      exact absurd hq hfault.not_receives
    · rw [hactions, hp.eq_of_receivesFault hfault]

/-- The octets of the first frame of a peer. -/
def plainFrame (p : Payload) : Bytes :=
  (p.toFrame (.ofType p.messageType 0)).header.encode ++ p.encode

/-- An error report. -/
def plainNotice : Bytes := plainFrame (.error ⟨.protocolViolation, "no"⟩)

/-- A response over a nonce that was not drawn. -/
def plainMismatch : Event :=
  .ofBytes (plainFrame (.response ⟨[5], (plainEvidence [5]).encode⟩))

/-- An acceptor answers octets that are no frame, and it answers a peer that lets it wait, but not
one that reports an error. A response over another nonce is answered by the code for that. -/
theorem plainFailures_answered :
    (∃ f b, ((ofConfig (plainConfig .acceptor)).perform
      (.feed 0 [] plainService (.ofBytes []))).actions = [.send f] ∧ f.encode = .ok b) ∧
    ((ofConfig (plainConfig .acceptor)).perform
      (.feed 0 [] plainService (.ofBytes plainNotice))).actions = [] ∧
    (∃ f b, (((ofConfig (plainConfig .acceptor)).run (plainCommands.take 1)).perform
      (.tick 100000000000)).actions = [.send f] ∧ f.encode = .ok b) ∧
    ∃ h b, (((ofConfig (plainConfig .acceptor)).run (plainCommands.take 1)).perform
      (.feed 1 [] plainService plainMismatch)).actions =
        [.send ((Payload.result ⟨.fail, some "nonce-mismatch"⟩).toFrame h)] ∧
      ((Payload.result ⟨.fail, some "nonce-mismatch"⟩).toFrame h).encode = .ok b := by
  refine ⟨?_, ?_, ?_, ?_⟩
  · have hfault : ((ofConfig (plainConfig .acceptor)).perform
        (.feed 0 [] plainService (.ofBytes []))).ReceivesFault (.frameTooShort 16 0) :=
      ⟨0, [], plainService, _, rfl, rfl⟩
    have h := failure_is_answered_once (m := ofConfig (plainConfig .acceptor)) rfl
      (.inl ⟨0, [], plainService, .ofBytes [], rfl, .inl ⟨[], rfl⟩⟩) (by decide +kernel)
    obtain ⟨p, f, b, -, hf, -, hb⟩ := h.2.1 fun ht => by
      obtain ⟨q, hq, -⟩ := ht.receives
      exact hfault.not_receives hq
    exact ⟨f, b, hf, hb⟩
  · have hc : (Event.ofBytes plainNotice).Carries (.error ⟨.protocolViolation, "no"⟩) := by
      unfold Event.Carries
      decide +kernel
    have h := failure_is_answered_once (m := ofConfig (plainConfig .acceptor)) rfl
      (.inl ⟨0, [], plainService, .ofBytes plainNotice, rfl, .inl ⟨plainNotice, rfl⟩⟩)
      (by decide +kernel)
    exact h.1 (.inl ⟨_, 0, [], plainService, _, rfl, hc⟩)
  · have h := failure_is_answered_once
      (m := (ofConfig (plainConfig .acceptor)).run (plainCommands.take 1)) (by decide +kernel)
      (.inr ⟨100000000000, rfl⟩) (by decide +kernel)
    obtain ⟨p, f, b, -, hf, -, hb⟩ := h.2.1 fun ht => by
      obtain ⟨q, ⟨now, nonce, service, e, hk, -⟩, -⟩ := ht.receives
      cases hk
    exact ⟨f, b, hf, hb⟩
  · have hreceives : (((ofConfig (plainConfig .acceptor)).run (plainCommands.take 1)).perform
        (.feed 1 [] plainService plainMismatch)).Receives
        (.response ⟨[5], (plainEvidence [5]).encode⟩) := by
      refine ⟨1, [], plainService, plainMismatch, rfl, ?_⟩
      unfold Event.Carries
      decide +kernel
    have h := failure_is_answered_once
      (m := (ofConfig (plainConfig .acceptor)).run (plainCommands.take 1)) (by decide +kernel)
      (.inl ⟨1, [], plainService, plainMismatch, rfl, .inl ⟨_, rfl⟩⟩) (by decide +kernel)
    obtain ⟨p, f, b, hp, hf, rfl, hb⟩ := h.2.1 fun ht => by
      obtain ⟨q, hq, -, hfatal⟩ := ht.receives
      cases hreceives.unique hq
      exact hfatal
    obtain ⟨hwaits, hrecorded⟩ :
        ((ofConfig (plainConfig .acceptor)).run (plainCommands.take 1)).state = .challengeIssued ∧
        (((ofConfig (plainConfig .acceptor)).run (plainCommands.take 1)).perform
          (.feed 1 [] plainService plainMismatch)).after.appraisal.map (·.reason) =
            some (some .nonceMismatch) := by
      decide +kernel
    obtain ⟨a, reason, text, ha, hr, hc, rfl⟩ := hp.exists_code hreceives hwaits
    rw [ha] at hrecorded
    have hreason : reason = .nonceMismatch :=
      Option.some.inj (hr.reason.symm.trans (Option.some.inj hrecorded))
    have htext : text = "nonce-mismatch" := by
      have hmem := (hc .nonceMismatch).2 hreason.symm
      simpa [FailureReason.codes] using hmem
    subst htext
    exact ⟨_, b, hf, hb⟩

end AttestedChannel
