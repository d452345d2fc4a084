import AttestedChannel.Handshake.Machine
import AttestedChannel.Proofs.Attestation.Appraising

/-!
# What one event can do to a machine

`Machine.Transition` lists the transitions of a running machine as rules: the state and the payload
that a rule needs, the request that goes to the measurement service, and what the transition comes
to. `transition_run` says that these rules are all there is, so whatever has to hold of every
transition is shown rule by rule, and nothing outside this module unfolds `Machine.transition`.

* `feed_run_of_running`, `feed_run_of_terminal`: feeding an event is a transition and dealing with
  its outcome, or handing the event on.
* `fail_machine`, `fail_actions`: a failure changes the state and sends at most one frame.
-/

namespace AttestedChannel

/-- The event is a well-formed message with this payload. -/
def Event.Carries (e : Event) (p : Payload) : Prop := e.fault = none ∧ e.payload = p

namespace Machine

/-! ## What a machine sends -/

/-- A payload in the next frame of the machine. -/
def outbound (m : Machine) (p : Payload) : Action :=
  .send (p.toFrame (.ofType p.messageType m.nextSequence))

/-- The challenge that the machine makes of a nonce. -/
def ownChallenge (m : Machine) (nonce : Bytes) : Challenge :=
  ⟨nonce, m.config.attestationType, m.config.propertyMask⟩

/-- What the machine keeps of its challenge. -/
def openChallenge (m : Machine) (nonce : Bytes) : OpenChallenge :=
  ⟨nonce, m.config.attestationType, m.config.selection⟩

/-- The machine after a challenge over a nonce. -/
def challenging (m : Machine) (nonce : Bytes) : Machine :=
  { m with
    coordinator := { m.coordinator with pending := some (m.openChallenge nonce) }
    nextSequence := m.nextSequence + 1
    state := .challengeIssued }

/-- The machine after its open challenge is used up. -/
def appraised (m : Machine) (a : Appraisal) : Machine :=
  { m with coordinator := m.coordinator.reset, appraisal := some a }

/-- Whether the machine takes a challenge of the peer. -/
def TakesChallenge (m : Machine) : Prop :=
  (m.config.role = .acceptor ∧ m.state = .responseReceived) ∨
    (m.config.role = .initiator ∧ m.state = .hello ∧ m.hasOpened = true)

/-- Whether the machine takes a payload of this kind in its state, an error report apart. -/
def Takes (m : Machine) : Payload → Prop
  | .hello _ => m.config.role = .acceptor ∧ m.state = .hello
  | .challenge _ => m.TakesChallenge
  | .response _ => m.state = .challengeIssued
  | .result _ => m.state = .verdictPending
  | .metadata _ => m.state = .metadata
  | .raw _ => False
  | .error _ => True

/-! ## The transitions -/

/-- The transitions of a machine that is not in a terminal state: what goes to the service, and what
the transition comes to. -/
inductive Transition (service : ServiceRequest → Answer) (nonce : Bytes) (m : Machine) (e : Event) :
    Option ServiceRequest → Progress → Prop
  | malformed {f : FrameFault} (h : e.fault = some f) :
    Transition service nonce m e none (m.refuse (.malformedFrame f))
  | peerError {r : ErrorReport} (h : e.Carries (.error r)) :
    Transition service nonce m e none (m.refuse (.peerError r.code r.message))
  | unexpected {p : Payload} (h : e.Carries p) (ht : ¬ m.Takes p) :
    Transition service nonce m e none (m.refuse (.unexpectedMessage m.state p.messageType))
  | unsupported {h : Hello} (he : e.Carries (.hello h)) (ht : m.Takes (.hello h))
      (hv : h.version ≠ Hello.currentVersion) :
    Transition service nonce m e none (m.refuse (.unsupportedVersion h.version))
  | challenged {h : Hello} (he : e.Carries (.hello h)) (ht : m.Takes (.hello h))
      (hv : h.version = Hello.currentVersion) :
    Transition service nonce m e none
      ⟨{ m.challenging nonce with isMutual := h.mutualAttestation },
       .ok [m.outbound (.challenge (m.ownChallenge nonce))], true⟩
  | appraisalFailed {r : Response} {reason : FailureReason} {s : Option EvidenceSummary}
      (he : e.Carries (.response r)) (ht : m.Takes (.response r))
      (hf : (m.coordinator.appraise r).run service = (m.coordinator.reset, .failed reason s)) :
    Transition service nonce m e (m.coordinator.appraise r).request?
      ((m.appraised (.failed reason s)).refuse (.attestationFailed reason))
  | passedToAcceptor {r : Response} {p : OpenChallenge} {ev : Evidence} {reply : ServiceReply}
      (he : e.Carries (.response r)) (ht : m.Takes (.response r)) (hr : m.config.role = .acceptor)
      (hp : m.coordinator.pending = some p) (ha : Coordinator.Answers p r ev)
      (hv : Coordinator.Verified m.coordinator.expected p (service (Coordinator.verifyRequest p r))
        reply) :
    Transition service nonce m e (some (Coordinator.verifyRequest p r))
      ⟨{ m.appraised (.passed (.ofEvidence ev)) with
          nextSequence := m.nextSequence + 1
          state := if m.isMutual then .responseReceived else .metadata },
       .ok [m.outbound (.result ⟨.pass, none⟩)], false⟩
  | passedToInitiator {r : Response} {p : OpenChallenge} {ev : Evidence} {reply : ServiceReply}
      (he : e.Carries (.response r)) (ht : m.Takes (.response r)) (hr : m.config.role = .initiator)
      (hp : m.coordinator.pending = some p) (ha : Coordinator.Answers p r ev)
      (hv : Coordinator.Verified m.coordinator.expected p (service (Coordinator.verifyRequest p r))
        reply) :
    Transition service nonce m e (some (Coordinator.verifyRequest p r))
      ⟨{ m.appraised (.passed (.ofEvidence ev)) with
          nextSequence := m.nextSequence + 1 + 1
          state := .metadata },
       .ok [m.outbound (.result ⟨.pass, none⟩),
         { m with nextSequence := m.nextSequence + 1 }.outbound
           (.metadata ⟨m.config.selfDescription⟩)], false⟩
  | quoteFailed {ch : Challenge} {reason : FailureReason} (he : e.Carries (.challenge ch))
      (ht : m.Takes (.challenge ch))
      (hq : Coordinator.respond ch (service (Coordinator.quoteRequest ch)) = .error reason) :
    Transition service nonce m e (some (Coordinator.quoteRequest ch))
      (m.refuse (.quoteFailed reason))
  | quoted {ch : Challenge} {r : Response} (he : e.Carries (.challenge ch))
      (ht : m.Takes (.challenge ch))
      (hq : Coordinator.respond ch (service (Coordinator.quoteRequest ch)) = .ok r) :
    Transition service nonce m e (some (Coordinator.quoteRequest ch))
      ⟨{ m with nextSequence := m.nextSequence + 1, state := .verdictPending },
       .ok [m.outbound (.response r)], false⟩
  | rejected {r : ResultReport} (he : e.Carries (.result r)) (ht : m.Takes (.result r))
      (hv : r.verdict ≠ .pass) :
    Transition service nonce m e none (m.refuse (.peerRejected r.reason))
  | acceptedAcceptor {r : ResultReport} (he : e.Carries (.result r)) (ht : m.Takes (.result r))
      (hv : r.verdict = .pass) (hr : m.config.role = .acceptor) :
    Transition service nonce m e none ⟨{ m with state := .metadata }, .ok [], false⟩
  | acceptedMutually {r : ResultReport} (he : e.Carries (.result r)) (ht : m.Takes (.result r))
      (hv : r.verdict = .pass) (hr : m.config.role = .initiator) (hm : m.isMutual = true) :
    Transition service nonce m e none
      ⟨m.challenging nonce, .ok [m.outbound (.challenge (m.ownChallenge nonce))], true⟩
  | acceptedOneWay {r : ResultReport} (he : e.Carries (.result r)) (ht : m.Takes (.result r))
      (hv : r.verdict = .pass) (hr : m.config.role = .initiator) (hm : m.isMutual = false) :
    Transition service nonce m e none
      ⟨{ m with nextSequence := m.nextSequence + 1, state := .metadata },
       .ok [m.outbound (.metadata ⟨m.config.selfDescription⟩)], false⟩
  | describedToAcceptor {d : SelfDescription} (he : e.Carries (.metadata d))
      (ht : m.Takes (.metadata d)) (hr : m.config.role = .acceptor) :
    Transition service nonce m e none
      ⟨{ m with
          metadata := some d.document
          nextSequence := m.nextSequence + 1
          state := .complete },
       .ok [m.outbound (.metadata ⟨m.config.selfDescription⟩)], false⟩
  | describedToInitiator {d : SelfDescription} (he : e.Carries (.metadata d))
      (ht : m.Takes (.metadata d)) (hr : m.config.role = .initiator) :
    Transition service nonce m e none
      ⟨{ m with metadata := some d.document, state := .complete }, .ok [], false⟩

theorem concludeAppraisal_acceptor {m : Machine} {c : Coordinator} {s : EvidenceSummary}
    (hr : m.config.role = .acceptor) :
    m.concludeAppraisal c (.passed s) =
      ⟨{ m with
          coordinator := c
          appraisal := some (.passed s)
          nextSequence := m.nextSequence + 1
          state := if m.isMutual then .responseReceived else .metadata },
       .ok [m.outbound (.result ⟨.pass, none⟩)], false⟩ := by
  simp only [concludeAppraisal, Appraisal.passed, send, hr]
  rfl

theorem concludeAppraisal_initiator {m : Machine} {c : Coordinator} {s : EvidenceSummary}
    (hr : m.config.role = .initiator) :
    m.concludeAppraisal c (.passed s) =
      ⟨{ m with
          coordinator := c
          appraisal := some (.passed s)
          nextSequence := m.nextSequence + 1 + 1
          state := .metadata },
       .ok [m.outbound (.result ⟨.pass, none⟩),
         { m with nextSequence := m.nextSequence + 1 }.outbound
           (.metadata ⟨m.config.selfDescription⟩)], false⟩ := by
  simp only [concludeAppraisal, Appraisal.passed, send, describeSelf, hr]
  rfl

/-- Appraising the peer is one of the three transitions of a response. -/
theorem transition_response {m : Machine} {nonce : Bytes} {e : Event} {r : Response}
    {service : ServiceRequest → Answer} (he : e.Carries (.response r))
    (ht : m.state = .challengeIssued) :
    Transition service nonce m e (m.appraisePeer r).request? ((m.appraisePeer r).run service) := by
  unfold appraisePeer
  rw [Exchange.run_map, Exchange.request?_map]
  rcases m.coordinator.appraise_run_cases r service with
    ⟨p, ev, reply, hp, ha, hv, hreq, hrun⟩ | ⟨reason, s, hrun⟩
  · rw [hrun, hreq]
    cases hr : m.config.role with
    | acceptor =>
      dsimp only
      rw [concludeAppraisal_acceptor hr]
      exact .passedToAcceptor he ht hr hp ha hv
    | initiator =>
      dsimp only
      rw [concludeAppraisal_initiator hr]
      exact .passedToInitiator he ht hr hp ha hv
  · rw [hrun]
    exact .appraisalFailed he ht hrun

/-- Answering a challenge is one of the two transitions of a challenge. -/
theorem transition_challenge {m : Machine} {nonce : Bytes} {e : Event} {ch : Challenge}
    {service : ServiceRequest → Answer} (he : e.Carries (.challenge ch)) (ht : m.TakesChallenge) :
    Transition service nonce m e (m.quotePlatform ch).request?
      ((m.quotePlatform ch).run service) := by
  unfold quotePlatform
  rw [Exchange.run_map, Exchange.request?_map]
  show Transition service nonce m e (some (Coordinator.quoteRequest ch))
    (m.concludeQuote (Coordinator.respond ch (service (Coordinator.quoteRequest ch))))
  cases hq : Coordinator.respond ch (service (Coordinator.quoteRequest ch)) with
  | error reason => exact .quoteFailed he ht hq
  | ok r => exact .quoted he ht hq

theorem transition_hello {m : Machine} {nonce : Bytes} {e : Event} {h : Hello}
    {service : ServiceRequest → Answer} (he : e.Carries (.hello h)) (ht : m.Takes (.hello h)) :
    Transition service nonce m e none (m.receiveHello nonce h) := by
  unfold receiveHello
  split
  · next hv => exact .unsupported he ht hv
  · next hv => exact .challenged he ht (Decidable.not_not.1 hv)

theorem transition_result {m : Machine} {nonce : Bytes} {e : Event} {r : ResultReport}
    {service : ServiceRequest → Answer} (he : e.Carries (.result r))
    (ht : m.state = .verdictPending) :
    Transition service nonce m e none (m.receiveVerdict nonce r) := by
  unfold receiveVerdict
  split
  · next hv => exact .rejected he ht hv
  · next hv =>
    have hv := Decidable.not_not.1 hv
    cases hr : m.config.role with
    | acceptor => exact .acceptedAcceptor he ht hv hr
    | initiator =>
      cases hm : m.isMutual with
      | true => exact .acceptedMutually he ht hv hr hm
      | false => exact .acceptedOneWay he ht hv hr hm

theorem transition_metadata {m : Machine} {nonce : Bytes} {e : Event} {d : SelfDescription}
    {service : ServiceRequest → Answer} (he : e.Carries (.metadata d)) (ht : m.state = .metadata) :
    Transition service nonce m e none (m.receiveMetadata d) := by
  cases hr : m.config.role with
  | acceptor =>
    have h : Transition service nonce m e none _ := .describedToAcceptor he ht hr
    simpa only [receiveMetadata, describeSelf, send, outbound, hr] using h
  | initiator =>
    have h : Transition service nonce m e none _ := .describedToInitiator he ht hr
    simpa only [receiveMetadata, hr] using h

/-! ## Which row of the machine a payload meets -/

theorem receive_hello {m : Machine} {nonce : Bytes} {h : Hello} (ht : m.Takes (.hello h)) :
    m.receive nonce (.hello h) = .finished (m.receiveHello nonce h) := by
  unfold receive
  rw [ht.1, ht.2]

theorem receive_challenge {m : Machine} {nonce : Bytes} {ch : Challenge} (ht : m.TakesChallenge) :
    m.receive nonce (.challenge ch) = m.quotePlatform ch := by
  unfold receive
  rcases ht with ⟨hr, hs⟩ | ⟨hr, hs, ho⟩
  · rw [hr, hs]
  · rw [hr, hs]
    exact if_pos ho

theorem receive_response {m : Machine} {nonce : Bytes} {r : Response}
    (ht : m.Takes (.response r)) : m.receive nonce (.response r) = m.appraisePeer r := by
  unfold receive
  rw [show m.state = .challengeIssued from ht]

theorem receive_result {m : Machine} {nonce : Bytes} {r : ResultReport}
    (ht : m.Takes (.result r)) :
    m.receive nonce (.result r) = .finished (m.receiveVerdict nonce r) := by
  unfold receive
  rw [show m.state = .verdictPending from ht]

theorem receive_metadata {m : Machine} {nonce : Bytes} {d : SelfDescription}
    (ht : m.Takes (.metadata d)) :
    m.receive nonce (.metadata d) = .finished (m.receiveMetadata d) := by
  unfold receive
  rw [show m.state = .metadata from ht]

theorem receive_of_not_takes {m : Machine} {nonce : Bytes} {p : Payload} (h : ¬ m.Takes p) :
    m.receive nonce p = .finished (m.refuse (.unexpectedMessage m.state p.messageType)) := by
  unfold receive
  cases p <;> cases hr : m.config.role <;> cases hs : m.state <;>
    simp_all [Takes, TakesChallenge, Payload.messageType]

/-- **The transition of an event is one of the listed ones.** -/
theorem transition_run (m : Machine) (nonce : Bytes) (e : Event)
    (service : ServiceRequest → Answer) :
    Transition service nonce m e (m.transition nonce e).request?
      ((m.transition nonce e).run service) := by
  unfold transition
  cases hf : e.fault with
  | some f => exact .malformed hf
  | none =>
    have he : e.Carries e.payload := ⟨hf, rfl⟩
    show Transition service nonce m e (m.receive nonce e.payload).request?
      ((m.receive nonce e.payload).run service)
    generalize e.payload = p at he
    by_cases ht : m.Takes p
    · cases p with
      | hello h =>
        rw [receive_hello ht]
        exact transition_hello he ht
      | challenge ch =>
        rw [receive_challenge ht]
        exact transition_challenge he ht
      | response r =>
        rw [receive_response ht]
        exact transition_response he ht
      | result r =>
        rw [receive_result ht]
        exact transition_result he ht
      | metadata d =>
        rw [receive_metadata ht]
        exact transition_metadata he ht
      | raw b => exact ht.elim
      | error r => exact .peerError he
    · rw [receive_of_not_takes ht]
      exact .unexpected he ht

/-! ## Failing -/

/-- A failure changes the state and, if it is reported, the sequence number. -/
theorem fail_machine (m : Machine) (err : HandshakeError) :
    ∃ n, (m.fail err).1 = { m with state := .failed, nextSequence := n } := by
  unfold fail
  dsimp only
  split
  · exact ⟨m.nextSequence, rfl⟩
  · exact ⟨m.nextSequence + 1, rfl⟩

/-- A failure is reported in the next frame, if at all. -/
theorem fail_actions (m : Machine) (err : HandshakeError) :
    (m.fail err).2 = ((m.reply? err).map m.outbound).toList := by
  have hr : { m with state := HandshakeState.failed }.reply? err = m.reply? err := by
    cases err <;> rfl
  unfold fail
  dsimp only
  rw [hr]
  cases m.reply? err <;> rfl

/-- A failed transition changes nothing but that, and the event is remembered. -/
theorem machine_settle_refuse (m : Machine) (e : Event) (err : HandshakeError) :
    ∃ n, (settle e (m.refuse err)).machine =
      { m with lastEvent := some e, state := .failed, nextSequence := n } :=
  fail_machine { m with lastEvent := some e } err

/-! ## Feeding -/

theorem feed_of_terminal {m : Machine} (h : m.state.isTerminal = true) (now : Instant)
    (nonce : Bytes) (e : Event) :
    m.feed now nonce e = .finished ⟨{ m with lastEvent := some e }, [.passThrough e.raw], false⟩ :=
  if_pos h

theorem feed_run_of_running {m : Machine} (h : m.state.isTerminal = false) (now : Instant)
    (nonce : Bytes) (e : Event) (service : ServiceRequest → Answer) :
    (m.feed now nonce e).run service =
      settle e (((m.noteStart now).transition nonce e).run service) := by
  unfold feed
  rw [if_neg (by simp [h]), Exchange.run_map]

/-- Feeding a running machine is one of the transitions, after which its failure is dealt with. -/
theorem feed_transition {m : Machine} (h : m.state.isTerminal = false) (now : Instant)
    (nonce : Bytes) (e : Event) (service : ServiceRequest → Answer) :
    ∃ req pr, Transition service nonce (m.noteStart now) e req pr ∧
      (m.feed now nonce e).run service = settle e pr :=
  ⟨_, _, transition_run _ nonce e service, feed_run_of_running h now nonce e service⟩

theorem feed_request_of_running {m : Machine} (h : m.state.isTerminal = false) (now : Instant)
    (nonce : Bytes) (e : Event) :
    (m.feed now nonce e).request? = ((m.noteStart now).transition nonce e).request? := by
  unfold feed
  rw [if_neg (by simp [h]), Exchange.request?_map]

/-- What a tick can do: nothing, or fail the handshake for the time that has passed. -/
theorem tick_cases (m : Machine) (now : Instant) :
    m.tick now = (m, []) ∨
      m.state.isTerminal = false ∧ ∃ elapsed, m.tick now = m.fail (.timeOut elapsed) := by
  unfold tick
  cases ht : m.state.isTerminal with
  | true => exact .inl rfl
  | false =>
    rw [if_neg Bool.false_ne_true]
    split
    · exact .inl rfl
    · split
      · exact .inr ⟨rfl, _, rfl⟩
      · exact .inl rfl

/-- What a start can do: refuse, do nothing for an acceptor, or open the handshake. -/
theorem start_cases (m : Machine) (now : Instant) :
    (∃ err, m.start now = .error err) ∨
    (m.config.role = .acceptor ∧ m.start now = .ok (m, [])) ∨
    (m.config.role = .initiator ∧ m.state = .hello ∧ m.hasOpened = false ∧
      m.start now = .ok
        ({ m with
            nextSequence := m.nextSequence + 1
            isMutual := m.config.mutualAttestation
            hasOpened := true
            startedAt := some now },
         [m.outbound (.hello ⟨Hello.currentVersion, m.config.mutualAttestation⟩)])) := by
  unfold start
  cases hr : m.config.role with
  | acceptor => exact .inr (.inl ⟨rfl, rfl⟩)
  | initiator =>
    dsimp only
    by_cases hs : m.state ≠ .hello ∨ m.hasOpened = true
    · rw [if_pos hs]
      exact .inl ⟨_, rfl⟩
    · rw [if_neg hs]
      obtain ⟨hs, ho⟩ := not_or.1 hs
      exact .inr (.inr ⟨rfl, Decidable.not_not.1 hs, by simpa using ho, rfl⟩)

end Machine

end AttestedChannel
