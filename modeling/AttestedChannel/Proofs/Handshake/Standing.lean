import AttestedChannel.Proofs.Handshake.Hearing

/-!
# A handshake message by message

What exactly a machine does with each message that it waits for. `Stands` is as much of a machine as
that depends on: its configuration, its state, whether both sides attest, and the values that it
expects. What the machine says goes into the frames as it stands here, so the peer can be followed
in the same way.
-/

namespace AttestedChannel

/-- Whether the payload is about evidence, which is a matter of the measurement service. -/
def Payload.ConcernsEvidence : Payload → Prop
  | .challenge _ | .response _ => True
  | _ => False

theorem Payload.IsFatal.not_concernsEvidence {p : Payload} (h : p.IsFatal) :
    ¬ p.ConcernsEvidence := by
  cases p with
  | challenge c => exact h.elim
  | response r => exact h.elim
  | hello | result | metadata | error | raw => exact not_false

namespace Machine

/-- Where a machine of a configuration is in its handshake. -/
structure Stands (m : Machine) (c : Config) (s : HandshakeState) (isMutual : Bool) : Prop where
  config : m.config = c
  state : m.state = s
  isMutual : m.isMutual = isMutual
  expected : m.coordinator.expected = c.expectedMeasurements
  hasOpened : c.role = .initiator → m.hasOpened = true

/-- The machine waits for evidence over a nonce. -/
structure Awaits (m : Machine) (c : Config) (isMutual : Bool) (nonce : Bytes) : Prop where
  stands : m.Stands c .challengeIssued isMutual
  pending : m.coordinator.pending = some ⟨nonce, c.attestationType, c.selection⟩

/-- A failure that is reported to the peer in a message. -/
structure FailsWith (t : Turn) (q : Payload) : Prop where
  state : t.machine.state = .failed
  report : Says t.actions [q]

variable {m : Machine} {c : Config} {s : HandshakeState} {isMutual : Bool} {e : Event}
  {now : Instant} {nonce nonce' : Bytes} {service : ServiceRequest → Answer}

/-- A running machine that is fed a message makes the transition of its payload. -/
theorem feed_run_of_carries (hm : m.state.isTerminal = false) {p : Payload} (he : e.Carries p) :
    (m.feed now nonce e).run service =
      settle e (((m.noteStart now).receive nonce p).run service) := by
  rw [feed_run_of_running hm, transition, he.1, he.2]

/-- The service is asked only for the sake of evidence. -/
theorem feed_request?_eq_none (hm : m.state.isTerminal = false) {p : Payload} (he : e.Carries p)
    (hp : ¬ p.ConcernsEvidence) : (m.feed now nonce e).request? = none := by
  rw [feed_request_of_running hm]
  have tr := transition_run (m.noteStart now) nonce e fun _ => .timeOut
  revert tr
  generalize ((m.noteStart now).transition nonce e).request? = req
  generalize ((m.noteStart now).transition nonce e).run (fun _ => .timeOut) = pr
  intro tr
  cases tr with
  | appraisalFailed h | passedToAcceptor h | passedToInitiator h | quoteFailed h | quoted h =>
    rw [← he.2, h.2] at hp
    exact absurd trivial hp
  | malformed | peerError | unexpected | unsupported | challenged | rejected | acceptedAcceptor
  | acceptedMutually | acceptedOneWay | describedToAcceptor | describedToInitiator => rfl

variable (now nonce service)

/-! ## Challenges -/

/-- An acceptor challenges an initiator that says hello. -/
theorem Stands.hears_hello {wish : Bool} (h : m.Stands c .hello isMutual)
    (hr : c.role = .acceptor) (he : e.Carries (.hello ⟨Hello.currentVersion, wish⟩)) :
    ((m.feed now nonce e).run service).machine.Awaits c wish nonce ∧
      Says ((m.feed now nonce e).run service).actions
        [.challenge ⟨nonce, c.attestationType, c.propertyMask⟩] := by
  obtain ⟨rfl, hs, -, hexp, hopen⟩ := h
  have ht : (m.noteStart now).Takes (.hello ⟨Hello.currentVersion, wish⟩) := ⟨hr, hs⟩
  rw [feed_run_of_carries (by rw [hs]; rfl) he, receive_hello ht]
  exact ⟨⟨⟨rfl, rfl, rfl, hexp, hopen⟩, rfl⟩, .cons ⟨_, rfl⟩ .nil⟩

/-- A machine that is challenged answers with what its platform has quoted. -/
theorem Stands.hears_challenge {ch : Challenge} {r : Response} (h : m.Stands c s isMutual)
    (ht : m.TakesChallenge) (he : e.Carries (.challenge ch))
    (hq : Coordinator.respond ch (service (Coordinator.quoteRequest ch)) = .ok r) :
    ((m.feed now nonce e).run service).machine.Stands c .verdictPending isMutual ∧
      Says ((m.feed now nonce e).run service).actions [.response r] := by
  obtain ⟨rfl, hs, hmut, hexp, hopen⟩ := h
  have hm : m.state.isTerminal = false := by
    rcases ht with ⟨-, ht⟩ | ⟨-, ht, -⟩ <;> rw [ht] <;> rfl
  rw [feed_run_of_carries hm he, receive_challenge (m := m.noteStart now) ht, quotePlatform,
    Exchange.run_map]
  show (settle e ((m.noteStart now).concludeQuote
      (Coordinator.respond ch (service (Coordinator.quoteRequest ch))))).machine.Stands _ _ _ ∧
    Says (settle e ((m.noteStart now).concludeQuote
      (Coordinator.respond ch (service (Coordinator.quoteRequest ch))))).actions _
  rw [hq]
  exact ⟨⟨rfl, rfl, hmut, hexp, hopen⟩, .cons ⟨_, rfl⟩ .nil⟩

/-- A machine whose platform cannot be quoted fails. -/
theorem fails_unquoted {ch : Challenge} {reason : FailureReason} (ht : m.TakesChallenge)
    (he : e.Carries (.challenge ch))
    (hq : Coordinator.respond ch (service (Coordinator.quoteRequest ch)) = .error reason) :
    FailsWith ((m.feed now nonce e).run service)
      (.error ⟨.attestationFailed, (HandshakeError.quoteFailed reason).message⟩) := by
  have hm : m.state.isTerminal = false := by
    rcases ht with ⟨-, ht⟩ | ⟨-, ht, -⟩ <;> rw [ht] <;> rfl
  rw [feed_run_of_carries hm he, receive_challenge (m := m.noteStart now) ht, quotePlatform,
    Exchange.run_map]
  have hrun : ((Coordinator.answer ch).run service) = .error reason := hq
  rw [hrun]
  exact ⟨(becomes_settle_refuse _ e _).state, says_settle_refuse (reply_of_code rfl)⟩

/-! ## Responses -/

section

variable (nonce') {nonce}

/-- A response is appraised. -/
theorem Awaits.feed_response {r : Response} {k : Coordinator} {a : Appraisal}
    (h : m.Awaits c isMutual nonce) (he : e.Carries (.response r))
    (ha : (m.coordinator.appraise r).run service = (k, a)) :
    (m.feed now nonce' e).run service = settle e ((m.noteStart now).concludeAppraisal k a) := by
  have ht : (m.noteStart now).Takes (.response r) := h.stands.state
  rw [feed_run_of_carries (by rw [h.stands.state]; rfl) he, receive_response ht, appraisePeer,
    Exchange.run_map]
  exact congrArg (fun x : Coordinator × Appraisal =>
    settle e ((m.noteStart now).concludeAppraisal x.1 x.2)) ha

/-- An acceptor that passes its peer says so. If both sides attest, it waits to be challenged. -/
theorem Awaits.hears_response_acceptor {r : Response} {ev : EvidenceSummary}
    (h : m.Awaits c isMutual nonce) (hr : c.role = .acceptor) (he : e.Carries (.response r))
    (ha : (m.coordinator.appraise r).run service = (m.coordinator.reset, .passed ev))
    :
    ((m.feed now nonce' e).run service).machine.Stands c
        (if isMutual then .responseReceived else .metadata) isMutual ∧
      Says ((m.feed now nonce' e).run service).actions [.result ⟨.pass, none⟩] := by
  rw [h.feed_response now nonce' service he ha]
  obtain ⟨⟨rfl, -, rfl, hexp, hopen⟩, -⟩ := h
  rw [concludeAppraisal_acceptor (m := m.noteStart now) hr]
  exact ⟨⟨rfl, rfl, rfl, hexp, hopen⟩, .cons ⟨_, rfl⟩ .nil⟩

/-- An initiator that passes its peer says so and describes itself. -/
theorem Awaits.hears_response_initiator {r : Response} {ev : EvidenceSummary}
    (h : m.Awaits c isMutual nonce) (hr : c.role = .initiator) (he : e.Carries (.response r))
    (ha : (m.coordinator.appraise r).run service = (m.coordinator.reset, .passed ev))
    :
    ((m.feed now nonce' e).run service).machine.Stands c .metadata isMutual ∧
      Says ((m.feed now nonce' e).run service).actions
        [.result ⟨.pass, none⟩, .metadata ⟨c.selfDescription⟩] := by
  rw [h.feed_response now nonce' service he ha]
  obtain ⟨⟨rfl, -, rfl, hexp, hopen⟩, -⟩ := h
  rw [concludeAppraisal_initiator (m := m.noteStart now) hr]
  exact ⟨⟨rfl, rfl, rfl, hexp, hopen⟩, .cons ⟨_, rfl⟩ (.cons ⟨_, rfl⟩ .nil)⟩

/-- A machine that does not pass its peer fails and says why. -/
theorem Awaits.fails_response {r : Response} {reason : FailureReason} {k : Coordinator}
    {ev : Option EvidenceSummary} (h : m.Awaits c isMutual nonce) (he : e.Carries (.response r))
    (ha : (m.coordinator.appraise r).run service = (k, .failed reason ev)) :
    FailsWith ((m.feed now nonce' e).run service)
      (.result (Appraisal.failed reason ev).report) := by
  rw [h.feed_response now nonce' service he ha]
  exact ⟨(becomes_settle_refuse _ e _).state, says_settle_refuse rfl⟩

end

/-! ## Verdicts -/

/-- The row of the machine that a passing verdict meets. -/
theorem Stands.feed_verdict (h : m.Stands c .verdictPending isMutual)
    (he : e.Carries (.result ⟨.pass, none⟩)) :
    (m.feed now nonce e).run service =
      settle e ((m.noteStart now).receiveVerdict nonce ⟨.pass, none⟩) := by
  have ht : (m.noteStart now).Takes (.result ⟨.pass, none⟩) := h.state
  rw [feed_run_of_carries (by rw [h.state]; rfl) he, receive_result ht]
  rfl

/-- An acceptor that has passed waits for the description of its peer. -/
theorem Stands.hears_verdict_acceptor (h : m.Stands c .verdictPending isMutual)
    (hr : c.role = .acceptor) (he : e.Carries (.result ⟨.pass, none⟩)) :
    ((m.feed now nonce e).run service).machine.Stands c .metadata isMutual ∧
      Says ((m.feed now nonce e).run service).actions [] := by
  rw [h.feed_verdict now nonce service he]
  obtain ⟨rfl, -, hmut, hexp, hopen⟩ := h
  have hrole : (m.noteStart now).config.role = .acceptor := hr
  simp only [receiveVerdict, ne_eq, not_true, if_false, hrole]
  exact ⟨⟨rfl, rfl, hmut, hexp, hopen⟩, .nil⟩

/-- An initiator that has passed challenges its peer, if both sides attest. -/
theorem Stands.hears_verdict_mutual (h : m.Stands c .verdictPending true)
    (hr : c.role = .initiator) (he : e.Carries (.result ⟨.pass, none⟩)) :
    ((m.feed now nonce e).run service).machine.Awaits c true nonce ∧
      Says ((m.feed now nonce e).run service).actions
        [.challenge ⟨nonce, c.attestationType, c.propertyMask⟩] := by
  rw [h.feed_verdict now nonce service he]
  obtain ⟨rfl, -, hmut, hexp, hopen⟩ := h
  have hrole : (m.noteStart now).config.role = .initiator := hr
  have hmutual : (m.noteStart now).isMutual = true := hmut
  simp only [receiveVerdict, ne_eq, not_true, if_false, hrole, hmutual, if_true]
  exact ⟨⟨⟨rfl, rfl, hmut, hexp, hopen⟩, rfl⟩, .cons ⟨_, rfl⟩ .nil⟩

/-- An initiator that has passed describes itself, if only one side attests. -/
theorem Stands.hears_verdict_oneWay (h : m.Stands c .verdictPending false)
    (hr : c.role = .initiator) (he : e.Carries (.result ⟨.pass, none⟩)) :
    ((m.feed now nonce e).run service).machine.Stands c .metadata false ∧
      Says ((m.feed now nonce e).run service).actions [.metadata ⟨c.selfDescription⟩] := by
  rw [h.feed_verdict now nonce service he]
  obtain ⟨rfl, -, hmut, hexp, hopen⟩ := h
  have hrole : (m.noteStart now).config.role = .initiator := hr
  have hmutual : (m.noteStart now).isMutual = false := hmut
  simp only [receiveVerdict, ne_eq, not_true, if_false, hrole, hmutual, Bool.false_eq_true]
  exact ⟨⟨rfl, rfl, hmut, hexp, hopen⟩, .cons ⟨_, rfl⟩ .nil⟩

/-! ## Descriptions -/

/-- An acceptor that is told the description of its peer answers with its own and is done. -/
theorem Stands.hears_metadata_acceptor {d : SelfDescription} (h : m.Stands c .metadata isMutual)
    (hr : c.role = .acceptor) (he : e.Carries (.metadata d)) :
    ((m.feed now nonce e).run service).machine.state = .complete ∧
      Says ((m.feed now nonce e).run service).actions [.metadata ⟨c.selfDescription⟩] := by
  obtain ⟨rfl, hs, -⟩ := h
  have ht : (m.noteStart now).Takes (.metadata d) := hs
  have hrole : (m.noteStart now).config.role = .acceptor := hr
  rw [feed_run_of_carries (by rw [hs]; rfl) he, receive_metadata ht, Exchange.run, receiveMetadata]
  simp only [hrole]
  exact ⟨rfl, .cons ⟨_, rfl⟩ .nil⟩

/-- An initiator that is told the description of its peer is done. -/
theorem Stands.hears_metadata_initiator {d : SelfDescription} (h : m.Stands c .metadata isMutual)
    (hr : c.role = .initiator) (he : e.Carries (.metadata d)) :
    ((m.feed now nonce e).run service).machine.state = .complete ∧
      Says ((m.feed now nonce e).run service).actions [] := by
  obtain ⟨rfl, hs, -⟩ := h
  have ht : (m.noteStart now).Takes (.metadata d) := hs
  have hrole : (m.noteStart now).config.role = .initiator := hr
  rw [feed_run_of_carries (by rw [hs]; rfl) he, receive_metadata ht, Exchange.run, receiveMetadata]
  simp only [hrole]
  exact ⟨rfl, .nil⟩

/-! ## Failures of the peer -/

/-- A machine that is told that its peer has failed fails too, and has nothing to say to that. -/
theorem hears_fatal {p : Payload} (hm : m.state.isTerminal = false) (ht : m.Takes p)
    (hp : p.IsFatal) (he : e.Carries p) :
    ((m.feed now nonce e).run service).machine.state = .failed ∧
      Says ((m.feed now nonce e).run service).actions [] := by
  obtain ⟨ps, hh, hspoken⟩ := feed_hears hm now nonce he service
  cases hh with
  | told _ hb => exact ⟨hb.state, hspoken⟩
  | refused hn => exact absurd ht hn
  | acceptedAcceptor hv | acceptedMutually hv | acceptedOneWay hv => exact absurd hv hp
  | unsupported | challenged | unquoted | quoted | appraisalFailed | passedToAcceptor
  | passedToInitiator | describedToAcceptor | describedToInitiator => exact hp.elim

end Machine

end AttestedChannel
