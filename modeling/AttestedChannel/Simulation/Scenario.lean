import AttestedChannel.Simulation.Pairing

/-!
# Scenarios

A scenario is a whole handshake between two simulated connectors, and then some frames that the
initiator's application sends. Its result is what remained of the two sessions and what was handed
over. A check on a result is satisfied or has a complaint.
-/

namespace AttestedChannel.Simulation

/-- What a scenario is made of. -/
structure Scenario where
  seed : UInt64
  initiator : Config
  acceptor : Config
  initiatorBehavior : Behavior
  acceptorBehavior : Behavior
  /-- how long the end of each handshake is waited for -/
  patience : Duration
  /-- what the initiator's application sends after the handshake -/
  frames : List Bytes

/-- What a scenario came to. -/
structure ScenarioResult where
  pairing : Pairing
  initiatorOutcome : Except SessionError HandshakeState
  acceptorOutcome : Except SessionError HandshakeState
  passedThrough : List ApplicationMessage

namespace Scenario

/-- Two honest connectors and a wait of a minute. -/
def default : Scenario where
  seed := 0
  initiator := simulatedConfig .initiator
  acceptor := simulatedConfig .acceptor
  initiatorBehavior := .honest
  acceptorBehavior := .honest
  patience := .ofSeconds 60
  frames := []

/-- The session of the initiator. -/
def initiatorSession : SessionId := ⟨0x1000⟩

/-- The session of the acceptor. -/
def acceptorSession : SessionId := ⟨0x2000⟩

/-- How many messages a side's application may leave unread. -/
def channelCapacity : Nat := 16

/-- How long the application waits for another message. -/
def quiet : Duration := .ofMillis 100

/-- The pairing of a scenario before any message is handed over: the acceptor is open, then the
initiator, and both draw from one generator. -/
def pairing (s : Scenario) : Pairing :=
  let p : Pairing :=
    ⟨.ofConfig s.initiator channelCapacity initiatorSession s.initiatorBehavior 0,
     .ofConfig s.acceptor channelCapacity acceptorSession s.acceptorBehavior 0,
     [.keystream s.seed], 0, []⟩
  (p.openSession .acceptor).openSession .initiator

/-- Runs a scenario: the initiator is waited for first, then the acceptor. -/
def run (s : Scenario) : ScenarioResult :=
  let (p, initiatorOutcome) := s.pairing.wait .initiator s.patience
  let (p, acceptorOutcome) := p.wait .acceptor s.patience
  let p := (p.post .acceptor s.frames).settle .acceptor
  let (ms, p) :=
    p.collectUntilQuiet .acceptor quiet.toNanos Pairing.handshakeCalls (p.time + quiet.toNanos)
  ⟨p, initiatorOutcome, acceptorOutcome, ms⟩

end Scenario

namespace ScenarioResult

/-- The types of the messages that a side has sent. -/
def typesFrom (r : ScenarioResult) (s : Side) : List MessageType :=
  (r.pairing.handovers.filter (·.sender == s)).map (·.type)

end ScenarioResult

/-! ## Checks -/

/-- A check on a result. -/
abbrev Check := ScenarioResult → Except String Unit

namespace Check

/-- Both states in parentheses, the initiator's first. -/
def states (r : ScenarioResult) : String :=
  "(" ++ r.pairing.initiator.view.state.name ++ ", " ++ r.pairing.acceptor.view.state.name ++ ")"

/-- Both handshakes are complete. -/
def completed : Check := fun r =>
  if r.pairing.initiator.view.state = .complete ∧ r.pairing.acceptor.view.state = .complete then
    .ok ()
  else .error ("expected both connectors in End, got " ++ states r)

/-- Both handshakes have failed. -/
def failed : Check := fun r =>
  if r.pairing.initiator.view.state = .failed ∧ r.pairing.acceptor.view.state = .failed then .ok ()
  else .error ("expected both connectors in Error, got " ++ states r)

/-- The acceptor has rejected the initiator for a reason. -/
def rejected (reason : FailureReason) : Check := fun r =>
  match r.pairing.acceptor.view.appraisal with
  | none => .error ("expected acceptor to reject with " ++ reason.name ++ ", got None")
  | some a =>
    if a.reason = some reason ∧ !a.isPass then .ok ()
    else .error ("expected acceptor to reject with " ++ reason.name ++ ",")

/-- At most one error message was handed over. -/
def atMostOneError : Check := fun r =>
  let n := (r.pairing.handovers.filter (·.type == .error)).length
  if n ≤ 1 then .ok ()
  else .error (toString n ++ " error frames exchanged, expected at most one")

/-- All of several checks; the first complaint counts. -/
def all (os : List Check) : Check := fun r => os.forM fun o => o r

end Check

end AttestedChannel.Simulation
