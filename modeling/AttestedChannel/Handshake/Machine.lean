import AttestedChannel.Attestation.Coordinator
import AttestedChannel.Config
import AttestedChannel.Event
import AttestedChannel.Handshake.Error

/-!
# The handshake of one session

A `Machine` holds one side of one handshake. `start` opens the handshake, `feed` takes an inbound
event, `tick` looks at the clock, `reset` forgets everything. None of them touches a transport or a
clock: what is to be sent comes back as a list of `Action`s, and the time and a fresh nonce are
handed in.

Feeding an event may take an answer of the measurement service, so it is an `Exchange`. Until the
answer is there the machine is as it was, except that the time of its first event is noted
(`noteStart`); dropping the exchange is therefore all it takes to give up a delivery.

* A machine that is `complete` or `failed` hands every event on untouched and never changes its
  state.
* A failure that the machine finds out itself is reported to the peer in one frame, a failure that
  the peer reported in none (`fail`).
-/

namespace AttestedChannel

/-- A point in time, in nanoseconds. -/
abbrev Instant := Nat

/-- What is to be done for the session. -/
inductive Action where
  | send (f : Frame)
  /-- hand the octets of a message on to the application -/
  | passThrough (b : Bytes)
deriving DecidableEq, Repr

/-- One side of one handshake. -/
structure Machine where
  config : Config
  state : HandshakeState
  coordinator : Coordinator
  /-- whether both sides attest -/
  isMutual : Bool
  hasOpened : Bool
  /-- the outcome of attesting the peer -/
  appraisal : Option Appraisal
  /-- the self-description of the peer -/
  metadata : Option String
  lastEvent : Option Event
  startedAt : Option Instant
  nextSequence : UInt32
deriving DecidableEq

/-- What one step of a machine came to. -/
structure Turn where
  machine : Machine
  actions : List Action
  /-- whether the nonce that was handed in has been used -/
  usedNonce : Bool
deriving DecidableEq

/-- What a transition came to before its failure, if any, is dealt with. -/
structure Progress where
  machine : Machine
  outcome : Except HandshakeError (List Action)
  usedNonce : Bool

namespace Machine

/-- The machine of a configuration before anything has happened. -/
def ofConfig (c : Config) : Machine where
  config := c
  state := .hello
  coordinator := .ofExpected c.expectedMeasurements
  isMutual := false
  hasOpened := false
  appraisal := none
  metadata := none
  lastEvent := none
  startedAt := none
  nextSequence := 0

/-- Forgets the handshake. -/
def reset (m : Machine) : Machine where
  config := m.config
  state := .hello
  coordinator := m.coordinator.reset
  isMutual := false
  hasOpened := false
  appraisal := none
  metadata := none
  lastEvent := none
  startedAt := none
  nextSequence := 0

/-- Notes the time of the first event. -/
def noteStart (m : Machine) (now : Instant) : Machine :=
  { m with startedAt := some (m.startedAt.getD now) }

/-! ## Outbound messages -/

/-- Frames a payload under the next sequence number. -/
def send (m : Machine) (p : Payload) : Machine × Action :=
  ({ m with nextSequence := m.nextSequence + 1 },
   .send (p.toFrame (.ofType p.messageType m.nextSequence)))

/-- Challenges the peer over a nonce. -/
def challengePeer (m : Machine) (nonce : Bytes) : Machine × Action :=
  let (c, ch) := m.coordinator.challenge nonce m.config.attestationType m.config.propertyMask
  { m with coordinator := c }.send (.challenge ch)

/-- Sends the self-description. -/
def describeSelf (m : Machine) : Machine × Action :=
  m.send (.metadata ⟨m.config.selfDescription⟩)

/-- The reply to a failure. -/
def reply? (m : Machine) : HandshakeError → Option Payload
  | .attestationFailed _ => m.appraisal.map fun a => .result a.report
  | e => e.report?.map .error

/-- Fails the handshake and reports it to the peer, if it has to be reported. -/
def fail (m : Machine) (e : HandshakeError) : Machine × List Action :=
  let failed := { m with state := .failed }
  match failed.reply? e with
  | none => (failed, [])
  | some p =>
    let (m, a) := failed.send p
    (m, [a])

/-! ## Transitions -/

/-- The machine stays as it is and the handshake fails. -/
def refuse (m : Machine) (e : HandshakeError) : Progress := ⟨m, .error e, false⟩

/-- Acceptor: honours the wish of the initiator and challenges it. -/
def receiveHello (m : Machine) (nonce : Bytes) (h : Hello) : Progress :=
  if h.version ≠ Hello.currentVersion then m.refuse (.unsupportedVersion h.version)
  else
    let (m, a) := { m with isMutual := h.mutualAttestation }.challengePeer nonce
    ⟨{ m with state := .challengeIssued }, .ok [a], true⟩

/-- Reports the appraisal of the peer, and goes on if it has passed. -/
def concludeAppraisal (m : Machine) (c : Coordinator) (a : Appraisal) : Progress :=
  let m := { m with coordinator := c, appraisal := some a }
  match a.reason with
  | some reason => m.refuse (.attestationFailed reason)
  | none =>
    let (m, report) := m.send (.result ⟨.pass, none⟩)
    match m.config.role with
    | .acceptor =>
      ⟨{ m with state := if m.isMutual then .responseReceived else .metadata }, .ok [report], false⟩
    | .initiator =>
      let (m, description) := m.describeSelf
      ⟨{ m with state := .metadata }, .ok [report, description], false⟩

/-- Has the evidence of the peer appraised. -/
def appraisePeer (m : Machine) (r : Response) : Exchange Progress :=
  (m.coordinator.appraise r).map fun (c, a) => m.concludeAppraisal c a

/-- Sends the evidence that a challenge of the peer asked for. -/
def concludeQuote (m : Machine) : Except FailureReason Response → Progress
  | .error reason => m.refuse (.quoteFailed reason)
  | .ok r =>
    let (m, a) := m.send (.response r)
    ⟨{ m with state := .verdictPending }, .ok [a], false⟩

/-- Has the own platform quoted for a challenge of the peer. -/
def quotePlatform (m : Machine) (ch : Challenge) : Exchange Progress :=
  (Coordinator.answer ch).map m.concludeQuote

/-- Goes on after the verdict of the peer. -/
def receiveVerdict (m : Machine) (nonce : Bytes) (r : ResultReport) : Progress :=
  if r.verdict ≠ .pass then m.refuse (.peerRejected r.reason)
  else
    match m.config.role with
    | .acceptor => ⟨{ m with state := .metadata }, .ok [], false⟩
    | .initiator =>
      if m.isMutual then
        let (m, a) := m.challengePeer nonce
        ⟨{ m with state := .challengeIssued }, .ok [a], true⟩
      else
        let (m, a) := m.describeSelf
        ⟨{ m with state := .metadata }, .ok [a], false⟩

/-- Keeps the description of the peer and completes the handshake; the acceptor answers with its
own. -/
def receiveMetadata (m : Machine) (d : SelfDescription) : Progress :=
  let m := { m with metadata := some d.document }
  match m.config.role with
  | .acceptor =>
    let (m, a) := m.describeSelf
    ⟨{ m with state := .complete }, .ok [a], false⟩
  | .initiator => ⟨{ m with state := .complete }, .ok [], false⟩

/-- The transition of a payload that was decoded. -/
def receive (m : Machine) (nonce : Bytes) (p : Payload) : Exchange Progress :=
  match m.config.role, m.state, p with
  | _, _, .error e => .finished (m.refuse (.peerError e.code e.message))
  | .acceptor, .hello, .hello h => .finished (m.receiveHello nonce h)
  | _, .challengeIssued, .response r => m.appraisePeer r
  | .acceptor, .responseReceived, .challenge ch => m.quotePlatform ch
  | .initiator, .hello, .challenge ch =>
    if m.hasOpened then m.quotePlatform ch
    else .finished (m.refuse (.unexpectedMessage .hello .attestationChallenge))
  | _, .verdictPending, .result r => .finished (m.receiveVerdict nonce r)
  | _, .metadata, .metadata d => .finished (m.receiveMetadata d)
  | _, state, p => .finished (m.refuse (.unexpectedMessage state p.messageType))

/-- The transition of an event. Octets that carry no payload fail the handshake whatever its state.
-/
def transition (m : Machine) (nonce : Bytes) (e : Event) : Exchange Progress :=
  match e.fault with
  | some fault => .finished (m.refuse (.malformedFrame fault))
  | none => m.receive nonce e.payload

/-- Remembers the event and deals with a failure. -/
def settle (e : Event) (p : Progress) : Turn :=
  let m := { p.machine with lastEvent := some e }
  match p.outcome with
  | .ok actions => ⟨m, actions, p.usedNonce⟩
  | .error err =>
    let (m, actions) := m.fail err
    ⟨m, actions, p.usedNonce⟩

/-! ## Steps -/

/-- Initiator: opens the handshake. The acceptor waits for the peer. -/
def start (m : Machine) (now : Instant) : Except HandshakeError (Machine × List Action) :=
  match m.config.role with
  | .acceptor => .ok (m, [])
  | .initiator =>
    if m.state ≠ .hello ∨ m.hasOpened then .error (.invalidState m.state "start")
    else
      let (m, a) := m.send (.hello ⟨Hello.currentVersion, m.config.mutualAttestation⟩)
      let isMutual := m.config.mutualAttestation
      .ok ({ m with isMutual := isMutual, hasOpened := true, startedAt := some now }, [a])

/-- Takes an inbound event, with the time and a nonce to use if the peer has to be challenged. -/
def feed (m : Machine) (now : Instant) (nonce : Bytes) (e : Event) : Exchange Turn :=
  if m.state.isTerminal then
    .finished ⟨{ m with lastEvent := some e }, [.passThrough e.raw], false⟩
  else ((m.noteStart now).transition nonce e).map (settle e)

/-- The machine after a delivery that was given up while the service had not answered. -/
def abandon (m : Machine) (now : Instant) : Machine :=
  if m.state.isTerminal then m else m.noteStart now

/-- Fails a handshake that has gone on for longer than it may. -/
def tick (m : Machine) (now : Instant) : Machine × List Action :=
  if m.state.isTerminal then (m, [])
  else
    match m.startedAt with
    | none => (m, [])
    | some started =>
      if m.config.handshakeTimeout.toNanos < now - started then
        m.fail (.timeOut (.ofNanos (now - started)))
      else (m, [])

end Machine

end AttestedChannel
