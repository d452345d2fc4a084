import AttestedChannel.Session.Registry
import AttestedChannel.Simulation.Defaults

/-!
# Two connectors and their transports

A pairing joins two connectors, each with a registry, one session and a simulated measurement
service. What one of them sends is handed over to the other one message at a time and in order. A
connector that waits for its service takes no message meanwhile; since a simulated service answers
at once or never, such a wait ends with the time-out of the call.

Both directions are served in turn: one goes on until its receiver is busy or nothing is left, then
the other. `settle` does so until both rest. Then only time helps: `passTo` goes on to the next
time-out, and `wait` does that until a handshake is over or patience is.

Randomness comes from numbered generators, which connectors may share.
-/

namespace AttestedChannel.Simulation

/-- A message that waits for the service, which will not answer. -/
structure LostCall where
  limitAt : Instant
  resume : Answer → Reaction

/-- A connector with one session. -/
structure Connector where
  registry : Registry
  session : SessionId
  service : MeasurementService
  generator : Nat
  /-- what the peer has sent and has not been handed over -/
  inbox : List Bytes
  call : Option LostCall

/-- One message that was handed over. -/
structure Handover where
  sender : Side
  type : MessageType
  octets : Bytes
deriving DecidableEq, Repr

/-- Two connectors. -/
structure Pairing where
  initiator : Connector
  acceptor : Connector
  generators : List Entropy
  time : Instant
  handovers : List Handover

namespace Connector

/-- A connector without a session. -/
def ofConfig (c : Config) (capacity : Nat) (s : SessionId) (b : Behavior) (generator : Nat) :
    Connector :=
  ⟨.ofConfig c capacity, s, .ofBehavior b, generator, [], none⟩

/-- The adapter of the session. -/
def adapter (c : Connector) : Adapter :=
  (c.registry.adapters[0]?).getD (.ofConfig c.registry.config)

/-- What can be seen of the session. -/
def view (c : Connector) : SessionView := c.adapter.view

end Connector

namespace Pairing

/-- One of the connectors. -/
def get (p : Pairing) : Side → Connector
  | .initiator => p.initiator
  | .acceptor => p.acceptor

/-- The pairing with one connector changed. -/
def set (p : Pairing) (s : Side) (c : Connector) : Pairing :=
  match s with
  | .initiator => { p with initiator := c }
  | .acceptor => { p with acceptor := c }

/-- Puts octets on the way to a side. -/
def post (p : Pairing) (s : Side) (bs : List Bytes) : Pairing :=
  p.set s { p.get s with inbox := (p.get s).inbox ++ bs }

/-- The nonce that a side would draw, and the generators afterwards. -/
def drawFor (p : Pairing) (s : Side) : Bytes × List Entropy :=
  match p.generators[(p.get s).generator]? with
  | none => ([], p.generators)
  | some e =>
    let (nonce, e) := e.draw Coordinator.nonceLength
    (nonce, p.generators.set (p.get s).generator e)

/-- Opens the session of a side. -/
def openSession (p : Pairing) (s : Side) : Pairing :=
  let c := p.get s
  let (registry, _, sent) := c.registry.openSession s.role p.time c.session
  (p.set s { c with registry := registry }).post s.opposite sent

/-- Keeps the outcome of an operation on a side's adapter. -/
def absorb (p : Pairing) (s : Side) (x : Reaction) : Pairing :=
  let p := if x.usedNonce then { p with generators := (p.drawFor s).2 } else p
  let c := p.get s
  (p.set s { c with registry := c.registry.apply 0 x }).post s.opposite (Registry.sentOf x.effects)

/-! ## Handing over -/

/-- Hands octets over to a side that is free. -/
def handOver (p : Pairing) (s : Side) (b : Bytes) : Pairing :=
  let c := p.get s
  let handover : Handover := ⟨s.opposite, (Event.ofBytes b).messageType, b⟩
  let p := { p with handovers := p.handovers ++ [handover] }
  match c.adapter.message p.time (p.drawFor s).1 c.session b with
  | .finished x => p.absorb s x
  | .awaiting r resume =>
    let (service, outcome) := c.service.measure r
    match outcome with
    | some outcome => (p.set s { c with service := service }).absorb s (resume (.ofOutcome outcome))
    | none =>
      let limitAt := p.time + c.registry.config.measurementTimeout.toNanos
      if limitAt ≤ p.time then (p.set s { c with service := service }).absorb s (resume .timeOut)
      else p.set s { c with service := service, call := some ⟨limitAt, resume⟩ }

/-- Hands the next message over to a side, if there is one and the side is free. -/
def advance? (p : Pairing) (s : Side) : Option Pairing :=
  match (p.get s).call, (p.get s).inbox with
  | none, b :: r => some ((p.set s { p.get s with inbox := r }).handOver s b)
  | _, _ => none

/-- Hands messages over, those to `s` first, until none can be; at most `n` of them. -/
def settleWithin : (n : Nat) → Side → Pairing → Pairing
  | 0, _, p => p
  | n + 1, s, p =>
    match p.advance? s with
    | some p => settleWithin n s p
    | none =>
      match p.advance? s.opposite with
      | some p => settleWithin n s.opposite p
      | none => p

/-- More frames than two machines send in a handshake. -/
def handshakeFrames : Nat := 16

/-- Hands messages over, those to `s` first, until none can be. -/
def settle (p : Pairing) (s : Side) : Pairing :=
  settleWithin (p.initiator.inbox.length + p.acceptor.inbox.length + handshakeFrames) s p

/-! ## Time -/

/-- The time of the next time-out. -/
def nextAt (p : Pairing) : Option Instant :=
  ([p.initiator, p.acceptor].filterMap fun c => c.call.map LostCall.limitAt).min?

/-- The call of a side runs into its limit, if the time for that has come. -/
def land (p : Pairing) (s : Side) : Pairing :=
  match (p.get s).call with
  | none => p
  | some k =>
    if k.limitAt ≤ p.time then
      ((p.set s { p.get s with call := none }).absorb s (k.resume .timeOut)).settle s
    else p

/-- Goes on to a point in time and deals with what happens then. -/
def passTo (p : Pairing) (t : Instant) : Pairing :=
  ({ p with time := t }.land .initiator).land .acceptor

/-- More calls than two machines make in a handshake. -/
def handshakeCalls : Nat := 8

/-- Lets time pass until the handshake of a side is over, but not beyond `deadline`; at most `n`
time-outs. -/
def waitWithin (s : Side) (deadline : Instant) : (n : Nat) → Pairing → Pairing
  | 0, p => p
  | n + 1, p =>
    if (p.get s).view.completion?.isSome then p
    else
      match p.nextAt with
      | none => p
      | some t => if deadline < t then p else waitWithin s deadline n (p.passTo t)

/-- Waits for the end of a side's handshake. Nothing happens during a wait of no length. -/
def wait (p : Pairing) (s : Side) (d : Duration) : Pairing × Except SessionError HandshakeState :=
  let deadline := p.time + d.toNanos
  let p :=
    if (p.get s).view.completion?.isSome ∨ d.toNanos = 0 then p
    else waitWithin s deadline handshakeCalls (p.settle .acceptor)
  match (p.get s).view.completion? with
  | some outcome => (p, outcome)
  | none => ({ p with time := deadline }, .error (.timeOut (p.get s).view.state d))

/-- Takes all messages that a side has passed through. -/
def collect (p : Pairing) (s : Side) : List ApplicationMessage × Pairing :=
  let c := p.get s
  let (ms, registry) := c.registry.receive c.registry.capacity
  (ms, p.set s { c with registry := registry })

/-- Takes the messages that a side passes through until none has come for the time `quiet`; at most
`n` rounds. The present wait for a message ends at `deadline`. -/
def collectUntilQuiet (s : Side) (quiet : Nat) : (n : Nat) → (deadline : Instant) → Pairing →
    List ApplicationMessage × Pairing
  | 0, _, p => ([], p)
  | n + 1, deadline, p =>
    let (ms, p) := p.collect s
    let deadline := if ms.isEmpty then deadline else p.time + quiet
    match p.nextAt with
    | none => (ms, p)
    | some t =>
      if deadline < t then (ms, p)
      else
        let (more, p) := collectUntilQuiet s quiet n deadline (p.passTo t)
        (ms ++ more, p)

end Pairing

end AttestedChannel.Simulation
