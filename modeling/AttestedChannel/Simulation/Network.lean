import AttestedChannel.Session.Stream
import AttestedChannel.Simulation.Pairing

/-!
# Connectors over a network

Two connectors talk over one connection, each with a generator of its own. After the handshake the
client sends octets of its application; the server sends back whatever its session passes through.
The server reads its end of the connection as a stream of frames: octets that do not complete a
frame wait for more, and octets that begin no frame end the session.
-/

namespace AttestedChannel.Simulation

/-- What a run over a network is made of. -/
structure NetworkRun where
  seed : UInt64
  initiator : Config
  acceptor : Config
  initiatorBehavior : Behavior
  acceptorBehavior : Behavior
  frames : List Bytes

/-- What is known of a session when its handshake has been waited for. -/
structure SessionOutcome where
  outcome : Except SessionError HandshakeState
  metadata : Option String
  appraisal : Option Appraisal

/-- What a run over a network came to. -/
structure NetworkResult where
  server : SessionOutcome
  client : SessionOutcome
  /-- what the server has sent back -/
  echoed : List ApplicationMessage
  /-- what the client got for each of its messages -/
  received : List (Option ApplicationMessage)

/-- A connection: the pairing, the octets that the server has not read, and whether it still reads.
-/
structure Connection where
  pairing : Pairing
  unread : Bytes
  isReading : Bool

namespace Connection

/-- Reads what can be read of the connection; at most `n` frames. -/
def read : (n : Nat) → Connection → Connection
  | 0, c => c
  | n + 1, c =>
    if !c.isReading || c.unread.length < FrameHeader.size then c
    else
      match Stream.nextFrame c.unread with
      | .ok (some (b, rest)) =>
        read n { c with pairing := (c.pairing.post .acceptor [b]).settle .acceptor, unread := rest }
      | .ok none => c
      | .error .truncated => c
      | .error (.invalid _) =>
        let p := c.pairing.absorb .acceptor c.pairing.acceptor.adapter.failed
        let p := p.absorb .acceptor (p.acceptor.adapter.closed p.acceptor.session)
        { c with pairing := p.settle .initiator, isReading := false }

/-- The client sends octets, the server sends back what it passes through, and the client looks for
a message. -/
def send (c : Connection) (b : Bytes) :
    Connection × List ApplicationMessage × Option ApplicationMessage :=
  let unread := c.unread ++ b
  let c := read (unread.length + 1) { c with unread := unread }
  let (echoed, p) := c.pairing.collect .acceptor
  let p := (p.post .initiator (echoed.map (·.payload))).settle .initiator
  let (ms, registry) := p.initiator.registry.receive 1
  let p := p.set .initiator { p.initiator with registry := registry }
  ({ c with pairing := p }, echoed, ms.head?)

/-- The client sends octets one after the other. -/
def sendAll (c : Connection) :
    List Bytes → List ApplicationMessage × List (Option ApplicationMessage)
  | [] => ([], [])
  | b :: bs =>
    let (c, echoed, received) := c.send b
    let (moreEchoed, moreReceived) := c.sendAll bs
    (echoed ++ moreEchoed, received :: moreReceived)

end Connection

namespace NetworkRun

/-- The session of the client. -/
def clientSession : SessionId := ⟨0x77⟩

/-- The session of the server. -/
def serverSession : SessionId := ⟨1⟩

/-- How many messages an application may leave unread. -/
def channelCapacity : Nat := 16

/-- How long each side waits for its handshake. -/
def patience : Duration := .ofSeconds 20

/-- The pairing of a run before any message is handed over. -/
def pairing (r : NetworkRun) : Pairing :=
  let p : Pairing :=
    ⟨.ofConfig r.initiator channelCapacity clientSession r.initiatorBehavior 0,
     .ofConfig r.acceptor channelCapacity serverSession r.acceptorBehavior 1,
     [.keystream r.seed, .keystream (r.seed + 1)], 0, []⟩
  (p.openSession .acceptor).openSession .initiator

/-- Waits for the handshake of a side. -/
def await (p : Pairing) (s : Side) : Pairing × SessionOutcome :=
  let (p, outcome) := p.wait s patience
  (p, ⟨outcome, (p.get s).view.metadata, (p.get s).view.appraisal⟩)

/-- Runs the handshake, then sends what the client has to send. -/
def run (r : NetworkRun) : NetworkResult :=
  let (p, client) := await r.pairing .initiator
  let (p, server) := await p .acceptor
  let (echoed, received) := (Connection.mk p [] true).sendAll r.frames
  ⟨server, client, echoed, received⟩

end NetworkRun

end AttestedChannel.Simulation
