import AttestedChannel.Payload

/-!
# Events

An event is what one inbound message means to the handshake: its octets as they came and the payload
they carry. Octets that carry no payload are an event too; its payload reports the fault, and
`fault` marks it, so that it is never taken for an error that the peer reported.
-/

namespace AttestedChannel

/-- One inbound message. -/
structure Event where
  raw : Bytes
  payload : Payload
  fault : Option FrameFault
deriving DecidableEq, Repr

namespace Event

/-- The type of the message; that of an error if the octets carry none. -/
def messageType (e : Event) : MessageType := e.payload.messageType

/-- The payload that the octets carry. -/
def payloadOf (b : Bytes) : Except FrameFault Payload :=
  match Frame.decode b with
  | .error e => .error e
  | .ok f => Payload.ofFrame f

/-- The event of inbound octets. -/
def ofBytes (b : Bytes) : Event :=
  match payloadOf b with
  | .ok p => ⟨b, p, none⟩
  | .error e => ⟨b, .error ⟨.malformedFrame, e.message⟩, some e⟩

/-- The event of a payload, if its frame can be written. -/
def ofPayload (p : Payload) : Except FrameFault Event :=
  match (p.toFrame (.ofType p.messageType 0)).encode with
  | .ok b => .ok ⟨b, p, none⟩
  | .error e => .error e

end Event

end AttestedChannel
