import AttestedChannel.Frame
import AttestedChannel.Payload.Messages

/-!
# Payloads

A payload is one of the messages, or octets of the application. The message type in the frame header
says how a payload is read; `toFrame` sets it.
-/

namespace AttestedChannel

/-- What a frame carries. -/
inductive Payload where
  | hello (m : Hello)
  | challenge (m : Challenge)
  | response (m : Response)
  | result (m : ResultReport)
  | metadata (m : SelfDescription)
  | raw (b : Bytes)
  | error (m : ErrorReport)
deriving DecidableEq, Repr

namespace Payload

/-- The type of the message. -/
def messageType : Payload → MessageType
  | .hello _ => .hello
  | .challenge _ => .attestationChallenge
  | .response _ => .attestationResponse
  | .result _ => .attestationResult
  | .metadata _ => .metadata
  | .raw _ => .raw
  | .error _ => .error

/-- The octets of the payload. -/
def encode : Payload → Bytes
  | .hello m => m.encode
  | .challenge m => m.encode
  | .response m => m.encode
  | .result m => m.encode
  | .metadata m => m.encode
  | .raw b => b
  | .error m => m.encode

/-- Reads a structured message. -/
def decodeAs {α : Type} (r : Nat → Cbor.Reader α) (wrap : α → Payload) (b : Bytes) :
    Except FrameFault Payload :=
  match Cbor.decode (r Cbor.maxDepth) b with
  | .error e => .error (.decode e.text)
  | .ok m => .ok (wrap m)

/-- The payload of a message type. -/
def decode (t : MessageType) (b : Bytes) : Except FrameFault Payload :=
  match t with
  | .hello => decodeAs Hello.reader .hello b
  | .attestationChallenge => decodeAs Challenge.reader .challenge b
  | .attestationResponse => decodeAs Response.reader .response b
  | .attestationResult => decodeAs ResultReport.reader .result b
  | .metadata => decodeAs SelfDescription.reader .metadata b
  | .raw => .ok (.raw b)
  | .error => decodeAs ErrorReport.reader .error b

/-- The frame of a payload. Of the header the sequence number and the reserved octet are kept. -/
def toFrame (p : Payload) (h : FrameHeader) : Frame :=
  .ofPayload { h with messageType := p.messageType.code } p.encode

/-- The payload of a frame. -/
def ofFrame (f : Frame) : Except FrameFault Payload :=
  match f.header.known? with
  | none => .error (.invalidMessageType f.header.messageType)
  | some t => decode t f.payload

end Payload

end AttestedChannel
