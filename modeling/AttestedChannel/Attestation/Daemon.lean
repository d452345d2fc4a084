import AttestedChannel.Attestation.Service

/-!
# The measurement daemon

The measurement service is a daemon behind a local socket. Every message on the socket is its length
in four octets, highest first, and a body of at most `maxMessage` octets. A client sends one request
and reads one reply.

A stream that is read is a byte string; reading leaves the rest of it, and what a broken message
takes is gone.
-/

namespace AttestedChannel.Daemon

/-- The greatest number of octets of a message body. -/
def maxMessage : Nat := 1024 * 1024

/-- The fault of a stream that ends inside a message. -/
def endOfStream : MeasurementError := .io "early eof"

/-- The octets of a message, unless its body is too long. -/
def wrapMessage (body : Bytes) : Except MeasurementError Bytes :=
  if maxMessage < body.length then
    .error (.encode
      ("message of " ++ toString body.length ++ " bytes exceeds " ++ toString maxMessage))
  else .ok (Bytes.bigEndian 4 body.length ++ body)

/-- Writes a message behind what has been written to a stream. A body that is too long leaves the
stream as it is. -/
def writeMessage (written body : Bytes) : Except MeasurementError Unit × Bytes :=
  match wrapMessage body with
  | .error e => (.error e, written)
  | .ok message => (.ok (), written ++ message)

/-- Writes messages one behind the other, and goes on after those that are too long. -/
def writeMessages (written : Bytes) : List Bytes → List (Except MeasurementError Unit) × Bytes
  | [] => ([], written)
  | body :: bodies =>
    let (result, written) := writeMessage written body
    let (results, written) := writeMessages written bodies
    (result :: results, written)

/-- The next message of a stream, and what is left of the stream. A length that is too large is
noticed before the body is read. -/
def nextMessage (stream : Bytes) : Except MeasurementError Bytes × Bytes :=
  match Bytes.take? 4 stream with
  | none => (.error endOfStream, [])
  | some (l, rest) =>
    if maxMessage < l.toNat then (.error (.replyTooLarge l.toNat maxMessage), rest)
    else
      match Bytes.take? l.toNat rest with
      | none => (.error endOfStream, [])
      | some (body, rest) => (.ok body, rest)

/-- At most `n` messages of a stream, the first fault included as the last of them. -/
def nextMessages : (n : Nat) → (stream : Bytes) → List (Except MeasurementError Bytes) × Bytes
  | 0, stream => ([], stream)
  | n + 1, stream =>
    match nextMessage stream with
    | (.error e, rest) => ([.error e], rest)
    | (.ok body, rest) =>
      let (messages, rest) := nextMessages n rest
      (.ok body :: messages, rest)

/-- What the client makes of the octets that the daemon sends. -/
def receive (stream : Bytes) : Except MeasurementError ServiceReply :=
  match (nextMessage stream).1 with
  | .error e => .error e
  | .ok body =>
    match Cbor.decode (ServiceReply.reader Cbor.maxDepth) body with
    | .error e => .error (.decode e.text)
    | .ok r => .ok r

/-- One exchange with a daemon that reads one message and answers it by `daemon`. -/
def measure (r : ServiceRequest) (daemon : Bytes → Bytes) : Except MeasurementError ServiceReply :=
  match wrapMessage r.encode with
  | .error e => .error e
  | .ok message =>
    match nextMessage message with
    | (.error e, _) => .error e
    | (.ok body, _) => receive (daemon body)

/-- An exchange with a daemon that does not listen at `endpoint`. -/
def unreachable (endpoint : String) : MeasurementError :=
  .unreachable endpoint "No such file or directory (os error 2)"

end AttestedChannel.Daemon
