import AttestedChannel.Frame
import AttestedChannel.Session.Id

/-!
# Sessions over byte streams

A byte stream carries frames one after the other. `nextFrame` takes the next one off a stream, and
`callbacks` says what the handler of a session is told while a stream is read to its end: each
frame, then that the session is closed, and before that an error if reading failed. A stream that
ends before a header is complete has ended normally.
-/

namespace AttestedChannel

/-- The code of a session that was closed in order. -/
def closeNormal : Nat := 1000

/-- The code of a session that was lost. -/
def closeAbnormal : Nat := 1006

namespace Stream

/-- Why reading a stream failed. -/
inductive Fault where
  | invalid (e : FrameFault)
  /-- the stream ended inside a payload -/
  | truncated
deriving DecidableEq, Repr

/-- The fault in words. -/
def Fault.message : Fault → String
  | .invalid e => e.message
  | .truncated => "early eof"

/-- The octets of the next frame and what follows it; no frame when the stream has ended. -/
def nextFrame (stream : Bytes) : Except Fault (Option (Bytes × Bytes)) :=
  match Bytes.take? FrameHeader.size stream with
  | none => .ok none
  | some (header, rest) =>
    match FrameHeader.decode header with
    | .error e => .error (.invalid e)
    | .ok h =>
      match Bytes.take? h.payloadSize.toNat rest with
      | none => .error .truncated
      | some (payload, rest) => .ok (some (header ++ payload, rest))

/-- A frame takes at least one octet off the stream. -/
theorem length_of_nextFrame {stream b rest : Bytes} (h : nextFrame stream = .ok (some (b, rest))) :
    rest.length < stream.length := by
  unfold nextFrame at h
  split at h
  · cases h
  · next header body ht =>
    obtain ⟨hl, hs⟩ := Bytes.take?_eq_some.1 ht
    split at h
    · cases h
    · split at h
      · cases h
      · next payload left hp =>
        obtain ⟨_, hb⟩ := Bytes.take?_eq_some.1 hp
        cases h
        rw [hs, hb, List.length_append, List.length_append, hl, FrameHeader.size]
        omega

/-- All frames of a stream, and how reading them ended. -/
def allFrames (stream : Bytes) : List Bytes × Except Fault Unit :=
  match _h : nextFrame stream with
  | .error e => ([], .error e)
  | .ok none => ([], .ok ())
  | .ok (some (b, rest)) =>
    let (frames, last) := allFrames rest
    (b :: frames, last)
termination_by stream.length
decreasing_by exact length_of_nextFrame (by assumption)

/-- What the handler of a session is told. -/
inductive Callback where
  | message (b : Bytes)
  | failed (text : String)
  | closed (code : Nat) (reason : String)
deriving DecidableEq, Repr

/-- What the handler is told while a stream is read. -/
def callbacks (stream : Bytes) : List Callback :=
  match allFrames stream with
  | (frames, .ok ()) => frames.map .message ++ [.closed closeNormal "end of stream"]
  | (frames, .error e) =>
    frames.map .message ++ [.failed e.message, .closed closeAbnormal "read failed"]

/-- What the handler is told when frames are handed over one by one by a peer that then goes away.
-/
def relay (frames : List Bytes) : List Callback :=
  frames.map .message ++ [.closed closeNormal "peer closed"]

end Stream

/-! ## Sessions within one process -/

/-- One end of a session within one process: who it is, how it names its peer, and what it was sent,
as long as somebody receives it. -/
structure LocalSession where
  id : SessionId
  remote : String
  hasReceiver : Bool
  sent : List Bytes
deriving DecidableEq, Repr

namespace LocalSession

/-- Two ends that name each other. -/
def pair (left right : SessionId) : LocalSession × LocalSession :=
  (⟨left, "sim:" ++ right.text, true, []⟩, ⟨right, "sim:" ++ left.text, true, []⟩)

/-- Sends octets; without a receiver that fails and changes nothing. -/
def send (s : LocalSession) (b : Bytes) : Except String Unit × LocalSession :=
  if s.hasReceiver then (.ok (), { s with sent := s.sent ++ [b] })
  else (.error "channel session closed", s)

/-- Sends each of several messages from one end and then from the other. -/
def alternate (s t : LocalSession) :
    List Bytes → List (Except String Unit) × LocalSession × LocalSession
  | [] => ([], s, t)
  | b :: bs =>
    let (first, s) := s.send b
    let (second, t) := t.send b
    let (others, s, t) := s.alternate t bs
    (first :: second :: others, s, t)

end LocalSession

end AttestedChannel
