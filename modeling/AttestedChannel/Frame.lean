import AttestedChannel.Frame.Header

/-!
# Frames

A frame is a header and a payload; it is what a transport delivers. `Frame.ofPayload` sets the size
field to the length of the payload, `encode` refuses a payload that is too large, and `decode`
ignores what follows the announced payload. `encodeOnto` is `encode` for a buffer that is filled
from several frames.
-/

namespace AttestedChannel

/-- A header and a payload. -/
structure Frame where
  header : FrameHeader
  payload : Bytes
deriving DecidableEq, Repr, Inhabited

namespace Frame

/-- The frame of a payload: the size field of the header is set, modulo `2 ^ 32`. -/
def ofPayload (h : FrameHeader) (payload : Bytes) : Frame :=
  ⟨{ h with payloadSize := UInt32.ofNat payload.length }, payload⟩

/-- The number of octets of the frame. -/
def encodedLength (f : Frame) : Nat := FrameHeader.size + f.payload.length

/-- The octets of the frame. -/
def encode (f : Frame) : Except FrameFault Bytes :=
  if FrameHeader.maxPayload < f.payload.length then
    .error (.payloadTooLarge f.payload.length FrameHeader.maxPayload)
  else .ok (f.header.encode ++ f.payload)

/-- Appends the octets of the frame to `dst`. A frame that is too large appends nothing. -/
def encodeOnto (f : Frame) (dst : Bytes) : Bytes × Except FrameFault Unit :=
  if FrameHeader.maxPayload < f.payload.length then
    (dst, .error (.payloadTooLarge f.payload.length FrameHeader.maxPayload))
  else (dst ++ f.header.encode ++ f.payload, .ok ())

/-- The octets of a frame are those that it appends. -/
theorem encodeOnto_eq (f : Frame) (dst : Bytes) :
    f.encodeOnto dst =
      match f.encode with
      | .error e => (dst, .error e)
      | .ok b => (dst ++ b, .ok ()) := by
  unfold encodeOnto encode
  split
  · rfl
  · rw [List.append_assoc]

/-- The frame at the front of the octets. -/
def decode (b : Bytes) : Except FrameFault Frame :=
  match FrameHeader.read b with
  | .error e => .error e
  | .ok (h, rest) =>
    match Bytes.take? h.payloadSize.toNat rest with
    | some (payload, _) => .ok ⟨h, payload⟩
    | none => .error (.frameTruncated h.payloadSize.toNat rest.length)

end Frame

end AttestedChannel
