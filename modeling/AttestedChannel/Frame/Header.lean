import AttestedChannel.Bytes
import AttestedChannel.Frame.Fault
import AttestedChannel.Frame.MessageType

/-!
# Frame headers

A header is sixteen octets, numbers highest octet first:

```text
 0        4         5          6              8          12             16
 | magic  | version | reserved | message type | sequence | payload size |
```

The magic number and the version are the same in every header, so a `FrameHeader` holds the other
four fields. The reserved octet is written as zero and kept as it was read. `read` accepts any
message type code, known or not, and refuses a payload above `maxPayload`.
-/

namespace AttestedChannel

/-- The variable fields of a frame header. -/
structure FrameHeader where
  reserved : UInt8
  messageType : UInt16
  sequence : UInt32
  payloadSize : UInt32
deriving DecidableEq, Repr, Inhabited

namespace FrameHeader

/-- The number of octets of a header. -/
def size : Nat := 16

/-- The number that every frame begins with. -/
def magic : Nat := 0x49445343

/-- The version of the frame format. -/
def version : UInt8 := 1

/-- The greatest number of octets of a payload. -/
def maxPayload : Nat := 1024 * 1024

/-- A header without payload for a message of a known type. -/
def ofType (t : MessageType) (sequence : UInt32) : FrameHeader := ⟨0, t.code, sequence, 0⟩

/-- The message type, if the code is known. -/
def known? (h : FrameHeader) : Option MessageType := MessageType.ofCode? h.messageType

/-- The octets of a header. -/
def encode (h : FrameHeader) : Bytes :=
  Bytes.bigEndian 4 magic ++ [version, h.reserved] ++ Bytes.bigEndian 2 h.messageType.toNat ++
    Bytes.bigEndian 4 h.sequence.toNat ++ Bytes.bigEndian 4 h.payloadSize.toNat

@[simp] theorem length_encode (h : FrameHeader) : h.encode.length = size := by
  simp [encode, size]

/-- The header at the front of the octets, and what follows it. The first fault in the order of the
fields is reported. -/
def read (b : Bytes) : Except FrameFault (FrameHeader × Bytes) :=
  match b with
  | m₀ :: m₁ :: m₂ :: m₃ :: v :: reserved :: t₀ :: t₁ :: s₀ :: s₁ :: s₂ :: s₃ :: p₀ :: p₁ :: p₂ ::
      p₃ :: rest =>
    let payload := Bytes.toNat [p₀, p₁, p₂, p₃]
    if Bytes.toNat [m₀, m₁, m₂, m₃] ≠ magic then .error .invalidMagic
    else if v ≠ version then .error (.unsupportedVersion v)
    else if maxPayload < payload then .error (.payloadTooLarge payload maxPayload)
    else .ok (⟨reserved, UInt16.ofNat (Bytes.toNat [t₀, t₁]),
      UInt32.ofNat (Bytes.toNat [s₀, s₁, s₂, s₃]), UInt32.ofNat payload⟩, rest)
  | short => .error (.frameTooShort size short.length)

/-- The header at the front of the octets. -/
def decode (b : Bytes) : Except FrameFault FrameHeader := (read b).map (·.1)

/-- The header on one line, for diagnostics. -/
def describe (h : FrameHeader) : String :=
  "FrameHeader \x7b magic: \"0x" ++ Text.Hex.padded 8 magic ++ "\", version: " ++
    toString version.toNat ++ ", message_type: \"0x" ++ Text.Hex.padded 4 h.messageType.toNat ++
    "\", sequence: " ++ toString h.sequence.toNat ++ ", payload_size: " ++
    toString h.payloadSize.toNat ++ " \x7d"

end FrameHeader

end AttestedChannel
