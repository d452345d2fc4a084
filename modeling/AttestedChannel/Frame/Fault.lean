import AttestedChannel.Text.Hex

/-!
# Errors of the frame format

Why octets are no frame, why a frame carries no message, and why a frame cannot be written.
-/

namespace AttestedChannel

/-- A fault in a frame or in the payload it carries. -/
inductive FrameFault where
  | frameTooShort (expected actual : Nat)
  | invalidMagic
  | unsupportedVersion (version : UInt8)
  | payloadTooLarge (size max : Nat)
  /-- the header announces more octets than there are -/
  | frameTruncated (expected actual : Nat)
  | encode (detail : String)
  | decode (detail : String)
  | invalidMessageType (code : UInt16)
deriving DecidableEq, Repr

/-- The fault in words. -/
def FrameFault.message : FrameFault → String
  | .frameTooShort expected actual =>
    "frame too short: expected at least " ++ toString expected ++ " bytes, got " ++ toString actual
  | .invalidMagic => "invalid magic number: expected 0x49445343 (\"IDSC\")"
  | .unsupportedVersion v => "unsupported wire version: " ++ toString v.toNat
  | .payloadTooLarge size max =>
    "payload too large: " ++ toString size ++ " bytes exceeds maximum " ++ toString max
  | .frameTruncated expected actual =>
    "frame truncated: header claims " ++ toString expected ++ " payload bytes, but only " ++
      toString actual ++ " available"
  | .encode detail => "failed to encode CBOR: " ++ detail
  | .decode detail => "failed to decode CBOR: " ++ detail
  | .invalidMessageType code => "invalid message type: 0x" ++ Text.Hex.padded 4 code.toNat

end AttestedChannel
