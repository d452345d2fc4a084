import AttestedChannel.Cbor.Reader
import AttestedChannel.Cbor.Write

/-!
# Message types

The kinds of messages that a frame can carry, and their codes in the frame header. Where a message
type is an item of its own it is its code, too.
-/

namespace AttestedChannel

/-- The kind of a message. -/
inductive MessageType where
  | hello
  | attestationChallenge
  | attestationResponse
  | attestationResult
  | metadata
  | raw
  | error
deriving DecidableEq, Repr, Inhabited

namespace MessageType

/-- All message types by ascending code. -/
def all : List MessageType :=
  [.hello, .attestationChallenge, .attestationResponse, .attestationResult, .metadata, .raw, .error]

/-- The code in the frame header. -/
def code : MessageType → UInt16
  | .hello => 0x01
  | .attestationChallenge => 0x10
  | .attestationResponse => 0x11
  | .attestationResult => 0x12
  | .metadata => 0x20
  | .raw => 0x30
  | .error => 0xFF

/-- The message type with a code. -/
def ofCode? (n : UInt16) : Option MessageType := all.find? (fun t => t.code == n)

/-- Each code is read back. -/
@[simp] theorem ofCode?_code (t : MessageType) : ofCode? t.code = some t := by cases t <;> rfl

/-- A code that is read is the code of what it was read as. -/
theorem code_of_ofCode? {n : UInt16} {t : MessageType} (h : ofCode? n = some t) : t.code = n := by
  simpa using List.find?_some h

/-- Whether the message belongs to the attestation exchange. -/
def isAttestation (t : MessageType) : Bool := 0x10 ≤ t.code && t.code ≤ 0x12

/-- The name of the message type. -/
def name : MessageType → String
  | .hello => "Hello"
  | .attestationChallenge => "AttestationChallenge"
  | .attestationResponse => "AttestationResponse"
  | .attestationResult => "AttestationResult"
  | .metadata => "Metadata"
  | .raw => "Raw"
  | .error => "Error"

/-! ## As an item -/

/-- The message type as its code. -/
def write (t : MessageType) : Bytes := Cbor.Write.unsigned t.code.toNat

/-- Reads a message type. -/
def reader : Cbor.Reader MessageType :=
  Cbor.code (all.map fun t => t.code.toNat) fun n => ofCode? (UInt16.ofNat n)

end MessageType

end AttestedChannel
