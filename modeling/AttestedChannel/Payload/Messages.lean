import AttestedChannel.Attestation.Terms
import AttestedChannel.Cbor.Record

/-!
# Messages of the handshake

The contents of the structured messages, each with its reader and its octets. On the wire a message
is a record; its fields are written in the order in which they stand here.
-/

namespace AttestedChannel

/-! ## Hello -/

/-- Opens the handshake. -/
structure Hello where
  version : UInt8
  mutualAttestation : Bool
deriving DecidableEq, Repr

namespace Hello

/-- The version of the handshake. -/
def currentVersion : UInt8 := 1

/-- The message while its entries are read. -/
structure Draft where
  version : Option UInt8
  mutualAttestation : Option Bool

/-- No entry read. -/
def Draft.empty : Draft := ⟨none, none⟩

/-- The fields of the message. -/
def fields : List (Cbor.Field Draft) :=
  [.ofReader "version" (·.version) (fun d v => { d with version := some v }) (fun _ => Cbor.uint8),
   .ofReader "mutual_attestation" (·.mutualAttestation)
     (fun d v => { d with mutualAttestation := some v }) (fun _ => Cbor.boolean)]

/-- The message of a draft that has every field. -/
def ofDraft (d : Draft) : Except Cbor.Failure Hello := do
  let version ← Cbor.required "version" d.version
  let mutualAttestation ← Cbor.required "mutual_attestation" d.mutualAttestation
  return ⟨version, mutualAttestation⟩

/-- Reads the message. -/
def reader (depth : Nat) : Cbor.Reader Hello :=
  Cbor.record fields Cbor.skipUnknown .empty ofDraft depth

/-- The octets of the message. -/
def encode (m : Hello) : Bytes :=
  Cbor.Write.record
    [("version", Cbor.Write.unsigned m.version.toNat),
     ("mutual_attestation", Cbor.Write.boolean m.mutualAttestation)]

end Hello

/-! ## Challenge -/

/-- Asks the peer for evidence over a nonce. -/
structure Challenge where
  nonce : Bytes
  attestationType : AttestationType
  propertyMask : PropertyMask
deriving DecidableEq, Repr

namespace Challenge

/-- The message while its entries are read. -/
structure Draft where
  nonce : Option Bytes
  attestationType : Option AttestationType
  propertyMask : Option PropertyMask

/-- No entry read. -/
def Draft.empty : Draft := ⟨none, none, none⟩

/-- The fields of the message. -/
def fields : List (Cbor.Field Draft) :=
  [.ofReader "nonce" (·.nonce) (fun d v => { d with nonce := some v }) Cbor.octets,
   .ofReader "attestation_type" (·.attestationType)
     (fun d v => { d with attestationType := some v }) AttestationType.reader,
   .ofReader "property_mask" (·.propertyMask) (fun d v => { d with propertyMask := some v })
     (fun _ => PropertyMask.reader)]

/-- The message of a draft that has every field. -/
def ofDraft (d : Draft) : Except Cbor.Failure Challenge := do
  let nonce ← Cbor.required "nonce" d.nonce
  let attestationType ← Cbor.required "attestation_type" d.attestationType
  let propertyMask ← Cbor.required "property_mask" d.propertyMask
  return ⟨nonce, attestationType, propertyMask⟩

/-- Reads the message. -/
def reader (depth : Nat) : Cbor.Reader Challenge :=
  Cbor.record fields Cbor.skipUnknown .empty ofDraft depth

/-- The octets of the message. -/
def encode (m : Challenge) : Bytes :=
  Cbor.Write.record
    [("nonce", Cbor.Write.octets m.nonce),
     ("attestation_type", m.attestationType.write),
     ("property_mask", m.propertyMask.write)]

end Challenge

/-! ## Response -/

/-- Answers a challenge with evidence. -/
structure Response where
  nonce : Bytes
  evidence : Bytes
deriving DecidableEq, Repr

namespace Response

/-- The message while its entries are read. -/
structure Draft where
  nonce : Option Bytes
  evidence : Option Bytes

/-- No entry read. -/
def Draft.empty : Draft := ⟨none, none⟩

/-- The fields of the message. -/
def fields : List (Cbor.Field Draft) :=
  [.ofReader "nonce" (·.nonce) (fun d v => { d with nonce := some v }) Cbor.octets,
   .ofReader "evidence" (·.evidence) (fun d v => { d with evidence := some v }) Cbor.octets]

/-- The message of a draft that has every field. -/
def ofDraft (d : Draft) : Except Cbor.Failure Response := do
  let nonce ← Cbor.required "nonce" d.nonce
  let evidence ← Cbor.required "evidence" d.evidence
  return ⟨nonce, evidence⟩

/-- Reads the message. -/
def reader (depth : Nat) : Cbor.Reader Response :=
  Cbor.record fields Cbor.skipUnknown .empty ofDraft depth

/-- The octets of the message. -/
def encode (m : Response) : Bytes :=
  Cbor.Write.record
    [("nonce", Cbor.Write.octets m.nonce), ("evidence", Cbor.Write.octets m.evidence)]

end Response

/-! ## Result -/

/-- Reports a verdict to the peer. -/
structure ResultReport where
  verdict : Verdict
  reason : Option String
deriving DecidableEq, Repr

namespace ResultReport

/-- The message while its entries are read. -/
structure Draft where
  verdict : Option Verdict
  reason : Option (Option String)

/-- No entry read. -/
def Draft.empty : Draft := ⟨none, none⟩

/-- The fields of the message. -/
def fields : List (Cbor.Field Draft) :=
  [.ofReader "verdict" (·.verdict) (fun d v => { d with verdict := some v }) Verdict.reader,
   .ofReader "reason" (·.reason) (fun d v => { d with reason := some v })
     (fun _ => Cbor.optional Cbor.text)]

/-- The message of a draft that has a verdict. -/
def ofDraft (d : Draft) : Except Cbor.Failure ResultReport := do
  let verdict ← Cbor.required "verdict" d.verdict
  return ⟨verdict, d.reason.getD none⟩

/-- Reads the message. -/
def reader (depth : Nat) : Cbor.Reader ResultReport :=
  Cbor.record fields Cbor.skipUnknown .empty ofDraft depth

/-- The octets of the message. -/
def encode (m : ResultReport) : Bytes :=
  Cbor.Write.record
    (("verdict", m.verdict.write) :: Cbor.Write.entry? "reason" Cbor.Write.text m.reason)

end ResultReport

/-! ## Self-description -/

/-- Describes a connector to its peer. -/
structure SelfDescription where
  document : String
deriving DecidableEq, Repr

namespace SelfDescription

/-- The message while its entries are read. -/
structure Draft where
  document : Option String

/-- No entry read. -/
def Draft.empty : Draft := ⟨none⟩

/-- The fields of the message. -/
def fields : List (Cbor.Field Draft) :=
  [.ofReader "document" (·.document) (fun d v => { d with document := some v })
     (fun _ => Cbor.text)]

/-- The message of a draft that has a document. -/
def ofDraft (d : Draft) : Except Cbor.Failure SelfDescription := do
  let document ← Cbor.required "document" d.document
  return ⟨document⟩

/-- Reads the message. -/
def reader (depth : Nat) : Cbor.Reader SelfDescription :=
  Cbor.record fields Cbor.skipUnknown .empty ofDraft depth

/-- The octets of the message. -/
def encode (m : SelfDescription) : Bytes :=
  Cbor.Write.record [("document", Cbor.Write.text m.document)]

end SelfDescription

/-! ## Errors -/

/-- The kind of a reported error. -/
inductive ErrorCode where
  | protocolViolation
  | unsupportedVersion
  | attestationFailed
  | handshakeTimeout
  | malformedFrame
deriving DecidableEq, Repr, Inhabited

namespace ErrorCode

/-- All kinds by ascending code. -/
def all : List ErrorCode :=
  [.protocolViolation, .unsupportedVersion, .attestationFailed, .handshakeTimeout, .malformedFrame]

/-- The code on the wire. -/
def code : ErrorCode → Nat
  | .protocolViolation => 1
  | .unsupportedVersion => 2
  | .attestationFailed => 3
  | .handshakeTimeout => 4
  | .malformedFrame => 5

/-- The kind with a code. -/
def ofCode? (n : Nat) : Option ErrorCode := all.find? (fun c => c.code == n)

/-- Each code is read back. -/
@[simp] theorem ofCode?_code (c : ErrorCode) : ofCode? c.code = some c := by cases c <;> rfl

/-- The name of an error kind. -/
def name : ErrorCode → String
  | .protocolViolation => "ProtocolViolation"
  | .unsupportedVersion => "UnsupportedVersion"
  | .attestationFailed => "AttestationFailed"
  | .handshakeTimeout => "HandshakeTimeout"
  | .malformedFrame => "MalformedFrame"

/-- Reads an error kind. -/
def reader : Cbor.Reader ErrorCode := Cbor.code (all.map code) ofCode?

/-- The error kind as its code. -/
def write (c : ErrorCode) : Bytes := Cbor.Write.unsigned c.code

end ErrorCode

/-- Reports an error to the peer. -/
structure ErrorReport where
  code : ErrorCode
  message : String
deriving DecidableEq, Repr

namespace ErrorReport

/-- The message while its entries are read. -/
structure Draft where
  code : Option ErrorCode
  message : Option String

/-- No entry read. -/
def Draft.empty : Draft := ⟨none, none⟩

/-- The fields of the message. -/
def fields : List (Cbor.Field Draft) :=
  [.ofReader "code" (·.code) (fun d v => { d with code := some v }) (fun _ => ErrorCode.reader),
   .ofReader "message" (·.message) (fun d v => { d with message := some v }) (fun _ => Cbor.text)]

/-- The message of a draft that has every field. -/
def ofDraft (d : Draft) : Except Cbor.Failure ErrorReport := do
  let code ← Cbor.required "code" d.code
  let message ← Cbor.required "message" d.message
  return ⟨code, message⟩

/-- Reads the message. -/
def reader (depth : Nat) : Cbor.Reader ErrorReport :=
  Cbor.record fields Cbor.skipUnknown .empty ofDraft depth

/-- The octets of the message. -/
def encode (m : ErrorReport) : Bytes :=
  Cbor.Write.record [("code", m.code.write), ("message", Cbor.Write.text m.message)]

end ErrorReport

end AttestedChannel
