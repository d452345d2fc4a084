import AttestedChannel.Attestation.Service
import AttestedChannel.Simulation.Fnv

/-!
# A simulated measurement service

The simulated service quotes and verifies evidence like a real one, with made-up values
(`honestValues`) and a hash in place of a signature (`quote`). Its `Behavior` says in which way it
misbehaves, if in any.
-/

namespace AttestedChannel.Simulation

/-- How a simulated service behaves. -/
inductive Behavior where
  | honest
  /-- never answers -/
  | unresponsive
  /-- quotes octets that are no evidence -/
  | malformed
  /-- fails every call -/
  | failing
  /-- rejects all evidence -/
  | rejecting
  /-- quotes altered values -/
  | tampered
  /-- quotes over another nonce -/
  | replaying
deriving DecidableEq, Repr, Inhabited

namespace Behavior

/-- The name of a behavior. -/
def name : Behavior → String
  | .honest => "Honest"
  | .unresponsive => "Unresponsive"
  | .malformed => "Malformed"
  | .failing => "Failing"
  | .rejecting => "Rejecting"
  | .tampered => "Tampered"
  | .replaying => "Replaying"

/-- All behaviors. -/
def all : List Behavior :=
  [.honest, .unresponsive, .malformed, .failing, .rejecting, .tampered, .replaying]

end Behavior

/-! ## Values and quotes -/

/-- The value of a property: twenty octets that count upwards from a start of its own. -/
def honestValue (i : UInt8) : Bytes := (List.range 20).map fun k => i * 31 + UInt8.ofNat k

/-- The values of the selected properties. -/
def honestValues (mask : PropertyMask) : Measurements :=
  Measurements.ofList (mask.indices.map fun i => (i, honestValue i))

/-- The starting values of the four lanes of a quote. -/
def quoteLanes : List UInt64 :=
  [0xcbf29ce484222325, 0x84222325cbf29ce4, 0x9ce484222325cbf2, 0x2325cbf29ce48422]

/-- The octets that a quote covers: the nonce, then each index and its value. -/
def quotedOctets (nonce : Bytes) (m : Measurements) : Bytes :=
  nonce ++ m.entries.flatMap fun e => e.1 :: e.2

/-- The quote over a nonce and measured values: four hashes of the same octets. -/
def quote (nonce : Bytes) (m : Measurements) : Bytes :=
  quoteLanes.flatMap fun lane => Bytes.bigEndian 8 (Fnv.hash lane (quotedOctets nonce m)).toNat

/-- The octets with every bit inverted. -/
def invert (b : Bytes) : Bytes := b.map fun x => ~~~x

/-! ## Answers -/

/-- Evidence of the platform for a request. -/
def evidenceFor (r : ServiceRequest) (nonce : Bytes) (m : Measurements) : Evidence :=
  ⟨nonce, r.attestationType, r.propertyMask, m, quote nonce m⟩

/-- The reply to a request for a quote. -/
def quoteReply (b : Behavior) (r : ServiceRequest) : ServiceReply :=
  let values := honestValues r.propertyMask
  match b with
  | .malformed => ⟨.pass, some (List.replicate 16 0xFF), .empty, none⟩
  | .tampered =>
    let values := values.mapValues invert
    ⟨.pass, some (evidenceFor r r.nonce values).encode, values, none⟩
  | .replaying => ⟨.pass, some (evidenceFor r (invert r.nonce) values).encode, values, none⟩
  | _ => ⟨.pass, some (evidenceFor r r.nonce values).encode, values, none⟩

/-- The reply to a request for verification. -/
def verifyReply (b : Behavior) (r : ServiceRequest) : ServiceReply :=
  if b = .rejecting then .refusal .fail "policy rejects all evidence"
  else
    match r.evidence with
    | none => .refusal .error "no evidence to verify"
    | some octets =>
      match Evidence.decode octets with
      | .error e => .refusal .fail (MeasurementError.decode e.text).message
      | .ok e =>
        if e.nonce ≠ r.nonce ∨ e.quote ≠ quote e.nonce e.measurements then
          .refusal .fail "quote does not verify"
        else ⟨.pass, none, e.measurements, none⟩

/-- The outcome of a call; a service that does not answer has none. -/
def outcome? (b : Behavior) (r : ServiceRequest) : Option (Except MeasurementError ServiceReply) :=
  match b with
  | .unresponsive => none
  | .failing => some (.error (.unavailable "simulated outage"))
  | b =>
    match r.operation with
    | .quote => some (.ok (quoteReply b r))
    | .verify => some (.ok (verifyReply b r))

/-! ## The service -/

/-- A simulated service and what it has been asked. -/
structure MeasurementService where
  behavior : Behavior
  quotes : Nat
  verifications : Nat
deriving DecidableEq, Repr

namespace MeasurementService

/-- A service that has not been asked anything. -/
def ofBehavior (b : Behavior) : MeasurementService := ⟨b, 0, 0⟩

/-- Counts a request and answers it. -/
def measure (s : MeasurementService) (r : ServiceRequest) :
    MeasurementService × Option (Except MeasurementError ServiceReply) :=
  let counted : MeasurementService :=
    match r.operation with
    | .quote => { s with quotes := s.quotes + 1 }
    | .verify => { s with verifications := s.verifications + 1 }
  (counted, outcome? s.behavior r)

end MeasurementService

end AttestedChannel.Simulation
