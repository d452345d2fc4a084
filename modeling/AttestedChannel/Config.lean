import AttestedChannel.Attestation.Measurements
import AttestedChannel.Attestation.Terms
import AttestedChannel.Duration

/-!
# Configuration of a connector

Everything that a connector brings to a handshake. A configuration is read from a record in which
any field may be missing: `Draft.overriding` puts the fields that are there over those of another
configuration, and a reader puts them over `default`.
-/

namespace AttestedChannel

/-- Which side of the handshake a connector takes. -/
inductive Role where
  | acceptor
  | initiator
deriving DecidableEq, Repr, Inhabited

namespace Role

/-- The name of a role in a configuration. -/
def name : Role → String
  | .acceptor => "acceptor"
  | .initiator => "initiator"

/-- The roles by name. -/
def variants : List (String × Role) := [.acceptor, .initiator].map fun r => (r.name, r)

/-- The role as its name. -/
def write (r : Role) : Bytes := Cbor.Write.text r.name

/-- Reads a role. -/
def reader (depth : Nat) : Cbor.Reader Role := Cbor.variant depth variants

end Role

/-- What a connector brings to a handshake. -/
structure Config where
  role : Role
  attestationType : AttestationType
  /-- the properties to ask for when the attestation type leaves the choice -/
  propertyMask : PropertyMask
  /-- the values that the peer has to have -/
  expectedMeasurements : Measurements
  measurementTimeout : Duration
  handshakeTimeout : Duration
  mutualAttestation : Bool
  selfDescription : String
  /-- where the measurement daemon listens -/
  daemonSocket : String
deriving DecidableEq

namespace Config

/-- The configuration of a connector that was told nothing. -/
def default : Config where
  role := .acceptor
  attestationType := .basic
  propertyMask := .empty
  expectedMeasurements := .empty
  measurementTimeout := .ofSeconds 5
  handshakeTimeout := .ofSeconds 30
  mutualAttestation := false
  selfDescription := ""
  daemonSocket := "/var/run/tpmd/control.sock"

instance : Inhabited Config := ⟨default⟩

/-- The configuration with another role. -/
def asRole (c : Config) (r : Role) : Config := { c with role := r }

/-- The properties that the connector asks for. -/
def selection (c : Config) : PropertyMask := c.attestationType.selection c.propertyMask

/-! ## On the wire -/

/-- A configuration of which some fields are known. -/
structure Draft where
  role : Option Role
  attestationType : Option AttestationType
  propertyMask : Option PropertyMask
  expectedMeasurements : Option Measurements
  measurementTimeout : Option Duration
  handshakeTimeout : Option Duration
  mutualAttestation : Option Bool
  selfDescription : Option String
  daemonSocket : Option String

/-- No field known. -/
def Draft.empty : Draft := ⟨none, none, none, none, none, none, none, none, none⟩

/-- The known fields over those of `c`. -/
def Draft.overriding (d : Draft) (c : Config) : Config where
  role := d.role.getD c.role
  attestationType := d.attestationType.getD c.attestationType
  propertyMask := d.propertyMask.getD c.propertyMask
  expectedMeasurements := d.expectedMeasurements.getD c.expectedMeasurements
  measurementTimeout := d.measurementTimeout.getD c.measurementTimeout
  handshakeTimeout := d.handshakeTimeout.getD c.handshakeTimeout
  mutualAttestation := d.mutualAttestation.getD c.mutualAttestation
  selfDescription := d.selfDescription.getD c.selfDescription
  daemonSocket := d.daemonSocket.getD c.daemonSocket

/-- The fields of a configuration. -/
def fields : List (Cbor.Field Draft) :=
  [.ofReader "role" (·.role) (fun d v => { d with role := some v }) Role.reader,
   .ofReader "attestation_type" (·.attestationType)
     (fun d v => { d with attestationType := some v }) AttestationType.reader,
   .ofReader "property_mask" (·.propertyMask) (fun d v => { d with propertyMask := some v })
     (fun _ => PropertyMask.reader),
   .ofReader "expected_measurements" (·.expectedMeasurements)
     (fun d v => { d with expectedMeasurements := some v }) Measurements.reader,
   .ofReader "measurement_timeout" (·.measurementTimeout)
     (fun d v => { d with measurementTimeout := some v }) Duration.reader,
   .ofReader "handshake_timeout" (·.handshakeTimeout)
     (fun d v => { d with handshakeTimeout := some v }) Duration.reader,
   .ofReader "mutual_attestation" (·.mutualAttestation)
     (fun d v => { d with mutualAttestation := some v }) (fun _ => Cbor.boolean),
   .ofReader "self_description" (·.selfDescription)
     (fun d v => { d with selfDescription := some v }) (fun _ => Cbor.text),
   .ofReader "tpmd_socket" (·.daemonSocket) (fun d v => { d with daemonSocket := some v })
     (fun _ => Cbor.text)]

/-- Reads a configuration; missing fields have their default. -/
def reader (depth : Nat) : Cbor.Reader Config :=
  Cbor.record fields Cbor.skipUnknown .empty (fun d => .ok (d.overriding default)) depth

/-- The entries of a configuration by name. -/
def entries (c : Config) : List (String × Bytes) :=
  [("role", c.role.write),
   ("attestation_type", c.attestationType.write),
   ("property_mask", c.propertyMask.write),
   ("expected_measurements", c.expectedMeasurements.write),
   ("measurement_timeout", c.measurementTimeout.encode),
   ("handshake_timeout", c.handshakeTimeout.encode),
   ("mutual_attestation", Cbor.Write.boolean c.mutualAttestation),
   ("self_description", Cbor.Write.text c.selfDescription),
   ("tpmd_socket", Cbor.Write.text c.daemonSocket)]

/-- The octets of a configuration. -/
def encode (c : Config) : Bytes := Cbor.Write.record c.entries

/-- The configuration that the octets begin with. -/
def decode (b : Bytes) : Except Cbor.Failure Config := Cbor.decode (reader Cbor.maxDepth) b

end Config

end AttestedChannel
