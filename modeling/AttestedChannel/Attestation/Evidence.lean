import AttestedChannel.Attestation.Measurements
import AttestedChannel.Attestation.Terms
import AttestedChannel.Cbor.Record

/-!
# Evidence

Evidence is what the measurement service of one peer makes and that of the other checks: measured
values and a quote over them and a nonce. The handshake carries it as octets. An `EvidenceSummary`
is what remains of it after the appraisal.
-/

namespace AttestedChannel

/-- Measured values and a quote over them and a nonce. -/
structure Evidence where
  nonce : Bytes
  attestationType : AttestationType
  propertyMask : PropertyMask
  measurements : Measurements
  quote : Bytes
deriving DecidableEq

namespace Evidence

/-- Evidence while its entries are read. -/
structure Draft where
  nonce : Option Bytes
  attestationType : Option AttestationType
  propertyMask : Option PropertyMask
  measurements : Option Measurements
  quote : Option Bytes

/-- No entry read. -/
def Draft.empty : Draft := ⟨none, none, none, none, none⟩

/-- The fields of evidence. -/
def fields : List (Cbor.Field Draft) :=
  [.ofReader "nonce" (·.nonce) (fun d v => { d with nonce := some v }) Cbor.octets,
   .ofReader "attestation_type" (·.attestationType)
     (fun d v => { d with attestationType := some v }) AttestationType.reader,
   .ofReader "property_mask" (·.propertyMask) (fun d v => { d with propertyMask := some v })
     (fun _ => PropertyMask.reader),
   .ofReader "measurements" (·.measurements) (fun d v => { d with measurements := some v })
     Measurements.reader,
   .ofReader "quote" (·.quote) (fun d v => { d with quote := some v }) Cbor.octets]

/-- The evidence of a draft that has every field. -/
def ofDraft (d : Draft) : Except Cbor.Failure Evidence := do
  let nonce ← Cbor.required "nonce" d.nonce
  let attestationType ← Cbor.required "attestation_type" d.attestationType
  let propertyMask ← Cbor.required "property_mask" d.propertyMask
  let measurements ← Cbor.required "measurements" d.measurements
  let quote ← Cbor.required "quote" d.quote
  return ⟨nonce, attestationType, propertyMask, measurements, quote⟩

/-- Reads evidence. -/
def reader (depth : Nat) : Cbor.Reader Evidence :=
  Cbor.record fields Cbor.skipUnknown .empty ofDraft depth

/-- The octets of evidence. -/
def encode (e : Evidence) : Bytes :=
  Cbor.Write.record
    [("nonce", Cbor.Write.octets e.nonce),
     ("attestation_type", e.attestationType.write),
     ("property_mask", e.propertyMask.write),
     ("measurements", e.measurements.write),
     ("quote", Cbor.Write.octets e.quote)]

/-- The evidence that the octets begin with. -/
def decode (b : Bytes) : Except Cbor.Failure Evidence := Cbor.decode (reader Cbor.maxDepth) b

end Evidence

/-- What evidence claimed. -/
structure EvidenceSummary where
  attestationType : AttestationType
  propertyMask : PropertyMask
  measurements : Measurements
deriving DecidableEq

namespace EvidenceSummary

/-- What a piece of evidence claims. -/
def ofEvidence (e : Evidence) : EvidenceSummary :=
  ⟨e.attestationType, e.propertyMask, e.measurements⟩

/-- A summary while its entries are read. -/
structure Draft where
  attestationType : Option AttestationType
  propertyMask : Option PropertyMask
  measurements : Option Measurements

/-- No entry read. -/
def Draft.empty : Draft := ⟨none, none, none⟩

/-- The fields of a summary. -/
def fields : List (Cbor.Field Draft) :=
  [.ofReader "attestation_type" (·.attestationType)
     (fun d v => { d with attestationType := some v }) AttestationType.reader,
   .ofReader "property_mask" (·.propertyMask) (fun d v => { d with propertyMask := some v })
     (fun _ => PropertyMask.reader),
   .ofReader "measurements" (·.measurements) (fun d v => { d with measurements := some v })
     Measurements.reader]

/-- The summary of a draft that has every field. -/
def ofDraft (d : Draft) : Except Cbor.Failure EvidenceSummary := do
  let attestationType ← Cbor.required "attestation_type" d.attestationType
  let propertyMask ← Cbor.required "property_mask" d.propertyMask
  let measurements ← Cbor.required "measurements" d.measurements
  return ⟨attestationType, propertyMask, measurements⟩

/-- Reads a summary. -/
def reader (depth : Nat) : Cbor.Reader EvidenceSummary :=
  Cbor.record fields Cbor.skipUnknown .empty ofDraft depth

/-- The octets of a summary. -/
def encode (s : EvidenceSummary) : Bytes :=
  Cbor.Write.record
    [("attestation_type", s.attestationType.write),
     ("property_mask", s.propertyMask.write),
     ("measurements", s.measurements.write)]

end EvidenceSummary

end AttestedChannel
