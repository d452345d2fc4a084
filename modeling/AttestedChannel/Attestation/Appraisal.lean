import AttestedChannel.Attestation.Evidence
import AttestedChannel.Payload.Messages

/-!
# Appraisals

An appraisal is the outcome of attesting the peer: a verdict, what the evidence claimed, and the
reason if the peer did not pass. `judge` is the last word on measured values; it passes them only if
the nonce matched, the mask selects something, and every selected property has an expected and a
measured value that are equal.
-/

namespace AttestedChannel

/-- The outcome of attesting the peer. -/
structure Appraisal where
  verdict : Verdict
  /-- present when the evidence could be decoded -/
  evidence : Option EvidenceSummary
  /-- present when the peer did not pass -/
  reason : Option FailureReason
deriving DecidableEq

namespace Appraisal

/-- The peer passed. -/
def passed (s : EvidenceSummary) : Appraisal := ⟨.pass, some s, none⟩

/-- The peer failed. -/
def failed (r : FailureReason) (s : Option EvidenceSummary) : Appraisal := ⟨.fail, s, some r⟩

/-- Whether the peer passed. -/
def isPass (a : Appraisal) : Bool := a.verdict == .pass

/-- The message that reports the outcome to the peer. -/
def report (a : Appraisal) : ResultReport := ⟨a.verdict, a.reason.map FailureReason.name⟩

/-! ## Judging values -/

/-- Whether a property has an expected and a measured value and they are equal. -/
def agrees (expected actual : Measurements) (i : UInt8) : Bool :=
  match expected.get? i, actual.get? i with
  | some e, some a => e == a
  | _, _ => false

/-- Whether the measured values are the expected ones, for all that the mask selects. -/
def judge (expected actual : Measurements) (mask : PropertyMask) (nonceMatches : Bool) :
    Except FailureReason Unit :=
  if !nonceMatches then .error .nonceMismatch
  else if mask.indices.isEmpty then .error .measurementMismatch
  else if mask.indices.all (agrees expected actual) then .ok ()
  else .error .measurementMismatch

/-! ## On the wire -/

/-- An appraisal while its entries are read. -/
structure Draft where
  verdict : Option Verdict
  evidence : Option (Option EvidenceSummary)
  reason : Option (Option FailureReason)

/-- No entry read. -/
def Draft.empty : Draft := ⟨none, none, none⟩

/-- The fields of an appraisal. -/
def fields : List (Cbor.Field Draft) :=
  [.ofReader "verdict" (·.verdict) (fun d v => { d with verdict := some v }) Verdict.reader,
   .ofReader "evidence" (·.evidence) (fun d v => { d with evidence := some v })
     (fun depth => Cbor.optional (EvidenceSummary.reader depth)),
   .ofReader "reason" (·.reason) (fun d v => { d with reason := some v })
     (fun depth => Cbor.optional (FailureReason.reader depth))]

/-- The appraisal of a draft that has a verdict. -/
def ofDraft (d : Draft) : Except Cbor.Failure Appraisal := do
  let verdict ← Cbor.required "verdict" d.verdict
  return ⟨verdict, d.evidence.getD none, d.reason.getD none⟩

/-- Reads an appraisal. -/
def reader (depth : Nat) : Cbor.Reader Appraisal :=
  Cbor.record fields Cbor.skipUnknown .empty ofDraft depth

/-- The octets of an appraisal. -/
def encode (a : Appraisal) : Bytes :=
  Cbor.Write.record
    [("verdict", a.verdict.write),
     ("evidence", Cbor.Write.optional EvidenceSummary.encode a.evidence),
     ("reason", Cbor.Write.optional FailureReason.write a.reason)]

end Appraisal

end AttestedChannel
