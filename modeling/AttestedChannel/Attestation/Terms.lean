import AttestedChannel.Attestation.PropertyMask

/-!
# Terms of attestation

What is measured (`AttestationType`), how an appraisal ends (`Verdict`), and why one fails
(`FailureReason`). All three travel as names.
-/

namespace AttestedChannel

/-- Which properties an attestation measures. -/
inductive AttestationType where
  | basic
  | all
  | advanced
deriving DecidableEq, Repr, Inhabited

namespace AttestationType

/-- The name of an attestation type. -/
def name : AttestationType → String
  | .basic => "basic"
  | .all => "all"
  | .advanced => "advanced"

/-- The attestation types by name. -/
def variants : List (String × AttestationType) := [.basic, .all, .advanced].map fun t => (t.name, t)

/-- The mask that an attestation measures; only the advanced type takes the given one. -/
def selection (t : AttestationType) (custom : PropertyMask) : PropertyMask :=
  match t with
  | .basic => .basic
  | .all => .platform
  | .advanced => custom

/-- The attestation type as its name. -/
def write (t : AttestationType) : Bytes := Cbor.Write.text t.name

/-- Reads an attestation type. -/
def reader (depth : Nat) : Cbor.Reader AttestationType := Cbor.variant depth variants

end AttestationType

/-- How an appraisal ended. -/
inductive Verdict where
  | pass
  | fail
  | indeterminate
deriving DecidableEq, Repr, Inhabited

namespace Verdict

/-- The name of a verdict. -/
def name : Verdict → String
  | .pass => "pass"
  | .fail => "fail"
  | .indeterminate => "indeterminate"

/-- The verdicts by name. -/
def variants : List (String × Verdict) := [.pass, .fail, .indeterminate].map fun v => (v.name, v)

/-- The verdict as its name. -/
def write (v : Verdict) : Bytes := Cbor.Write.text v.name

/-- Reads a verdict. -/
def reader (depth : Nat) : Cbor.Reader Verdict := Cbor.variant depth variants

end Verdict

/-- Why an appraisal failed. -/
inductive FailureReason where
  /-- the measurement service gave no usable answer -/
  | measurementUnavailable
  /-- the evidence was not made for the pending challenge -/
  | nonceMismatch
  | evidenceMalformed
  /-- a measured value is not the expected one -/
  | measurementMismatch
  | rejectedByService
  /-- there was a response without a challenge -/
  | noPendingChallenge
deriving DecidableEq, Repr, Inhabited

namespace FailureReason

/-- The name of a reason, as it is reported to the peer. -/
def name : FailureReason → String
  | .measurementUnavailable => "measurement-unavailable"
  | .nonceMismatch => "nonce-mismatch"
  | .evidenceMalformed => "evidence-malformed"
  | .measurementMismatch => "measurement-mismatch"
  | .rejectedByService => "rejected-by-service"
  | .noPendingChallenge => "no-pending-challenge"

/-- All reasons. -/
def all : List FailureReason :=
  [.measurementUnavailable, .nonceMismatch, .evidenceMalformed, .measurementMismatch,
   .rejectedByService, .noPendingChallenge]

/-- The reasons by name. -/
def variants : List (String × FailureReason) := all.map fun r => (r.name, r)

/-- The reason as its name. -/
def write (r : FailureReason) : Bytes := Cbor.Write.text r.name

/-- Reads a reason. -/
def reader (depth : Nat) : Cbor.Reader FailureReason := Cbor.variant depth variants

end FailureReason

end AttestedChannel
