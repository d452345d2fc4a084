import AttestedChannel.Attestation.Appraisal
import AttestedChannel.Attestation.Service

/-!
# Coordination of an attestation

A coordinator runs both halves of an attestation. As verifier it issues a challenge over a nonce
(`challenge`) and appraises the response (`appraise`), in this order:

1. there is a pending challenge, else `noPendingChallenge`;
2. the evidence decodes, else `evidenceMalformed`;
3. both nonces are the pending one, else `nonceMismatch`;
4. the service answers, else `measurementUnavailable`;
5. it does not reject the evidence, else `rejectedByService`;
6. the values are the expected ones, else `measurementMismatch`.

The service is asked only after the first three. An appraisal uses up the pending challenge. As
prover the coordinator has the service quote over the nonce of the peer (`answer`).
-/

namespace AttestedChannel

/-- A challenge that waits for its response. -/
structure OpenChallenge where
  nonce : Bytes
  attestationType : AttestationType
  mask : PropertyMask
deriving DecidableEq, Repr

/-- Both halves of one session's attestation. -/
structure Coordinator where
  expected : Measurements
  pending : Option OpenChallenge
deriving DecidableEq

namespace Coordinator

/-- The number of octets of a nonce. -/
def nonceLength : Nat := 32

/-- No challenge issued yet. -/
def ofExpected (expected : Measurements) : Coordinator := ⟨expected, none⟩

/-- Issues a challenge over a nonce. An earlier challenge is forgotten. -/
def challenge (c : Coordinator) (nonce : Bytes) (t : AttestationType) (mask : PropertyMask) :
    Coordinator × Challenge :=
  ({ c with pending := some ⟨nonce, t, t.selection mask⟩ }, ⟨nonce, t, mask⟩)

/-- Forgets the pending challenge. -/
def reset (c : Coordinator) : Coordinator := { c with pending := none }

/-- What the answer to a request for verification makes of the peer. -/
def conclude (expected : Measurements) (p : OpenChallenge) (s : EvidenceSummary) :
    Answer → Appraisal
  | .reply r =>
    match r.status with
    | .pass =>
      match Appraisal.judge expected r.measurements p.mask true with
      | .ok () => .passed s
      | .error reason => .failed reason (some s)
    | .fail => .failed .rejectedByService (some s)
    | .error => .failed .measurementUnavailable (some s)
  | .fault _ => .failed .measurementUnavailable (some s)
  | .timeOut => .failed .measurementUnavailable (some s)

/-- The request that has the evidence of the peer verified. -/
def verifyRequest (p : OpenChallenge) (r : Response) : ServiceRequest :=
  ⟨.verify, p.attestationType, p.mask, p.nonce, some r.evidence⟩

/-- Appraises a response to the pending challenge `p`. -/
def verify (expected : Measurements) (p : OpenChallenge) (r : Response) : Exchange Appraisal :=
  match Evidence.decode r.evidence with
  | .error _ => .finished (.failed .evidenceMalformed none)
  | .ok e =>
    let s := EvidenceSummary.ofEvidence e
    if r.nonce = p.nonce ∧ e.nonce = p.nonce then
      .awaiting (verifyRequest p r) (conclude expected p s)
    else .finished (.failed .nonceMismatch (some s))

/-- Appraises a response of the peer. -/
def appraise (c : Coordinator) (r : Response) : Exchange (Coordinator × Appraisal) :=
  match c.pending with
  | none => .finished (c, .failed .noPendingChallenge none)
  | some p => (verify c.expected p r).map fun a => (c.reset, a)

/-- The request that has the own platform quoted for a challenge of the peer. -/
def quoteRequest (ch : Challenge) : ServiceRequest :=
  ⟨.quote, ch.attestationType, ch.attestationType.selection ch.propertyMask, ch.nonce, none⟩

/-- The response that the answer to a request for a quote makes possible. -/
def respond (ch : Challenge) : Answer → Except FailureReason Response
  | .reply r =>
    match r.status, r.evidence with
    | .pass, some e => .ok ⟨ch.nonce, e⟩
    | .pass, none => .error .measurementUnavailable
    | .fail, _ => .error .rejectedByService
    | .error, _ => .error .measurementUnavailable
  | .fault _ => .error .measurementUnavailable
  | .timeOut => .error .measurementUnavailable

/-- Answers a challenge of the peer. -/
def answer (ch : Challenge) : Exchange (Except FailureReason Response) :=
  .awaiting (quoteRequest ch) (respond ch)

end Coordinator

end AttestedChannel
