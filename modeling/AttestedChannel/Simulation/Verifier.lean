import AttestedChannel.Attestation.Coordinator
import AttestedChannel.Simulation.Backend
import AttestedChannel.Simulation.Entropy

/-!
# Coordinators on a bench

A `Verifier` is a coordinator with a simulated source of nonces and a simulated measurement service.
-/

namespace AttestedChannel.Simulation

/-- A coordinator and all that it needs. -/
structure Verifier where
  coordinator : Coordinator
  entropy : Entropy
  service : StallingService
  /-- the time that a call of the service may take -/
  limit : Duration

namespace Verifier

/-- Issues a challenge over the next nonce. -/
def challenge (v : Verifier) (t : AttestationType) (mask : PropertyMask) : Verifier × Challenge :=
  let (nonce, entropy) := v.entropy.draw Coordinator.nonceLength
  let (c, ch) := v.coordinator.challenge nonce t mask
  ({ v with coordinator := c, entropy := entropy }, ch)

/-- Appraises a response, unless that takes longer than `patience`; also the requests that the
service got. -/
def appraise (v : Verifier) (patience : Option Nat) (r : Response) :
    Verifier × Option Appraisal × List ServiceRequest :=
  let exchange := v.coordinator.appraise r
  let requests := exchange.request?.toList
  match v.service.settle v.limit.toNanos patience exchange with
  | (service, none) => ({ v with service := service }, none, requests)
  | (service, some (c, a)) => ({ v with coordinator := c, service := service }, some a, requests)

/-- Answers a challenge of the peer, unless that takes longer than `patience`; also the requests
that the service got. -/
def answer (v : Verifier) (patience : Option Nat) (ch : Challenge) :
    Verifier × Option (Except FailureReason Response) × List ServiceRequest :=
  let exchange := Coordinator.answer ch
  let (service, outcome) := v.service.settle v.limit.toNanos patience exchange
  ({ v with service := service }, outcome, exchange.request?.toList)

/-- Forgets the pending challenge. -/
def reset (v : Verifier) : Verifier := { v with coordinator := v.coordinator.reset }

end Verifier

end AttestedChannel.Simulation
