import AttestedChannel.Attestation.Evidence

/-!
# The measurement service

A connector never measures anything itself: it asks a service next to it, either to quote its own
platform over a nonce or to verify the evidence of the peer. Requests and replies are records on the
wire.

A call may also fail or not come back in time, which is an `Answer` too. An `Exchange` is a
computation that asks the service at most once: it is finished, or it waits for the answer to one
request. So whatever is computed this way has done nothing yet when the request goes out.
-/

namespace AttestedChannel

/-! ## Requests -/

/-- What the service is asked to do. -/
inductive ServiceOperation where
  | quote
  | verify
deriving DecidableEq, Repr, Inhabited

namespace ServiceOperation

/-- The name of an operation. -/
def name : ServiceOperation → String
  | .quote => "quote"
  | .verify => "verify"

/-- The operations by name. -/
def variants : List (String × ServiceOperation) := [.quote, .verify].map fun o => (o.name, o)

/-- The operation as its name. -/
def write (o : ServiceOperation) : Bytes := Cbor.Write.text o.name

/-- Reads an operation. -/
def reader (depth : Nat) : Cbor.Reader ServiceOperation := Cbor.variant depth variants

end ServiceOperation

/-- A request to the service. -/
structure ServiceRequest where
  operation : ServiceOperation
  attestationType : AttestationType
  propertyMask : PropertyMask
  nonce : Bytes
  /-- the evidence to verify -/
  evidence : Option Bytes
deriving DecidableEq, Repr

namespace ServiceRequest

/-- A request while its entries are read. -/
structure Draft where
  operation : Option ServiceOperation
  attestationType : Option AttestationType
  propertyMask : Option PropertyMask
  nonce : Option Bytes
  evidence : Option (Option Bytes)

/-- No entry read. -/
def Draft.empty : Draft := ⟨none, none, none, none, none⟩

/-- The fields of a request. -/
def fields : List (Cbor.Field Draft) :=
  [.ofReader "operation" (·.operation) (fun d v => { d with operation := some v })
     ServiceOperation.reader,
   .ofReader "attestation_type" (·.attestationType)
     (fun d v => { d with attestationType := some v }) AttestationType.reader,
   .ofReader "property_mask" (·.propertyMask) (fun d v => { d with propertyMask := some v })
     (fun _ => PropertyMask.reader),
   .ofReader "nonce" (·.nonce) (fun d v => { d with nonce := some v }) Cbor.octets,
   .ofReader "evidence" (·.evidence) (fun d v => { d with evidence := some v })
     (fun depth => Cbor.optional (Cbor.octets depth))]

/-- The request of a draft that has every field but, perhaps, the evidence. -/
def ofDraft (d : Draft) : Except Cbor.Failure ServiceRequest := do
  let operation ← Cbor.required "operation" d.operation
  let attestationType ← Cbor.required "attestation_type" d.attestationType
  let propertyMask ← Cbor.required "property_mask" d.propertyMask
  let nonce ← Cbor.required "nonce" d.nonce
  return ⟨operation, attestationType, propertyMask, nonce, d.evidence.getD none⟩

/-- Reads a request. -/
def reader (depth : Nat) : Cbor.Reader ServiceRequest :=
  Cbor.record fields Cbor.skipUnknown .empty ofDraft depth

/-- The octets of a request. -/
def encode (r : ServiceRequest) : Bytes :=
  Cbor.Write.record
    (("operation", r.operation.write) :: ("attestation_type", r.attestationType.write) ::
      ("property_mask", r.propertyMask.write) :: ("nonce", Cbor.Write.octets r.nonce) ::
      Cbor.Write.entry? "evidence" Cbor.Write.octets r.evidence)

end ServiceRequest

/-! ## Replies -/

/-- How an operation of the service ended. -/
inductive ServiceStatus where
  | pass
  /-- the evidence was examined and rejected -/
  | fail
  /-- the operation could not be performed -/
  | error
deriving DecidableEq, Repr, Inhabited

namespace ServiceStatus

/-- The name of a status. -/
def name : ServiceStatus → String
  | .pass => "pass"
  | .fail => "fail"
  | .error => "error"

/-- The status values by name. -/
def variants : List (String × ServiceStatus) := [.pass, .fail, .error].map fun s => (s.name, s)

/-- The status as its name. -/
def write (s : ServiceStatus) : Bytes := Cbor.Write.text s.name

/-- Reads a status. -/
def reader (depth : Nat) : Cbor.Reader ServiceStatus := Cbor.variant depth variants

end ServiceStatus

/-- A reply of the service. -/
structure ServiceReply where
  status : ServiceStatus
  /-- the evidence that was quoted -/
  evidence : Option Bytes
  /-- the values that the service measured or vouches for -/
  measurements : Measurements
  reason : Option String
deriving DecidableEq

namespace ServiceReply

/-- A reply without values, for a reason. -/
def refusal (status : ServiceStatus) (reason : String) : ServiceReply :=
  ⟨status, none, .empty, some reason⟩

/-- A reply while its entries are read. -/
structure Draft where
  status : Option ServiceStatus
  evidence : Option (Option Bytes)
  measurements : Option Measurements
  reason : Option (Option String)

/-- No entry read. -/
def Draft.empty : Draft := ⟨none, none, none, none⟩

/-- The fields of a reply. -/
def fields : List (Cbor.Field Draft) :=
  [.ofReader "status" (·.status) (fun d v => { d with status := some v }) ServiceStatus.reader,
   .ofReader "evidence" (·.evidence) (fun d v => { d with evidence := some v })
     (fun depth => Cbor.optional (Cbor.octets depth)),
   .ofReader "measurements" (·.measurements) (fun d v => { d with measurements := some v })
     Measurements.reader,
   .ofReader "reason" (·.reason) (fun d v => { d with reason := some v })
     (fun _ => Cbor.optional Cbor.text)]

/-- The reply of a draft that has a status. -/
def ofDraft (d : Draft) : Except Cbor.Failure ServiceReply := do
  let status ← Cbor.required "status" d.status
  return ⟨status, d.evidence.getD none, d.measurements.getD .empty, d.reason.getD none⟩

/-- Reads a reply. -/
def reader (depth : Nat) : Cbor.Reader ServiceReply :=
  Cbor.record fields Cbor.skipUnknown .empty ofDraft depth

/-- The octets of a reply. -/
def encode (r : ServiceReply) : Bytes :=
  Cbor.Write.record
    (("status", r.status.write) :: Cbor.Write.entry? "evidence" Cbor.Write.octets r.evidence ++
      ("measurements", r.measurements.write) :: Cbor.Write.entry? "reason" Cbor.Write.text r.reason)

end ServiceReply

/-! ## Faults -/

/-- Why a call of the service brought no reply. -/
inductive MeasurementError where
  | unreachable (endpoint cause : String)
  | io (cause : String)
  | replyTooLarge (size max : Nat)
  | encode (detail : String)
  | decode (detail : String)
  | unavailable (detail : String)
deriving DecidableEq, Repr

/-- The fault in words. -/
def MeasurementError.message : MeasurementError → String
  | .unreachable endpoint cause =>
    "measurement service unreachable at " ++ endpoint ++ ": " ++ cause
  | .io cause => "measurement service I/O error: " ++ cause
  | .replyTooLarge size max =>
    "measurement reply too large: " ++ toString size ++ " bytes (max " ++ toString max ++ ")"
  | .encode detail => "failed to encode measurement message: " ++ detail
  | .decode detail => "malformed measurement message: " ++ detail
  | .unavailable detail => "measurement service unavailable: " ++ detail

/-! ## Asking the service -/

/-- How a call of the service ended. -/
inductive Answer where
  | reply (r : ServiceReply)
  | fault (e : MeasurementError)
  | timeOut
deriving DecidableEq

/-- The answer that a reply or a fault is. -/
def Answer.ofOutcome : Except MeasurementError ServiceReply → Answer
  | .ok r => .reply r
  | .error e => .fault e

/-- A computation that asks the service at most once. -/
inductive Exchange (α : Type) where
  | finished (value : α)
  | awaiting (request : ServiceRequest) (resume : Answer → α)

namespace Exchange

/-- Does something with the outcome. -/
def map {α β : Type} (f : α → β) : Exchange α → Exchange β
  | .finished a => .finished (f a)
  | .awaiting r k => .awaiting r fun a => f (k a)

/-- The request, if there is one. -/
def request? {α : Type} : Exchange α → Option ServiceRequest
  | .finished _ => none
  | .awaiting r _ => some r

/-- The outcome when the service answers by `service`. -/
def run {α : Type} (service : ServiceRequest → Answer) : Exchange α → α
  | .finished a => a
  | .awaiting r k => k (service r)

@[simp] theorem run_map {α β : Type} (f : α → β) (service : ServiceRequest → Answer)
    (x : Exchange α) : (x.map f).run service = f (x.run service) := by cases x <;> rfl

@[simp] theorem request?_map {α β : Type} (f : α → β) (x : Exchange α) :
    (x.map f).request? = x.request? := by cases x <;> rfl

end Exchange

end AttestedChannel
