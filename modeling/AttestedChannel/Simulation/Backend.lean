import AttestedChannel.Duration
import AttestedChannel.Simulation.Measurement

/-!
# Measurement services on a virtual clock

In a simulation the calls of a service take virtual time. The `i`-th call to arrive first stalls for
the `i`-th of the given times, or for ever; then a simulated service answers it, or the next entry
of a script. A call that takes longer than its limit ends with a time-out, and one whose delivery is
given up ends with that. Both have used up their stall, but nothing of the service behind it.
-/

namespace AttestedChannel.Simulation

/-- What answers a call after its stall. -/
inductive Backend where
  | simulated (s : MeasurementService)
  | scripted (entries : List (Except MeasurementError ServiceReply))

/-- Has a call answered. An exhausted script is unavailable. -/
def Backend.measure (b : Backend) (r : ServiceRequest) :
    Backend × Option (Except MeasurementError ServiceReply) :=
  match b with
  | .simulated s =>
    let (s, outcome) := s.measure r
    (.simulated s, outcome)
  | .scripted (e :: entries) => (.scripted entries, some e)
  | .scripted [] => (.scripted [], some (.error (.unavailable "script exhausted")))

/-- A service behind stalls; a stall of `none` never ends. -/
structure StallingService where
  backend : Backend
  stalls : List (Option Duration)

/-- How a call ended for the one who made it. -/
inductive CallEnd where
  | answered (a : Answer)
  | givenUp

namespace StallingService

/-- A service whose calls do not stall. -/
def ofBackend (b : Backend) : StallingService := ⟨b, []⟩

/-- A call arrives: the nanoseconds that it is going to stall, if that ends. -/
def arrive (s : StallingService) : StallingService × Option Nat :=
  match s.stalls with
  | [] => (s, some 0)
  | d :: ds => ({ s with stalls := ds }, d.map Duration.toNanos)

/-- The stall of a call is over. -/
def serve (s : StallingService) (r : ServiceRequest) :
    StallingService × Option (Except MeasurementError ServiceReply) :=
  let (b, outcome) := s.backend.measure r
  ({ s with backend := b }, outcome)

/-- What a call that never ends by itself comes to: it runs into its limit, unless it is given up
before. -/
def unanswered (limit : Nat) (patience : Option Nat) : CallEnd :=
  match patience with
  | some p => if p < limit then .givenUp else .answered .timeOut
  | none => .answered .timeOut

/-- A whole call with a limit on its time, whose maker gives up after `patience`. -/
def call (s : StallingService) (limit : Nat) (patience : Option Nat) (r : ServiceRequest) :
    StallingService × CallEnd :=
  match s.arrive with
  | (s, none) => (s, unanswered limit patience)
  | (s, some stall) =>
    if limit < stall ∨ (patience.any (· < stall)) then (s, unanswered limit patience)
    else
      match s.serve r with
      | (s, some outcome) => (s, .answered (.ofOutcome outcome))
      | (s, none) => (s, unanswered limit patience)

/-- Carries an exchange out; nothing comes of it when it is given up. -/
def settle {α : Type} (s : StallingService) (limit : Nat) (patience : Option Nat) :
    Exchange α → StallingService × Option α
  | .finished a => (s, some a)
  | .awaiting r resume =>
    match s.call limit patience r with
    | (s, .answered a) => (s, some (resume a))
    | (s, .givenUp) => (s, none)

end StallingService

end AttestedChannel.Simulation
