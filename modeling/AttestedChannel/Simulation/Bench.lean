import AttestedChannel.Session.Registry
import AttestedChannel.Session.Stream
import AttestedChannel.Simulation.Backend
import AttestedChannel.Simulation.Entropy

/-!
# Session adapters on a virtual clock

A bench holds a registry and adapters of its own, and lets sessions overlap in virtual time. Each
adapter handles one operation at a time, first come first served. A *delivery* of a message may wait
for the measurement service, and until the answer is there, later operations on the same adapter
wait behind it.

Time passes only while an operation waits: for its turn, for the service, or for the end of a
handshake. It then goes from one *occurrence* to the next: a stalled call is served, a call runs
into its limit, or somebody stops waiting. Every call has a limit, so a busy adapter becomes free
after finitely many of them; `work` bounds their number.
-/

namespace AttestedChannel.Simulation

/-- A message on its way to an adapter. -/
structure Delivery where
  session : SessionId
  octets : Bytes
deriving DecidableEq, Repr

/-- A delivery that waits for the measurement service. -/
structure Flight where
  request : ServiceRequest
  /-- the end of the stall, if it ends and the call has not been served yet -/
  servedAt : Option Instant
  limitAt : Instant
  /-- the reading of the environment's clock when the delivery began -/
  clock : Instant
  resume : Answer → Reaction

/-- When something happens to a delivery next. -/
def Flight.nextAt (f : Flight) : Instant :=
  match f.servedAt with
  | some t => min t f.limitAt
  | none => f.limitAt

/-- Where an adapter is kept. -/
inductive Place where
  | registered (i : Nat)
  | standAlone (a : Adapter)

/-- An adapter with its session and its deliveries. -/
structure Seat where
  place : Place
  session : SessionId
  /-- what was sent on the session and has not been looked at yet -/
  sent : List Bytes
  flight : Option Flight
  queue : List Delivery

/-- Somebody who waits for the end of a handshake in the background. -/
structure Waiter where
  label : Nat
  seat : Nat
  waited : Duration
  deadline : Instant

/-- What a listener outside the registry has noted. -/
inductive Note where
  | message (s : SessionId) (b : Bytes)
  | closed (s : SessionId)
deriving DecidableEq, Repr

/-- A registry, further adapters, and what they share. -/
structure Bench where
  registry : Registry
  service : StallingService
  entropy : Entropy
  /-- the clock of the environment -/
  clock : Instant
  /-- virtual time -/
  time : Instant
  seats : List Seat
  waiters : List Waiter
  /-- waiters that have been released and have not been looked at yet -/
  released : List (Nat × Except SessionError HandshakeState)
  notes : List Note
  calls : List ServiceOperation

namespace Bench

/-- A bench before anything has happened. -/
def ofConfig (c : Config) (capacity : Nat) (e : Entropy) (s : StallingService) : Bench :=
  ⟨.ofConfig c capacity, s, e, 0, 0, [], [], [], [], []⟩

/-! ## Adapters -/

/-- The adapter of a seat. -/
def adapterOf (b : Bench) (s : Seat) : Option Adapter :=
  match s.place with
  | .registered i => b.registry.adapters[i]?
  | .standAlone a => some a

/-- The view of the adapter of a seat. -/
def view (b : Bench) (s : Seat) : SessionView :=
  match b.adapterOf s with
  | some a => a.view
  | none => .unopened

/-- The seat of an adapter of the registry. -/
def seatOf (b : Bench) (i : Nat) : Option Nat :=
  b.seats.findIdx? fun s => match s.place with
    | .registered j => i == j
    | .standAlone _ => false

/-- The seat of the live adapter of a session. -/
def find? (b : Bench) (s : SessionId) : Option Nat := (b.registry.get? s).bind b.seatOf

/-- Changes a seat. -/
def modifySeat (b : Bench) (h : Nat) (f : Seat → Seat) : Bench :=
  { b with seats := b.seats.modify h f }

/-- What a listener of its own notes of an effect. -/
def noteOf : Effect → Option Note
  | .sent _ => none
  | .passedThrough s x => some (.message s x)
  | .released s => some (.closed s)

/-- Puts the outcome of an operation in its place. -/
def absorb (b : Bench) (h : Nat) (x : Reaction) : Bench :=
  match b.seats[h]? with
  | none => b
  | some s =>
    let entropy := if x.usedNonce then (b.entropy.draw Coordinator.nonceLength).2 else b.entropy
    let b := { b with entropy := entropy }
    let sent := s.sent ++ Registry.sentOf x.effects
    match s.place with
    | .registered i =>
      { b with registry := b.registry.apply i x }.modifySeat h fun s => { s with sent := sent }
    | .standAlone _ =>
      { b with notes := b.notes ++ x.effects.filterMap noteOf }.modifySeat h fun s =>
        { s with sent := sent, place := .standAlone x.adapter }

/-- Lets the adapter of a seat do something at once. -/
def operate (b : Bench) (h : Nat) (f : Adapter → Reaction) : Bench :=
  match b.seats[h]? with
  | none => b
  | some s =>
    match b.adapterOf s with
    | none => b
    | some a => b.absorb h (f a)

/-! ## Deliveries -/

/-- The call of a delivery is served, or has run into its limit. -/
def serveFlight (b : Bench) (h : Nat) (f : Flight) : Bench :=
  if f.servedAt.any (· ≤ min b.time f.limitAt) then
    match b.service.serve f.request with
    | (service, some outcome) =>
      ({ b with service := service }.modifySeat h fun s => { s with flight := none }).absorb h
        (f.resume (.ofOutcome outcome))
    | (service, none) =>
      { b with service := service }.modifySeat h fun s =>
        { s with flight := some { f with servedAt := none } }
  else if f.limitAt ≤ b.time then
    (b.modifySeat h fun s => { s with flight := none }).absorb h (f.resume .timeOut)
  else b

/-- Begins a delivery at a free adapter. -/
def beginDelivery (b : Bench) (h : Nat) (d : Delivery) : Bench :=
  match b.seats[h]?.bind b.adapterOf with
  | none => b
  | some a =>
    match a.message b.clock (b.entropy.draw Coordinator.nonceLength).1 d.session d.octets with
    | .finished x => b.absorb h x
    | .awaiting r resume =>
      let (service, stall) := b.service.arrive
      let f : Flight :=
        ⟨r, stall.map (b.time + ·), b.time + a.config.measurementTimeout.toNanos, b.clock, resume⟩
      let b := { b with service := service, calls := b.calls ++ [r.operation] }
      (b.modifySeat h fun s => { s with flight := some f }).serveFlight h f

/-- Begins queued deliveries of a seat until one has to wait. -/
def beginQueued (b : Bench) (h : Nat) : (queue : List Delivery) → Bench
  | [] => b.modifySeat h fun s => { s with queue := [] }
  | d :: rest =>
    let b := (b.modifySeat h fun s => { s with queue := rest }).beginDelivery h d
    match b.seats[h]? with
    | some ⟨_, _, _, none, _⟩ => b.beginQueued h rest
    | _ => b

/-- Deals with the flight of a seat when its time has come, and goes on with the queue. -/
def land (b : Bench) (h : Nat) : Bench :=
  match b.seats[h]? with
  | some ⟨_, _, _, some f, queue⟩ =>
    if f.nextAt ≤ b.time then
      let b := b.serveFlight h f
      match b.seats[h]? with
      | some ⟨_, _, _, none, _⟩ => b.beginQueued h queue
      | _ => b
    else b
  | _ => b

/-- Gives a delivery up that waits for the service. -/
def giveUp (b : Bench) (h : Nat) : Bench :=
  match b.seats[h]? with
  | some ⟨_, _, _, some f, _⟩ =>
    (b.modifySeat h fun s => { s with flight := none }).operate h fun a =>
      ⟨a.abandon f.clock, [], false⟩
  | _ => b

/-! ## Time -/

/-- What becomes of a waiter now. -/
def released? (b : Bench) (w : Waiter) : Option (Except SessionError HandshakeState) :=
  match b.seats[w.seat]? with
  | none => none
  | some s =>
    let view := b.view s
    match view.completion? with
    | some outcome => some outcome
    | none => if w.deadline ≤ b.time then some (.error (.timeOut view.state w.waited)) else none

/-- Releases the waiters whose wait has ended. -/
def releaseWaiters (b : Bench) : Bench :=
  { b with
    released := b.released ++ b.waiters.filterMap fun w => (b.released? w).map fun o => (w.label, o)
    waiters := b.waiters.filter fun w => (b.released? w).isNone }

/-- The time of the next occurrence. -/
def nextAt (b : Bench) : Option Instant :=
  (b.seats.filterMap (·.flight.map Flight.nextAt) ++ b.waiters.map (·.deadline)).min?

/-- Goes on to a point in time and deals with what happens then. -/
def passTo (b : Bench) (t : Instant) : Bench :=
  ((List.range b.seats.length).foldl land { b with time := t }).releaseWaiters

/-- A bound on the number of occurrences that are still to come. -/
def work (b : Bench) : Nat :=
  b.seats.foldl (fun n s => n + 2 * s.queue.length + 2) (b.waiters.length + 1)

/-- Lets time pass while `busy` holds, but not beyond `limit`; at most `n` occurrences. -/
def passWhile (busy : Bench → Bool) (limit : Option Instant) : (n : Nat) → Bench → Bench
  | 0, b => b
  | n + 1, b =>
    if busy b then
      match b.nextAt with
      | none => b
      | some t => if limit.any (· < t) then b else passWhile busy limit n (b.passTo t)
    else b

/-- Whether the adapter of a seat handles an operation. -/
def isBusy (b : Bench) (h : Nat) : Bool :=
  match b.seats[h]? with
  | some s => s.flight.isSome || !s.queue.isEmpty
  | none => false

/-- Waits until an adapter is free. -/
def awaitTurn (b : Bench) (h : Nat) (limit : Option Instant) : Bench :=
  passWhile (·.isBusy h) limit b.work b

/-! ## Operations -/

/-- Waits for the adapter of a seat to be free and lets it do something. -/
def inTurn (b : Bench) (h : Nat) (f : Adapter → Reaction) : Bench :=
  (b.awaitTurn h none).operate h f

/-- A session is opened through the registry; the result is its seat. An adapter whose session
number is used again is waited for. -/
def openSession (b : Bench) (role : Role) (s : SessionId) : Bench × Nat :=
  let b := match b.find? s with
    | some h => b.awaitTurn h none
    | none => b
  let (registry, i, sent) := b.registry.openSession role b.clock s
  ({ b with registry := registry, seats := b.seats ++ [⟨.registered i, s, sent, none, []⟩] },
   b.seats.length)

/-- An adapter outside the registry, not open yet; the result is its seat. -/
def addAdapter (b : Bench) (s : SessionId) : Bench × Nat :=
  ({ b with
      seats := b.seats ++ [⟨.standAlone (.ofConfig b.registry.config), s, [], none, []⟩] },
   b.seats.length)

/-- The adapter of a seat is told that its session is open. -/
def openSeat (b : Bench) (h : Nat) : Bench :=
  match b.seats[h]? with
  | none => b
  | some s => b.inTurn h fun a => a.opened b.clock s.session

/-- The seat gets a new session, which is opened. -/
def reopenSeat (b : Bench) (h : Nat) (s : SessionId) : Bench :=
  ((b.awaitTurn h none).modifySeat h fun seat => { seat with session := s, sent := [] }).openSeat h

/-- Delivers a message and waits for the end of that, but not beyond `patience`. Tells whether the
delivery was given up; one that was given up before its turn leaves no trace. -/
def deliver (b : Bench) (h : Nat) (d : Delivery) (patience : Option Nat) : Bench × Bool :=
  let limit := patience.map (b.time + ·)
  let late (b : Bench) : Bench := { b with time := limit.getD b.time }
  let b := b.awaitTurn h limit
  if b.isBusy h then (late b, true)
  else
    let b := (b.beginDelivery h d).awaitTurn h limit
    if b.isBusy h then ((late b).giveUp h, true) else (b, false)

/-- Begins a delivery in the background, behind those that are under way. -/
def deliverLater (b : Bench) (h : Nat) (d : Delivery) : Bench :=
  if b.isBusy h then b.modifySeat h fun s => { s with queue := s.queue ++ [d] }
  else b.beginDelivery h d

/-- Waits for all deliveries in the background. -/
def join (b : Bench) : Bench :=
  passWhile (fun b => (List.range b.seats.length).any b.isBusy) none b.work b

/-- Tells the adapter of a seat what the reader of a stream has to say. -/
def tell (b : Bench) (h : Nat) (s : SessionId) : Stream.Callback → Bench
  | .message x => (b.deliver h ⟨s, x⟩ none).1
  | .failed _ => b.inTurn h Adapter.failed
  | .closed _ _ => b.inTurn h (·.closed s)

/-- Reads a stream to its end for the adapter of a seat. -/
def readStream (b : Bench) (h : Nat) (stream : Bytes) : Bench :=
  match b.seats[h]? with
  | none => b
  | some s => (Stream.callbacks stream).foldl (fun b c => b.tell h s.session c) b

/-- Has every live adapter look at the clock. -/
def tickAll (b : Bench) : Bench :=
  b.registry.live.foldl (fun b e =>
    match b.seatOf e.2 with
    | none => b
    | some h => b.inTurn h fun a => a.tick b.clock) b

/-- Waits for the end of a handshake. -/
def wait (b : Bench) (h : Nat) (d : Duration) : Bench × Except SessionError HandshakeState :=
  let deadline := b.time + d.toNanos
  let view (b : Bench) : SessionView := (b.seats[h]?.map b.view).getD .unopened
  let b := passWhile (fun b => (view b).completion?.isNone) (some deadline) b.work b
  match (view b).completion? with
  | some outcome => (b, outcome)
  | none => ({ b with time := deadline }, .error (.timeOut (view b).state d))

/-- Waits for the end of a handshake in the background. -/
def waitLater (b : Bench) (label h : Nat) (d : Duration) : Bench :=
  { b with waiters := b.waiters ++ [⟨label, h, d, b.time + d.toNanos⟩] }

/-! ## Steps -/

/-- What can be done at a bench. A seat stands first; a session that is left out is that of the
seat. -/
inductive Step where
  | openSession (role : Role) (s : SessionId)
  | addAdapter (s : SessionId)
  | openSeat (h : Nat)
  | reopenSeat (h : Nat) (s : SessionId)
  | message (h : Nat) (s : Option SessionId) (b : Bytes) (patience : Option Duration)
  | messageLater (h : Nat) (b : Bytes)
  | join
  | close (h : Nat) (s : Option SessionId)
  | failed (h : Nat)
  | tick (h : Nat)
  | tickAll
  | setClock (t : Duration)
  | readStream (h : Nat) (stream : Bytes)
  | wait (h : Nat) (d : Duration)
  | waitLater (h : Nat) (d : Duration)
  | receive (n : Nat)
  | dropReceiver
  | find (s : SessionId)

/-- What a step tells. -/
inductive StepResult where
  | nothing
  | seat (h : Option Nat)
  | givenUp (b : Bool)
  | waited (outcome : Except SessionError HandshakeState)
  | received (ms : List ApplicationMessage)

/-- The session that a step is about. -/
def sessionFor (b : Bench) (h : Nat) (s : Option SessionId) : SessionId :=
  s.getD ((b.seats[h]?.map (·.session)).getD ⟨0⟩)

/-- Does a step. -/
def perform (b : Bench) (label : Nat) : Step → Bench × StepResult
  | .openSession role s =>
    let (b, h) := b.openSession role s
    (b, .seat (some h))
  | .addAdapter s =>
    let (b, h) := b.addAdapter s
    (b, .seat (some h))
  | .openSeat h => (b.openSeat h, .nothing)
  | .reopenSeat h s => (b.reopenSeat h s, .nothing)
  | .message h s x none => ((b.deliver h ⟨b.sessionFor h s, x⟩ none).1, .nothing)
  | .message h s x (some p) =>
    let (b, givenUp) := b.deliver h ⟨b.sessionFor h s, x⟩ (some p.toNanos)
    (b, .givenUp givenUp)
  | .messageLater h x => (b.deliverLater h ⟨b.sessionFor h none, x⟩, .nothing)
  | .join => (b.join, .nothing)
  | .close h s => (b.inTurn h (·.closed (b.sessionFor h s)), .nothing)
  | .failed h => (b.inTurn h Adapter.failed, .nothing)
  | .tick h => (b.inTurn h (·.tick b.clock), .nothing)
  | .tickAll => (b.tickAll, .nothing)
  | .setClock t => ({ b with clock := t.toNanos }, .nothing)
  | .readStream h stream => (b.readStream h stream, .nothing)
  | .wait h d =>
    let (b, outcome) := b.wait h d
    (b, .waited outcome)
  | .waitLater h d => (b.waitLater label h d, .nothing)
  | .receive n =>
    let (ms, registry) := b.registry.receive n
    ({ b with registry := registry }, .received ms)
  | .dropReceiver => ({ b with registry := b.registry.dropReceiver }, .nothing)
  | .find s => (b, .seat (b.find? s))

/-- Does the step that has the number `label`, and then releases the waiters whose wait has ended.
-/
def step (b : Bench) (label : Nat) (s : Step) : Bench × StepResult :=
  let (b, r) := b.perform label s
  (b.releaseWaiters, r)

/-- The waiters that have been released since somebody looked, by the numbers of their steps. -/
def releasedByLabel (b : Bench) : List (Nat × Except SessionError HandshakeState) :=
  b.released.mergeSort fun x y => x.1 ≤ y.1

/-- Forgets what has been looked at. -/
def clear (b : Bench) : Bench :=
  { b with
    seats := b.seats.map fun s => { s with sent := [] }
    released := []
    notes := []
    calls := [] }

end Bench

end AttestedChannel.Simulation
