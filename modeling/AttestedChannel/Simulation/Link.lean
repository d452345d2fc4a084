import AttestedChannel.Handshake.Machine
import AttestedChannel.Simulation.Backend
import AttestedChannel.Simulation.Entropy

/-!
# Machines on a bench

A `Station` is a machine with a clock, a source of nonces and a measurement service of its own, all
of them simulated. A `Link` joins two stations by two inboxes: what one of them sends waits in the
inbox of the other until a step delivers it, possibly altered.
-/

namespace AttestedChannel.Simulation

/-! ## One machine -/

/-- A machine and all that it needs. -/
structure Station where
  machine : Machine
  clock : Instant
  entropy : Entropy
  service : StallingService

/-- What feeding an event to a station came to. -/
structure FeedReport where
  actions : List Action
  /-- the requests that the service got -/
  requests : List ServiceRequest
  wasGivenUp : Bool

namespace Station

/-- A station before anything has happened. -/
def ofConfig (c : Config) (e : Entropy) (s : StallingService) : Station := ⟨.ofConfig c, 0, e, s⟩

/-- Keeps the outcome of a step. -/
def keep (st : Station) (e : Entropy) (t : Turn) : Station :=
  { st with machine := t.machine, entropy := if t.usedNonce then e else st.entropy }

/-- Opens the handshake. -/
def start (st : Station) : Except HandshakeError (Station × List Action) :=
  match st.machine.start st.clock with
  | .error e => .error e
  | .ok (m, actions) => .ok ({ st with machine := m }, actions)

/-- Feeds an event; a call of the service that takes longer than `patience` is given up. -/
def feed (st : Station) (patience : Option Nat) (ev : Event) : Station × FeedReport :=
  let (nonce, entropy) := st.entropy.draw Coordinator.nonceLength
  let exchange := st.machine.feed st.clock nonce ev
  let requests := exchange.request?.toList
  match st.service.settle st.machine.config.measurementTimeout.toNanos patience exchange with
  | (service, none) =>
    ({ st with machine := st.machine.abandon st.clock, service := service }, ⟨[], requests, true⟩)
  | (service, some t) =>
    ({ st.keep entropy t with service := service }, ⟨t.actions, requests, false⟩)

/-- Looks at the clock. -/
def tick (st : Station) (now : Instant) : Station × List Action :=
  let (m, actions) := st.machine.tick now
  ({ st with machine := m }, actions)

/-- Forgets the handshake. -/
def reset (st : Station) : Station := { st with machine := st.machine.reset }

end Station

/-! ## Two machines -/

/-- The two sides of a handshake. -/
inductive Side where
  | initiator
  | acceptor
deriving DecidableEq, Repr, Inhabited

namespace Side

/-- The other side. -/
def opposite : Side → Side
  | .initiator => .acceptor
  | .acceptor => .initiator

/-- The role of a side. -/
def role : Side → Role
  | .initiator => .initiator
  | .acceptor => .acceptor

end Side

/-- A station and the frames that wait for it. -/
structure Peer where
  station : Station
  inbox : List Bytes

/-- Two stations that send each other frames. -/
structure Link where
  initiator : Peer
  acceptor : Peer

/-- One entry of the record of a step. -/
inductive LinkEvent where
  | action (side : Side) (a : Action)
  | startError (side : Side) (e : HandshakeError)
  /-- there was nothing to deliver -/
  | empty

/-- What one step of a link came to. -/
structure LinkReport where
  log : List LinkEvent
  /-- how often each side asked its service -/
  calls : Side → Nat

/-- How a frame is altered on its way: octets are changed at some places, then all but the first few
are cut off, then others are added. -/
structure Alteration where
  xor : List (Nat × UInt8)
  truncate : Option Nat
  append : Bytes

/-- The frame after an alteration. Places behind its end are left alone. -/
def Alteration.apply (a : Alteration) (b : Bytes) : Bytes :=
  let flipped := a.xor.foldl (fun b (i, x) => b.modify i (· ^^^ x)) b
  let cut := match a.truncate with
    | some n => flipped.take n
    | none => flipped
  cut ++ a.append

namespace Link

/-- One side of a link. -/
def get (l : Link) : Side → Peer
  | .initiator => l.initiator
  | .acceptor => l.acceptor

/-- The link with one side changed. -/
def set (l : Link) (s : Side) (p : Peer) : Link :=
  match s with
  | .initiator => { l with initiator := p }
  | .acceptor => { l with acceptor := p }

/-- The frames among the actions that can be written. -/
def framesOf (actions : List Action) : List Bytes :=
  actions.filterMap fun
    | .send f => f.encode.toOption
    | .passThrough _ => none

/-- Nothing happened but these entries. -/
def report (log : List LinkEvent) : LinkReport := ⟨log, fun _ => 0⟩

/-- The station of a side has acted: its frames go to the other side. -/
def acted (l : Link) (s : Side) (st : Station) (actions : List Action) : Link :=
  let l := l.set s { l.get s with station := st }
  let other := l.get s.opposite
  l.set s.opposite { other with inbox := other.inbox ++ framesOf actions }

/-- A side opens the handshake. -/
def start (l : Link) (s : Side) : Link × LinkReport :=
  match (l.get s).station.start with
  | .error e => (l, report [.startError s e])
  | .ok (st, actions) => (l.acted s st actions, report (actions.map (.action s)))

/-- A side is fed octets. -/
def feed (l : Link) (s : Side) (b : Bytes) : Link × LinkReport :=
  let (st, r) := (l.get s).station.feed none (.ofBytes b)
  (l.acted s st r.actions,
   ⟨r.actions.map (.action s), fun t => if t = s then r.requests.length else 0⟩)

/-- Takes the first frame out of the inbox of a side. -/
def takeFrame (l : Link) (s : Side) : Option (Bytes × Link) :=
  match (l.get s).inbox with
  | [] => none
  | b :: r => some (b, l.set s { l.get s with inbox := r })

/-- Delivers the first frame of a side's inbox. With `duplicate` an untouched copy stays there; with
`drop` the frame is lost. -/
def deliver (l : Link) (s : Side) (duplicate drop : Bool) (a : Alteration) : Link × LinkReport :=
  match l.takeFrame s with
  | none => (l, report [.empty])
  | some (b, rest) =>
    let l := if duplicate then l else rest
    if drop then (l, report []) else l.feed s (a.apply b)

/-- Adds a frame to the inbox of a side. -/
def inject (l : Link) (s : Side) (b : Bytes) : Link :=
  l.set s { l.get s with inbox := (l.get s).inbox ++ [b] }

/-- Moves the first frame of a side's inbox to its end. -/
def rotate (l : Link) (s : Side) : Link :=
  match l.takeFrame s with
  | none => l
  | some (b, l) => l.inject s b

/-- Delivers frames as they come, those to the acceptor first, at most `n` of them. -/
def run : (n : Nat) → Link → Link × LinkReport
  | 0, l => (l, report [])
  | n + 1, l =>
    match l.takeFrame .acceptor, l.takeFrame .initiator with
    | none, none => (l, report [])
    | some (b, rest), _ =>
      let (l, r) := rest.feed .acceptor b
      let (l, more) := run n l
      (l, ⟨r.log ++ more.log, fun s => r.calls s + more.calls s⟩)
    | none, some (b, rest) =>
      let (l, r) := rest.feed .initiator b
      let (l, more) := run n l
      (l, ⟨r.log ++ more.log, fun s => r.calls s + more.calls s⟩)

/-- How many frames `run` delivers at most in one step of a bench. -/
def runLimit : Nat := 64

/-- A side looks at its clock. -/
def tick (l : Link) (s : Side) (now : Instant) : Link × LinkReport :=
  let (st, actions) := (l.get s).station.tick now
  (l.acted s { st with clock := now } actions, report (actions.map (.action s)))

/-- A side forgets the handshake and its inbox. -/
def reset (l : Link) (s : Side) : Link :=
  l.set s ⟨(l.get s).station.reset, []⟩

end Link

end AttestedChannel.Simulation
