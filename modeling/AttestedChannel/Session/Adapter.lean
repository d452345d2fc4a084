import AttestedChannel.Handshake.Machine
import AttestedChannel.Session.Id

/-!
# Session adapters

An adapter binds a machine to a session of the transport. It feeds inbound messages to the machine,
hands outbound frames to the transport and, once the handshake is over, passes messages on to a
listener without looking at them. What callers may see of it is its `SessionView`, which is renewed
after every step that changes it.

An operation on an adapter yields a `Reaction`: the adapter afterwards, and what the transport and
the listener get, in order. Frames that cannot be written are dropped.
-/

namespace AttestedChannel

/-- What callers see of an adapter. -/
structure SessionView where
  state : HandshakeState
  appraisal : Option Appraisal
  metadata : Option String
  session : Option SessionId
  isClosed : Bool
deriving DecidableEq

namespace SessionView

/-- No session has been opened. -/
def unopened : SessionView := ⟨.hello, none, none, none, false⟩

/-- The session has been closed. -/
def closed : SessionView := { unopened with isClosed := true }

/-- The view of a machine that is bound to a session. -/
def ofMachine (s : SessionId) (m : Machine) : SessionView :=
  ⟨m.state, m.appraisal, m.metadata, some s, false⟩

end SessionView

/-- A machine and its session. -/
structure Binding where
  session : SessionId
  machine : Machine
deriving DecidableEq

/-- Connects sessions of one configuration to their machines. -/
structure Adapter where
  config : Config
  bound : Option Binding
  view : SessionView
deriving DecidableEq

/-- What leaves an adapter. -/
inductive Effect where
  /-- to the transport -/
  | sent (b : Bytes)
  /-- to the listener: a message of the application -/
  | passedThrough (s : SessionId) (b : Bytes)
  /-- to the listener: the session is closed -/
  | released (s : SessionId)
deriving DecidableEq, Repr

/-- What an operation on an adapter came to. -/
structure Reaction where
  adapter : Adapter
  effects : List Effect
  /-- whether the nonce that was handed in has been used -/
  usedNonce : Bool
deriving DecidableEq

namespace Adapter

/-- An adapter without a session. -/
def ofConfig (c : Config) : Adapter := ⟨c, none, .unopened⟩

/-- Nothing happens. -/
def ignore (a : Adapter) : Reaction := ⟨a, [], false⟩

/-- What an action of the machine hands out. -/
def effectsOf (s : SessionId) : Action → List Effect
  | .send f =>
    match f.encode with
    | .ok b => [.sent b]
    | .error _ => []
  | .passThrough b => [.passedThrough s b]

/-- Binds a machine after a step, executes its actions and renews the view. -/
def commit (a : Adapter) (s : SessionId) (m : Machine) (actions : List Action) (usedNonce : Bool) :
    Reaction :=
  ⟨{ a with bound := some ⟨s, m⟩, view := .ofMachine s m }, actions.flatMap (effectsOf s),
   usedNonce⟩

/-! ## Operations -/

/-- A session is opened: the adapter binds a new machine to it and starts the handshake. -/
def opened (a : Adapter) (now : Instant) (s : SessionId) : Reaction :=
  let fresh := Machine.ofConfig a.config
  match fresh.start now with
  | .ok (m, actions) => a.commit s m actions false
  | .error _ => a.commit s fresh [] false

/-- A message has come in for a session. Messages for another session than the bound one are
ignored. -/
def message (a : Adapter) (now : Instant) (nonce : Bytes) (s : SessionId) (b : Bytes) :
    Exchange Reaction :=
  match a.bound with
  | none => .finished a.ignore
  | some bound =>
    if bound.session ≠ s then .finished a.ignore
    else if bound.machine.state.isTerminal then .finished ⟨a, [.passedThrough s b], false⟩
    else
      (bound.machine.feed now nonce (.ofBytes b)).map fun t =>
        a.commit s t.machine t.actions t.usedNonce

/-- The adapter after a delivery that was given up while the service had not answered. -/
def abandon (a : Adapter) (now : Instant) : Adapter :=
  match a.bound with
  | none => a
  | some bound => { a with bound := some { bound with machine := bound.machine.abandon now } }

/-- The transport has closed a session. -/
def closed (a : Adapter) (s : SessionId) : Reaction :=
  ⟨{ a with bound := none, view := .closed }, [.released s], false⟩

/-- The transport has had an error; the handshake starts over. -/
def failed (a : Adapter) : Reaction :=
  match a.bound with
  | none => a.ignore
  | some bound => a.commit bound.session bound.machine.reset [] false

/-- Looks at the clock. -/
def tick (a : Adapter) (now : Instant) : Reaction :=
  match a.bound with
  | none => a.ignore
  | some bound =>
    match bound.machine.tick now with
    | (_, []) => a.ignore
    | (m, actions) => a.commit bound.session m actions false

end Adapter

/-! ## Waiting for the end -/

/-- Why waiting for the end of a handshake ended without one. -/
inductive SessionError where
  | timeOut (state : HandshakeState) (waited : Duration)
  | closed
deriving DecidableEq, Repr

/-- The cause in words. -/
def SessionError.message : SessionError → String
  | .timeOut state waited => "handshake still in state " ++ state.name ++ " after " ++ waited.text
  | .closed => "session closed"

/-- What waiting for the end comes to, once it has ended by itself. -/
def SessionView.completion? (s : SessionView) : Option (Except SessionError HandshakeState) :=
  if s.state.isTerminal then some (.ok s.state)
  else if s.isClosed then some (.error .closed)
  else none

end AttestedChannel
