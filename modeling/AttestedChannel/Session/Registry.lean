import AttestedChannel.Session.Adapter

/-!
# Session registries

A registry accepts and opens sessions, keeps the live ones by number, and collects what their peers
send after the handshake in one channel of bounded size. A message that finds the channel full, or
nobody at its other end, is dropped; the sessions do not notice.

Adapters are known by the order in which they were made, and a registry remembers all of them: one
that was closed or replaced may still be called late. `live` holds the adapter of each live session,
by ascending session number.
-/

namespace AttestedChannel

/-- A message of the application and the session it came from. -/
structure ApplicationMessage where
  session : SessionId
  payload : Bytes
deriving DecidableEq, Repr

/-- The code with which a session is closed whose number is used again. -/
def closeReplaced : Nat := 4000

/-- The sessions of a connector. -/
structure Registry where
  config : Config
  /-- how many messages the channel holds -/
  capacity : Nat
  adapters : List Adapter
  live : List (SessionId × Nat)
  channel : List ApplicationMessage
  hasReceiver : Bool
deriving DecidableEq

namespace Registry

/-- A registry without sessions. The channel holds at least one message. -/
def ofConfig (c : Config) (capacity : Nat) : Registry := ⟨c, max capacity 1, [], [], [], true⟩

/-! ## Live sessions -/

/-- Puts an adapter among the live ones, in place of one with the same session number. -/
def insertLive (s : SessionId) (i : Nat) : List (SessionId × Nat) → List (SessionId × Nat)
  | [] => [(s, i)]
  | (t, j) :: r =>
    if s.value < t.value then (s, i) :: (t, j) :: r
    else if s = t then (s, i) :: r
    else (t, j) :: insertLive s i r

/-- The adapter of a live session. -/
def get? (r : Registry) (s : SessionId) : Option Nat := r.live.lookup s

/-- The numbers of the live sessions in ascending order. -/
def ids (r : Registry) : List SessionId := r.live.map (·.1)

/-- How many sessions are live. -/
def size (r : Registry) : Nat := r.live.length

/-- Whether an adapter has been closed. -/
def isClosed (r : Registry) (i : Nat) : Bool :=
  match r.adapters[i]? with
  | some a => a.view.isClosed
  | none => false

/-! ## Effects of the adapters -/

/-- Adds a message to the channel, if there is room and somebody to read it. -/
def passOn (r : Registry) (m : ApplicationMessage) : Registry :=
  if r.hasReceiver && r.channel.length < r.capacity then { r with channel := r.channel ++ [m] }
  else r

/-- Forgets a session, unless its number has gone to an adapter that is open. -/
def release (r : Registry) (s : SessionId) : Registry :=
  match r.get? s with
  | some i => if r.isClosed i then { r with live := r.live.filter (·.1 ≠ s) } else r
  | none => r

/-- What the registry does with an effect of one of its adapters. -/
def absorb (r : Registry) : Effect → Registry
  | .sent _ => r
  | .passedThrough s b => r.passOn ⟨s, b⟩
  | .released s => r.release s

/-- The octets that a list of effects hands to the transport. -/
def sentOf (es : List Effect) : List Bytes :=
  es.filterMap fun
    | .sent b => some b
    | _ => none

/-- Puts the outcome of an operation on an adapter in its place and absorbs its effects. -/
def apply (r : Registry) (i : Nat) (x : Reaction) : Registry :=
  x.effects.foldl absorb { r with adapters := r.adapters.set i x.adapter }

/-! ## Operations -/

/-- Opens a session under a role. A session with the same number is closed first. The result is the
number of the new adapter and what it sends. -/
def openSession (r : Registry) (role : Role) (now : Instant) (s : SessionId) :
    Registry × Nat × List Bytes :=
  let r :=
    match r.get? s with
    | none => r
    | some i =>
      match r.adapters[i]? with
      | none => r
      | some a => r.apply i (a.closed s)
  let i := r.adapters.length
  let x := (Adapter.ofConfig (r.config.asRole role)).opened now s
  let r := { r with adapters := r.adapters ++ [x.adapter] }.apply i x
  ({ r with live := insertLive s i r.live }, i, sentOf x.effects)

/-- Lets an adapter do something. -/
def step (r : Registry) (i : Nat) (f : Adapter → Reaction) : Registry × List Bytes :=
  match r.adapters[i]? with
  | none => (r, [])
  | some a =>
    let x := f a
    (r.apply i x, sentOf x.effects)

/-- The oldest messages of the channel, at most `n`. -/
def receive (r : Registry) (n : Nat) : List ApplicationMessage × Registry :=
  (r.channel.take n, { r with channel := r.channel.drop n })

/-- The reader of the channel goes away, and the messages with it. -/
def dropReceiver (r : Registry) : Registry := { r with channel := [], hasReceiver := false }

end Registry

end AttestedChannel
