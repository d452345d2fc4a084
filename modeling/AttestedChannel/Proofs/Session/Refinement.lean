import AttestedChannel.Proofs.Dialogue.Moves
import AttestedChannel.Proofs.Handshake.Run

/-!
# An adapter does what its machine does

An adapter that is opened for a session hands out what a bare machine hands out for the same calls,
and shows what that machine has become (`adapter_refines_machine`). Neither is obvious from the
adapter: once the handshake is over it does not feed its machine any more, and after a look at the
clock it renews what it shows only if there was something to do.

`Follows` is the relation between the two. The machine of the adapter is the bare one until the
handshake is over; then it misses the events that the bare one still remembers, and nothing else.
Since a reset forgets those, the two are the same again after it.
-/

namespace AttestedChannel

/-- The messages of the application among some effects, each with its session. -/
def passedBy (es : List Effect) : List (SessionId × Bytes) :=
  es.filterMap fun
    | .passedThrough s b => some (s, b)
    | _ => none

/-- The messages of the application that actions hand on. -/
def handedOnBy (actions : List Action) : List Bytes :=
  actions.filterMap fun
    | .passThrough b => some b
    | .send _ => none

namespace Adapter

/-! ## Runs -/

/-- What can be done to an adapter between the opening of its session and the end. -/
inductive Call where
  | message (now : Instant) (nonce : Bytes) (service : ServiceRequest → Answer) (b : Bytes)
  /-- a delivery that is given up while the service has not answered -/
  | abandon (now : Instant)
  | tick (now : Instant)
  /-- an error of the transport -/
  | failed

/-- The same thing done to a bare machine. -/
def Call.command : Call → Command
  | .message now nonce service b => .feed now nonce service (.ofBytes b)
  | .abandon now => .abandon now
  | .tick now => .tick now
  | .failed => .reset

/-- What one call did. -/
structure Entry where
  after : Adapter
  effects : List Effect
  /-- what the measurement service was asked -/
  request? : Option ServiceRequest
  /-- whether a nonce was drawn -/
  usedNonce : Bool

/-- What a reaction to a request, if there was one, did. -/
def Entry.ofReaction (request? : Option ServiceRequest) (x : Reaction) : Entry :=
  ⟨x.adapter, x.effects, request?, x.usedNonce⟩

/-- Does what a call says. Messages are for the session `s`. -/
def perform (a : Adapter) (s : SessionId) : Call → Entry
  | .message now nonce service b =>
    .ofReaction (a.message now nonce s b).request? ((a.message now nonce s b).run service)
  | .abandon now => ⟨a.abandon now, [], none, false⟩
  | .tick now => .ofReaction none (a.tick now)
  | .failed => .ofReaction none a.failed

/-- What each of a list of calls did. -/
def log (s : SessionId) : Adapter → List Call → List Entry
  | _, [] => []
  | a, k :: ks => a.perform s k :: (a.perform s k).after.log s ks

/-! ## The relation -/

/-- The adapter has handed out what the machine has, and shows what the machine has become. -/
structure Mirrors (s : SessionId) (x : Entry) (y : Moment) : Prop where
  sent : Registry.sentOf x.effects = Simulation.Link.framesOf y.actions
  passed : passedBy x.effects = (handedOnBy y.actions).map fun b => (s, b)
  kept : ∀ t, .released t ∉ x.effects
  view : x.after.view = .ofMachine s y.after
  request : x.request? = y.request?
  usedNonce : x.usedNonce = y.usedNonce

/-- The adapter is bound to the session and follows the machine. -/
structure Follows (s : SessionId) (a : Adapter) (m : Machine) : Prop where
  bound : ∃ m', a.bound = some ⟨s, m'⟩ ∧
    (m' = m ∨ m.state.isTerminal = true ∧ ∃ e, m = { m' with lastEvent := e })
  view : a.view = .ofMachine s m

theorem passedBy_effectsOf (s : SessionId) (actions : List Action) :
    passedBy (actions.flatMap (effectsOf s)) = (handedOnBy actions).map fun b => (s, b) := by
  induction actions with
  | nil => rfl
  | cons a actions ih =>
    have hc : passedBy ((a :: actions).flatMap (effectsOf s)) =
        passedBy (effectsOf s a) ++ passedBy (actions.flatMap (effectsOf s)) :=
      List.filterMap_append
    rw [hc, ih]
    cases a with
    | passThrough b => rfl
    | send f => cases hf : f.encode <;> simp [effectsOf, passedBy, handedOnBy, hf]

theorem not_released_mem_effectsOf (s t : SessionId) (actions : List Action) :
    .released t ∉ actions.flatMap (effectsOf s) := by
  intro h
  obtain ⟨a, -, ha⟩ := List.mem_flatMap.1 h
  cases a with
  | passThrough b => simp [effectsOf] at ha
  | send f => cases hf : f.encode <;> simp [effectsOf, hf] at ha

/-- Committing a step of the machine hands out its actions, and the adapter follows the machine
then. -/
theorem mirrors_commit (a : Adapter) (s : SessionId) (y : Moment) :
    Mirrors s (.ofReaction y.request? (a.commit s y.after y.actions y.usedNonce)) y ∧
      Follows s (a.commit s y.after y.actions y.usedNonce).adapter y.after where
  left := {
    sent := sentOf_effectsOf s y.actions
    passed := passedBy_effectsOf s y.actions
    kept := fun t => not_released_mem_effectsOf s t y.actions
    view := rfl
    request := rfl
    usedNonce := rfl }
  right := ⟨⟨y.after, rfl, .inl rfl⟩, rfl⟩

/-- Where neither does anything, the adapter still follows the machine. -/
theorem mirrors_idle {a : Adapter} {s : SessionId} {y : Moment} (h : Follows s a y.after)
    (ha : y.actions = []) (hq : y.request? = none) (hu : y.usedNonce = false) :
    Mirrors s ⟨a, [], none, false⟩ y where
  sent := by rw [ha]; rfl
  passed := by rw [ha]; rfl
  kept _ h := by cases h
  view := h.view
  request := hq.symm
  usedNonce := hu.symm

/-! ## One call -/

variable {a : Adapter} {s : SessionId} {m : Machine}

/-- Opening a session starts its machine. -/
theorem mirrors_opened (a : Adapter) (now : Instant) (s : SessionId) :
    Mirrors s (.ofReaction none (a.opened now s))
        ((Machine.ofConfig a.config).perform (.start now)) ∧
      Follows s (a.opened now s).adapter
        ((Machine.ofConfig a.config).perform (.start now)).after := by
  unfold opened
  dsimp only
  cases h : (Machine.ofConfig a.config).start now with
  | error err =>
    rw [Machine.perform_start_error h]
    exact mirrors_commit a s ⟨_, .start now, _, [], none, false⟩
  | ok t =>
    rw [Machine.perform_start_ok h]
    exact mirrors_commit a s ⟨_, .start now, _, _, none, false⟩

/-- A message that comes after the handshake is handed on without a look at the machine, which would
have done the same. -/
theorem Follows.message_of_terminal (h : Follows s a m) (ht : m.state.isTerminal = true)
    (now : Instant) (nonce : Bytes) (service : ServiceRequest → Answer) (b : Bytes) :
    Mirrors s (a.perform s (.message now nonce service b))
        (m.perform (.feed now nonce service (.ofBytes b))) ∧
      Follows s (a.perform s (.message now nonce service b)).after
        (m.perform (.feed now nonce service (.ofBytes b))).after := by
  obtain ⟨⟨m', hb, hm⟩, hv⟩ := h
  have hstate : m'.state = m.state := by
    rcases hm with rfl | ⟨-, e, rfl⟩
    · rfl
    · rfl
  have hx : a.perform s (.message now nonce service b) =
      ⟨a, [.passedThrough s b], none, false⟩ := by
    simp [perform, message, hb, hstate, ht, Entry.ofReaction, Exchange.run, Exchange.request?]
  have hraw : (Event.ofBytes b).raw = b := by
    unfold Event.ofBytes
    split
    · rfl
    · rfl
  have hy : m.perform (.feed now nonce service (.ofBytes b)) =
      ⟨m, .feed now nonce service (.ofBytes b), { m with lastEvent := some (.ofBytes b) },
        [.passThrough b], none, false⟩ := by
    simp [Machine.perform, Machine.feed_of_terminal ht, Exchange.run, Exchange.request?, hraw]
  rw [hx, hy]
  refine ⟨⟨rfl, rfl, (fun t h => by cases List.mem_singleton.1 h), hv, rfl, rfl⟩, ?_, hv⟩
  refine ⟨m', hb, .inr ⟨ht, some (.ofBytes b), ?_⟩⟩
  -- what the bare machine remembers of earlier events is gone with the new one
  rcases hm with rfl | ⟨-, e, rfl⟩
  · rfl
  · rfl

/-- While the handshake goes on, the adapter's machine is the bare one. -/
theorem Follows.bound_of_running (h : Follows s a m) (ht : m.state.isTerminal = false) :
    a.bound = some ⟨s, m⟩ := by
  obtain ⟨⟨m', hb, rfl | ⟨ht', -⟩⟩, -⟩ := h
  · exact hb
  · rw [ht] at ht'
    cases ht'

/-- What the adapter asks the measurement service during the handshake, its machine asks. -/
theorem Follows.message_eq (h : Follows s a m) (ht : m.state.isTerminal = false) (now : Instant)
    (nonce b : Bytes) : a.message now nonce s b =
      (m.feed now nonce (.ofBytes b)).map fun t =>
        a.commit s t.machine t.actions t.usedNonce := by
  simp [message, h.bound_of_running ht, ht]

/-- A message that comes during the handshake is fed to the machine. -/
theorem Follows.message_of_running (h : Follows s a m) (ht : m.state.isTerminal = false)
    (now : Instant) (nonce : Bytes) (service : ServiceRequest → Answer) (b : Bytes) :
    a.perform s (.message now nonce service b) =
      .ofReaction (m.perform (.feed now nonce service (.ofBytes b))).request?
        (a.commit s (m.perform (.feed now nonce service (.ofBytes b))).after
          (m.perform (.feed now nonce service (.ofBytes b))).actions
          (m.perform (.feed now nonce service (.ofBytes b))).usedNonce) := by
  simp [perform, h.message_eq ht, Machine.perform]

/-- A look at the clock is not shown only when it has changed nothing. -/
theorem Follows.tick (h : Follows s a m) (now : Instant) :
    Mirrors s (a.perform s (.tick now)) (m.perform (.tick now)) ∧
      Follows s (a.perform s (.tick now)).after (m.perform (.tick now)).after := by
  have idle : m.tick now = (m, []) → a.tick now = a.ignore →
      Mirrors s (a.perform s (.tick now)) (m.perform (.tick now)) ∧
        Follows s (a.perform s (.tick now)).after (m.perform (.tick now)).after := by
    intro hm ha
    have hy : m.perform (.tick now) = ⟨m, .tick now, m, [], none, false⟩ := by
      simp only [Machine.perform, hm]
    have hx : a.perform s (.tick now) = ⟨a, [], none, false⟩ := by
      simp only [perform, ha]
      rfl
    rw [hx, hy]
    exact ⟨mirrors_idle h rfl rfl rfl, h⟩
  cases ht : m.state.isTerminal with
  | true =>
    obtain ⟨⟨m', hb, hm⟩, -⟩ := h
    have ht' : m'.state.isTerminal = true := by
      rcases hm with rfl | ⟨-, e, rfl⟩
      · exact ht
      · exact ht
    refine idle (if_pos ht) ?_
    simp [Adapter.tick, hb, Machine.tick, ht']
  | false =>
    have hb := h.bound_of_running ht
    rcases m.tick_cases now with hm | ⟨-, elapsed, hm⟩
    · refine idle hm ?_
      simp [Adapter.tick, hb, hm]
    · -- a time-out is reported, so there is something to do
      obtain ⟨f, hf⟩ : ∃ f, (m.tick now).2 = [f] := by
        rw [hm, Machine.fail_actions]
        exact ⟨_, rfl⟩
      have hx : a.perform s (.tick now) =
          .ofReaction none (a.commit s (m.tick now).1 (m.tick now).2 false) := by
        have ht : m.tick now = ((m.tick now).1, [f]) := by rw [← hf]
        rw [perform, Adapter.tick, hb]
        dsimp only
        rw [ht]
      rw [hx]
      exact mirrors_commit a s (m.perform (.tick now))

/-- A delivery that is given up is not noticed. -/
theorem Follows.abandon (h : Follows s a m) (now : Instant) :
    Follows s (a.abandon now) (m.abandon now) := by
  cases ht : m.state.isTerminal with
  | true =>
    obtain ⟨⟨m', hb, hm⟩, hv⟩ := h
    have ht' : m'.state.isTerminal = true := by
      rcases hm with rfl | ⟨-, e, rfl⟩
      · exact ht
      · exact ht
    have hma : m.abandon now = m := if_pos ht
    have hma' : m'.abandon now = m' := if_pos ht'
    rw [hma]
    refine ⟨⟨m', ?_, hm⟩, ?_⟩
    · simp [Adapter.abandon, hb, hma']
    · simp [Adapter.abandon, hb, hv]
  | false =>
    have hb := h.bound_of_running ht
    have hma : m.abandon now = m.noteStart now := if_neg (by simp [ht])
    refine ⟨⟨m.abandon now, by simp [Adapter.abandon, hb], .inl rfl⟩, ?_⟩
    rw [hma]
    simp only [Adapter.abandon, hb, h.view]
    rfl

/-- After an error of the transport both have started over. -/
theorem Follows.failed (h : Follows s a m) :
    Mirrors s (a.perform s .failed) (m.perform .reset) ∧
      Follows s (a.perform s .failed).after (m.perform .reset).after := by
  obtain ⟨⟨m', hb, hm⟩, -⟩ := h
  have hreset : m'.reset = m.reset := by
    rcases hm with rfl | ⟨-, e, rfl⟩
    · rfl
    · rfl
  have hx : a.perform s .failed = .ofReaction none (a.commit s m.reset [] false) := by
    simp only [perform, Adapter.failed, hb, hreset]
  rw [hx]
  exact mirrors_commit a s (m.perform .reset)

/-- **Every call is mirrored, and the adapter still follows the machine after it.** -/
theorem Follows.perform (h : Follows s a m) (k : Call) :
    Mirrors s (a.perform s k) (m.perform k.command) ∧
      Follows s (a.perform s k).after (m.perform k.command).after := by
  cases k with
  | message now nonce service b =>
    cases ht : m.state.isTerminal with
    | true => exact h.message_of_terminal ht now nonce service b
    | false =>
      rw [h.message_of_running ht]
      exact mirrors_commit a s (m.perform (.feed now nonce service (.ofBytes b)))
  | abandon now =>
    have hf := h.abandon now
    exact ⟨mirrors_idle hf rfl rfl rfl, hf⟩
  | tick now => exact h.tick now
  | failed => exact h.failed

/-- **A run is mirrored call by call.** -/
theorem Follows.log (h : Follows s a m) (ks : List Call) :
    List.Forall₂ (Mirrors s) (a.log s ks) (m.log (ks.map Call.command)) := by
  induction ks generalizing a m with
  | nil => exact .nil
  | cons k ks ih =>
    obtain ⟨hmirrors, hfollows⟩ := h.perform k
    exact .cons hmirrors (ih hfollows)

end Adapter

end AttestedChannel
