import AttestedChannel.Proofs.Handshake.Transition
import Mathlib.Data.List.Induction

/-!
# Runs of a machine

A `Command` is one thing that can be done to a machine, with all that comes from outside: the time,
the nonce that would be drawn, the measurement service as it is at that moment. Any list of commands
is a run; what a command did is kept as a `Moment`, and the moments of a run are its `log`.

Properties of the present handshake speak of `sinceReset`, the end of a log after its last reset.
`log_concat`, `run_concat` and `sinceReset_concat` are what an induction on the length of a run
needs.
-/

namespace AttestedChannel

/-- What can be done to a machine. The nonce of a delivery is the next one of the random source, to
be used if the machine issues a challenge. -/
inductive Command where
  | start (now : Instant)
  | feed (now : Instant) (nonce : Bytes) (service : ServiceRequest → Answer) (e : Event)
  /-- a delivery that is given up while the service has not answered -/
  | abandon (now : Instant)
  | tick (now : Instant)
  | reset

/-- Whether the command is a reset. -/
def Command.isReset : Command → Bool
  | .reset => true
  | _ => false

/-- What one command did. -/
structure Moment where
  before : Machine
  command : Command
  after : Machine
  actions : List Action
  /-- what the measurement service was asked -/
  request? : Option ServiceRequest
  /-- whether a nonce was drawn -/
  usedNonce : Bool

namespace Machine

/-- Does what a command says. A start that is refused does nothing. -/
def perform (m : Machine) (c : Command) : Moment :=
  match c with
  | .start now =>
    match m.start now with
    | .ok (m', actions) => ⟨m, c, m', actions, none, false⟩
    | .error _ => ⟨m, c, m, [], none, false⟩
  | .feed now nonce service e =>
    let t := (m.feed now nonce e).run service
    ⟨m, c, t.machine, t.actions, (m.feed now nonce e).request?, t.usedNonce⟩
  | .abandon now => ⟨m, c, m.abandon now, [], none, false⟩
  | .tick now =>
    let (m', actions) := m.tick now
    ⟨m, c, m', actions, none, false⟩
  | .reset => ⟨m, c, m.reset, [], none, false⟩

/-- The machine after a list of commands. -/
def run (m : Machine) (cs : List Command) : Machine := cs.foldl (fun m c => (m.perform c).after) m

/-- What each of a list of commands did. -/
def log : Machine → List Command → List Moment
  | _, [] => []
  | m, c :: cs => m.perform c :: (m.perform c).after.log cs

end Machine

/-- The moments after the last reset. -/
def sinceReset (log : List Moment) : List Moment :=
  (log.reverse.takeWhile fun x => !x.command.isReset).reverse

namespace Machine

@[simp] theorem run_concat (m : Machine) (cs : List Command) (c : Command) :
    m.run (cs ++ [c]) = ((m.run cs).perform c).after := by
  simp [run]

@[simp] theorem log_concat (m : Machine) (cs : List Command) (c : Command) :
    m.log (cs ++ [c]) = m.log cs ++ [(m.run cs).perform c] := by
  induction cs generalizing m with
  | nil => rfl
  | cons d cs ih => simp [log, ih, run]

theorem perform_start_error {m : Machine} {now : Instant} {err : HandshakeError}
    (h : m.start now = .error err) :
    m.perform (.start now) = ⟨m, .start now, m, [], none, false⟩ := by
  simp only [perform, h]

theorem perform_start_ok {m m' : Machine} {now : Instant} {actions : List Action}
    (h : m.start now = .ok (m', actions)) :
    m.perform (.start now) = ⟨m, .start now, m', actions, none, false⟩ := by
  simp only [perform, h]

@[simp] theorem perform_command (m : Machine) (c : Command) : (m.perform c).command = c := by
  unfold perform
  split
  · split <;> rfl
  all_goals rfl

@[simp] theorem perform_before (m : Machine) (c : Command) : (m.perform c).before = m := by
  unfold perform
  split
  · split <;> rfl
  all_goals rfl

end Machine

/-- A reset leaves nothing behind. -/
theorem sinceReset_concat_reset {x : Moment} (h : x.command.isReset = true) (log : List Moment) :
    sinceReset (log ++ [x]) = [] := by
  simp [sinceReset, h]

/-- Every other moment is added to those since the last reset. -/
theorem sinceReset_concat {x : Moment} (h : x.command.isReset = false) (log : List Moment) :
    sinceReset (log ++ [x]) = sinceReset log ++ [x] := by
  simp [sinceReset, h]

namespace Machine

/-- **Induction over the runs of a configuration.** What holds of a fresh machine without a past,
holds after a reset of any machine of which it held before, and is kept by every other command,
holds of every run and the moments since its last reset. -/
theorem run_induction {motive : List Moment → Machine → Prop} (c : Config)
    (fresh : motive [] (.ofConfig c)) (reset : ∀ h m, motive h m → motive [] m.reset)
    (step : ∀ h m (k : Command), k.isReset = false → motive h m →
      motive (h ++ [m.perform k]) (m.perform k).after) (cs : List Command) :
    motive (sinceReset ((ofConfig c).log cs)) ((ofConfig c).run cs) := by
  -- from the end of the run, where the log grows
  induction cs using List.reverseRec with
  | nil => exact fresh
  | append_singleton cs k ih =>
    rw [log_concat, run_concat]
    cases hk : k.isReset with
    | true =>
      rw [sinceReset_concat_reset (by rw [perform_command, hk])]
      cases k <;> simp only [Command.isReset, reduceCtorEq] at hk
      exact reset _ _ ih
    | false =>
      rw [sinceReset_concat (by rw [perform_command, hk])]
      exact step _ _ k hk ih

/-- A moment since the last reset is what its command did to the machine of that moment, and those
before it are the moments since the last reset of that machine. -/
theorem sinceReset_log_eq_append_cons {c : Config} {cs : List Command} {past later : List Moment}
    {x : Moment} (he : sinceReset ((ofConfig c).log cs) = past ++ x :: later) :
    ∃ ds k, k.isReset = false ∧ sinceReset ((ofConfig c).log ds) = past ∧
      ((ofConfig c).run ds).perform k = x := by
  induction cs using List.reverseRec generalizing later with
  | nil => exact absurd he.symm (by simp [sinceReset, log])
  | append_singleton cs k ih =>
    rw [log_concat] at he
    cases hk : k.isReset with
    | true =>
      rw [sinceReset_concat_reset (by rw [perform_command, hk])] at he
      simp at he
    | false =>
      rw [sinceReset_concat (by rw [perform_command, hk])] at he
      -- the moment is the last one, or one of those before
      rcases List.eq_nil_or_concat later with rfl | ⟨later, y, rfl⟩
      · obtain ⟨hpast, hx⟩ := List.append_inj' he rfl
        exact ⟨cs, k, hk, hpast, (List.cons.inj hx).1⟩
      · rw [List.concat_eq_append, ← List.cons_append, ← List.append_assoc] at he
        exact ih (List.append_inj' he rfl).1

end Machine

end AttestedChannel
