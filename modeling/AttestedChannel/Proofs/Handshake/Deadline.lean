import AttestedChannel.Proofs.Handshake.Failing
import AttestedChannel.Proofs.Handshake.Requests
import AttestedChannel.Proofs.Handshake.Table

/-!
# The deadline of a handshake

A machine notes once when its handshake begins, with the start that opens it or with the first event
that it is fed, and a tick fails the handshake as soon as it has gone on for longer than it may.

A run knows the time as well: `beganAt` takes it from the moments since the last reset. `Clocked`
says that a machine keeps this time, and that it keeps one exactly if its handshake has begun.
`Clocked.perform` shows that no command breaks that. So nothing but a reset moves the deadline,
neither what the peer sends nor a start that is refused, and a tick acts on it and on nothing else
(`deadline_is_fixed`).

A delivery that is given up has had the service asked (`Moment.IsGenuine`), and the service is asked
only in a handshake that has begun, so it leaves the machine as it is (`abandon_eq_self`).
-/

namespace AttestedChannel

namespace Moment

/-- The time at which a handshake begins with this moment, if it has not begun before: that of a
start that opens it, or of an event. -/
def begins? (x : Moment) : Option Instant :=
  match x.command with
  | .start now => if x.before.config.role = .initiator ∧ (x.before.start now).isOk then now else none
  | .feed now _ _ _ | .abandon now => now
  | .tick _ | .reset => none

/-- If this is a delivery that is given up, it is one of an event that has the service asked. -/
def IsGenuine (x : Moment) : Prop :=
  ∀ now, x.command = .abandon now →
    ∃ nonce e q, (x.before.feed now nonce e).request? = some q

end Moment

/-- The time at which the handshake of these moments begins. -/
def beganAt (h : List Moment) : Option Instant := h.findSome? Moment.begins?

theorem beganAt_append {h h' : List Moment} :
    beganAt (h ++ h') = (beganAt h).or (beganAt h') :=
  List.findSome?_append

namespace Machine

/-- Whether the handshake has begun. -/
def HasBegun (m : Machine) : Prop := m.state ≠ .hello ∨ m.hasOpened = true

/-- Whether a handshake that began at a time has gone on for longer than it may. -/
def IsOverdue (m : Machine) (began : Option Instant) (now : Instant) : Prop :=
  m.state.isTerminal = false ∧ ∃ t, began = some t ∧ t + m.config.handshakeTimeout.toNanos < now

variable {m : Machine} {now t : Instant} {nonce : Bytes} {service : ServiceRequest → Answer}
  {e : Event} {k : Command}

/-! ## A tick -/

/-- The report of a handshake that has gone on for too long. -/
def overdueReport (t now : Instant) : ErrorReport :=
  ⟨.handshakeTimeout, (HandshakeError.timeOut (.ofNanos (now - t))).message⟩

/-- A tick fails a handshake that is overdue and reports that. -/
theorem tick_of_lt (hm : m.state.isTerminal = false) (ht : m.startedAt = some t)
    (hlt : t + m.config.handshakeTimeout.toNanos < now) :
    m.tick now = ({ m with state := .failed, nextSequence := m.nextSequence + 1 },
      [m.outbound (.error (overdueReport t now))]) := by
  unfold tick
  rw [if_neg (by simp [hm]), ht]
  dsimp only
  rw [if_pos (Nat.lt_sub_iff_add_lt'.2 hlt), ← ht]
  rfl

/-- A tick leaves every other machine alone. -/
theorem tick_of_not_overdue (h : ¬ m.IsOverdue m.startedAt now) : m.tick now = (m, []) := by
  unfold tick
  cases hm : m.state.isTerminal with
  | true => rfl
  | false =>
    rw [if_neg Bool.false_ne_true]
    cases ht : m.startedAt with
    | none => rfl
    | some t =>
      dsimp only
      exact if_neg fun hlt => h ⟨hm, t, ht, Nat.lt_sub_iff_add_lt'.1 hlt⟩

/-- The report of a handshake that is overdue is one frame, which can be written and is read as what
it is. -/
theorem exists_frame_of_overdue (m : Machine) (t now : Instant) :
    ∃ f b, m.outbound (.error (overdueReport t now)) = .send f ∧ f.encode = .ok b ∧
      Payload.ofFrame f = .ok (.error (overdueReport t now)) := by
  have hfits : (Payload.error (overdueReport t now)).Fits :=
    HandshakeError.fits_of_length_le (HandshakeError.length_timeOut_le _)
  have hencode := (Payload.error (overdueReport t now)).encode_toFrame
    (.ofType .error m.nextSequence)
  rw [if_pos hfits] at hencode
  exact ⟨_, _, rfl, hencode, Payload.ofFrame_toFrame (Nat.lt_of_le_of_lt hfits (by decide)) _⟩

/-! ## What a command does to the time that is kept -/

theorem startedAt_settle_refuse (m : Machine) (e : Event) (err : HandshakeError) :
    (settle e (m.refuse err)).machine.startedAt = m.startedAt := by
  obtain ⟨n, hn⟩ := m.machine_settle_refuse e err
  rw [hn]

/-- No transition touches the time. -/
theorem Transition.startedAt {req : Option ServiceRequest} {pr : Progress}
    (tr : Transition service nonce m e req pr) : (settle e pr).machine.startedAt = m.startedAt := by
  cases tr with
  | malformed | peerError | unexpected | unsupported | quoteFailed | rejected =>
    exact startedAt_settle_refuse m e _
  | appraisalFailed => exact startedAt_settle_refuse (m.appraised _) e _
  | challenged | passedToAcceptor | passedToInitiator | quoted | acceptedAcceptor
  | acceptedMutually | acceptedOneWay | describedToAcceptor | describedToInitiator => rfl

/-- The first event notes the time, and no later one changes it. -/
theorem startedAt_feed (hm : m.state.isTerminal = false) :
    ((m.feed now nonce e).run service).machine.startedAt = some (m.startedAt.getD now) := by
  obtain ⟨req, pr, tr, hrun⟩ := feed_transition hm now nonce e service
  rw [hrun, tr.startedAt]
  rfl

/-- No event leaves a running machine in its first state. -/
theorem state_feed_ne_hello (hm : m.state.isTerminal = false) :
    ((m.feed now nonce e).run service).machine.state ≠ .hello := by
  rcases feed_progress hm now nonce service e with h | ⟨h, -⟩
  · exact successor?_ne_hello h.successor
  · rw [h]
    decide

/-- The service is asked only in a handshake that has begun. -/
theorem hasBegun_of_request {q : ServiceRequest} (hq : (m.feed now nonce e).request? = some q) :
    m.HasBegun := by
  have hr : (m.perform (.feed now nonce (fun _ => .timeOut) e)).request? = some q := hq
  obtain ⟨-, hreq⟩ := requests_perform rfl hr
  cases hreq with
  | verify hs => exact .inl (by simp [hs])
  | quote ht =>
    rcases ht with ⟨-, hs⟩ | ⟨-, -, ho⟩
    · exact .inl (by simp [hs])
    · exact .inr ho

/-- A machine that keeps the time has nothing to note when a delivery is given up. -/
theorem noteStart_eq_self (h : m.startedAt.isSome = true) (now : Instant) :
    m.noteStart now = m := by
  obtain ⟨t, ht⟩ := Option.isSome_iff_exists.1 h
  cases m
  simp only at ht
  simp only [noteStart, ht, Option.getD_some]

theorem abandon_eq_self (h : m.startedAt.isSome = true) (now : Instant) : m.abandon now = m := by
  unfold abandon
  split
  · rfl
  · exact noteStart_eq_self h now

/-- **A machine whose handshake has begun keeps the time of that**, whatever is done to it. -/
theorem isSome_startedAt_perform (h : m.HasBegun → m.startedAt.isSome = true) (k : Command) :
    (m.perform k).after.HasBegun → (m.perform k).after.startedAt.isSome = true := by
  cases k with
  | start now =>
    rcases m.start_cases now with ⟨err, hs⟩ | ⟨-, hs⟩ | ⟨-, -, -, hs⟩
    · rw [perform_start_error hs]
      exact h
    · rw [perform_start_ok hs]
      exact h
    · rw [perform_start_ok hs]
      exact fun _ => rfl
  | feed now nonce service e =>
    show ((m.feed now nonce e).run service).machine.HasBegun →
      ((m.feed now nonce e).run service).machine.startedAt.isSome = true
    cases hm : m.state.isTerminal with
    | true =>
      rw [feed_of_terminal hm]
      exact h
    | false =>
      rw [startedAt_feed hm]
      exact fun _ => rfl
  | abandon now =>
    show (m.abandon now).HasBegun → (m.abandon now).startedAt.isSome = true
    unfold abandon
    split
    · exact h
    · exact fun _ => rfl
  | tick now =>
    show (m.tick now).1.HasBegun → (m.tick now).1.startedAt.isSome = true
    by_cases ho : m.IsOverdue m.startedAt now
    · obtain ⟨hm, t, ht, hlt⟩ := ho
      rw [tick_of_lt hm ht hlt]
      exact fun _ => Option.isSome_of_eq_some ht
    · rw [tick_of_not_overdue ho]
      exact h
  | reset =>
    rintro (hs | ho)
    · exact absurd rfl hs
    · cases ho

/-- **At every point of every run** the time is kept if the handshake has begun. -/
theorem isSome_startedAt_run (c : Config) (cs : List Command) :
    ((ofConfig c).run cs).HasBegun → ((ofConfig c).run cs).startedAt.isSome = true := by
  induction cs using List.reverseRec with
  | nil =>
    rintro (hs | ho)
    · exact absurd rfl hs
    · cases ho
  | append_singleton cs k ih =>
    rw [run_concat]
    exact isSome_startedAt_perform ih k

/-! ## The time that is kept and the time of the run -/

/-- The machine keeps the time at which the handshake of these moments began, and it has begun if
there is one. -/
structure Clocked (h : List Moment) (m : Machine) : Prop where
  startedAt : m.startedAt = beganAt h
  hasBegun : m.HasBegun ↔ m.startedAt.isSome = true

variable {h : List Moment}

/-- Nothing has begun yet. -/
theorem Clocked.fresh (hs : m.state = .hello) (ho : m.hasOpened = false)
    (ht : m.startedAt = none) : Clocked [] m where
  startedAt := ht
  hasBegun := by simp [HasBegun, hs, ho, ht]

/-- It is enough that a moment changes nothing, and begins nothing new. -/
theorem Clocked.same (hc : Clocked h m) {x : Moment} (hs : x.after.startedAt = m.startedAt)
    (hb : x.after.HasBegun ↔ m.HasBegun) (hx : m.startedAt.isSome = true ∨ x.begins? = none) :
    Clocked (h ++ [x]) x.after where
  startedAt := by
    rw [hs, beganAt_append, ← hc.startedAt]
    rcases hx with hx | hx
    · obtain ⟨t, ht⟩ := Option.isSome_iff_exists.1 hx
      rw [ht, Option.some_or]
    · rw [show beganAt [x] = none by simp [beganAt, hx], Option.or_none]
  hasBegun := by rw [hb, hs, hc.hasBegun]

/-- **A command keeps the two times together.** -/
theorem Clocked.perform (hc : Clocked h m) (hk : k.isReset = false)
    (hg : (m.perform k).IsGenuine) : Clocked (h ++ [m.perform k]) (m.perform k).after := by
  cases k with
  | start now =>
    rcases m.start_cases now with ⟨err, hs⟩ | ⟨hr, hs⟩ | ⟨hr, hst, ho, hs⟩
    · rw [perform_start_error hs]
      refine hc.same (x := ⟨m, _, m, [], none, false⟩) rfl Iff.rfl (.inr ?_)
      simp [Moment.begins?, hs, Except.isOk, Except.toBool]
    · rw [perform_start_ok hs]
      refine hc.same (x := ⟨m, _, m, [], none, false⟩) rfl Iff.rfl (.inr ?_)
      simp [Moment.begins?, hr]
    · -- a machine that can open the handshake has not begun one
      have hnone : m.startedAt = none := by
        rw [← Option.not_isSome_iff_eq_none, ← hc.hasBegun]
        simp [HasBegun, hst, ho]
      rw [perform_start_ok hs]
      constructor
      · rw [beganAt_append, ← hc.startedAt, hnone, Option.none_or]
        simp [beganAt, Moment.begins?, hr, hs, Except.isOk, Except.toBool]
      · exact iff_of_true (.inr rfl) rfl
  | feed now nonce service e =>
    have hx : (m.perform (.feed now nonce service e)).begins? = some now := rfl
    cases hm : m.state.isTerminal with
    | true =>
      have hsome : m.startedAt.isSome = true := by
        refine hc.hasBegun.1 (.inl ?_)
        intro hs
        rw [hs] at hm
        cases hm
      have hafter : (m.perform (.feed now nonce service e)).after =
          { m with lastEvent := some e } :=
        congrArg (fun x : Exchange Turn => (x.run service).machine) (feed_of_terminal hm now nonce e)
      refine hc.same ?_ ?_ (.inl hsome)
      · rw [hafter]
      · rw [hafter]
        exact Iff.rfl
    | false =>
      have hs : (m.perform (.feed now nonce service e)).after.startedAt =
          some (m.startedAt.getD now) := startedAt_feed hm
      constructor
      · rw [hs, beganAt_append, ← hc.startedAt]
        simp only [beganAt, List.findSome?_cons, hx]
        cases m.startedAt <;> rfl
      · rw [hs]
        exact iff_of_true (.inl (state_feed_ne_hello hm)) rfl
  | abandon now =>
    -- the service has been asked, so the handshake has begun
    obtain ⟨nonce, e, q, hq⟩ := hg now rfl
    have hsome := hc.hasBegun.1 (hasBegun_of_request hq)
    have hafter : (m.perform (.abandon now)).after = m := abandon_eq_self hsome now
    exact hc.same (by rw [hafter]) (by rw [hafter]) (.inl hsome)
  | tick now =>
    have hx : (m.perform (.tick now)).begins? = none := rfl
    by_cases ho : m.IsOverdue m.startedAt now
    · obtain ⟨hm, t, ht, hlt⟩ := ho
      have hsome : m.startedAt.isSome = true := Option.isSome_of_eq_some ht
      have hafter : (m.perform (.tick now)).after =
          { m with state := .failed, nextSequence := m.nextSequence + 1 } :=
        congrArg Prod.fst (tick_of_lt hm ht hlt)
      refine hc.same (by rw [hafter]) ?_ (.inr hx)
      rw [hafter]
      exact iff_of_true (.inl (by simp)) (hc.hasBegun.2 hsome)
    · have hafter : (m.perform (.tick now)).after = m :=
        congrArg Prod.fst (tick_of_not_overdue ho)
      exact hc.same (by rw [hafter]) (by rw [hafter]) (.inr hx)
  | reset => cases hk

/-! ## Runs -/

/-- What is done to a machine without a reset keeps the two times together. -/
theorem Clocked.run (hc : Clocked h m) {ds : List Command} (hds : ∀ k ∈ ds, k.isReset = false)
    (hg : ∀ x ∈ m.log ds, x.IsGenuine) : Clocked (h ++ m.log ds) (m.run ds) := by
  induction ds generalizing h m with
  | nil =>
    rw [log, List.append_nil]
    exact hc
  | cons k ds ih =>
    have hk := hc.perform (hds k List.mem_cons_self) (hg _ List.mem_cons_self)
    have hrest := ih hk (fun k' h' => hds k' (List.mem_cons_of_mem k h'))
      fun x hx => hg x (List.mem_cons_of_mem _ hx)
    rwa [List.append_assoc] at hrest

/-- **A run knows the time that its machine keeps.** -/
theorem clocked_run (c : Config) (cs : List Command)
    (hg : ∀ x ∈ sinceReset ((ofConfig c).log cs), x.IsGenuine) :
    Clocked (sinceReset ((ofConfig c).log cs)) ((ofConfig c).run cs) := by
  refine run_induction (motive := fun h m => (∀ x ∈ h, x.IsGenuine) → Clocked h m) c
    (fun _ => Clocked.fresh rfl rfl rfl) (fun _ m _ _ => Clocked.fresh (m := m.reset) rfl rfl rfl)
    (fun h m k hk hi hall => ?_) cs hg
  have hc := hi fun x hx => hall x (List.mem_append_left _ hx)
  exact hc.perform hk (hall _ (by simp))

/-- Only deliveries that are given up have to have the service asked. -/
theorem isGenuine_perform (h : ∀ now, k ≠ .abandon now) : (m.perform k).IsGenuine := by
  intro now hk
  rw [perform_command] at hk
  exact absurd hk (h now)

end Machine

open Machine

/-- **The deadline of a handshake is fixed when it begins.** It begins with the first start that
opens it, or the first event, since the last reset. A tick changes a machine exactly if it is
running, its handshake has begun, and more than the time that it may take has passed since: then the
machine fails and reports that in one frame. In all other cases a tick does nothing at all. Until a
reset nothing else moves the deadline, whatever is done and whenever: neither an event nor a
delivery that is given up, neither a start that is refused nor a tick. -/
theorem deadline_is_fixed (c : Config) (cs : List Command)
    (hg : ∀ x ∈ sinceReset ((ofConfig c).log cs), x.IsGenuine) :
    let m := (ofConfig c).run cs
    let began := beganAt (sinceReset ((ofConfig c).log cs))
    (∀ now, ((m.tick now).1 ≠ m ↔ m.IsOverdue began now) ∧
      (m.IsOverdue began now →
        (m.tick now).1 = { m with state := .failed, nextSequence := m.nextSequence + 1 } ∧
        ∃ f b text, (m.tick now).2 = [.send f] ∧ f.encode = .ok b ∧
          Payload.ofFrame f = .ok (.error ⟨.handshakeTimeout, text⟩)) ∧
      (¬ m.IsOverdue began now → m.tick now = (m, []))) ∧
    m.startedAt = began ∧
    ∀ ds : List Command, (∀ k ∈ ds, k.isReset = false) → (∀ x ∈ m.log ds, x.IsGenuine) →
      ∀ t, began = some t → (m.run ds).startedAt = some t := by
  intro m began
  have hc : Clocked (sinceReset ((ofConfig c).log cs)) m := clocked_run c cs hg
  have hbegan : m.startedAt = began := hc.startedAt
  refine ⟨fun now => ?_, hbegan, fun ds hds hgds t ht => ?_⟩
  · rw [← hbegan]
    by_cases ho : m.IsOverdue m.startedAt now
    · have hsome := ho
      obtain ⟨hm, t, ht, hlt⟩ := hsome
      have htick := tick_of_lt hm ht hlt
      have hne : (m.tick now).1 ≠ m := by
        intro heq
        have hs := congrArg Machine.state heq
        rw [htick] at hs
        replace hs : HandshakeState.failed = m.state := hs
        rw [← hs] at hm
        cases hm
      refine ⟨iff_of_true hne ho, fun _ => ?_, fun hn => absurd ho hn⟩
      rw [htick]
      obtain ⟨f, b, hf, hb, hread⟩ := m.exists_frame_of_overdue t now
      exact ⟨rfl, f, b, _, by rw [hf], hb, hread⟩
    · have htick := tick_of_not_overdue ho
      refine ⟨iff_of_false ?_ ho, fun h => absurd h ho, fun _ => htick⟩
      rw [htick]
      exact not_not_intro rfl
  · have hrun := hc.run hds hgds
    rw [hrun.startedAt, beganAt_append, show beganAt (sinceReset ((ofConfig c).log cs)) = some t from
      ht, Option.some_or]

/-- An acceptor is opened to at the time 10, and the delivery of a response is given up. -/
def plainDelay : List Command :=
  [.start 3, .tick 5, .feed 10 [2, 3] plainService ⟨[], .hello ⟨Hello.currentVersion, true⟩, none⟩,
    .abandon 20]

theorem isGenuine_plainDelay :
    ∀ x ∈ sinceReset ((ofConfig (plainConfig .acceptor)).log plainDelay), x.IsGenuine := by
  intro x hx
  have hlog : x ∈ (ofConfig (plainConfig .acceptor)).log plainDelay := hx
  simp only [log, plainDelay, List.mem_cons, List.not_mem_nil, or_false] at hlog
  rcases hlog with rfl | rfl | rfl | rfl
  case inr.inr.inr =>
    intro now hnow
    cases hnow
    exact ⟨[], ⟨[], .response ⟨[2, 3], (plainEvidence [2, 3]).encode⟩, none⟩,
      ⟨.verify, .advanced, .single 0, [2, 3], some (plainEvidence [2, 3]).encode⟩,
      by decide +kernel⟩
  all_goals exact isGenuine_perform fun _ h => by cases h

/-- Thirty seconds later the acceptor still waits, and a nanosecond after that it gives up. -/
theorem plainDelay_ends :
    let m := (ofConfig (plainConfig .acceptor)).run plainDelay
    m.tick 30000000010 = (m, []) ∧ (m.tick 30000000011).1.state = .failed ∧
      (m.run [.tick 30000000010, .start 40]).startedAt = some 10 := by
  intro m
  obtain ⟨htick, -, hkeep⟩ :=
    deadline_is_fixed (plainConfig .acceptor) plainDelay isGenuine_plainDelay
  have hbegan : beganAt (sinceReset ((ofConfig (plainConfig .acceptor)).log plainDelay)) =
      some 10 := by decide +kernel
  have hrunning : m.state.isTerminal = false := by decide +kernel
  refine ⟨(htick _).2.2 ?_, ?_, hkeep _ (by decide) ?_ 10 hbegan⟩
  · rw [hbegan]
    rintro ⟨-, t, ht, hlt⟩
    cases ht
    exact absurd hlt (by decide +kernel)
  · have ho : m.IsOverdue (beganAt (sinceReset ((ofConfig (plainConfig .acceptor)).log
        plainDelay))) 30000000011 := ⟨hrunning, 10, hbegan, by decide +kernel⟩
    rw [((htick _).2.1 ho).1]
  · intro x hx
    simp only [log, List.mem_cons, List.not_mem_nil, or_false] at hx
    rcases hx with rfl | rfl
    all_goals exact isGenuine_perform fun _ h => by cases h

end AttestedChannel
