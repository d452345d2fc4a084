import AttestedChannel.Proofs.Handshake.Coherence

/-!
# The transition table

`HandshakeState.successor?` is the table of the handshake: for each role and each state the one type
of message that leads on, and where to. `feed_progress` says that a machine follows it and fails at
everything else, so every event that it is fed brings it further; an acceptor is over after five
events at the latest and an initiator after four (`terminal_run`). A machine that is over hands
every event on and stays as it is (`handsOn_of_mem_log`).
-/

namespace AttestedChannel

/-- The state that a message of a type leads to, if it is the type that is waited for. -/
def HandshakeState.successor? (mutually : Bool) :
    Role → HandshakeState → MessageType → Option HandshakeState
  | .acceptor, .hello, .hello => some .challengeIssued
  | .acceptor, .challengeIssued, .attestationResponse =>
    some (if mutually then .responseReceived else .metadata)
  | .acceptor, .responseReceived, .attestationChallenge => some .verdictPending
  | .acceptor, .verdictPending, .attestationResult => some .metadata
  | .initiator, .hello, .attestationChallenge => some .verdictPending
  | .initiator, .verdictPending, .attestationResult =>
    some (if mutually then .challengeIssued else .metadata)
  | .initiator, .challengeIssued, .attestationResponse => some .metadata
  | _, .metadata, .metadata => some .complete
  | _, _, _ => none

/-- No row of the table leads back to its state or fails the handshake. -/
theorem HandshakeState.successor?_ne {mutually : Bool} {r : Role} {s s' : HandshakeState}
    {t : MessageType} (h : successor? mutually r s t = some s') : s' ≠ s ∧ s' ≠ .failed := by
  unfold successor? at h
  split at h <;> cases h <;> cases mutually <;> decide

/-- No row of the table leads back to the first state. -/
theorem HandshakeState.successor?_ne_hello {mutually : Bool} {r : Role} {s s' : HandshakeState}
    {t : MessageType} (h : successor? mutually r s t = some s') : s' ≠ .hello := by
  unfold successor? at h
  split at h <;> cases h <;> cases mutually <;> decide

/-- Whether the command feeds the machine an event. -/
def Command.isFeed : Command → Bool
  | .feed .. => true
  | _ => false

/-- The machine `m` is over at this moment: it hands on what it is fed and remembers the event, and
nothing else happens. -/
structure Moment.HandsOn (x : Moment) (m : Machine) : Prop where
  after : x.after = { m with lastEvent := x.after.lastEvent }
  actions : x.actions =
    match x.command with
    | .feed _ _ _ e => [.passThrough e.raw]
    | _ => []
  request? : x.request? = none
  usedNonce : x.usedNonce = false

namespace Machine

/-- The state that a message of a type leads to. Nothing leads on from the first state before an
initiator has opened the handshake. -/
def successor? (m : Machine) (t : MessageType) : Option HandshakeState :=
  if m.config.role = .initiator ∧ m.state = .hello ∧ m.hasOpened = false then none
  else m.state.successor? m.isMutual m.config.role t

/-- Whether a message of the type that is waited for says what it takes to go on: a hello of this
version, a challenge that the own service can quote for, evidence that is found good, a verdict that
passes. -/
def Accepts (m : Machine) (service : ServiceRequest → Answer) : Payload → Prop
  | .hello h => h.version = Hello.currentVersion
  | .challenge ch => ∃ r, Coordinator.respond ch (service (Coordinator.quoteRequest ch)) = .ok r
  | .response r => ((m.coordinator.appraise r).run service).2.isPass = true
  | .result r => r.verdict = .pass
  | .metadata _ => True
  | .raw _ | .error _ => False

/-- The number of events after which the machine is over at the latest. An initiator that has not
opened the handshake is over at once. -/
def eventsLeft (m : Machine) : Nat := if m.config.role = .initiator then min 4 m.rank else m.rank

variable {m : Machine} {t : MessageType} {s : HandshakeState} {k : Command} {now : Instant}
  {nonce : Bytes} {service : ServiceRequest → Answer} {e : Event} {p : Payload}

/-! ## The table and what a machine takes -/

theorem successor?_ne (h : m.successor? t = some s) : s ≠ m.state ∧ s ≠ .failed := by
  unfold successor? at h
  split at h
  · cases h
  · exact HandshakeState.successor?_ne h

theorem successor?_ne_hello (h : m.successor? t = some s) : s ≠ .hello := by
  unfold successor? at h
  split at h
  · cases h
  · exact HandshakeState.successor?_ne_hello h

/-- A machine takes the messages of the types that lead on. -/
theorem takes_of_successor? (h : m.successor? p.messageType = some s) : m.Takes p := by
  unfold successor? at h
  split at h
  · cases h
  · cases p <;> cases hr : m.config.role <;> cases hs : m.state <;>
      simp_all [Takes, TakesChallenge, HandshakeState.successor?, Payload.messageType]

/-- An initiator has four messages to go at most once something leads on. -/
theorem rank_le_of_successor? (h : m.successor? t = some s) (hr : m.config.role = .initiator) :
    m.rank ≤ 4 := by
  unfold successor? at h
  split at h
  · cases h
  · next hn =>
    unfold rank
    cases hs : m.state <;> simp_all

/-! ## One event -/

/-- The event leads to a state of the table. -/
structure Follows (m : Machine) (service : ServiceRequest → Answer) (e : Event)
    (s : HandshakeState) : Prop where
  fault : e.fault = none
  accepts : m.Accepts service e.payload
  successor : m.successor? e.messageType = some s

theorem Follows.of_carries (he : e.Carries p) (ha : m.Accepts service p)
    (hs : m.successor? p.messageType = some s) : m.Follows service e s := by
  obtain ⟨hf, rfl⟩ := he
  exact ⟨hf, ha, hs⟩

theorem not_follows_of_carries (he : e.Carries p) (h : m.Takes p → ¬ m.Accepts service p) :
    ¬ ∃ s, m.Follows service e s := by
  obtain ⟨-, rfl⟩ := he
  rintro ⟨s, hs⟩
  exact h (takes_of_successor? hs.successor) hs.accepts

/-- Each transition leads on as the table says, or it fails the handshake. -/
theorem Transition.progress {req : Option ServiceRequest} {pr : Progress}
    (tr : Transition service nonce m e req pr) :
    m.Follows service e (settle e pr).machine.state ∨
      (settle e pr).machine.state = .failed ∧ ¬ ∃ s, m.Follows service e s := by
  cases tr with
  | malformed h =>
    refine .inr ⟨state_settle_refuse _ _ _, ?_⟩
    rintro ⟨s, hs⟩
    cases h.symm.trans hs.fault
  | peerError he =>
    exact .inr ⟨state_settle_refuse _ _ _, not_follows_of_carries he fun _ => not_false⟩
  | unexpected he ht =>
    exact .inr ⟨state_settle_refuse _ _ _, not_follows_of_carries he fun h => absurd h ht⟩
  | unsupported he _ hv =>
    exact .inr ⟨state_settle_refuse _ _ _, not_follows_of_carries he fun _ => hv⟩
  | appraisalFailed he _ hf =>
    refine .inr ⟨state_settle_refuse _ _ _, not_follows_of_carries he fun _ ha => ?_⟩
    rw [Accepts, hf] at ha
    cases ha
  | quoteFailed he _ hq =>
    refine .inr ⟨state_settle_refuse _ _ _, not_follows_of_carries he fun _ ha => ?_⟩
    obtain ⟨r, hr⟩ := ha
    cases hq.symm.trans hr
  | rejected he _ hv =>
    exact .inr ⟨state_settle_refuse _ _ _, not_follows_of_carries he fun _ => hv⟩
  | challenged he ht hv =>
    exact .inl (.of_carries he hv (by simp [successor?, ht.1, ht.2]; rfl))
  | passedToAcceptor he ht hr hp ha hv =>
    have hpass := Coordinator.appraise_of_verified hp ha hv
    refine .inl (.of_carries he (by rw [Accepts, hpass]; rfl) ?_)
    simp [successor?, hr, show m.state = _ from ht]
    rfl
  | passedToInitiator he ht hr hp ha hv =>
    have hpass := Coordinator.appraise_of_verified hp ha hv
    refine .inl (.of_carries he (by rw [Accepts, hpass]; rfl) ?_)
    simp [successor?, hr, show m.state = _ from ht]
    rfl
  | quoted he ht hq =>
    refine .inl (.of_carries he ⟨_, hq⟩ ?_)
    rcases ht with ⟨hr, hs⟩ | ⟨hr, hs, ho⟩
    · simp [successor?, hr, hs]
      rfl
    · simp [successor?, hr, hs, ho]
      rfl
  | acceptedAcceptor he ht hv hr | acceptedMutually he ht hv hr hmut
  | acceptedOneWay he ht hv hr hmut =>
    refine .inl (.of_carries he hv ?_)
    simp [successor?, show m.state = _ from ht, *]
    rfl
  | describedToAcceptor he ht hr | describedToInitiator he ht hr =>
    refine .inl (.of_carries he trivial ?_)
    simp [successor?, show m.state = _ from ht, hr]
    rfl

/-- The time of the first event is of no account. -/
theorem follows_noteStart : (m.noteStart now).Follows service e s ↔ m.Follows service e s := by
  have ha : ∀ p, (m.noteStart now).Accepts service p ↔ m.Accepts service p := by
    intro p
    cases p <;> exact Iff.rfl
  constructor
  · exact fun h => ⟨h.fault, (ha _).1 h.accepts, h.successor⟩
  · exact fun h => ⟨h.fault, (ha _).2 h.accepts, h.successor⟩

/-- **An event that a running machine is fed leads on as the table says, or it fails the
handshake.** -/
theorem feed_progress (hm : m.state.isTerminal = false) (now : Instant) (nonce : Bytes)
    (service : ServiceRequest → Answer) (e : Event) :
    m.Follows service e ((m.feed now nonce e).run service).machine.state ∨
      ((m.feed now nonce e).run service).machine.state = .failed ∧
        ¬ ∃ s, m.Follows service e s := by
  obtain ⟨req, pr, tr, hrun⟩ := feed_transition hm now nonce e service
  rw [hrun]
  have h := tr.progress
  simpa only [follows_noteStart] using h

/-! ## Runs -/

/-- The machine never gets away from its end. -/
theorem eventsLeft_perform_le (m : Machine) (hk : k.isReset = false) :
    (m.perform k).after.eventsLeft ≤ m.eventsLeft := by
  have hle := m.rank_perform_le hk
  unfold eventsLeft
  rw [perform_config]
  split <;> omega

/-- The machine gets nearer to its end with every event. -/
theorem eventsLeft_feed_lt (hm : m.state.isTerminal = false) (now : Instant) (nonce : Bytes)
    (service : ServiceRequest → Answer) (e : Event) :
    (m.perform (.feed now nonce service e)).after.eventsLeft < m.eventsLeft := by
  have hpos := rank_pos hm
  have hc := perform_config m (.feed now nonce service e)
  rcases feed_progress hm now nonce service e with h | ⟨hs, -⟩
  · obtain ⟨ps, hh, -⟩ := feed_hears hm now nonce ⟨h.fault, rfl⟩ service
    have hlt := hh.rank_lt hm
    unfold eventsLeft
    rw [hc]
    split
    · next hr =>
      have := rank_le_of_successor? h.successor hr
      show min 4 ((m.feed now nonce e).run service).machine.rank < _
      omega
    · exact hlt
  · replace hs : (m.perform (.feed now nonce service e)).after.state = .failed := hs
    have hz : (m.perform (.feed now nonce service e)).after.rank = 0 :=
      rank_of_terminal (by rw [hs]; rfl)
    unfold eventsLeft
    rw [hz]
    split <;> split <;> omega

theorem eventsLeft_of_terminal (hm : m.state.isTerminal = true) : m.eventsLeft = 0 := by
  unfold eventsLeft
  rw [rank_of_terminal hm]
  simp

theorem terminal_of_eventsLeft (h : m.eventsLeft = 0) : m.state.isTerminal = true := by
  by_contra hm
  have := rank_pos (Bool.not_eq_true _ ▸ hm)
  unfold eventsLeft at h
  split at h <;> omega

/-- **A machine is over once it has been fed as many events as it has left.** -/
theorem terminal_run {cs : List Command} (hcs : ∀ k ∈ cs, k.isReset = false)
    (h : m.eventsLeft ≤ cs.countP Command.isFeed) : (m.run cs).state.isTerminal = true := by
  induction cs generalizing m with
  | nil => exact terminal_of_eventsLeft (Nat.le_zero.1 h)
  | cons k cs ih =>
    refine ih (m := (m.perform k).after) (fun k' h' => hcs k' (List.mem_cons_of_mem k h')) ?_
    have hle := m.eventsLeft_perform_le (hcs k List.mem_cons_self)
    rw [List.countP_cons] at h
    cases k with
    | feed now nonce service e =>
      cases hm : m.state.isTerminal with
      | true =>
        rw [eventsLeft_of_terminal hm] at hle
        omega
      | false =>
        have := eventsLeft_feed_lt hm now nonce service e
        simp only [Command.isFeed, if_true] at h
        omega
    | start | abandon | tick | reset =>
      simp only [Command.isFeed, Bool.false_eq_true, if_false] at h
      omega

theorem eventsLeft_le (m : Machine) :
    m.eventsLeft ≤ match m.config.role with
      | .acceptor => 5
      | .initiator => 4 := by
  have h : m.rank ≤ 5 := by
    unfold rank
    cases m.state <;> dsimp only <;> (try split) <;> omega
  unfold eventsLeft
  cases m.config.role with
  | acceptor => exact h
  | initiator => exact Nat.min_le_left _ _

/-! ## Machines that are over -/

/-- No command but a reset does anything to a machine that is over. -/
theorem handsOn_perform (hm : m.state.isTerminal = true) (hk : k.isReset = false) :
    (m.perform k).HandsOn m := by
  cases k with
  | start now =>
    rcases m.start_cases now with ⟨err, h⟩ | ⟨-, h⟩ | ⟨-, hs, -⟩
    · rw [perform_start_error h]
      exact ⟨rfl, rfl, rfl, rfl⟩
    · rw [perform_start_ok h]
      exact ⟨rfl, rfl, rfl, rfl⟩
    · rw [hs] at hm
      cases hm
  | feed now nonce service e =>
    have hf := feed_of_terminal hm now nonce e
    simp only [perform, hf]
    exact ⟨rfl, rfl, rfl, rfl⟩
  | abandon now =>
    have ha : m.abandon now = m := if_pos hm
    simp only [perform, ha]
    exact ⟨rfl, rfl, rfl, rfl⟩
  | tick now =>
    have ht : m.tick now = (m, []) := if_pos hm
    simp only [perform, ht]
    exact ⟨rfl, rfl, rfl, rfl⟩
  | reset => cases hk

/-- **A machine that is over stays as it is.** -/
theorem handsOn_of_mem_log {cs : List Command} (hm : m.state.isTerminal = true)
    (hcs : ∀ k ∈ cs, k.isReset = false) : ∀ x ∈ m.log cs, x.HandsOn m := by
  induction cs generalizing m with
  | nil => exact fun x hx => by cases hx
  | cons k cs ih =>
    have hk := handsOn_perform hm (hcs k List.mem_cons_self)
    intro x hx
    rcases List.mem_cons.1 hx with rfl | hx
    · exact hk
    · have hm' : (m.perform k).after.state.isTerminal = true := by rw [hk.after]; exact hm
      have hx := ih hm' (fun k' h' => hcs k' (List.mem_cons_of_mem k h')) x hx
      refine ⟨?_, hx.actions, hx.request?, hx.usedNonce⟩
      rw [hx.after, hk.after]

end Machine

open Machine

/-- **A handshake fails closed and always gets on.** An event that a running machine is fed leads to
the one state that the table has for its type if it is free of faults and its content is accepted,
and fails the handshake otherwise; it never leaves the machine in its state. So an acceptor is over
after five events and an initiator after four, whatever happens besides. A machine that is over does
nothing but hand on what it is fed, for ever. -/
theorem fails_closed_and_gets_on (m : Machine) :
    (m.state.isTerminal = false → ∀ now nonce service e,
      let s := ((m.feed now nonce e).run service).machine.state
      s ≠ m.state ∧
      (m.successor? e.messageType = none → s = .failed) ∧
      ∀ s', m.successor? e.messageType = some s' →
        (e.fault = none ∧ m.Accepts service e.payload → s = s') ∧
        (¬ (e.fault = none ∧ m.Accepts service e.payload) → s = .failed)) ∧
    ∀ cs : List Command, (∀ k ∈ cs, k.isReset = false) →
      ((match m.config.role with
        | .acceptor => 5
        | .initiator => 4) ≤ cs.countP Command.isFeed → (m.run cs).state.isTerminal = true) ∧
      (m.state.isTerminal = true → ∀ x ∈ m.log cs, x.HandsOn m) := by
  refine ⟨fun hm now nonce service e => ?_, fun cs hcs => ⟨fun h => ?_, fun hm => ?_⟩⟩
  · rcases feed_progress hm now nonce service e with h | ⟨hs, hn⟩
    · refine ⟨(successor?_ne h.successor).1, fun hnone => ?_,
        fun s' hs' => ⟨fun _ => ?_, fun hn => ?_⟩⟩
      · cases hnone.symm.trans h.successor
      · cases hs'.symm.trans h.successor
        rfl
      · exact absurd ⟨h.fault, h.accepts⟩ hn
    · refine ⟨?_, fun _ => hs, fun s' hs' => ⟨fun ha => ?_, fun _ => hs⟩⟩
      · rw [hs]
        intro heq
        rw [← heq] at hm
        cases hm
      · exact absurd ⟨s', ha.1, ha.2, hs'⟩ hn
  · exact terminal_run hcs (Nat.le_trans m.eventsLeft_le h)
  · exact handsOn_of_mem_log hm hcs

/-- Octets that are no frame, five times. -/
def plainNoise : List Command := List.replicate 5 (.feed 0 [] plainService (.ofBytes []))

/-- An acceptor goes on at a hello and fails at a self-description; five times octets that are no
frame, and it is over, and they are handed on the next time. -/
theorem plainNoise_ends :
    ((ofConfig (plainConfig .acceptor)).run (plainCommands.take 1)).state = .challengeIssued ∧
    ((ofConfig (plainConfig .acceptor)).perform
      (.feed 0 [] plainService ⟨[], .metadata ⟨""⟩, none⟩)).after.state = .failed ∧
    ((ofConfig (plainConfig .acceptor)).run plainNoise).state.isTerminal = true ∧
    ∀ x ∈ ((ofConfig (plainConfig .acceptor)).run plainNoise).log plainNoise,
      x.HandsOn ((ofConfig (plainConfig .acceptor)).run plainNoise) := by
  have hnoise : ∀ k ∈ plainNoise, k.isReset = false := by decide
  obtain ⟨hevent, hrun⟩ := fails_closed_and_gets_on (ofConfig (plainConfig .acceptor))
  have hover := (hrun plainNoise hnoise).1 (by decide)
  refine ⟨?_, ?_, hover, ?_⟩
  · exact ((hevent rfl 0 [2, 3] plainService ⟨[], .hello ⟨Hello.currentVersion, true⟩, none⟩).2.2
      .challengeIssued rfl).1 ⟨rfl, rfl⟩
  · exact (hevent rfl 0 [] plainService ⟨[], .metadata ⟨""⟩, none⟩).2.1 rfl
  · exact ((fails_closed_and_gets_on ((ofConfig (plainConfig .acceptor)).run plainNoise)).2
      plainNoise hnoise).2 hover

end AttestedChannel
