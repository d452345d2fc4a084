import AttestedChannel.Proofs.Handshake.Deadline

/-!
# Deliveries that are given up

A delivery that waits for the measurement service can be given up, and then the machine stays as it
has been written up to there. `Machine.attempt` is a delivery that writes the machine piece by piece,
and an `Attempt` that waits holds the machine as it stands. Once the service answers, an attempt
comes to what `feed` says (`toExchange_attempt`), and before that it leaves what `abandon` says
(`left_attempt`).

A machine that asks its service keeps the time of its handshake already, so nothing has been written
when the request goes out: whoever gives a delivery up can repeat it as if it had never been made
(`abandoned_delivery_leaves_no_trace`).
-/

namespace AttestedChannel

/-- A delivery on its way: it has come to its end, or it waits for the service. -/
inductive Attempt (α : Type) where
  | finished (value : α)
  /-- the machine has been written up to here -/
  | awaiting (left : Machine) (request : ServiceRequest) (resume : Answer → α)

namespace Attempt

variable {α β : Type}

/-- Does something with the outcome. -/
def map (f : α → β) : Attempt α → Attempt β
  | .finished a => .finished (f a)
  | .awaiting m q k => .awaiting m q fun a => f (k a)

/-- The attempt, not looking at the machine while it waits. -/
def toExchange : Attempt α → Exchange α
  | .finished a => .finished a
  | .awaiting _ q k => .awaiting q k

/-- The machine that is left if the attempt is given up while it waits. -/
def left? : Attempt α → Option Machine
  | .finished _ => none
  | .awaiting m _ _ => some m

@[simp] theorem toExchange_map (f : α → β) (x : Attempt α) :
    (x.map f).toExchange = x.toExchange.map f := by cases x <;> rfl

@[simp] theorem left?_map (f : α → β) (x : Attempt α) : (x.map f).left? = x.left? := by
  cases x <;> rfl

/-- An attempt that asks for something waits for that, and holds the machine that it leaves. -/
theorem eq_awaiting {x : Attempt α} {m : Machine} {q : ServiceRequest}
    (hq : x.toExchange.request? = some q) (hm : ∀ w, x.left? = some w → w = m) :
    ∃ resume, x = .awaiting m q resume := by
  cases x with
  | finished a => cases hq
  | awaiting w q' k =>
    cases hq
    cases hm w rfl
    exact ⟨k, rfl⟩

end Attempt

namespace Machine

/-! ## A delivery, write by write -/

/-- Asks the service in a computation that only reads the machine. -/
def reading {α : Type} (m : Machine) : Exchange α → Attempt (Machine × α)
  | .finished a => .finished (m, a)
  | .awaiting q k => .awaiting m q fun a => (m, k a)

/-- Appraises a response of the peer. The challenge is used up once there is an appraisal. -/
def attemptAppraisal (m : Machine) (r : Response) : Attempt (Machine × Appraisal) :=
  match m.coordinator.pending with
  | none => .finished (m, .failed .noPendingChallenge none)
  | some p =>
    (m.reading (Coordinator.verify m.coordinator.expected p r)).map fun (m, a) =>
      ({ m with coordinator := m.coordinator.reset }, a)

/-- Has the evidence of the peer appraised, and goes on from there. -/
def attemptResponse (m : Machine) (r : Response) : Attempt Progress :=
  (m.attemptAppraisal r).map fun (m, a) => m.concludeAppraisal m.coordinator a

/-- Has the own platform quoted, and goes on from there. -/
def attemptChallenge (m : Machine) (ch : Challenge) : Attempt Progress :=
  (m.reading (Coordinator.answer ch)).map fun (m, outcome) => m.concludeQuote outcome

/-- The transition of a payload that was decoded. -/
def attemptPayload (m : Machine) (nonce : Bytes) (p : Payload) : Attempt Progress :=
  match m.config.role, m.state, p with
  | _, _, .error e => .finished (m.refuse (.peerError e.code e.message))
  | .acceptor, .hello, .hello h => .finished (m.receiveHello nonce h)
  | _, .challengeIssued, .response r => m.attemptResponse r
  | .acceptor, .responseReceived, .challenge ch => m.attemptChallenge ch
  | .initiator, .hello, .challenge ch =>
    if m.hasOpened then m.attemptChallenge ch
    else .finished (m.refuse (.unexpectedMessage .hello .attestationChallenge))
  | _, .verdictPending, .result r => .finished (m.receiveVerdict nonce r)
  | _, .metadata, .metadata d => .finished (m.receiveMetadata d)
  | _, state, p => .finished (m.refuse (.unexpectedMessage state p.messageType))

/-- The transition of an event. -/
def attemptTransition (m : Machine) (nonce : Bytes) (e : Event) : Attempt Progress :=
  match e.fault with
  | some fault => .finished (m.refuse (.malformedFrame fault))
  | none => m.attemptPayload nonce e.payload

/-- Takes an inbound event. The first one notes the time before anything else happens, and every
event is remembered after its transition. -/
def attempt (m : Machine) (now : Instant) (nonce : Bytes) (e : Event) : Attempt Turn :=
  if m.state.isTerminal then
    .finished ⟨{ m with lastEvent := some e }, [.passThrough e.raw], false⟩
  else
    let m := if m.startedAt.isNone then { m with startedAt := some now } else m
    (m.attemptTransition nonce e).map (settle e)

variable {m w : Machine} {now : Instant} {nonce : Bytes} {service : ServiceRequest → Answer}
  {e : Event} {q : ServiceRequest}

/-! ### What it comes to -/

theorem toExchange_reading {α : Type} (m : Machine) (x : Exchange α) :
    (m.reading x).toExchange = x.map fun a => (m, a) := by cases x <;> rfl

theorem toExchange_attemptResponse (m : Machine) (r : Response) :
    (m.attemptResponse r).toExchange = m.appraisePeer r := by
  unfold attemptResponse attemptAppraisal appraisePeer Coordinator.appraise
  cases m.coordinator.pending with
  | none => rfl
  | some p =>
    dsimp only
    rw [Attempt.toExchange_map, Attempt.toExchange_map, toExchange_reading]
    cases Coordinator.verify m.coordinator.expected p r <;> rfl

/-- Each row of the machine asks for an appraisal, asks for a quote, or asks nothing. -/
theorem attemptPayload_cases (m : Machine) (nonce : Bytes) (p : Payload) :
    (∃ r, m.attemptPayload nonce p = m.attemptResponse r ∧
      m.receive nonce p = m.appraisePeer r) ∨
    (∃ ch, m.attemptPayload nonce p = m.attemptChallenge ch ∧
      m.receive nonce p = m.quotePlatform ch) ∨
    ∃ pr, m.attemptPayload nonce p = .finished pr ∧ m.receive nonce p = .finished pr := by
  unfold attemptPayload
  split
  case h_1 => exact .inr (.inr ⟨_, rfl, rfl⟩)
  case h_2 hr hs => exact .inr (.inr ⟨_, rfl, receive_hello ⟨hr, hs⟩⟩)
  case h_3 hs => exact .inl ⟨_, rfl, receive_response hs⟩
  case h_4 hr hs => exact .inr (.inl ⟨_, rfl, receive_challenge (.inl ⟨hr, hs⟩)⟩)
  case h_5 hr hs =>
    by_cases ho : m.hasOpened = true
    · rw [if_pos ho]
      exact .inr (.inl ⟨_, rfl, receive_challenge (.inr ⟨hr, hs, ho⟩)⟩)
    · rw [if_neg ho]
      refine .inr (.inr ⟨_, rfl, ?_⟩)
      rw [receive_of_not_takes (by simp [Takes, TakesChallenge, hr, hs, ho]), hs]
      rfl
  case h_6 hs => exact .inr (.inr ⟨_, rfl, receive_result hs⟩)
  case h_7 hs => exact .inr (.inr ⟨_, rfl, receive_metadata hs⟩)
  case h_8 =>
    -- `receive` has the same rows, and the payload meets none of those above
    refine .inr (.inr ⟨_, rfl, ?_⟩)
    unfold receive
    split <;> simp_all

theorem toExchange_attemptTransition (m : Machine) (nonce : Bytes) (e : Event) :
    (m.attemptTransition nonce e).toExchange = m.transition nonce e := by
  unfold attemptTransition transition
  cases e.fault with
  | some fault => rfl
  | none =>
    dsimp only
    rcases m.attemptPayload_cases nonce e.payload with ⟨r, ha, hr⟩ | ⟨ch, ha, hr⟩ | ⟨pr, ha, hr⟩
    · rw [ha, hr, toExchange_attemptResponse]
    · rw [ha, hr]
      rfl
    · rw [ha, hr]
      rfl

/-- The time is noted if there is none, which is what `noteStart` does in one step. -/
theorem noteStart_eq (m : Machine) (now : Instant) :
    (if m.startedAt.isNone then { m with startedAt := some now } else m) = m.noteStart now := by
  cases ht : m.startedAt with
  | none => simp [noteStart, ht]
  | some t =>
    rw [noteStart_eq_self (Option.isSome_of_eq_some ht)]
    rfl

/-- **An attempt that is not given up is a delivery.** -/
theorem toExchange_attempt (m : Machine) (now : Instant) (nonce : Bytes) (e : Event) :
    (m.attempt now nonce e).toExchange = m.feed now nonce e := by
  unfold attempt feed
  by_cases ht : m.state.isTerminal = true
  · rw [if_pos ht, if_pos ht]
    rfl
  · rw [if_neg ht, if_neg ht]
    dsimp only
    rw [noteStart_eq, Attempt.toExchange_map, toExchange_attemptTransition]

/-! ### What it leaves -/

theorem left_reading {α : Type} {x : Exchange α} (h : (m.reading x).left? = some w) : w = m := by
  cases x with
  | finished a => cases h
  | awaiting q k =>
    cases h
    rfl

theorem left_attemptResponse {r : Response} (h : (m.attemptResponse r).left? = some w) :
    w = m := by
  unfold attemptResponse attemptAppraisal at h
  rw [Attempt.left?_map] at h
  split at h
  · cases h
  · rw [Attempt.left?_map] at h
    exact left_reading h

theorem left_attemptChallenge {ch : Challenge} (h : (m.attemptChallenge ch).left? = some w) :
    w = m := by
  unfold attemptChallenge at h
  rw [Attempt.left?_map] at h
  exact left_reading h

/-- No transition writes anything before it asks the service. -/
theorem left_attemptTransition (h : (m.attemptTransition nonce e).left? = some w) : w = m := by
  unfold attemptTransition at h
  split at h
  · cases h
  · rcases m.attemptPayload_cases nonce e.payload with ⟨r, ha, -⟩ | ⟨ch, ha, -⟩ | ⟨pr, ha, -⟩
    · rw [ha] at h
      exact left_attemptResponse h
    · rw [ha] at h
      exact left_attemptChallenge h
    · rw [ha] at h
      cases h

/-- **An attempt that is given up leaves nothing but the time of the first event.** -/
theorem left_attempt (h : (m.attempt now nonce e).left? = some w) : w = m.abandon now := by
  unfold attempt at h
  unfold abandon
  by_cases ht : m.state.isTerminal = true
  · rw [if_pos ht] at h
    cases h
  · rw [if_neg ht] at h ⊢
    dsimp only at h
    rw [noteStart_eq, Attempt.left?_map] at h
    exact left_attemptTransition h

/-! ## Deliveries that ask the service -/

/-- The service is asked about a response or a challenge that the machine takes, and no nonce is
drawn for that. -/
theorem Transition.of_request {pr : Progress} (tr : Transition service nonce m e (some q) pr) :
    pr.usedNonce = false ∧ ∃ p, e.Carries p ∧ m.Takes p ∧
      ((∃ r, p = .response r) ∨ ∃ ch, p = .challenge ch) := by
  generalize hreq : some q = req at tr
  cases tr with
  | malformed | peerError | unexpected | unsupported | challenged | rejected | acceptedAcceptor
  | acceptedMutually | acceptedOneWay | describedToAcceptor | describedToInitiator => cases hreq
  | appraisalFailed he ht | passedToAcceptor he ht | passedToInitiator he ht =>
    exact ⟨rfl, _, he, ht, .inl ⟨_, rfl⟩⟩
  | quoteFailed he ht | quoted he ht => exact ⟨rfl, _, he, ht, .inr ⟨_, rfl⟩⟩

/-- A machine that has come to its end does not ask. -/
theorem running_of_request (hq : (m.feed now nonce e).request? = some q) :
    m.state.isTerminal = false := by
  rw [← Bool.not_eq_true]
  intro ht
  rw [feed_of_terminal ht] at hq
  cases hq

theorem transition_of_request (hq : (m.feed now nonce e).request? = some q)
    (service : ServiceRequest → Answer) :
    Transition service nonce (m.noteStart now) e (some q)
      (((m.noteStart now).transition nonce e).run service) := by
  have tr := (m.noteStart now).transition_run nonce e service
  rwa [← feed_request_of_running (running_of_request hq), hq] at tr

theorem usedNonce_settle (e : Event) (pr : Progress) :
    (settle e pr).usedNonce = pr.usedNonce := by
  unfold settle
  dsimp only
  split <;> rfl

/-- A delivery that asks the service draws no nonce, whatever the answer is. -/
theorem usedNonce_of_request (hq : (m.feed now nonce e).request? = some q)
    (service : ServiceRequest → Answer) :
    ((m.feed now nonce e).run service).usedNonce = false := by
  rw [feed_run_of_running (running_of_request hq), usedNonce_settle]
  exact (transition_of_request hq service).of_request.1

/-- A transition that asks the service does not look at the nonce that is handed in. -/
theorem transition_congr {p : Payload} (he : e.Carries p) (ht : m.Takes p)
    (hp : (∃ r, p = .response r) ∨ ∃ ch, p = .challenge ch) (nonce nonce' : Bytes) :
    m.transition nonce' e = m.transition nonce e := by
  have hpayload : ∀ n, m.transition n e = m.receive n p := by
    intro n
    rw [transition, he.1, ← he.2]
  rw [hpayload, hpayload]
  rcases hp with ⟨r, rfl⟩ | ⟨ch, rfl⟩
  · rw [receive_response ht, receive_response ht]
  · rw [receive_challenge ht, receive_challenge ht]

/-- **A machine that keeps the time asks the same whenever an event is delivered**, and it makes the
same of the answer. -/
theorem feed_eq_of_request (hs : m.startedAt.isSome = true)
    (hq : (m.feed now nonce e).request? = some q) (now' : Instant) (nonce' : Bytes) :
    m.feed now' nonce' e = m.feed now nonce e := by
  have hm := running_of_request hq
  obtain ⟨-, p, he, ht, hp⟩ := (transition_of_request hq fun _ => .timeOut).of_request
  rw [noteStart_eq_self hs] at ht
  unfold feed
  rw [if_neg (by simp [hm]), if_neg (by simp [hm]), noteStart_eq_self hs, noteStart_eq_self hs,
    transition_congr he ht hp nonce nonce']

/-! ## Giving up -/

/-- A delivery that is given up any number of times does nothing to a machine that keeps the time.
-/
theorem log_abandon (hs : m.startedAt.isSome = true) (ts : List Instant) :
    m.run (ts.map .abandon) = m ∧
      m.log (ts.map .abandon) = ts.map fun t => ⟨m, .abandon t, m, [], none, false⟩ := by
  have hstep : ∀ t, m.perform (.abandon t) = ⟨m, .abandon t, m, [], none, false⟩ := by
    intro t
    simp only [perform, abandon_eq_self hs]
  induction ts with
  | nil => exact ⟨rfl, rfl⟩
  | cons t ts ih =>
    have hafter : (m.perform (.abandon t)).after = m := by rw [hstep]
    constructor
    · show (m.perform (.abandon t)).after.run (ts.map .abandon) = m
      rw [hafter, ih.1]
    · simp only [List.map_cons, log]
      rw [hafter, ih.2, hstep]

end Machine

open Machine

/-- **A delivery that is given up leaves no trace.** Take any run, and an event that has the machine
ask its service. Whenever the event is delivered, and whatever nonce is at hand, the machine is as
it was when the request goes out, and no nonce is drawn before it or after it. So giving the
delivery up, as often as may be, changes nothing and does nothing, and delivering the event once
more asks the same and makes the same of every answer as delivering it at once. -/
theorem abandoned_delivery_leaves_no_trace (c : Config) (cs : List Command) {now : Instant}
    {nonce : Bytes} {e : Event} {q : ServiceRequest}
    (hq : (((ofConfig c).run cs).feed now nonce e).request? = some q) :
    let m := (ofConfig c).run cs
    (∀ now' nonce', ∃ resume, m.attempt now' nonce' e = .awaiting m q resume) ∧
    (∀ now' nonce' service, ((m.feed now' nonce' e).run service).usedNonce = false) ∧
    ∀ ts : List Instant,
      m.run (ts.map .abandon) = m ∧
      (∀ x ∈ m.log (ts.map .abandon), x.actions = [] ∧ x.usedNonce = false) ∧
      ∀ now' nonce', (m.run (ts.map .abandon)).feed now' nonce' e = m.feed now nonce e := by
  intro m
  have hs : m.startedAt.isSome = true := isSome_startedAt_run c cs (hasBegun_of_request hq)
  have hfeed := feed_eq_of_request hs hq
  refine ⟨fun now' nonce' => ?_, fun now' nonce' service => ?_, fun ts => ?_⟩
  · refine Attempt.eq_awaiting (by rw [toExchange_attempt, hfeed, hq]) fun w hw => ?_
    rw [left_attempt hw, abandon_eq_self hs]
  · exact usedNonce_of_request (by rw [hfeed, hq]) service
  · obtain ⟨hrun, hlog⟩ := log_abandon hs ts
    refine ⟨hrun, fun x hx => ?_, fun now' nonce' => ?_⟩
    · rw [hlog] at hx
      obtain ⟨t, -, rfl⟩ := List.mem_map.1 hx
      exact ⟨rfl, rfl⟩
    · rw [hrun, hfeed]

/-- The response to its challenge takes an acceptor further after two deliveries of it that were
given up, with another nonce at hand and the service asked as at first. -/
theorem plainResponse_redelivered :
    let m := (ofConfig (plainConfig .acceptor)).run (plainCommands.take 1)
    let e : Event := ⟨[], .response ⟨[2, 3], (plainEvidence [2, 3]).encode⟩, none⟩
    let m' := m.run [.abandon 5, .abandon 7]
    (∃ q resume, m.attempt 5 [] e = .awaiting m q resume) ∧ m' = m ∧
      m'.feed 9 [8] e = m.feed 5 [] e ∧
      ((m'.feed 9 [8] e).run plainService).machine.state = .responseReceived := by
  intro m e m'
  have hq : (m.feed 5 [] e).request? =
      some ⟨.verify, .advanced, .single 0, [2, 3], some (plainEvidence [2, 3]).encode⟩ := by
    decide +kernel
  obtain ⟨hwait, -, hleft⟩ :=
    abandoned_delivery_leaves_no_trace (plainConfig .acceptor) (plainCommands.take 1) hq
  obtain ⟨hrun, -, hagain⟩ := hleft [5, 7]
  refine ⟨⟨_, hwait 5 []⟩, hrun, hagain 9 [8], ?_⟩
  rw [show m'.feed 9 [8] e = m.feed 5 [] e from hagain 9 [8]]
  decide +kernel

end AttestedChannel
