import AttestedChannel.Simulation.Defaults
import AttestedChannel.Proofs.Session.Live

/-!
# What the application gets to read

Once the handshake of a session is over, what its peer sends goes into the channel of the registry,
if there is room and a reader. Two routes lead there: the adapter hands a message on without a look
at its machine, and a machine may have an action that passes one through. The second is never taken:
while a handshake goes on, its machine only sends (`Machine.handedOnBy_feed`), also with the message
that ends it.

So an operation adds one message to the channel or none, as `admitted` says without a look at
machines or effects, and everything else follows from what one operation does to the channel
(`perform_channel`) and to the sessions (`perform_unheard`). The latter compares a registry with one
that nobody reads: the sessions are the same in both, so nothing that happens to the channel can be
noticed by a session (`channel_delivers_accepted`).

A delivery that waits for the measurement service holds its adapter for that time, so it counts as
one operation that takes place when it is done. A look at the clock by the registry is one at each
live adapter, in any order and with anything in between.
-/

namespace AttestedChannel

/-! ## Machines that hand nothing on -/

theorem handedOnBy_of_says {actions : List Action} {ps : List Payload} (h : Says actions ps) :
    handedOnBy actions = [] := by
  induction h with
  | nil => rfl
  | cons ha _ ih =>
    obtain ⟨k, rfl⟩ := ha
    exact ih

namespace Machine

theorem handedOnBy_start {m m' : Machine} {now : Instant} {actions : List Action}
    (h : m.start now = .ok (m', actions)) : handedOnBy actions = [] := by
  rcases m.start_cases now with ⟨err, hs⟩ | ⟨-, hs⟩ | ⟨-, -, -, hs⟩
  · cases hs.symm.trans h
  · cases hs.symm.trans h
    rfl
  · cases hs.symm.trans h
    rfl

theorem handedOnBy_tick (m : Machine) (now : Instant) : handedOnBy (m.tick now).2 = [] := by
  rcases m.tick_hears now with h | ⟨-, -, q, -, hsays, -⟩
  · rw [h]
    rfl
  · exact handedOnBy_of_says hsays

/-- **A machine hands nothing on before its handshake is over**, not even the message that ends it.
-/
theorem handedOnBy_feed {m : Machine} (hm : m.state.isTerminal = false) (now : Instant)
    (nonce : Bytes) (e : Event) (service : ServiceRequest → Answer) :
    handedOnBy ((m.feed now nonce e).run service).actions = [] := by
  cases hf : e.fault with
  | none =>
    obtain ⟨ps, -, hsays⟩ := feed_hears hm now nonce ⟨hf, rfl⟩ service
    exact handedOnBy_of_says hsays
  | some fault =>
    have hrun : (m.feed now nonce e).run service =
        settle e ((m.noteStart now).refuse (.malformedFrame fault)) := by
      rw [feed_run_of_running hm, transition, hf]
      rfl
    rw [hrun]
    exact handedOnBy_of_says (says_settle_refuse rfl)

end Machine

/-! ## Adapters -/

namespace Adapter

/-- What can happen to an adapter, for whatever session it is said to be. -/
inductive Stimulus where
  | opened (now : Instant) (s : SessionId)
  | message (now : Instant) (nonce : Bytes) (service : ServiceRequest → Answer) (s : SessionId)
    (b : Bytes)
  /-- a delivery that is given up while the service has not answered -/
  | abandon (now : Instant)
  | closed (s : SessionId)
  /-- an error of the transport -/
  | failed
  | tick (now : Instant)

/-- What the adapter does about it. -/
def react (a : Adapter) : Stimulus → Reaction
  | .opened now s => a.opened now s
  | .message now nonce service s b => (a.message now nonce s b).run service
  | .abandon now => ⟨a.abandon now, [], false⟩
  | .closed s => a.closed s
  | .failed => a.failed
  | .tick now => a.tick now

/-- Whether the adapter is bound to the session and the handshake is over. -/
def handsOn (a : Adapter) (s : SessionId) : Bool :=
  match a.bound with
  | none => false
  | some x => x.session = s && x.machine.state.isTerminal

/-- The message of the application in what happens to an adapter. -/
def Stimulus.passes (a : Adapter) : Stimulus → List (SessionId × Bytes)
  | .message _ _ _ s b => if a.handsOn s then [(s, b)] else []
  | _ => []

variable {a : Adapter} {s : SessionId}

theorem passedBy_commit (a : Adapter) (s : SessionId) (m : Machine) {actions : List Action}
    (h : handedOnBy actions = []) (u : Bool) : passedBy (a.commit s m actions u).effects = [] := by
  show passedBy (actions.flatMap (effectsOf s)) = []
  rw [passedBy_effectsOf, h]
  rfl

/-- A message that comes after the handshake leaves the adapter as it is. -/
theorem message_of_handsOn (h : a.handsOn s = true) (now : Instant) (nonce b : Bytes) :
    a.message now nonce s b = .finished ⟨a, [.passedThrough s b], false⟩ := by
  unfold handsOn at h
  unfold message
  cases hb : a.bound with
  | none => simp [hb] at h
  | some x =>
    obtain ⟨hs, ht⟩ : x.session = s ∧ x.machine.state.isTerminal = true := by simpa [hb] using h
    simp [hs, ht]

theorem passedBy_message (h : a.handsOn s = false) (now : Instant) (nonce b : Bytes)
    (service : ServiceRequest → Answer) :
    passedBy ((a.message now nonce s b).run service).effects = [] := by
  unfold handsOn at h
  unfold message
  cases hb : a.bound with
  | none => rfl
  | some x =>
    dsimp only
    split
    next => rfl
    next hs =>
      have ht : x.machine.state.isTerminal = false := by simpa [hb, not_not.1 hs] using h
      rw [if_neg (by simp [ht]), Exchange.run_map]
      exact passedBy_commit _ _ _ (Machine.handedOnBy_feed ht now nonce _ service) _

theorem passedBy_opened (a : Adapter) (now : Instant) (s : SessionId) :
    passedBy (a.opened now s).effects = [] := by
  unfold opened
  dsimp only
  cases h : (Machine.ofConfig a.config).start now with
  | error err => rfl
  | ok t => exact passedBy_commit _ _ _ (Machine.handedOnBy_start h) _

theorem passedBy_tick (a : Adapter) (now : Instant) : passedBy (a.tick now).effects = [] := by
  unfold tick
  split
  next => rfl
  next x _ =>
    split
    next => rfl
    next m actions _ ht =>
      have hnone := x.machine.handedOnBy_tick now
      rw [ht] at hnone
      exact passedBy_commit _ _ _ hnone _

/-- **An adapter hands on what comes in after the handshake, and nothing else.** -/
theorem passedBy_react (a : Adapter) (k : Stimulus) :
    passedBy (a.react k).effects = k.passes a := by
  cases k with
  | opened now s => exact a.passedBy_opened now s
  | message now nonce service s b =>
    cases h : a.handsOn s with
    | true =>
      simp only [react, message_of_handsOn h, Stimulus.passes, h, if_true]
      rfl
    | false =>
      simp only [Stimulus.passes, h, Bool.false_eq_true, if_false]
      exact passedBy_message h now nonce b service
  | abandon now => rfl
  | closed s => rfl
  | failed =>
    simp only [react, failed]
    split <;> rfl
  | tick now => exact a.passedBy_tick now

end Adapter

/-! ## Runs -/

namespace Registry

open Adapter

/-- What can be done to a registry: its sessions are opened, something happens to one of its
adapters, or somebody reads its channel. -/
inductive Operation where
  | openSession (role : Role) (now : Instant) (s : SessionId)
  | adapter (i : Nat) (k : Stimulus)
  | receive (n : Nat)
  | dropReceiver

/-- Whether an operation is about sessions, and not about the channel. -/
def Operation.isSession : Operation → Bool
  | .openSession .. | .adapter .. => true
  | .receive _ | .dropReceiver => false

/-- What one operation did. -/
structure Outcome where
  after : Registry
  /-- the frames that were sent, each with the number of its adapter -/
  sent : List (Nat × Bytes)
  /-- what the reader of the channel got -/
  received : List ApplicationMessage
  /-- what was in the channel when its reader went away -/
  discarded : List ApplicationMessage

/-- Does what an operation says. -/
def perform (r : Registry) : Operation → Outcome
  | .openSession role now s =>
    let (after, i, sent) := r.openSession role now s
    ⟨after, sent.map fun b => (i, b), [], []⟩
  | .adapter i k =>
    let (after, sent) := r.step i (·.react k)
    ⟨after, sent.map fun b => (i, b), [], []⟩
  | .receive n => ⟨(r.receive n).2, [], (r.receive n).1, []⟩
  | .dropReceiver => ⟨r.dropReceiver, [], [], r.channel⟩

/-- The registry after some operations. -/
def run : Registry → List Operation → Registry
  | r, [] => r
  | r, k :: ks => (r.perform k).after.run ks

/-- What each of a list of operations did. -/
def log : Registry → List Operation → List Outcome
  | _, [] => []
  | r, k :: ks => r.perform k :: (r.perform k).after.log ks

/-- Whether an adapter is bound to the session and its handshake is over. -/
def handsOn (r : Registry) (i : Nat) (s : SessionId) : Bool := r.adapters[i]?.any (·.handsOn s)

/-- The message that an operation adds to a channel of a capacity: one that comes in for a session
whose handshake is over, while there is a reader and less than the capacity is queued. -/
def admitted (r : Registry) (capacity : Nat) : Operation → List ApplicationMessage
  | .adapter i (.message _ _ _ s b) =>
    if r.handsOn i s && r.hasReceiver && r.channel.length < capacity then [⟨s, b⟩] else []
  | _ => []

/-- The messages that a list of operations adds to a channel. -/
def accepted (r : Registry) (capacity : Nat) : List Operation → List ApplicationMessage
  | [] => []
  | k :: ks => r.admitted capacity k ++ (r.perform k).after.accepted capacity ks

/-! ## The channel -/

variable {r : Registry} {i : Nat} {s : SessionId}

/-- Effects that hand nothing on leave the channel alone. -/
theorem foldl_absorb_of_passedBy_eq_nil {es : List Effect} (h : passedBy es = []) (r : Registry) :
    ∃ l, es.foldl absorb r = { r with live := l } := by
  induction es generalizing r with
  | nil => exact ⟨r.live, rfl⟩
  | cons e es ih =>
    cases e with
    | sent b => exact ih h r
    | passedThrough t b => cases h
    | released t =>
      obtain ⟨l, hl⟩ := release_same r t
      obtain ⟨l', hl'⟩ := ih h { r with live := l }
      exact ⟨l', by rw [List.foldl_cons, absorb, hl, hl']⟩

/-- The channel, its capacity and its reader are the same in both registries. -/
structure SameChannel (q r : Registry) : Prop where
  channel : q.channel = r.channel
  capacity : q.capacity = r.capacity
  hasReceiver : q.hasReceiver = r.hasReceiver

theorem sameChannel_apply {x : Reaction} (h : passedBy x.effects = []) (r : Registry) (i : Nat) :
    SameChannel (r.apply i x) r := by
  obtain ⟨l, hl⟩ := foldl_absorb_of_passedBy_eq_nil h
    { r with adapters := r.adapters.set i x.adapter }
  rw [Registry.apply, hl]
  exact ⟨rfl, rfl, rfl⟩

theorem sameChannel_freed (r : Registry) (s : SessionId) : SameChannel (r.freed s) r := by
  unfold freed
  split
  next => exact ⟨rfl, rfl, rfl⟩
  next i _ =>
    split
    next => exact ⟨rfl, rfl, rfl⟩
    next a _ => exact sameChannel_apply rfl r i

/-- Opening a session adds nothing to the channel. -/
theorem sameChannel_openSession (r : Registry) (role : Role) (now : Instant) (s : SessionId) :
    SameChannel (r.openSession role now s).1 r := by
  have h := sameChannel_apply
    (passedBy_opened (.ofConfig ((r.freed s).config.asRole role)) now s)
    { r.freed s with adapters := (r.freed s).adapters ++
        [((Adapter.ofConfig ((r.freed s).config.asRole role)).opened now s).adapter] }
    (r.freed s).adapters.length
  have hfreed := sameChannel_freed r s
  exact ⟨h.channel.trans hfreed.channel, h.capacity.trans hfreed.capacity,
    h.hasReceiver.trans hfreed.hasReceiver⟩

/-- A message that comes in after the handshake changes the channel alone. -/
theorem perform_message_of_handsOn (h : r.handsOn i s = true) (now : Instant) (nonce : Bytes)
    (service : ServiceRequest → Answer) (b : Bytes) :
    (r.perform (.adapter i (.message now nonce service s b))).after = r.passOn ⟨s, b⟩ := by
  obtain ⟨a, ha, hover⟩ := (Option.any_eq_true _ _).1 h
  have hsame : r.adapters.set i a = r.adapters := by
    obtain ⟨hi, rfl⟩ := List.getElem?_eq_some_iff.1 ha
    exact List.set_getElem_self hi
  simp only [perform, step, ha, react, message_of_handsOn hover, Exchange.run, Registry.apply,
    List.foldl_cons, List.foldl_nil, absorb, hsame]

/-- A message for which there is no room, or no reader, changes nothing. -/
theorem perform_message_of_dropped (h : r.handsOn i s = true)
    (hfull : (r.hasReceiver && r.channel.length < r.capacity) = false) (now : Instant)
    (nonce : Bytes) (service : ServiceRequest → Answer) (b : Bytes) :
    (r.perform (.adapter i (.message now nonce service s b))).after = r := by
  rw [perform_message_of_handsOn h, passOn, hfull]
  rfl

/-- What happens to an adapter adds nothing to the channel if there is no message of the application
in it. -/
theorem sameChannel_adapter {k : Stimulus}
    (h : ∀ a, r.adapters[i]? = some a → k.passes a = []) :
    SameChannel (r.perform (.adapter i k)).after r := by
  simp only [perform, step]
  cases ha : r.adapters[i]? with
  | none => exact ⟨rfl, rfl, rfl⟩
  | some a => exact sameChannel_apply ((a.passedBy_react k).trans (h a ha)) r i

/-- A message that comes in during the handshake, or for another session, adds nothing to the
channel. -/
theorem sameChannel_message (h : r.handsOn i s = false) (now : Instant) (nonce : Bytes)
    (service : ServiceRequest → Answer) (b : Bytes) :
    SameChannel (r.perform (.adapter i (.message now nonce service s b))).after r := by
  refine sameChannel_adapter fun a ha => ?_
  rw [Registry.handsOn, ha, Option.any_some] at h
  simp [Stimulus.passes, h]

/-- **What an operation on sessions can do to the channel**: it brings a message for a session whose
handshake is over, or it leaves the channel alone. -/
theorem perform_cases {k : Operation} (hk : k.isSession = true) (r : Registry) :
    (∃ i now nonce service s b, k = .adapter i (.message now nonce service s b) ∧
      r.handsOn i s = true ∧ (r.perform k).after = r.passOn ⟨s, b⟩) ∨
    SameChannel (r.perform k).after r ∧ ∀ capacity, r.admitted capacity k = [] := by
  cases k with
  | receive n => cases hk
  | dropReceiver => cases hk
  | openSession role now s => exact .inr ⟨sameChannel_openSession r role now s, fun _ => rfl⟩
  | adapter i k =>
    cases k with
    | message now nonce service s b =>
      cases h : r.handsOn i s with
      | true =>
        exact .inl ⟨i, now, nonce, service, s, b, rfl, h,
          perform_message_of_handsOn h now nonce service b⟩
      | false =>
        exact .inr ⟨sameChannel_message h now nonce service b, fun _ => by simp [admitted, h]⟩
    | opened | abandon | closed | failed | tick =>
      exact .inr ⟨sameChannel_adapter fun _ _ => rfl, fun _ => rfl⟩

/-- **What one operation does to the messages**: what was queued and what is admitted is received,
goes away with the reader or is queued afterwards, in that order. -/
theorem perform_channel (r : Registry) (k : Operation) :
    (r.perform k).received ++ (r.perform k).discarded ++ (r.perform k).after.channel =
      r.channel ++ r.admitted r.capacity k := by
  cases hk : k.isSession with
  | false =>
    cases k with
    | openSession | adapter => cases hk
    | receive n => simp [perform, receive, admitted]
    | dropReceiver => simp [perform, dropReceiver, admitted]
  | true =>
    have hnone : (r.perform k).received = [] ∧ (r.perform k).discarded = [] := by
      cases k with
      | openSession | adapter => exact ⟨rfl, rfl⟩
      | receive | dropReceiver => cases hk
    rw [hnone.1, hnone.2, List.nil_append, List.nil_append]
    rcases perform_cases hk r with ⟨i, now, nonce, service, s, b, rfl, h, hafter⟩ | ⟨hsame, hnone⟩
    · rw [hafter, admitted, h, Bool.true_and, passOn]
      split
      · rfl
      · exact (List.append_nil _).symm
    · rw [hsame.channel, hnone, List.append_nil]

/-! ## The invariant of the channel -/

/-- No more is queued than the capacity, and nothing without a reader. -/
structure Bounded (c : Nat) (r : Registry) : Prop where
  capacity : r.capacity = c
  length : r.channel.length ≤ c
  unread : r.hasReceiver = false → r.channel = []

variable {c : Nat}

theorem bounded_ofConfig (config : Config) (c : Nat) : Bounded (max c 1) (.ofConfig config c) :=
  ⟨rfl, Nat.zero_le _, fun h => by cases h⟩

/-- **Every operation keeps the channel bounded.** -/
theorem Bounded.perform (h : Bounded c r) (k : Operation) : Bounded c (r.perform k).after := by
  obtain ⟨hc, hl, hu⟩ := h
  cases hk : k.isSession with
  | false =>
    cases k with
    | openSession | adapter => cases hk
    | receive n =>
      refine ⟨hc, (List.drop_sublist n r.channel).length_le.trans hl, fun hr => ?_⟩
      show r.channel.drop n = []
      rw [hu hr, List.drop_nil]
    | dropReceiver => exact ⟨hc, Nat.zero_le _, fun _ => rfl⟩
  | true =>
    rcases perform_cases hk r with ⟨i, now, nonce, service, s, b, -, -, hafter⟩ | ⟨hsame, -⟩
    · rw [hafter, passOn]
      split
      next hroom =>
        obtain ⟨hr, hlt⟩ : r.hasReceiver = true ∧ r.channel.length < r.capacity := by
          simpa using hroom
        refine ⟨hc, ?_, fun hr' => by cases hr.symm.trans hr'⟩
        rw [List.length_append, List.length_singleton]
        exact hc ▸ hlt
      next => exact ⟨hc, hl, hu⟩
    · refine ⟨hsame.capacity.trans hc, hsame.channel ▸ hl, fun hr => ?_⟩
      rw [hsame.channel]
      exact hu (hsame.hasReceiver.symm.trans hr)

/-- **Every run keeps the channel bounded.** -/
theorem Bounded.run (h : Bounded c r) (ks : List Operation) : Bounded c (r.run ks) := by
  induction ks generalizing r with
  | nil => exact h
  | cons k ks ih => exact ih (h.perform k)

/-- The reader stays until it is made to go, and it does not come back. -/
theorem hasReceiver_perform (r : Registry) (k : Operation) :
    (r.perform k).after.hasReceiver = true ↔ r.hasReceiver = true ∧ k ≠ .dropReceiver := by
  cases hk : k.isSession with
  | false =>
    cases k with
    | openSession | adapter => cases hk
    | receive n => simp [perform, receive]
    | dropReceiver => simp [perform, dropReceiver]
  | true =>
    have hne : k ≠ .dropReceiver := by
      rintro rfl
      cases hk
    refine Iff.trans ?_ (and_iff_left hne).symm
    rcases perform_cases hk r with ⟨i, now, nonce, service, s, b, -, -, hafter⟩ | ⟨hsame, -⟩
    · obtain ⟨ch, hpass⟩ := passOn_eq r ⟨s, b⟩
      rw [hafter, hpass]
    · rw [hsame.hasReceiver]

theorem hasReceiver_run (r : Registry) (ks : List Operation) :
    (r.run ks).hasReceiver = true ↔ r.hasReceiver = true ∧ .dropReceiver ∉ ks := by
  induction ks generalizing r with
  | nil => simp [run]
  | cons k ks ih =>
    rw [run, ih, hasReceiver_perform, List.mem_cons, not_or, and_assoc]
    exact and_congr_right fun _ => and_congr_left' (not_congr eq_comm)

/-! ## The messages of a run -/

/-- What the reader of the channel has got. -/
def receivedIn (log : List Outcome) : List ApplicationMessage := log.flatMap (·.received)

/-- What went away with the reader of the channel. -/
def discardedIn (log : List Outcome) : List ApplicationMessage := log.flatMap (·.discarded)

/-- The frames that were sent. -/
def sentIn (log : List Outcome) : List (Nat × Bytes) := log.flatMap (·.sent)

/-- Messages go away only with the reader. -/
theorem discardedIn_eq_nil {ks : List Operation} (h : .dropReceiver ∉ ks) :
    discardedIn (r.log ks) = [] := by
  induction ks generalizing r with
  | nil => rfl
  | cons k ks ih =>
    obtain ⟨hk, hks⟩ := not_or.1 (mt List.mem_cons.2 h)
    refine List.append_eq_nil_iff.2 ⟨?_, ih hks⟩
    cases k with
    | openSession | adapter | receive => rfl
    | dropReceiver => exact absurd rfl hk

/-- When the reader has gone, nothing is received and nothing more goes away. -/
theorem Bounded.unread_run (h : Bounded c r) (hr : r.hasReceiver = false) (ks : List Operation) :
    receivedIn (r.log ks) = [] ∧ discardedIn (r.log ks) = [] := by
  induction ks generalizing r with
  | nil => exact ⟨rfl, rfl⟩
  | cons k ks ih =>
    have hafter : (r.perform k).after.hasReceiver = false := by
      rw [← Bool.not_eq_true, hasReceiver_perform]
      simp [hr]
    obtain ⟨hreceived, hdiscarded⟩ := ih (h.perform k) hafter
    have hnow : (r.perform k).received = [] ∧ (r.perform k).discarded = [] := by
      cases k with
      | openSession | adapter => exact ⟨rfl, rfl⟩
      | receive n => exact ⟨by simp [Registry.perform, receive, h.unread hr], rfl⟩
      | dropReceiver => exact ⟨rfl, h.unread hr⟩
    refine ⟨?_, ?_⟩
    · exact List.append_eq_nil_iff.2 ⟨hnow.1, hreceived⟩
    · exact List.append_eq_nil_iff.2 ⟨hnow.2, hdiscarded⟩

/-- **What a run does to the messages.** -/
theorem Bounded.run_channel (h : Bounded c r) (ks : List Operation) :
    receivedIn (r.log ks) ++ discardedIn (r.log ks) ++ (r.run ks).channel =
      r.channel ++ r.accepted c ks := by
  induction ks generalizing r with
  | nil => exact (List.append_nil _).symm
  | cons k ks ih =>
    have hstep := perform_channel r k
    have hrest := ih (h.perform k)
    rw [h.capacity] at hstep
    -- either nothing is thrown away now, or nothing is received from now on
    have hswap : receivedIn ((r.perform k).after.log ks) ++ (r.perform k).discarded =
        (r.perform k).discarded ++ receivedIn ((r.perform k).after.log ks) := by
      cases k with
      | openSession | adapter | receive => exact List.append_nil _
      | dropReceiver =>
        rw [((h.perform .dropReceiver).unread_run rfl ks).1, List.append_nil, List.nil_append]
    calc receivedIn (r.log (k :: ks)) ++ discardedIn (r.log (k :: ks)) ++ (r.run (k :: ks)).channel
        = (r.perform k).received ++ (receivedIn ((r.perform k).after.log ks) ++
            (r.perform k).discarded) ++ discardedIn ((r.perform k).after.log ks) ++
            ((r.perform k).after.run ks).channel := by
          simp [receivedIn, discardedIn, log, Registry.run]
      _ = ((r.perform k).received ++ (r.perform k).discarded) ++
            (receivedIn ((r.perform k).after.log ks) ++
              discardedIn ((r.perform k).after.log ks) ++
              ((r.perform k).after.run ks).channel) := by
          rw [hswap]
          simp
      _ = ((r.perform k).received ++ (r.perform k).discarded ++ (r.perform k).after.channel) ++
            (r.perform k).after.accepted c ks := by
          rw [hrest, ← List.append_assoc]
      _ = r.channel ++ r.accepted c (k :: ks) := by
          rw [hstep, accepted, List.append_assoc]

/-! ## What sessions notice of the channel -/

/-- The registry with a channel that nobody reads. -/
def unheard (r : Registry) : Registry :=
  { r with capacity := 0, channel := [], hasReceiver := false }

theorem absorb_unheard (r : Registry) (e : Effect) : (r.absorb e).unheard = r.unheard.absorb e := by
  cases e with
  | sent b => rfl
  | passedThrough s b =>
    obtain ⟨ch, hr⟩ := passOn_eq r ⟨s, b⟩
    rw [absorb, hr]
    rfl
  | released s =>
    show (r.release s).unheard = r.unheard.release s
    have hg : r.unheard.get? s = r.get? s := rfl
    have hc : ∀ i, r.unheard.isClosed i = r.isClosed i := fun _ => rfl
    unfold release
    rw [hg]
    cases r.get? s with
    | none => rfl
    | some i =>
      simp only [hc]
      split <;> rfl

theorem apply_unheard (r : Registry) (i : Nat) (x : Reaction) :
    (r.apply i x).unheard = r.unheard.apply i x := by
  have hfold : ∀ (es : List Effect) (q : Registry),
      (es.foldl absorb q).unheard = es.foldl absorb q.unheard := by
    intro es
    induction es with
    | nil => exact fun _ => rfl
    | cons e es ih => exact fun q => by rw [List.foldl_cons, ih, absorb_unheard, List.foldl_cons]
  exact hfold _ _

theorem freed_unheard (r : Registry) (s : SessionId) : (r.freed s).unheard = r.unheard.freed s := by
  have hg : r.unheard.get? s = r.get? s := rfl
  have ha : r.unheard.adapters = r.adapters := rfl
  unfold freed
  rw [hg, ha]
  cases r.get? s with
  | none => rfl
  | some i =>
    dsimp only
    cases r.adapters[i]? with
    | none => rfl
    | some a => exact apply_unheard r i _

/-- **No session notices whether somebody reads the channel**: an operation on sessions does the
same to them, and sends the same, as where nobody does. -/
theorem perform_unheard {k : Operation} (hk : k.isSession = true) (r : Registry) :
    (r.perform k).after.unheard = (r.unheard.perform k).after ∧
      (r.perform k).sent = (r.unheard.perform k).sent := by
  cases k with
  | receive n => cases hk
  | dropReceiver => cases hk
  | openSession role now s =>
    simp only [perform, openSession_eq, ← freed_unheard]
    generalize r.freed s = r
    refine ⟨?_, rfl⟩
    have hseat := apply_unheard
      { r with adapters := r.adapters ++
          [((Adapter.ofConfig (r.config.asRole role)).opened now s).adapter] }
      r.adapters.length ((Adapter.ofConfig (r.config.asRole role)).opened now s)
    exact congrArg (fun q : Registry => { q with live := insertLive s r.adapters.length q.live })
      hseat
  | adapter i k =>
    have ha : r.unheard.adapters[i]? = r.adapters[i]? := rfl
    simp only [perform, step, ha]
    cases r.adapters[i]? with
    | none => exact ⟨rfl, rfl⟩
    | some a => exact ⟨apply_unheard r i _, rfl⟩

/-- What is done at the reading end of the channel does nothing to the sessions. -/
theorem perform_reading {k : Operation} (hk : k.isSession = false) (r : Registry) :
    (r.perform k).after.unheard = r.unheard ∧ (r.perform k).sent = [] := by
  cases k with
  | openSession | adapter => cases hk
  | receive n => exact ⟨rfl, rfl⟩
  | dropReceiver => exact ⟨rfl, rfl⟩

/-- **No session notices what happens to the channel** in a run. -/
theorem run_unheard (r : Registry) (ks : List Operation) :
    (r.run ks).unheard = r.unheard.run (ks.filter (·.isSession)) ∧
      sentIn (r.log ks) = sentIn (r.unheard.log (ks.filter (·.isSession))) := by
  induction ks generalizing r with
  | nil => exact ⟨rfl, rfl⟩
  | cons k ks ih =>
    obtain ⟨hrun, hsent⟩ := ih (r.perform k).after
    have hcons : sentIn (r.log (k :: ks)) =
        (r.perform k).sent ++ sentIn ((r.perform k).after.log ks) := rfl
    cases hk : k.isSession with
    | true =>
      obtain ⟨hafter, hnow⟩ := perform_unheard hk r
      rw [List.filter_cons_of_pos hk, run, hcons, hrun, hsent, hafter, hnow]
      exact ⟨rfl, rfl⟩
    | false =>
      obtain ⟨hafter, hnow⟩ := perform_reading hk r
      rw [List.filter_cons_of_neg (by simp [hk]), run, hcons, hrun, hsent, hafter, hnow]
      exact ⟨rfl, rfl⟩

/-- **The application receives what was admitted.** After any operations on a registry, on the
adapters it has made and on its channel:

* what has been received, then what went away with the reader, then what is still queued are exactly
  the messages that came in for sessions whose handshake was over while there was a reader and the
  channel had room, in order, each once, with its session and its octets as they came; only the
  reader's going away makes messages go away, and there is a reader until then;
* no more is ever queued than the capacity, or one message if that is none;
* a message that comes in for a session whose handshake is going on, or for another session than the
  adapter's, does not get into the channel, though it may end the handshake;
* a message that is dropped for want of room or of a reader changes nothing at all;
* whatever the capacity is and whatever is done at the reading end, the sessions are the same and
  send the same. -/
theorem channel_delivers_accepted (config : Config) (c : Nat) (ks : List Operation) :
    let r := (Registry.ofConfig config c).run ks
    let log := (Registry.ofConfig config c).log ks
    (receivedIn log ++ discardedIn log ++ r.channel =
        (Registry.ofConfig config c).accepted (max c 1) ks ∧
      (r.hasReceiver = true → discardedIn log = []) ∧
      (r.hasReceiver = true ↔ .dropReceiver ∉ ks)) ∧
    r.channel.length ≤ max c 1 ∧
    (∀ i s, r.handsOn i s = false → ∀ now nonce service b,
      (r.perform (.adapter i (.message now nonce service s b))).after.channel = r.channel) ∧
    (∀ i s, r.handsOn i s = true → (r.hasReceiver && r.channel.length < max c 1) = false →
      ∀ now nonce service b,
        (r.perform (.adapter i (.message now nonce service s b))).after = r) ∧
    ∀ c' ks', ks'.filter (·.isSession) = ks.filter (·.isSession) →
      let r' := (Registry.ofConfig config c').run ks'
      r'.adapters = r.adapters ∧ r'.live = r.live ∧
        sentIn ((Registry.ofConfig config c').log ks') = sentIn log := by
  intro r log
  have h := bounded_ofConfig config c
  have hr : Bounded (max c 1) r := h.run ks
  have hreader : r.hasReceiver = true ↔ .dropReceiver ∉ ks :=
    (hasReceiver_run (.ofConfig config c) ks).trans (and_iff_right rfl)
  refine ⟨⟨h.run_channel ks, fun ht => discardedIn_eq_nil (hreader.1 ht), hreader⟩, hr.length,
    fun i s hs now nonce service b => (sameChannel_message hs now nonce service b).channel,
    fun i s hs hfull => ?_, fun c' ks' hks => ?_⟩
  · rw [← hr.capacity] at hfull
    exact perform_message_of_dropped hs hfull
  · obtain ⟨hrun, hsent⟩ := run_unheard (.ofConfig config c) ks
    obtain ⟨hrun', hsent'⟩ := run_unheard (.ofConfig config c') ks'
    have hsame : r.unheard = ((Registry.ofConfig config c').run ks').unheard := by
      rw [hrun', hks]
      exact hrun
    refine ⟨(congrArg Registry.adapters hsame).symm, (congrArg Registry.live hsame).symm, ?_⟩
    rw [hsent', hks]
    exact hsent.symm

/-- A channel of no capacity holds one message. Of four that come in after a handshake that failed,
the second finds it full and the fourth finds it without a reader; neither leaves a trace. -/
theorem full_channel_drops :
    let config := Simulation.simulatedConfig .acceptor
    let message (b : Bytes) : Operation :=
      .adapter 0 (.message 1 [] (fun _ => .timeOut) ⟨7⟩ b)
    let ks : List Operation := [.openSession .acceptor 0 ⟨7⟩, message [1], message [2], message [3],
      .receive 1, message [4], .dropReceiver]
    let r := (Registry.ofConfig config 0).run ks
    let log := (Registry.ofConfig config 0).log ks
    receivedIn log ++ discardedIn log ++ r.channel = [⟨⟨7⟩, [2]⟩, ⟨⟨7⟩, [4]⟩] ∧
      (r.perform (message [5])).after = r ∧
      (r.perform (.adapter 0 (.message 1 [] (fun _ => .timeOut) ⟨8⟩ [6]))).after.channel = [] ∧
      ((Registry.ofConfig config 9).run (ks.filter (·.isSession))).adapters = r.adapters := by
  intro config message ks r log
  obtain ⟨⟨hlaw, -, -⟩, -, hquiet, hdropped, hsame⟩ := channel_delivers_accepted config 0 ks
  have haccepted : (Registry.ofConfig config 0).accepted (max 0 1) ks =
      [⟨⟨7⟩, [2]⟩, ⟨⟨7⟩, [4]⟩] := by
    decide +kernel
  have hstate : r.handsOn 0 ⟨7⟩ = true ∧ r.handsOn 0 ⟨8⟩ = false ∧ r.hasReceiver = false ∧
      r.channel = [] := by
    decide +kernel
  obtain ⟨hover, hother, hgone, hempty⟩ := hstate
  refine ⟨hlaw.trans haccepted, hdropped 0 ⟨7⟩ hover ?_ 1 [] _ [5], ?_, (hsame 9 _ ?_).1⟩
  · exact Bool.and_eq_false_imp.2 fun h => by cases hgone.symm.trans h
  · rw [hquiet 0 ⟨8⟩ hother]
    exact hempty
  · rw [List.filter_filter]
    simp

end Registry

end AttestedChannel
