import AttestedChannel.Proofs.Simulation.Outcome
import AttestedChannel.Proofs.Simulation.Twins

/-!
# Randomness only picks nonces

Two runs of a scenario whose nonces come from different sources come to the same
(`Scenario.randomness_only_picks_nonces`). The machines of both runs take the same steps, so their
adapters, registries and connectors do, and whatever the pairing does next depends only on what is
the same in both: what waits, which calls are lost and until when, and how far the handshakes are.
`Pairing.Alike` is the relation that all operations of a pairing keep; the nonces that the sides
have drawn are part of it, and an operation may add one.
-/

namespace AttestedChannel

open Simulation

variable {own own' other other' : Option TwinNonce} {s : SessionId}

/-! ## Adapters -/

/-- Two adapters of one side that show the same. -/
structure Adapter.Alike (own : Option TwinNonce) (s : SessionId) (a a' : Adapter) : Prop where
  config : a'.config = a.config
  view : a'.view = a.view
  machine : ∃ m m', a.bound = some ⟨s, m⟩ ∧ a'.bound = some ⟨s, m'⟩ ∧ m.Alike own m'

/-- What two adapters of one side do. -/
structure Reaction.Alike (own other : Option TwinNonce) (s : SessionId) (x x' : Reaction) :
    Prop where
  adapter : x.adapter.Alike own s x'.adapter
  effects : List.Forall₂ (Effect.Alike own other) x.effects x'.effects
  usedNonce : x'.usedNonce = x.usedNonce

/-- What two adapters of one side do, if they may draw a nonce for it. -/
def Reaction.AlikeFrom (own other : Option TwinNonce) (s : SessionId) (x x' : Reaction) : Prop :=
  ∃ own', Grows own own' ∧ x.Alike own' other s x'

theorem Reaction.AlikeFrom.grow {x x' : Reaction} (h : x.AlikeFrom own other s x')
    (hg : Grows other other') : x.AlikeFrom own other' s x' := by
  obtain ⟨own', ho, ha, he, hu⟩ := h
  exact ⟨own', ho, ha, he.imp fun _ _ h => h.grow (.inr rfl) hg, hu⟩

/-- Turns of the machines become reactions of the adapters. -/
theorem Adapter.Alike.commit {a a' : Adapter} (h : a.Alike own s a') {t t' : Turn}
    (ht : t.Alike own' other t') :
    (a.commit s t.machine t.actions t.usedNonce).Alike own' other s
      (a'.commit s t'.machine t'.actions t'.usedNonce) where
  adapter := {
    config := h.config
    view := by
      show SessionView.ofMachine s t'.machine = .ofMachine s t.machine
      rw [ht.machine.same]
      rfl
    machine := ⟨_, _, rfl, rfl, ht.machine⟩ }
  effects := forall₂_effectsOf ht.actions s
  usedNonce := ht.usedNonce

/-- **Adapters that are alike take octets that are alike in the same way.** -/
theorem Adapter.Alike.message {a a' : Adapter} (h : a.Alike own s a') {o o' : Bytes}
    (ho : OctetsAlike other own o o') {nonce nonce' : Bytes} (hn : nonce.length = 32)
    (hn' : nonce'.length = 32) (b : Behavior) (now : Instant) :
    (a.message now nonce s o).Alike b (Reaction.AlikeFrom own other s)
      (a'.message now nonce' s o') := by
  obtain ⟨m, m', hb, hb', hm⟩ := h.machine
  have hstate : m'.state = m.state := by rw [hm.same]; rfl
  unfold Adapter.message
  rw [hb, hb']
  dsimp only
  rw [if_neg (not_not.2 rfl), if_neg (not_not.2 rfl), hstate]
  cases ht : m.state.isTerminal with
  | true => exact .finished ⟨own, .inr rfl, h, .cons (.passedThrough s ho.same) .nil, rfl⟩
  | false =>
    obtain ⟨p, p', hp, hp', hpp⟩ := ho.payloads
    refine (hm.feed ht hpp hp.carries hp'.carries hn hn' now).map ?_
    rintro t t' ⟨own', hg, ht⟩
    exact ⟨own', hg, h.commit ht⟩

/-- What is handed to the transport. -/
theorem forall₂_sentOf {es es' : List Effect} (h : List.Forall₂ (Effect.Alike own other) es es') :
    List.Forall₂ (OctetsAlike own other) (Registry.sentOf es) (Registry.sentOf es') := by
  induction h with
  | nil => exact .nil
  | cons he _ ih =>
    cases he with
    | sent h => exact .cons h ih
    | passedThrough s h => exact ih

/-! ## Registries -/

/-- Two messages for one application. -/
structure ApplicationMessage.SameButForNonce (x x' : ApplicationMessage) : Prop where
  session : x'.session = x.session
  payload : Bytes.SameButForNonce x.payload x'.payload

/-- Two registries of one side. -/
structure Registry.Alike (own : Option TwinNonce) (s : SessionId) (r r' : Registry) : Prop where
  config : r'.config = r.config
  capacity : r'.capacity = r.capacity
  hasReceiver : r'.hasReceiver = r.hasReceiver
  adapter : ∃ a a', r.adapters = [a] ∧ r'.adapters = [a'] ∧ a.Alike own s a'
  channel : List.Forall₂ ApplicationMessage.SameButForNonce r.channel r'.channel

namespace Registry.Alike

variable {r r' : Registry}

theorem passOn (h : r.Alike own s r') {x x' : ApplicationMessage} (hx : x.SameButForNonce x') :
    (r.passOn x).Alike own s (r'.passOn x') := by
  unfold Registry.passOn
  rw [h.hasReceiver, h.capacity, ← h.channel.length_eq]
  split
  · exact ⟨h.config, rfl, rfl, h.adapter, List.rel_append h.channel (.cons hx .nil)⟩
  · exact h

/-- Effects that are alike are absorbed alike. -/
theorem foldl_absorb {es es' : List Effect} (he : List.Forall₂ (Effect.Alike own' other) es es')
    (h : r.Alike own s r') : (es.foldl Registry.absorb r).Alike own s
      (es'.foldl Registry.absorb r') := by
  induction he generalizing r r' with
  | nil => exact h
  | cons he _ ih =>
    cases he with
    | sent => exact ih h
    | passedThrough t ho => exact ih (h.passOn ⟨rfl, ho⟩)

/-- The outcome of an operation is kept. -/
theorem apply (h : r.Alike own s r') {x x' : Reaction} (hx : x.Alike own' other s x') :
    (r.apply 0 x).Alike own' s (r'.apply 0 x') := by
  obtain ⟨a, a', ha, ha', -⟩ := h.adapter
  refine foldl_absorb hx.effects ⟨h.config, h.capacity, h.hasReceiver, ?_, h.channel⟩
  exact ⟨x.adapter, x'.adapter, by rw [ha]; rfl, by rw [ha']; rfl, hx.adapter⟩

end Registry.Alike

namespace Simulation

/-! ## Connectors -/

/-- Two lost calls of one side. -/
structure LostCall.Alike (own other : Option TwinNonce) (s : SessionId) (k k' : LostCall) :
    Prop where
  limitAt : k'.limitAt = k.limitAt
  resume : (k.resume .timeOut).AlikeFrom own other s (k'.resume .timeOut)

/-- Two connectors of one side. -/
structure Connector.Alike (own other : Option TwinNonce) (c c' : Connector) : Prop where
  session : c'.session = c.session
  service : c'.service = c.service
  generator : c.generator = 0 ∧ c'.generator = 0
  registry : c.registry.Alike own c.session c'.registry
  inbox : List.Forall₂ (OctetsAlike other own) c.inbox c'.inbox
  free : c.call = none → c'.call = none
  call : ∀ {k}, c.call = some k → ∃ k', c'.call = some k' ∧ k.Alike own other c.session k'

namespace Connector.Alike

variable {c c' : Connector}

theorem adapter (h : c.Alike own other c') : c.adapter.Alike own c.session c'.adapter := by
  obtain ⟨a, a', ha, ha', haa⟩ := h.registry.adapter
  rwa [Connector.adapter, Connector.adapter, ha, ha']

theorem view (h : c.Alike own other c') : c'.view = c.view := h.adapter.view

/-- The other side draws a nonce. -/
theorem grow (h : c.Alike own other c') (hg : Grows other other') : c.Alike own other' c' :=
  { h with
    inbox := h.inbox.imp fun _ _ ho => ho.grow hg (.inr rfl)
    call := fun hk => by
      obtain ⟨k', hk', ha⟩ := h.call hk
      exact ⟨k', hk', ha.limitAt, ha.resume.grow hg⟩ }

/-- Other messages wait. -/
theorem inboxes (h : c.Alike own other c') {bs bs' : List Bytes}
    (hb : List.Forall₂ (OctetsAlike other own) bs bs') :
    { c with inbox := bs }.Alike own other { c' with inbox := bs' } :=
  { h with inbox := hb }

/-- What a side that is free has done is kept. -/
theorem apply (h : c.Alike own other c') (hc : c.call = none) (hg : Grows own own')
    {x x' : Reaction} (hx : x.Alike own' other c.session x') :
    { c with registry := c.registry.apply 0 x }.Alike own' other
      { c' with registry := c'.registry.apply 0 x' } :=
  { h with
    registry := h.registry.apply hx
    inbox := h.inbox.imp fun _ _ ho => ho.grow (.inr rfl) hg
    call := fun hk => by cases hc.symm.trans hk }

/-- The services have been asked the same. -/
theorem asked (h : c.Alike own other c') (service : MeasurementService) :
    { c with service := service }.Alike own other { c' with service := service } :=
  { h with service := rfl }

/-- Both wait for an answer in vain. -/
theorem waiting (h : c.Alike own other c') {k k' : LostCall}
    (hk : k.Alike own other c.session k') :
    { c with call := some k }.Alike own other { c' with call := some k' } :=
  { h with
    free := fun hc => by cases hc
    call := fun hk' => by
      cases hk'
      exact ⟨k', rfl, hk⟩ }

/-- Neither waits any more. -/
theorem freed (h : c.Alike own other c') :
    { c with call := none }.Alike own other { c' with call := none } :=
  { h with
    free := fun _ => rfl
    call := fun hk => by cases hk }

/-- The same number of messages is read by the applications. -/
theorem read (h : c.Alike own other c') {n n' : Nat} (hn : n' = n) :
    { c with registry := { c.registry with channel := c.registry.channel.drop n } }.Alike own other
      { c' with registry := { c'.registry with channel := c'.registry.channel.drop n' } } :=
  { h with
    registry := { h.registry with
      channel := by rw [hn]; exact List.forall₂_drop n h.registry.channel } }

end Connector.Alike

/-! ## Pairings -/

/-- One message, as it was handed over in two runs. -/
structure Handover.SameButForNonce (x x' : Handover) : Prop where
  sender : x'.sender = x.sender
  type : x'.type = x.type
  octets : ¬ x.type.CarriesNonce → x'.octets = x.octets

namespace Pairing

/-- Two pairings whose sides have drawn these nonces. -/
structure Alike (N : Side → Option TwinNonce) (p p' : Pairing) : Prop where
  connector : ∀ s, (p.get s).Alike (N s) (N s.opposite) (p'.get s)
  generator : ∃ e, p.generators = [e]
  generator' : ∃ e, p'.generators = [e]
  time : p'.time = p.time
  handovers : List.Forall₂ Handover.SameButForNonce p.handovers p'.handovers

/-- Two pairings in which all is the same but for the nonces. -/
def Like (p p' : Pairing) : Prop := ∃ N, p.Alike N p'

variable {p p' : Pairing} {N : Side → Option TwinNonce} {s : Side}

/-- A service answers whatever it is asked, or nothing. -/
theorem outcome?_cases (b : Behavior) (r r' : ServiceRequest) :
    (∃ o o', outcome? b r = some o ∧ outcome? b r' = some o' ∧ answerOf b r = .ofOutcome o ∧
      answerOf b r' = .ofOutcome o') ∨
    outcome? b r = none ∧ outcome? b r' = none ∧ answerOf b r = .timeOut ∧
      answerOf b r' = .timeOut := by
  have hanswer : ∀ {r o}, outcome? b r = some o → answerOf b r = .ofOutcome o := fun h => by
    rw [answerOf, h]
  by_cases hb : b = .unresponsive
  · subst hb
    exact .inr ⟨rfl, rfl, rfl, rfl⟩
  · have hsome : ∀ r, ∃ o, outcome? b r = some o := fun r => by
      cases b <;> cases ho : r.operation <;> simp [outcome?, ho] at hb ⊢
    obtain ⟨o, ho⟩ := hsome r
    obtain ⟨o', ho'⟩ := hsome r'
    exact .inl ⟨o, o', ho, ho', hanswer ho, hanswer ho'⟩

theorem measure_snd (s : MeasurementService) (r : ServiceRequest) :
    (s.measure r).2 = outcome? s.behavior r := rfl

/-- What a wait for the end of a side's handshake leaves. -/
def waited (p : Pairing) (s : Side) (d : Duration) : Pairing :=
  if (p.get s).view.completion?.isSome ∨ d.toNanos = 0 then p
  else waitWithin s (p.time + d.toNanos) handshakeCalls (p.settle .acceptor)

theorem wait_eq (p : Pairing) (s : Side) (d : Duration) : p.wait s d =
    match ((p.waited s d).get s).view.completion? with
    | some outcome => (p.waited s d, outcome)
    | none =>
      ({ p.waited s d with time := p.time + d.toNanos },
        .error (.timeOut ((p.waited s d).get s).view.state d)) := rfl

namespace Alike

/-- A connector of each is replaced. -/
theorem set (h : p.Alike N p') {c c' : Connector} (hc : c.Alike (N s) (N s.opposite) c') :
    (p.set s c).Alike N (p'.set s c') where
  connector t := by
    rcases s.eq_or_eq_opposite t with rfl | rfl
    · rwa [get_set, get_set]
    · rw [get_opposite_set, get_opposite_set]
      exact h.connector s.opposite
  generator := by rw [generators_set]; exact h.generator
  generator' := by rw [generators_set]; exact h.generator'
  time := by rw [time_set, time_set]; exact h.time
  handovers := by rw [handovers_set, handovers_set]; exact h.handovers

/-- Time passes in both. -/
theorem atTime (h : p.Alike N p') (now : Instant) :
    { p with time := now }.Alike N { p' with time := now } where
  connector t := by rw [get_time, get_time]; exact h.connector t
  generator := h.generator
  generator' := h.generator'
  time := rfl
  handovers := h.handovers

/-- A message is noted. -/
theorem noted (h : p.Alike N p') {b b' : Bytes} (hb : Bytes.SameButForNonce b b') :
    (p.noted s b).Alike N (p'.noted s b') where
  connector t := by rw [get_noted, get_noted]; exact h.connector t
  generator := h.generator
  generator' := h.generator'
  time := h.time
  handovers := List.rel_append h.handovers (.cons ⟨rfl, hb.type, hb.octets⟩ .nil)

/-- The outcome of an operation of a side that is free is kept. -/
theorem absorb (h : p.Alike N p') (hc : (p.get s).call = none) {x x' : Reaction}
    (hx : x.AlikeFrom (N s) (N s.opposite) (p.get s).session x') :
    (p.absorb s x).Like (p'.absorb s x') := by
  obtain ⟨own', hg, hx⟩ := hx
  have ho : s.opposite ≠ s := by cases s <;> decide
  refine ⟨Function.update N s own', fun t => ?_, ?_, ?_, ?_, ?_⟩
  · rcases s.eq_or_eq_opposite t with rfl | rfl
    · rw [get_absorb, get_absorb, Function.update_self, Function.update_of_ne ho]
      exact (h.connector t).apply hc hg hx
    · rw [get_opposite_absorb, get_opposite_absorb, s.opposite_opposite, Function.update_self,
        Function.update_of_ne ho]
      have hother := h.connector s.opposite
      rw [s.opposite_opposite] at hother
      exact (hother.grow hg).inboxes
        (List.rel_append (hother.grow hg).inbox (forall₂_sentOf hx.effects))
  · rw [generators_absorb]
    split
    · exact (exists_drawFor h.generator (h.connector s).generator.1).2
    · exact h.generator
  · rw [generators_absorb]
    split
    · exact (exists_drawFor h.generator' (h.connector s).generator.2).2
    · exact h.generator'
  · rw [time_absorb, time_absorb]
    exact h.time
  · rw [handovers_absorb, handovers_absorb]
    exact h.handovers

/-- **What comes of a message is the same in both.** Since a service answers or does not whatever it
is asked, a call is answered in both or lost in both. -/
theorem received (h : p.Alike N p') (hc : (p.get s).call = none) {x x' : Exchange Reaction}
    (hx : x.Alike (p.get s).service.behavior
      (Reaction.AlikeFrom (N s) (N s.opposite) (p.get s).session) x') :
    (p.received s x).Like (p'.received s x') := by
  have hk := h.connector s
  cases hx with
  | finished hx => exact h.absorb hc hx
  | @awaiting r r' k k' ho hx =>
    have hasked : ((p.get s).service.measure r').1 = ((p.get s).service.measure r).1 := by
      simp only [MeasurementService.measure, ho]
    have hserved := hk.asked ((p.get s).service.measure r).1
    have habsorb : ∀ {x x' : Reaction},
        x.AlikeFrom (N s) (N s.opposite) (p.get s).session x' →
        ((p.set s { p.get s with service := ((p.get s).service.measure r).1 }).absorb s x).Like
          ((p'.set s { p'.get s with service := ((p.get s).service.measure r).1 }).absorb s x') :=
      fun hx => (h.set hserved).absorb (by rw [get_set]; exact hc) (by rw [get_set]; exact hx)
    unfold Pairing.received
    dsimp only
    rw [hk.service, hk.registry.config, h.time, hasked, measure_snd, measure_snd]
    rcases outcome?_cases (p.get s).service.behavior r r' with
      ⟨o, o', hr, hr', ha, ha'⟩ | ⟨hr, hr', ha, ha'⟩
    · rw [ha, ha'] at hx
      rw [hr, hr']
      exact habsorb hx
    · rw [ha, ha'] at hx
      rw [hr, hr']
      dsimp only
      split
      · exact habsorb hx
      · exact ⟨N, h.set (hserved.waiting ⟨rfl, hx⟩)⟩

/-- A message is handed over. -/
theorem handOver (h : p.Alike N p') (hc : (p.get s).call = none) {b b' : Bytes}
    (hb : OctetsAlike (N s.opposite) (N s) b b') : (p.handOver s b).Like (p'.handOver s b') := by
  have hk := h.connector s
  rw [handOver_eq, handOver_eq, h.time, hk.session]
  refine (h.noted hb.same).received (by rw [get_noted]; exact hc) ?_
  rw [get_noted]
  exact hk.adapter.message hb (exists_drawFor h.generator hk.generator.1).1
    (exists_drawFor h.generator' hk.generator.2).1 _ _

end Alike

namespace Like

theorem view (h : p.Like p') (s : Side) : (p'.get s).view = (p.get s).view := by
  obtain ⟨N, h⟩ := h
  exact (h.connector s).view

theorem time (h : p.Like p') : p'.time = p.time := by
  obtain ⟨N, h⟩ := h
  exact h.time

theorem atTime (h : p.Like p') (now : Instant) :
    { p with time := now }.Like { p' with time := now } := by
  obtain ⟨N, h⟩ := h
  exact ⟨N, h.atTime now⟩

/-- The next message is handed over in both, or in neither. -/
theorem advance? (h : p.Like p') (s : Side) :
    (p.advance? s = none ∧ p'.advance? s = none) ∨
      ∃ q q', p.advance? s = some q ∧ p'.advance? s = some q' ∧ q.Like q' := by
  obtain ⟨N, h⟩ := h
  have hk := h.connector s
  cases hc : (p.get s).call with
  | some k =>
    obtain ⟨k', hc', -⟩ := hk.call hc
    exact .inl ⟨advance?_of_call hc, advance?_of_call hc'⟩
  | none =>
    have hin := hk.inbox
    cases hi : (p.get s).inbox with
    | nil =>
      rw [hi] at hin
      exact .inl ⟨advance?_of_inbox hi, advance?_of_inbox (List.forall₂_nil_left_iff.1 hin)⟩
    | cons b bs =>
      rw [hi] at hin
      obtain ⟨b', bs', hb, hbs, hi'⟩ := List.forall₂_cons_left_iff.1 hin
      refine .inr ⟨_, _, advance?_eq hc hi, advance?_eq (hk.free hc) hi', ?_⟩
      exact (h.set (hk.inboxes hbs)).handOver (by rw [get_set]; exact hc) hb

/-- **Handing over goes on alike.** -/
theorem settleWithin (h : p.Like p') (n : Nat) (s : Side) :
    (settleWithin n s p).Like (settleWithin n s p') := by
  induction n generalizing p p' s with
  | zero => exact h
  | succ n ih =>
    unfold Pairing.settleWithin
    rcases h.advance? s with ⟨hs, hs'⟩ | ⟨q, q', hs, hs', hq⟩
    · rcases h.advance? s.opposite with ⟨ho, ho'⟩ | ⟨q, q', ho, ho', hq⟩
      · simp only [hs, hs', ho, ho']
        exact h
      · simp only [hs, hs', ho, ho']
        exact ih hq s.opposite
    · simp only [hs, hs']
      exact ih hq s

theorem settle (h : p.Like p') (s : Side) : (p.settle s).Like (p'.settle s) := by
  obtain ⟨N, ha⟩ := h
  have hi : p'.initiator.inbox.length = p.initiator.inbox.length :=
    (ha.connector .initiator).inbox.length_eq.symm
  have hj : p'.acceptor.inbox.length = p.acceptor.inbox.length :=
    (ha.connector .acceptor).inbox.length_eq.symm
  unfold Pairing.settle
  rw [hi, hj]
  exact settleWithin ⟨N, ha⟩ _ s

/-! ### Time -/

theorem nextAt (h : p.Like p') : p'.nextAt = p.nextAt := by
  obtain ⟨N, h⟩ := h
  have hcall : ∀ s, (p'.get s).call.map LostCall.limitAt = (p.get s).call.map LostCall.limitAt := by
    intro s
    cases hc : (p.get s).call with
    | none => rw [(h.connector s).free hc]
    | some k =>
      obtain ⟨k', hc', hk⟩ := (h.connector s).call hc
      rw [hc', Option.map_some, Option.map_some, hk.limitAt]
  have hi : p'.initiator.call.map LostCall.limitAt = p.initiator.call.map LostCall.limitAt :=
    hcall .initiator
  have ha : p'.acceptor.call.map LostCall.limitAt = p.acceptor.call.map LostCall.limitAt :=
    hcall .acceptor
  simp only [Pairing.nextAt, List.filterMap_cons, hi, ha, List.filterMap_nil]

/-- A call runs into its limit in both, or in neither. -/
theorem land (h : p.Like p') (s : Side) : (p.land s).Like (p'.land s) := by
  obtain ⟨N, h⟩ := h
  have hk := h.connector s
  unfold Pairing.land
  cases hc : (p.get s).call with
  | none =>
    rw [hk.free hc]
    exact ⟨N, h⟩
  | some k =>
    obtain ⟨k', hc', hkk⟩ := hk.call hc
    rw [hc']
    dsimp only
    rw [hkk.limitAt, h.time]
    split
    · refine settle ((h.set hk.freed).absorb (by rw [get_set]) ?_) s
      rw [get_set]
      exact hkk.resume
    · exact ⟨N, h⟩

theorem passTo (h : p.Like p') (t : Instant) : (p.passTo t).Like (p'.passTo t) :=
  ((h.atTime t).land .initiator).land .acceptor

/-- **Time passes alike.** -/
theorem waitWithin (h : p.Like p') (s : Side) (deadline : Instant) (n : Nat) :
    (waitWithin s deadline n p).Like (waitWithin s deadline n p') := by
  induction n generalizing p p' with
  | zero => exact h
  | succ n ih =>
    unfold Pairing.waitWithin
    rw [h.view, h.nextAt]
    split
    · exact h
    · cases p.nextAt with
      | none => exact h
      | some t =>
        dsimp only
        split
        · exact h
        · exact ih (h.passTo t)

theorem waited (h : p.Like p') (s : Side) (d : Duration) :
    (p.waited s d).Like (p'.waited s d) := by
  unfold Pairing.waited
  rw [h.view, h.time]
  split
  · exact h
  · exact (h.settle .acceptor).waitWithin s _ handshakeCalls

/-- Waiting for the end of a handshake comes to the same. -/
theorem wait (h : p.Like p') (s : Side) (d : Duration) :
    (p.wait s d).1.Like (p'.wait s d).1 ∧ (p'.wait s d).2 = (p.wait s d).2 := by
  have hq := h.waited s d
  rw [wait_eq, wait_eq, hq.view, h.time]
  cases ((p.waited s d).get s).view.completion? with
  | some o => exact ⟨hq, rfl⟩
  | none => exact ⟨hq.atTime _, rfl⟩

/-! ### Reading -/

/-- What has been passed through is taken from both. -/
theorem collect (h : p.Like p') (s : Side) :
    List.Forall₂ ApplicationMessage.SameButForNonce (p.collect s).1 (p'.collect s).1 ∧
      (p.collect s).2.Like (p'.collect s).2 := by
  obtain ⟨N, h⟩ := h
  have hk := h.connector s
  refine ⟨?_, N, h.set (hk.read hk.registry.capacity)⟩
  show List.Forall₂ ApplicationMessage.SameButForNonce
    ((p.get s).registry.channel.take (p.get s).registry.capacity)
    ((p'.get s).registry.channel.take (p'.get s).registry.capacity)
  rw [hk.registry.capacity]
  exact List.forall₂_take _ hk.registry.channel

/-- **Reading goes on alike.** -/
theorem collectUntilQuiet (h : p.Like p') (s : Side) (quiet n : Nat) (deadline : Instant) :
    List.Forall₂ ApplicationMessage.SameButForNonce (collectUntilQuiet s quiet n deadline p).1
        (collectUntilQuiet s quiet n deadline p').1 ∧
      (collectUntilQuiet s quiet n deadline p).2.Like
        (collectUntilQuiet s quiet n deadline p').2 := by
  induction n generalizing p p' deadline with
  | zero => exact ⟨.nil, h⟩
  | succ n ih =>
    have hc := h.collect s
    unfold Pairing.collectUntilQuiet
    revert hc
    rcases p.collect s with ⟨ms, q⟩
    rcases p'.collect s with ⟨ms', q'⟩
    rintro ⟨hms, hq⟩
    dsimp only at hms hq ⊢
    have hempty : ms'.isEmpty = ms.isEmpty := by cases hms <;> rfl
    rw [hempty, hq.nextAt, hq.time]
    generalize (if ms.isEmpty = true then deadline else q.time + quiet) = next
    cases q.nextAt with
    | none => exact ⟨hms, hq⟩
    | some t =>
      dsimp only
      split
      · exact ⟨hms, hq⟩
      · obtain ⟨hmore, hrest⟩ := ih (hq.passTo t) next
        exact ⟨List.rel_append hms hmore, hrest⟩

end Like

/-- The pairing with this source of nonces. -/
def drawing (p : Pairing) (e : Entropy) : Pairing := { p with generators := [e] }

theorem get_drawing (p : Pairing) (e : Entropy) (s : Side) : (p.drawing e).get s = p.get s := by
  cases s <;> rfl

theorem set_drawing (p : Pairing) (e : Entropy) (s : Side) (k : Connector) :
    (p.drawing e).set s k = (p.set s k).drawing e := by cases s <;> rfl

theorem openedBy_drawing (p : Pairing) (e : Entropy) (s : Side) :
    (p.drawing e).openedBy s = p.openedBy s := by
  rw [openedBy, get_drawing]
  rfl

/-- No nonce is drawn when a session is opened. -/
theorem openSession_drawing (p : Pairing) (e : Entropy) (s : Side) :
    (p.drawing e).openSession s = (p.openSession s).drawing e := by
  rw [openSession_eq, openSession_eq, openedBy_drawing, get_drawing, set_drawing, post, get_drawing,
    set_drawing]
  rfl

/-- Before anything is drawn, the source does not matter. -/
theorem like_drawing (h : ∀ v, (p.get v).Alike none none (p.get v)) (e e' : Entropy) :
    (p.drawing e).Like (p.drawing e') := by
  refine ⟨fun _ => none, fun v => ?_, ⟨e, rfl⟩, ⟨e', rfl⟩, rfl,
    List.forall₂_same.2 fun _ _ => ⟨rfl, rfl, fun _ => rfl⟩⟩
  rw [get_drawing, get_drawing]
  exact h v

end Pairing

/-- Octets that bear nothing about evidence are like themselves. -/
theorem forall₂_octetsAlike_self {bs : List Bytes} {q : List Payload}
    (h : List.Forall₂ Bears bs q) (hq : ∀ p ∈ q, ¬ p.ConcernsEvidence) :
    List.Forall₂ (OctetsAlike own other) bs bs := by
  induction h with
  | nil => exact .nil
  | cons hb _ ih =>
    refine .cons ⟨⟨_, _, hb, hb, .same (hq _ List.mem_cons_self)⟩, .refl _⟩ (ih ?_)
    exact fun p hp => hq p (List.mem_cons_of_mem _ hp)

/-- A connector that has not drawn a nonce yet is like itself. -/
theorem Connector.Stands.alike_self {k : Connector} {c : Config} {b : Behavior} {m : Machine}
    {q : List Payload} (h : k.Stands c b m q) (hm : m.state.isTerminal = false)
    (hp : m.coordinator.pending = none) (hq : ∀ p ∈ q, ¬ p.ConcernsEvidence)
    (hc : k.call = none) : k.Alike none none k where
  session := rfl
  service := rfl
  generator := ⟨h.generator, h.generator⟩
  registry := {
    config := rfl
    capacity := rfl
    hasReceiver := rfl
    adapter := by
      obtain ⟨a, ha, hf⟩ := h.adapter
      have hb := hf.bound_of_running hm
      refine ⟨a, a, ha, ha, rfl, rfl, m, m, hb, hb, rfl, ?_, fun _ => rfl⟩
      rw [hp]
      exact .none
    channel := List.forall₂_same.2 fun _ _ => ⟨rfl, .refl _⟩ }
  inbox := forall₂_octetsAlike_self h.inbox hq
  free := id
  call hk := by cases hc.symm.trans hk

/-! ## Scenarios -/

/-- Two runs came to the same, but for the nonces. -/
structure ScenarioResult.SameButForNonces (r r' : ScenarioResult) : Prop where
  initiatorOutcome : r'.initiatorOutcome = r.initiatorOutcome
  acceptorOutcome : r'.acceptorOutcome = r.acceptorOutcome
  view : ∀ s, (r'.pairing.get s).view = (r.pairing.get s).view
  service : ∀ s, (r'.pairing.get s).service = (r.pairing.get s).service
  handovers : List.Forall₂ Handover.SameButForNonce r.pairing.handovers r'.pairing.handovers
  passedThrough :
    List.Forall₂ ApplicationMessage.SameButForNonce r.passedThrough r'.passedThrough

/-- All that a result shows of its pairing is the same but for the nonces. -/
theorem ScenarioResult.SameButForNonces.of_like {p p' : Pairing}
    {o o' a a' : Except SessionError HandshakeState} {ms ms' : List ApplicationMessage}
    (h : p.Like p') (ho : o' = o) (ha : a' = a)
    (hm : List.Forall₂ ApplicationMessage.SameButForNonce ms ms') :
    ScenarioResult.SameButForNonces ⟨p, o, a, ms⟩ ⟨p', o', a', ms'⟩ := by
  obtain ⟨N, h⟩ := h
  exact {
    initiatorOutcome := ho
    acceptorOutcome := ha
    view := fun s => (h.connector s).view
    service := fun s => (h.connector s).service
    handovers := h.handovers
    passedThrough := hm }

namespace Scenario

/-- What a scenario makes of a pairing. -/
def runOn (s : Scenario) (p : Pairing) : ScenarioResult :=
  let initiator := p.wait .initiator s.patience
  let acceptor := initiator.1.wait .acceptor s.patience
  let p := (acceptor.1.post .acceptor s.frames).settle .acceptor
  let read :=
    p.collectUntilQuiet .acceptor quiet.toNanos Pairing.handshakeCalls (p.time + quiet.toNanos)
  ⟨read.2, initiator.2, acceptor.2, read.1⟩

/-- The run of a scenario whose nonces are drawn from this source. -/
def runFrom (s : Scenario) (e : Entropy) : ScenarioResult := s.runOn (s.pairing.drawing e)

/-- A run begins with the pairing of its scenario. -/
theorem run_eq_runOn (s : Scenario) : s.run = s.runOn s.pairing := by
  -- `run` is opened as a function: applied to a scenario it would be evaluated up to the first wait
  generalize hr : run = r
  delta run at hr
  have hs := congrFun hr s
  beta_reduce at hs
  rw [← hs]
  generalize s.pairing = p
  unfold runOn
  rcases p.wait .initiator s.patience with ⟨p, o⟩
  dsimp only

/-- The source that a scenario's nonces are drawn from does not matter at its beginning. -/
theorem like_pairing (s : Scenario) (e e' : Entropy) :
    (s.pairing.drawing e).Like (s.pairing.drawing e') := by
  refine Pairing.like_drawing (fun v => ?_) e e'
  refine (s.stands_pairing.connector v).alike_self ?_ ?_ ?_ ?_
  · cases v <;> rfl
  · cases v <;> rfl
  · cases v with
    | initiator => exact fun p hp => by cases hp
    | acceptor => exact fun p hp => by rw [List.mem_singleton.1 hp]; exact not_false
  · cases v <;> rfl

/-- Pairings that are alike come to the same but for the nonces. -/
theorem runOn_like (s : Scenario) (hframes : s.frames = []) {p p' : Pairing} (h : p.Like p') :
    (s.runOn p).SameButForNonces (s.runOn p') := by
  obtain ⟨hi, hinitiator⟩ := h.wait .initiator s.patience
  obtain ⟨ha, hacceptor⟩ := hi.wait .acceptor s.patience
  have hsettled := ha.settle .acceptor
  unfold runOn
  simp only [hframes, Pairing.post_nil]
  rw [hsettled.time]
  generalize _ + quiet.toNanos = deadline
  obtain ⟨hread, hend⟩ := hsettled.collectUntilQuiet .acceptor quiet.toNanos
    Pairing.handshakeCalls deadline
  exact .of_like hend hinitiator hacceptor hread

theorem pairing_eq (s : Scenario) :
    s.pairing = (s.unopened.openSession .acceptor).openSession .initiator := rfl

/-- A seed is a source of nonces. -/
theorem run_reseeded (s : Scenario) (seed : UInt64) :
    { s with seed := seed }.run = s.runFrom (.keystream seed) := by
  have hunopened : { s with seed := seed }.unopened = s.unopened.drawing (.keystream seed) := rfl
  have hrun : ∀ p, { s with seed := seed }.runOn p = s.runOn p := fun _ => rfl
  rw [run_eq_runOn, hrun, runFrom, pairing_eq, pairing_eq, hunopened, Pairing.openSession_drawing,
    Pairing.openSession_drawing]

/-- **Randomness only picks nonces.** A scenario without frames comes to the same whatever source of
octets its nonces are drawn from, and so with every seed: both waits end with the same outcome, both
sides show the same state, appraisal and metadata, both services were asked as often, and messages
of the same types were handed over by the same senders, with the same octets if they are neither
challenges nor responses. -/
theorem randomness_only_picks_nonces (s : Scenario) (hframes : s.frames = []) :
    (∀ e e', (s.runFrom e).SameButForNonces (s.runFrom e')) ∧
      ∀ a b, { s with seed := a }.run.SameButForNonces { s with seed := b }.run := by
  have hsources : ∀ e e', (s.runFrom e).SameButForNonces (s.runFrom e') := fun e e' =>
    s.runOn_like hframes (s.like_pairing e e')
  refine ⟨hsources, fun a b => ?_⟩
  rw [run_reseeded, run_reseeded]
  exact hsources _ _

/-- Two seeds that differ, and draw different nonces, lead two honest connectors to the same. -/
theorem default_reseeded :
    default.frames = [] ∧
      ((Entropy.keystream 1).draw 32).1 ≠ ((Entropy.keystream 2).draw 32).1 ∧
      { default with seed := 1 }.run.SameButForNonces { default with seed := 2 }.run :=
  ⟨rfl, by decide +kernel, (randomness_only_picks_nonces default rfl).2 1 2⟩

end Scenario

end Simulation

end AttestedChannel
