import AttestedChannel.Proofs.Session.Refinement
import AttestedChannel.Proofs.Simulation.Course

/-!
# Machines that draw other nonces

Two runs of a handshake that draw different nonces go on step by step alike. A `TwinNonce` is what a
side has drawn in the one run and in the other. What belongs to the two runs is `Alike` if it is the
same up to these nonces and what simulated services quote over them: payloads, octets, actions,
machines. Nothing is lost by that, since a nonce is only ever compared with itself, with another
nonce of the same run, or with its own complement (`quoted_twins`), and so every comparison has one
outcome in both runs (`verify_alike`).

A side draws at most one nonce in a handshake, because `Machine.MayChallenge` does not come back
once a challenge is out. `Machine.Alike` keeps this as an invariant, and `Machine.Alike.feed` is the
step that both machines take.
-/

namespace AttestedChannel

open Simulation

/-! ## Nonces, payloads and octets -/

/-- The nonces that a side draws in two runs. -/
structure TwinNonce where
  left : Bytes
  right : Bytes
  length_left : left.length = 32
  length_right : right.length = 32

/-- Two payloads of one sender: the same one, its challenges over its own nonces, or its responses
over the nonces of the other side, with what one simulated service quotes for a challenge. -/
inductive Payload.Alike (own other : Option TwinNonce) : Payload → Payload → Prop
  | same {p : Payload} (h : ¬ p.ConcernsEvidence) : Alike own other p p
  | challenge {n : TwinNonce} (h : own = some n) (t : AttestationType) (mask : PropertyMask) :
    Alike own other (.challenge ⟨n.left, t, mask⟩) (.challenge ⟨n.right, t, mask⟩)
  | response {n : TwinNonce} {b : Behavior} {t : AttestationType} {mask : PropertyMask}
      {ev ev' : Bytes} (h : other = some n) (hleft : quoted? b ⟨n.left, t, mask⟩ = some ev)
      (hright : quoted? b ⟨n.right, t, mask⟩ = some ev') :
    Alike own other (.response ⟨n.left, ev⟩) (.response ⟨n.right, ev'⟩)

/-- Whether messages of the type carry a nonce. -/
def MessageType.CarriesNonce (t : MessageType) : Prop :=
  t = .attestationChallenge ∨ t = .attestationResponse

instance (t : MessageType) : Decidable t.CarriesNonce :=
  inferInstanceAs (Decidable (t = .attestationChallenge ∨ t = .attestationResponse))

/-- Octets of the same type, and the same octets unless they carry a nonce. -/
structure Bytes.SameButForNonce (b b' : Bytes) : Prop where
  type : (Event.ofBytes b').messageType = (Event.ofBytes b).messageType
  octets : ¬ (Event.ofBytes b).messageType.CarriesNonce → b' = b

/-- Octets that bear payloads that are alike, and are the same unless they carry a nonce. -/
structure OctetsAlike (own other : Option TwinNonce) (b b' : Bytes) : Prop where
  payloads : ∃ p p', Bears b p ∧ Bears b' p' ∧ p.Alike own other p'
  same : Bytes.SameButForNonce b b'

/-- Effects that hand out octets that are alike. -/
inductive Effect.Alike (own other : Option TwinNonce) : Effect → Effect → Prop
  | sent {b b' : Bytes} (h : OctetsAlike own other b b') : Alike own other (.sent b) (.sent b')
  | passedThrough (s : SessionId) {b b' : Bytes} (h : Bytes.SameButForNonce b b') :
    Alike own other (.passedThrough s b) (.passedThrough s b')

/-- Actions that send payloads that are alike under the same header. -/
inductive Action.Alike (own other : Option TwinNonce) : Action → Action → Prop
  | send {p p' : Payload} (h : p.Alike own other p') (k : FrameHeader) :
    Alike own other (.send (p.toFrame k)) (.send (p'.toFrame k))

variable {own own' other other' : Option TwinNonce} {p p' : Payload} {b b' : Bytes}

/-- A side that has not drawn yet may draw. -/
def Grows (own own' : Option TwinNonce) : Prop := own = none ∨ own' = own

theorem Bytes.SameButForNonce.refl (b : Bytes) : Bytes.SameButForNonce b b := ⟨rfl, fun _ => rfl⟩

theorem Payload.Alike.messageType (h : p.Alike own other p') : p'.messageType = p.messageType := by
  cases h <;> rfl

/-- What is alike stays so when nonces are drawn. -/
theorem Payload.Alike.grow (h : p.Alike own other p') (ho : Grows own own')
    (hr : Grows other other') : p.Alike own' other' p' := by
  cases h with
  | same h => exact .same h
  | challenge h t mask =>
    rcases ho with rfl | rfl
    · cases h
    · exact .challenge h t mask
  | response h hleft hright =>
    rcases hr with rfl | rfl
    · cases h
    · exact .response h hleft hright

theorem OctetsAlike.grow (h : OctetsAlike own other b b') (ho : Grows own own')
    (hr : Grows other other') : OctetsAlike own' other' b b' := by
  obtain ⟨⟨p, p', hb, hb', hp⟩, hs⟩ := h
  exact ⟨⟨p, p', hb, hb', hp.grow ho hr⟩, hs⟩

theorem Effect.Alike.grow {e e' : Effect} (h : e.Alike own other e') (ho : Grows own own')
    (hr : Grows other other') : e.Alike own' other' e' := by
  cases h with
  | sent h => exact .sent (h.grow ho hr)
  | passedThrough s h => exact .passedThrough s h

theorem Bears.messageType (h : Bears b p) : (Event.ofBytes b).messageType = p.messageType := by
  rw [show Event.ofBytes b = _ from h]
  rfl

theorem Payload.carriesNonce_iff (p : Payload) :
    p.messageType.CarriesNonce ↔ p.ConcernsEvidence := by
  cases p <;> simp [Payload.messageType, MessageType.CarriesNonce, Payload.ConcernsEvidence]

/-- Octets of payloads about evidence are alike if the payloads are. -/
theorem OctetsAlike.of_concernsEvidence (hb : Bears b p) (hb' : Bears b' p')
    (h : p.Alike own other p') (hp : p.ConcernsEvidence) : OctetsAlike own other b b' := by
  refine ⟨⟨p, p', hb, hb', h⟩, ?_, fun hn => absurd ?_ hn⟩
  · rw [hb.messageType, hb'.messageType, h.messageType]
  · rwa [hb.messageType, p.carriesNonce_iff]

theorem fits_challenge_of_length {nonce : Bytes} (hn : nonce.length = 32) (t : AttestationType)
    (mask : PropertyMask) : (Payload.challenge ⟨nonce, t, mask⟩).Fits :=
  Nat.le_trans (Challenge.mk nonce t mask).length_encode_le (by simp only [hn]; decide)

/-- The octets of a payload that fits a frame. -/
theorem exists_bears (h : p.Fits) (k : FrameHeader) :
    ∃ b, (p.toFrame k).encode = .ok b ∧ Bears b p := by
  have he := p.encode_toFrame k
  rw [if_pos h] at he
  exact ⟨_, he, Event.ofBytes_of_encode he⟩

/-- Payloads that are alike can both be sent, or both are dropped. -/
theorem Payload.Alike.effects (h : p.Alike own other p') (s : SessionId) (k : FrameHeader) :
    List.Forall₂ (Effect.Alike own other) (Adapter.effectsOf s (.send (p.toFrame k)))
      (Adapter.effectsOf s (.send (p'.toFrame k))) := by
  have hsent : ∀ {q q' : Payload}, q.Fits → q'.Fits → q.ConcernsEvidence →
      q.Alike own other q' → List.Forall₂ (Effect.Alike own other)
        (Adapter.effectsOf s (.send (q.toFrame k)))
        (Adapter.effectsOf s (.send (q'.toFrame k))) := by
    intro q q' hq hq' hc ha
    obtain ⟨b, he, hb⟩ := exists_bears hq k
    obtain ⟨b', he', hb'⟩ := exists_bears hq' k
    simp only [Adapter.effectsOf, he, he']
    exact .cons (.sent (.of_concernsEvidence hb hb' ha hc)) .nil
  cases h with
  | same h =>
    cases he : (p.toFrame k).encode with
    | error e =>
      simp only [Adapter.effectsOf, he]
      exact .nil
    | ok b =>
      simp only [Adapter.effectsOf, he]
      have hb := Event.ofBytes_of_encode he
      exact .cons (.sent ⟨⟨p, p, hb, hb, .same h⟩, .refl b⟩) .nil
  | challenge h t mask =>
    exact hsent (fits_challenge_of_length (TwinNonce.length_left _) t mask)
      (fits_challenge_of_length (TwinNonce.length_right _) t mask) trivial (.challenge h t mask)
  | @response n b t mask ev ev' h hl hr =>
    exact hsent (@fits_response b ⟨n.left, t, mask⟩ ev n.length_left hl)
      (@fits_response b ⟨n.right, t, mask⟩ ev' n.length_right hr) trivial (.response h hl hr)

/-- What actions that are alike hand out is alike. -/
theorem forall₂_effectsOf {as as' : List Action}
    (h : List.Forall₂ (Action.Alike own other) as as') (s : SessionId) :
    List.Forall₂ (Effect.Alike own other) (as.flatMap (Adapter.effectsOf s))
      (as'.flatMap (Adapter.effectsOf s)) := by
  induction h with
  | nil => exact .nil
  | cons ha _ ih =>
    cases ha with
    | send hp k => exact List.rel_append (hp.effects s k) ih

/-! ## Asking a service -/

/-- Two computations that both finish, or both ask a service of one behavior for the same kind of
thing, and come to something that is related. -/
inductive Exchange.Alike {α : Type} (b : Behavior) (R : α → α → Prop) :
    Exchange α → Exchange α → Prop
  | finished {a a' : α} (h : R a a') : Alike b R (.finished a) (.finished a')
  | awaiting {r r' : ServiceRequest} {k k' : Answer → α} (ho : r'.operation = r.operation)
      (h : R (k (answerOf b r)) (k' (answerOf b r'))) :
    Alike b R (.awaiting r k) (.awaiting r' k')

theorem Exchange.Alike.imp {α : Type} {b : Behavior} {R S : α → α → Prop} {x x' : Exchange α}
    (h : x.Alike b R x') (hR : ∀ {a a'}, R a a' → S a a') : x.Alike b S x' := by
  cases h with
  | finished h => exact .finished (hR h)
  | awaiting ho h => exact .awaiting ho (hR h)

theorem Exchange.Alike.map {α β : Type} {b : Behavior} {R : α → α → Prop} {S : β → β → Prop}
    {f f' : α → β} {x x' : Exchange α} (h : x.Alike b R x')
    (hf : ∀ a a', R a a' → S (f a) (f' a')) : (x.map f).Alike b S (x'.map f') := by
  cases h with
  | finished h => exact .finished (hf _ _ h)
  | awaiting ho h => exact .awaiting ho (hf _ _ h)

/-! ## Evidence -/

variable {prover verifier : Behavior} {n : TwinNonce} {t t₀ : AttestationType}
  {mask mask₀ : PropertyMask} {ev ev' : Bytes}

/-- Whether a service quotes does not depend on the challenge. -/
theorem isSome_quoted? (b : Behavior) (ch ch' : Challenge) :
    (quoted? b ch').isSome = (quoted? b ch).isSome := by
  cases b <;> simp only [quoted?, quoteReply, Option.isSome]

/-- Evidence over a nonce whose quote is right. -/
structure Evidence.Genuine (x : Evidence) (nonce : Bytes) : Prop where
  nonce : x.nonce = nonce
  quote : x.quote = Simulation.quote x.nonce x.measurements

/-- Genuine evidence is answered as any other with its values. -/
theorem answerOf_verify_congr {r r' : ServiceRequest} {x x' : Evidence} (ho : r.operation = .verify)
    (ho' : r'.operation = .verify) (he : r.evidence = some ev) (he' : r'.evidence = some ev')
    (hd : Evidence.decode ev = .ok x) (hd' : Evidence.decode ev' = .ok x')
    (hx : x.Genuine r.nonce) (hx' : x'.Genuine r'.nonce) (hm : x'.measurements = x.measurements) :
    answerOf verifier r' = answerOf verifier r := by
  have hverified : verifier.Verifies → answerOf verifier r' = answerOf verifier r := fun h => by
    rw [answerOf_verify h ho he hd hx.nonce hx.quote,
      answerOf_verify h ho' he' hd' hx'.nonce hx'.quote, hm]
  cases verifier with
  | honest => exact hverified (.inl rfl)
  | malformed => exact hverified (.inr (.inl rfl))
  | tampered => exact hverified (.inr (.inr (.inl rfl)))
  | replaying => exact hverified (.inr (.inr (.inr rfl)))
  | unresponsive | failing => rfl
  | rejecting => simp only [answerOf, outcome?, ho, ho', verifyReply, if_true]

/-- What is quoted for challenges over twin nonces is no evidence in both cases, or evidence that
claims the same, in both cases genuine or in both cases over another nonce. -/
theorem quoted_twins (hl : quoted? prover ⟨n.left, t, mask⟩ = some ev)
    (hr : quoted? prover ⟨n.right, t, mask⟩ = some ev') :
    (∃ f f', Evidence.decode ev = .error f ∧ Evidence.decode ev' = .error f') ∨
    ∃ x x', Evidence.decode ev = .ok x ∧ Evidence.decode ev' = .ok x' ∧
      EvidenceSummary.ofEvidence x' = .ofEvidence x ∧
      (x.Genuine n.left ∧ x'.Genuine n.right ∨ x.nonce ≠ n.left ∧ x'.nonce ≠ n.right) := by
  have hquotes : prover.Quotes → ∃ x x', Evidence.decode ev = .ok x ∧
      Evidence.decode ev' = .ok x' ∧ EvidenceSummary.ofEvidence x' = .ofEvidence x ∧
      (x.Genuine n.left ∧ x'.Genuine n.right ∨ x.nonce ≠ n.left ∧ x'.nonce ≠ n.right) := fun h => by
    obtain rfl := Option.some.inj (hl.symm.trans (quoted_of_quotes h _))
    obtain rfl := Option.some.inj (hr.symm.trans (quoted_of_quotes h _))
    exact ⟨_, _, decode_of_quoted n.length_left hl, decode_of_quoted n.length_right hr, rfl,
      .inl ⟨⟨rfl, rfl⟩, rfl, rfl⟩⟩
  have hother : ∀ {nonce : Bytes}, nonce.length = 32 → invert nonce ≠ nonce := fun h =>
    invert_ne (by rintro rfl; cases h)
  cases prover with
  | honest => exact .inr (hquotes (.inl rfl))
  | rejecting => exact .inr (hquotes (.inr (.inl rfl)))
  | tampered => exact .inr (hquotes (.inr (.inr rfl)))
  | malformed =>
    obtain ⟨f, hf⟩ := decode_malformed
    rw [← Option.some.inj hl, ← Option.some.inj hr]
    exact .inl ⟨f, f, hf, hf⟩
  | replaying =>
    obtain rfl := Option.some.inj hl
    obtain rfl := Option.some.inj hr
    exact .inr ⟨_, _, decode_of_quoted n.length_left hl, decode_of_quoted n.length_right hr, rfl,
      .inr ⟨hother n.length_left, hother n.length_right⟩⟩
  | unresponsive | failing => cases hl

/-- **Responses to challenges over twin nonces are appraised in the same way.** -/
theorem verify_alike (expected : Measurements)
    (hl : quoted? prover ⟨n.left, t, mask⟩ = some ev)
    (hr : quoted? prover ⟨n.right, t, mask⟩ = some ev') :
    (Coordinator.verify expected ⟨n.left, t₀, mask₀⟩ ⟨n.left, ev⟩).Alike verifier Eq
      (Coordinator.verify expected ⟨n.right, t₀, mask₀⟩ ⟨n.right, ev'⟩) := by
  unfold Coordinator.verify
  rcases quoted_twins hl hr with ⟨f, f', hf, hf'⟩ | ⟨x, x', hd, hd', hs, hx⟩
  · rw [hf, hf']
    exact .finished rfl
  · rw [hd, hd']
    dsimp only
    rw [hs]
    rcases hx with ⟨hx, hx'⟩ | ⟨hn, hn'⟩
    · rw [if_pos ⟨rfl, hx.nonce⟩, if_pos ⟨rfl, hx'.nonce⟩]
      refine .awaiting rfl ?_
      have hanswer :
          answerOf verifier (Coordinator.verifyRequest ⟨n.right, t₀, mask₀⟩ ⟨n.right, ev'⟩) =
            answerOf verifier (Coordinator.verifyRequest ⟨n.left, t₀, mask₀⟩ ⟨n.left, ev⟩) :=
        answerOf_verify_congr rfl rfl rfl rfl hd hd' hx hx'
          (congrArg EvidenceSummary.measurements hs)
      rw [hanswer]
      rfl
    · rw [if_neg fun h => hn h.2, if_neg fun h => hn' h.2]
      exact .finished rfl

/-! ## Machines -/

/-- The machine with another memory of its open challenge and of the last event. -/
def Machine.recalling (m : Machine) (pending : Option OpenChallenge) (e : Option Event) : Machine :=
  { m with
    coordinator := { m.coordinator with pending := pending }
    lastEvent := e }

/-- Open challenges over a side's own nonces. -/
inductive OpenChallenge.Alike (own : Option TwinNonce) :
    Option OpenChallenge → Option OpenChallenge → Prop
  | none : Alike own none none
  | some {n : TwinNonce} (h : own = some n) (t : AttestationType) (mask : PropertyMask) :
    Alike own (some ⟨n.left, t, mask⟩) (some ⟨n.right, t, mask⟩)

/-- Whether the machine is going to challenge its peer, or may be. -/
def Machine.MayChallenge (m : Machine) : Prop :=
  m.state = .hello ∨ m.config.role = .initiator ∧ m.state = .verdictPending

/-- Two machines of one side: they differ in the nonces of their challenges and in what they have
heard last. -/
structure Machine.Alike (own : Option TwinNonce) (m m' : Machine) : Prop where
  same : m' = m.recalling m'.coordinator.pending m'.lastEvent
  pending : OpenChallenge.Alike own m.coordinator.pending m'.coordinator.pending
  fresh : m.MayChallenge → own = none

/-- What transitions came to. -/
inductive Progress.OutcomeAlike (own other : Option TwinNonce) :
    Except HandshakeError (List Action) → Except HandshakeError (List Action) → Prop
  | ok {as as' : List Action} (h : List.Forall₂ (Action.Alike own other) as as') :
    OutcomeAlike own other (.ok as) (.ok as')
  | error (err : HandshakeError) : OutcomeAlike own other (.error err) (.error err)

/-- The progress of two machines of one side. -/
structure Progress.Alike (own other : Option TwinNonce) (x x' : Progress) : Prop where
  machine : x.machine.Alike own x'.machine
  outcome : OutcomeAlike own other x.outcome x'.outcome
  usedNonce : x'.usedNonce = x.usedNonce

/-- The turns of two machines of one side. -/
structure Turn.Alike (own other : Option TwinNonce) (t t' : Turn) : Prop where
  machine : t.machine.Alike own t'.machine
  actions : List.Forall₂ (Action.Alike own other) t.actions t'.actions
  usedNonce : t'.usedNonce = t.usedNonce

namespace Machine

variable {m m' : Machine} {e e' : Event} {nonce nonce' : Bytes} {b : Behavior}

/-- What machines of one side have in common. -/
theorem Alike.recalled (h : m.Alike own m') : ∃ q e, m' = m.recalling q e := ⟨_, _, h.same⟩

theorem fail_recalling (q : Option OpenChallenge) (e : Option Event) (err : HandshakeError) :
    (m.recalling q e).fail err = ((m.fail err).1.recalling q e, (m.fail err).2) := by
  have hreply : { m.recalling q e with state := .failed }.reply? err =
      { m with state := .failed }.reply? err := by cases err <;> rfl
  unfold fail
  dsimp only
  rw [hreply]
  cases { m with state := .failed }.reply? err <;> rfl

/-- No failure is reported in a message about evidence. -/
theorem reply?_not_concernsEvidence {err : HandshakeError} {q : Payload}
    (h : m.reply? err = some q) : ¬ q.ConcernsEvidence := by
  cases err <;> simp only [reply?, Option.map_eq_some_iff] at h <;> obtain ⟨-, -, rfl⟩ := h <;>
    exact not_false

/-- Machines that are alike send the same payload as long as it is not about evidence. -/
theorem outbound_alike (m : Machine) (h : ¬ p.ConcernsEvidence) :
    (m.outbound p).Alike own other (m.outbound p) := .send (.same h) _

/-- Only in two states a machine may challenge. -/
theorem not_mayChallenge {s : HandshakeState} (h : m.state = s)
    (hs : s ≠ .hello ∧ s ≠ .verdictPending) : ¬ m.MayChallenge := by
  rintro (hm | ⟨-, hm⟩)
  · exact hs.1 (h.symm.trans hm)
  · exact hs.2 (h.symm.trans hm)

/-- What is done to two machines keeps them alike if it does not look at the challenge nor lead to
one. -/
theorem Alike.map (h : m.Alike own m') {f : Machine → Machine}
    (hf : ∀ m q e, f (Machine.recalling m q e) = (f m).recalling q e)
    (hpending : (f m).coordinator.pending = m.coordinator.pending)
    (hmay : (f m).MayChallenge → own = none) : (f m).Alike own (f m') := by
  have hp := h.pending
  obtain ⟨q, e, rfl⟩ := h.recalled
  rw [hf]
  exact ⟨rfl, hpending.symm ▸ hp, hmay⟩

/-- A machine in one of the other states has come there without a challenge. -/
theorem Alike.proceed (h : m.Alike own m') {f : Machine → Machine} {s : HandshakeState}
    (hf : ∀ m q e, f (Machine.recalling m q e) = (f m).recalling q e)
    (hpending : (f m).coordinator.pending = m.coordinator.pending) (hstate : (f m).state = s)
    (hs : s ≠ .hello ∧ s ≠ .verdictPending) : (f m).Alike own (f m') :=
  h.map hf hpending fun hc => absurd hc (not_mayChallenge hstate hs)

/-- Machines that fail alike stay alike. -/
theorem Alike.fail (h : m.Alike own m') (err : HandshakeError) :
    (m.fail err).1.Alike own (m'.fail err).1 ∧
      List.Forall₂ (Action.Alike own other) (m.fail err).2 (m'.fail err).2 := by
  obtain ⟨n, hn⟩ := m.fail_machine err
  refine ⟨h.proceed (f := fun m => (m.fail err).1) (s := .failed)
    (fun m q e => by rw [fail_recalling]) (by rw [hn]) (by rw [hn]) (by decide), ?_⟩
  obtain ⟨q, e, rfl⟩ := h.recalled
  rw [fail_recalling, fail_actions]
  cases hr : m.reply? err with
  | none => exact .nil
  | some q => exact .cons (m.outbound_alike (reply?_not_concernsEvidence hr)) .nil

/-- Dealing with the outcome. -/
theorem settle_alike {x x' : Progress} (h : x.Alike own other x') (e e' : Event) :
    (settle e x).Alike own other (settle e' x') := by
  obtain ⟨m, o, u⟩ := x
  obtain ⟨m', o', u'⟩ := x'
  obtain ⟨hm, ho, hu⟩ := h
  have hheard : { m with lastEvent := some e }.Alike own { m' with lastEvent := some e' } := by
    have hp := hm.pending
    have hf := hm.fresh
    obtain ⟨q, e₀, rfl⟩ := hm.recalled
    exact ⟨rfl, hp, hf⟩
  cases ho with
  | ok ha => exact ⟨hheard, ha, hu⟩
  | error err =>
    obtain ⟨hfailed, ha⟩ : _ ∧ List.Forall₂ (Action.Alike own other) _ _ := hheard.fail err
    exact ⟨hfailed, ha, hu⟩

/-! ### Transitions -/

theorem Alike.refuse (h : m.Alike own m') (err : HandshakeError) :
    (m.refuse err).Alike own other (m'.refuse err) := ⟨h, .error err, rfl⟩

/-- Challenges over the nonces of a side. -/
theorem challengePeer_alike (h : m.Alike own m') {n : TwinNonce} :
    Progress.Alike (some n) other
      ⟨{ (m.challengePeer n.left).1 with state := .challengeIssued },
        .ok [(m.challengePeer n.left).2], true⟩
      ⟨{ (m'.challengePeer n.right).1 with state := .challengeIssued },
        .ok [(m'.challengePeer n.right).2], true⟩ := by
  obtain ⟨q, e, rfl⟩ := h.recalled
  exact ⟨⟨rfl, .some rfl _ _, fun hc => absurd hc
      (not_mayChallenge (s := .challengeIssued) rfl (by decide))⟩,
    .ok (.cons (.send (.challenge rfl _ _) _) .nil), rfl⟩

/-- The self-description does not depend on nonces. -/
theorem describeSelf_alike (h : m.Alike own m') {s : HandshakeState}
    (hs : s ≠ .hello ∧ s ≠ .verdictPending) :
    Progress.Alike own other
      ⟨{ m.describeSelf.1 with state := s }, .ok [m.describeSelf.2], false⟩
      ⟨{ m'.describeSelf.1 with state := s }, .ok [m'.describeSelf.2], false⟩ := by
  refine ⟨h.proceed (f := fun m => { m.describeSelf.1 with state := s }) (fun _ _ _ => rfl) rfl rfl
    hs, ?_, rfl⟩
  obtain ⟨q, e, rfl⟩ := h.recalled
  exact .ok (.cons (m.outbound_alike (p := .metadata ⟨m.config.selfDescription⟩) not_false) .nil)

theorem Alike.receiveHello (h : m.Alike own m') {v : Hello} (ht : m.Takes (.hello v))
    (hn : nonce.length = 32) (hn' : nonce'.length = 32) :
    ∃ own', Grows own own' ∧
      (m.receiveHello nonce v).Alike own' other (m'.receiveHello nonce' v) := by
  unfold Machine.receiveHello
  split
  · exact ⟨own, .inr rfl, h.refuse _⟩
  · refine ⟨some ⟨nonce, nonce', hn, hn'⟩, .inl (h.fresh (.inl ht.2)), ?_⟩
    exact challengePeer_alike (h.map (f := fun m => { m with isMutual := v.mutualAttestation })
      (fun _ _ _ => rfl) rfl h.fresh)

theorem Alike.receiveVerdict (h : m.Alike own m') {r : ResultReport} (ht : m.Takes (.result r))
    (hn : nonce.length = 32) (hn' : nonce'.length = 32) :
    ∃ own', Grows own own' ∧
      (m.receiveVerdict nonce r).Alike own' other (m'.receiveVerdict nonce' r) := by
  have hrole : m'.config.role = m.config.role := by rw [h.same]; rfl
  have hmutual : m'.isMutual = m.isMutual := by rw [h.same]; rfl
  unfold Machine.receiveVerdict
  split
  · exact ⟨own, .inr rfl, h.refuse _⟩
  · rw [hrole]
    cases hr : m.config.role with
    | acceptor =>
      have hm := h.proceed (f := fun m => { m with state := .metadata }) (s := .metadata)
        (fun _ _ _ => rfl) rfl rfl (by decide)
      exact ⟨own, .inr rfl, hm, .ok .nil, rfl⟩
    | initiator =>
      dsimp only
      rw [hmutual]
      cases m.isMutual with
      | true =>
        exact ⟨some ⟨nonce, nonce', hn, hn'⟩, .inl (h.fresh (.inr ⟨hr, ht⟩)), challengePeer_alike h⟩
      | false => exact ⟨own, .inr rfl, describeSelf_alike h (by decide)⟩

theorem Alike.receiveMetadata (h : m.Alike own m') (d : SelfDescription) :
    (m.receiveMetadata d).Alike own other (m'.receiveMetadata d) := by
  have hrole : m'.config.role = m.config.role := by rw [h.same]; rfl
  have hm := h.map (f := fun m => { m with metadata := some d.document }) (fun _ _ _ => rfl) rfl
    h.fresh
  unfold Machine.receiveMetadata
  dsimp only
  rw [hrole]
  cases m.config.role with
  | acceptor => exact describeSelf_alike hm (by decide)
  | initiator =>
    have hm := hm.proceed (f := fun m => { m with state := .complete }) (s := .complete)
      (fun _ _ _ => rfl) rfl rfl (by decide)
    exact ⟨hm, .ok .nil, rfl⟩

/-- An appraisal uses up the challenge, so that the machines do not differ in that any more. -/
theorem Alike.concludeAppraisal (h : m.Alike own m') (hs : m.state = .challengeIssued)
    (a : Appraisal) :
    (m.concludeAppraisal m.coordinator.reset a).Alike own other
      (m'.concludeAppraisal m'.coordinator.reset a) := by
  obtain ⟨q, e, rfl⟩ := h.recalled
  obtain ⟨v, s, reason⟩ := a
  unfold Machine.concludeAppraisal
  cases reason with
  | some reason =>
    exact ⟨⟨rfl, .none, fun hc => absurd hc (not_mayChallenge hs (by decide))⟩, .error _, rfl⟩
  | none =>
    have hresult : (m.outbound (.result ⟨.pass, none⟩)).Alike own other _ :=
      m.outbound_alike not_false
    cases hr : m.config.role with
    | acceptor =>
      simp only [send, recalling, hr]
      refine ⟨⟨rfl, .none, fun hc => absurd hc ?_⟩, .ok (.cons hresult .nil), rfl⟩
      cases m.isMutual with
      | true => exact not_mayChallenge (s := .responseReceived) rfl (by decide)
      | false => exact not_mayChallenge (s := .metadata) rfl (by decide)
    | initiator =>
      simp only [send, describeSelf, recalling, hr]
      have hdescription : ({ m with nextSequence := m.nextSequence + 1 }.outbound
          (.metadata ⟨m.config.selfDescription⟩)).Alike own other _ := outbound_alike _ not_false
      exact ⟨⟨rfl, .none, fun hc => absurd hc
          (not_mayChallenge (s := .metadata) rfl (by decide))⟩,
        .ok (.cons hresult (.cons hdescription .nil)), rfl⟩

/-- The appraisal of a response does not depend on the nonce, and uses up the challenge. -/
theorem appraise_alike {c c' : Coordinator} (he : c'.expected = c.expected)
    (hq : OpenChallenge.Alike own c.pending c'.pending) (hn : own = some n)
    (hl : quoted? prover ⟨n.left, t, mask⟩ = some ev)
    (hr : quoted? prover ⟨n.right, t, mask⟩ = some ev') :
    (c.appraise ⟨n.left, ev⟩).Alike verifier
      (fun x x' => ∃ a, x = (c.reset, a) ∧ x' = (c'.reset, a)) (c'.appraise ⟨n.right, ev'⟩) := by
  obtain ⟨expected, q⟩ := c
  obtain ⟨expected', q'⟩ := c'
  cases he
  cases hq with
  | none => exact .finished ⟨_, rfl, rfl⟩
  | some h =>
    cases hn.symm.trans h
    refine (verify_alike expected hl hr).map fun a a' ha => ⟨a, rfl, ?_⟩
    rw [ha]

/-- A response is appraised in the same way, and both machines go on alike. -/
theorem Alike.appraisePeer (h : m.Alike own m') (hs : m.state = .challengeIssued)
    (hn : own = some n) (hl : quoted? prover ⟨n.left, t, mask⟩ = some ev)
    (hr : quoted? prover ⟨n.right, t, mask⟩ = some ev') :
    (m.appraisePeer ⟨n.left, ev⟩).Alike b (Progress.Alike own other)
      (m'.appraisePeer ⟨n.right, ev'⟩) := by
  have hexpected : m'.coordinator.expected = m.coordinator.expected := by rw [h.same]; rfl
  refine (appraise_alike hexpected h.pending hn hl hr).map ?_
  rintro _ _ ⟨a, rfl, rfl⟩
  exact h.concludeAppraisal hs a

/-- A challenge is answered with evidence in both cases, or in neither. -/
theorem Alike.quotePlatform (h : m.Alike own m') (ht : m.TakesChallenge) (hn : other = some n) :
    (m.quotePlatform ⟨n.left, t, mask⟩).Alike b (Progress.Alike own other)
      (m'.quotePlatform ⟨n.right, t, mask⟩) := by
  refine .awaiting rfl ?_
  have hsome := isSome_quoted? b ⟨n.left, t, mask⟩ ⟨n.right, t, mask⟩
  rw [respond_answerOf, respond_answerOf]
  cases hl : quoted? b ⟨n.left, t, mask⟩ with
  | none =>
    rw [hl] at hsome
    rw [Option.not_isSome_iff_eq_none.1 (Bool.eq_false_iff.1 hsome)]
    exact h.refuse _
  | some ev =>
    rw [hl] at hsome
    obtain ⟨ev', hr⟩ := Option.isSome_iff_exists.1 hsome
    rw [hr]
    refine ⟨h.map (f := fun m => { (m.send (.response ⟨[], []⟩)).1 with state := .verdictPending })
      (fun _ _ _ => rfl) rfl fun hc => ?_, ?_, rfl⟩
    · -- only an initiator goes on to challenge its peer, and it has not done so yet
      rcases ht with ⟨hr, -⟩ | ⟨-, hs, -⟩
      · rcases hc with hc | ⟨hc, -⟩
        · cases hc
        · cases hr.symm.trans hc
      · exact h.fresh (.inl hs)
    · obtain ⟨q, e, rfl⟩ := h.recalled
      exact .ok (.cons (.send (.response hn hl hr) _) .nil)

/-! ### Steps -/

theorem Alike.noteStart (h : m.Alike own m') (now : Instant) :
    (m.noteStart now).Alike own (m'.noteStart now) :=
  h.map (f := (·.noteStart now)) (fun _ _ _ => rfl) rfl h.fresh

/-- What a machine takes does not depend on its nonces, nor on those of its peer. -/
theorem Alike.takes_iff (h : m.Alike own m') (hp : p.Alike other own p') :
    m'.Takes p' ↔ m.Takes p := by
  obtain ⟨q, e, rfl⟩ := h.recalled
  cases hp <;> rfl

/-- **Machines that are alike receive payloads that are alike in the same way.** One of them may
have to draw a nonce, and then the other one has to. -/
theorem Alike.receive (h : m.Alike own m') (hp : p.Alike other own p') (hn : nonce.length = 32)
    (hn' : nonce'.length = 32) :
    (m.receive nonce p).Alike b (fun x x' => ∃ own', Grows own own' ∧ x.Alike own' other x')
      (m'.receive nonce' p') := by
  have hkeep : ∀ {x x' : Progress}, x.Alike own other x' →
      ∃ own', Grows own own' ∧ x.Alike own' other x' := fun hx => ⟨own, .inr rfl, hx⟩
  by_cases ht : m.Takes p
  · have ht' := (h.takes_iff hp).2 ht
    cases hp with
    | @same p hc =>
      cases p with
      | hello v =>
        rw [receive_hello ht, receive_hello ht']
        exact .finished (h.receiveHello ht hn hn')
      | challenge ch => exact absurd trivial hc
      | response r => exact absurd trivial hc
      | result r =>
        rw [receive_result ht, receive_result ht']
        exact .finished (h.receiveVerdict ht hn hn')
      | metadata d =>
        rw [receive_metadata ht, receive_metadata ht']
        exact .finished (hkeep (h.receiveMetadata d))
      | raw bs => exact ht.elim
      | error r => exact .finished (hkeep (h.refuse _))
    | challenge ho t mask =>
      rw [receive_challenge ht, receive_challenge ht']
      exact (h.quotePlatform ht ho).imp hkeep
    | response ho hl hr =>
      rw [receive_response ht, receive_response ht']
      exact (h.appraisePeer ht ho hl hr).imp hkeep
  · have hstate : m'.state = m.state := by rw [h.same]; rfl
    rw [receive_of_not_takes ht, receive_of_not_takes ((h.takes_iff hp).not.2 ht), hp.messageType,
      hstate]
    exact .finished (hkeep (h.refuse _))

/-- **Machines that are alike take a step alike** when they are fed payloads that are alike. -/
theorem Alike.feed (h : m.Alike own m') (hm : m.state.isTerminal = false)
    (hp : p.Alike other own p') (he : e.Carries p) (he' : e'.Carries p') (hn : nonce.length = 32)
    (hn' : nonce'.length = 32) (now : Instant) :
    (m.feed now nonce e).Alike b (fun t t' => ∃ own', Grows own own' ∧ t.Alike own' other t')
      (m'.feed now nonce' e') := by
  have hm' : m'.state.isTerminal = false := by rw [h.same]; exact hm
  unfold Machine.feed Machine.transition
  rw [if_neg (by simp [hm]), if_neg (by simp [hm']), he.1, he.2, he'.1, he'.2]
  refine ((h.noteStart now).receive hp hn hn').map ?_
  rintro x x' ⟨own', hg, hx⟩
  exact ⟨own', hg, settle_alike hx e e'⟩

end Machine

end AttestedChannel
