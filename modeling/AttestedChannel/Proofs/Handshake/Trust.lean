import AttestedChannel.Proofs.Attestation.Judging
import AttestedChannel.Proofs.Handshake.Run

/-!
# Trust is earned

A machine that treats its peer as attested has attested it: since its last reset it has issued a
challenge over a nonce that was drawn for it, has been fed a response over this nonce, and has had
exactly the evidence of that response verified against the values it expects (`PeerAttested`). And a
machine that goes on after its own evidence has been fed a passing verdict (`AcceptedByPeer`). Both
hold of every run, whatever the peer and the measurement service do (`trust_is_earned`).

The invariant is `Trust`. Besides the two properties it says where the open challenge comes from and
that evidence is out while a verdict is awaited. It looks at five fields of a machine only, so every
step that leaves these alone keeps it (`Trust.frame`), and so does every failure (`Trust.failed`).
-/

namespace AttestedChannel

namespace Moment

/-- The machine sends a payload. -/
def Sends (x : Moment) (p : Payload) : Prop := ∃ h, .send (p.toFrame h) ∈ x.actions

/-- The machine is fed a well-formed message. -/
def Receives (x : Moment) (p : Payload) : Prop :=
  ∃ now nonce service e, x.command = .feed now nonce service e ∧ e.Carries p

/-- The machine issues its challenge over a nonce drawn for it. -/
structure Challenges (x : Moment) (c : Config) (nonce : Bytes) : Prop where
  drawn : x.usedNonce = true ∧ ∃ now service e, x.command = .feed now nonce service e
  sent : x.Sends (.challenge ⟨nonce, c.attestationType, c.propertyMask⟩)

/-- The machine is fed a response over a nonce, and its service verifies the evidence in it. -/
structure Verifies (x : Moment) (c : Config) (nonce : Bytes) (r : Response) (ev : Evidence)
    (reply : ServiceReply) : Prop where
  responseNonce : r.nonce = nonce
  decoded : Evidence.decode r.evidence = .ok ev
  evidenceNonce : ev.nonce = nonce
  requested : x.request? = some ⟨.verify, c.attestationType, c.selection, nonce, some r.evidence⟩
  answered : ∃ now drawn service e, x.command = .feed now drawn service e ∧
    e.Carries (.response r) ∧
    service ⟨.verify, c.attestationType, c.selection, nonce, some r.evidence⟩ = .reply reply
  passing : reply.status = .pass
  selects : ∃ i, i ∈ c.selection.indices
  sameValues : ∀ i ∈ c.selection.indices,
    Appraisal.SameValue c.expectedMeasurements reply.measurements i

end Moment

/-- Among these moments the peer was challenged and then passed, and the appraisal records that with
a summary of the evidence. -/
def PeerAttested (c : Config) (h : List Moment) (a : Option Appraisal) : Prop :=
  ∃ past y later nonce r ev reply, h = past ++ y :: later ∧
    (∃ x ∈ past, x.Challenges c nonce) ∧ y.Verifies c nonce r ev reply ∧
    ∃ record s, a = some record ∧ record.RecordsPass s ∧ s.Summarizes ev

/-- Among these moments evidence was sent to the peer, which then reported that it passed. -/
def AcceptedByPeer (h : List Moment) : Prop :=
  ∃ past y later r, h = past ++ y :: later ∧ (∃ x ∈ past, ∃ s, x.Sends (.response s)) ∧
    y.before.state = .verdictPending ∧ y.Receives (.result r) ∧ r.verdict = .pass

namespace Machine

/-- Whether the machine treats its peer as attested. -/
def TrustsPeer (m : Machine) : Prop :=
  match m.config.role with
  | .acceptor =>
    m.state = .responseReceived ∨ m.state = .verdictPending ∨ m.state = .metadata ∨
      m.state = .complete
  | .initiator => m.isMutual = true ∧ (m.state = .metadata ∨ m.state = .complete)

/-- Whether the machine has gone on after its own evidence. -/
def IsTrusted (m : Machine) : Prop :=
  match m.config.role with
  | .acceptor => m.isMutual = true ∧ (m.state = .metadata ∨ m.state = .complete)
  | .initiator => m.state = .challengeIssued ∨ m.state = .metadata ∨ m.state = .complete

end Machine

namespace Machine

variable {m : Machine}

theorem TrustsPeer.of_acceptor (ht : m.TrustsPeer) (hr : m.config.role = .acceptor) :
    m.state = .responseReceived ∨ m.state = .verdictPending ∨ m.state = .metadata ∨
      m.state = .complete := by
  unfold TrustsPeer at ht
  rwa [hr] at ht

theorem TrustsPeer.of_initiator (ht : m.TrustsPeer) (hr : m.config.role = .initiator) :
    m.isMutual = true ∧ (m.state = .metadata ∨ m.state = .complete) := by
  unfold TrustsPeer at ht
  rwa [hr] at ht

theorem trustsPeer_acceptor (hr : m.config.role = .acceptor)
    (hs : m.state = .responseReceived ∨ m.state = .verdictPending ∨ m.state = .metadata) :
    m.TrustsPeer := by
  unfold TrustsPeer
  rw [hr]
  rcases hs with hs | hs | hs
  · exact .inl hs
  · exact .inr (.inl hs)
  · exact .inr (.inr (.inl hs))

theorem trustsPeer_initiator (hr : m.config.role = .initiator) (hm : m.isMutual = true)
    (hs : m.state = .metadata) : m.TrustsPeer := by
  unfold TrustsPeer
  rw [hr]
  exact ⟨hm, .inl hs⟩

theorem IsTrusted.of_acceptor (ht : m.IsTrusted) (hr : m.config.role = .acceptor) :
    m.isMutual = true ∧ (m.state = .metadata ∨ m.state = .complete) := by
  unfold IsTrusted at ht
  rwa [hr] at ht

theorem IsTrusted.of_initiator (ht : m.IsTrusted) (hr : m.config.role = .initiator) :
    m.state = .challengeIssued ∨ m.state = .metadata ∨ m.state = .complete := by
  unfold IsTrusted at ht
  rwa [hr] at ht

theorem isTrusted_acceptor (hr : m.config.role = .acceptor) (hm : m.isMutual = true)
    (hs : m.state = .metadata) : m.IsTrusted := by
  unfold IsTrusted
  rw [hr]
  exact ⟨hm, .inl hs⟩

theorem isTrusted_initiator (hr : m.config.role = .initiator)
    (hs : m.state = .challengeIssued ∨ m.state = .metadata) : m.IsTrusted := by
  unfold IsTrusted
  rw [hr]
  rcases hs with hs | hs
  · exact .inl hs
  · exact .inr (.inl hs)

end Machine

/-! ## The invariant -/

theorem PeerAttested.concat {c : Config} {h : List Moment} {a : Option Appraisal}
    (ha : PeerAttested c h a) (x : Moment) : PeerAttested c (h ++ [x]) a := by
  obtain ⟨past, y, later, nonce, r, ev, reply, rfl, hx, hy, hp⟩ := ha
  exact ⟨past, y, later ++ [x], nonce, r, ev, reply, by simp, hx, hy, hp⟩

theorem AcceptedByPeer.concat {h : List Moment} (ha : AcceptedByPeer h) (x : Moment) :
    AcceptedByPeer (h ++ [x]) := by
  obtain ⟨past, y, later, r, rfl, hrest⟩ := ha
  exact ⟨past, y, later ++ [x], r, by simp, hrest⟩

theorem exists_mem_concat {h : List Moment} {P : Moment → Prop} (hp : ∃ x ∈ h, P x) (y : Moment) :
    ∃ x ∈ h ++ [y], P x := by
  obtain ⟨x, hx, hp⟩ := hp
  exact ⟨x, List.mem_append_left _ hx, hp⟩

theorem exists_mem_concat_self {h : List Moment} {P : Moment → Prop} {y : Moment} (hp : P y) :
    ∃ x ∈ h ++ [y], P x :=
  ⟨y, by simp, hp⟩

/-- What a machine and the moments since its last reset have to do with each other. -/
structure Trust (c : Config) (h : List Moment) (m : Machine) : Prop where
  config : m.config = c
  expected : m.coordinator.expected = c.expectedMeasurements
  pending : ∀ p, m.coordinator.pending = some p →
    p.attestationType = c.attestationType ∧ p.mask = c.selection ∧ ∃ x ∈ h, x.Challenges c p.nonce
  attested : m.TrustsPeer → PeerAttested c h m.appraisal
  evidenceOut : m.state = .verdictPending → ∃ x ∈ h, ∃ r, x.Sends (.response r)
  accepted : m.IsTrusted → AcceptedByPeer h

namespace Trust

open Machine (settle)

variable {c : Config} {h : List Moment} {m m' : Machine}

/-- A machine in the first state trusts nobody. -/
theorem fresh {m : Machine} (hc : m.config = c)
    (he : m.coordinator.expected = c.expectedMeasurements) (hp : m.coordinator.pending = none)
    (hs : m.state = .hello) : Trust c [] m where
  config := hc
  expected := he
  pending p h := by rw [hp] at h; cases h
  attested h := by unfold Machine.TrustsPeer at h; split at h <;> simp [hs] at h
  evidenceOut h := by rw [hs] at h; cases h
  accepted h := by unfold Machine.IsTrusted at h; split at h <;> simp [hs] at h

/-- The invariant does not look at the other fields of a machine. -/
theorem frame (hi : Trust c h m) (x : Moment) (hc : m'.config = m.config) (hs : m'.state = m.state)
    (hk : m'.coordinator = m.coordinator) (hm : m'.isMutual = m.isMutual)
    (ha : m'.appraisal = m.appraisal) : Trust c (h ++ [x]) m' where
  config := hc.trans hi.config
  expected := by rw [hk]; exact hi.expected
  pending p hp := by
    obtain ⟨h₁, h₂, h₃⟩ := hi.pending p (hk ▸ hp)
    exact ⟨h₁, h₂, exists_mem_concat h₃ x⟩
  attested ht := by
    rw [ha]
    refine (hi.attested ?_).concat x
    unfold Machine.TrustsPeer at ht ⊢
    rwa [hc, hs, hm] at ht
  evidenceOut hv := exists_mem_concat (hi.evidenceOut (hs ▸ hv)) x
  accepted ht := by
    refine (hi.accepted ?_).concat x
    unfold Machine.IsTrusted at ht ⊢
    rwa [hc, hs, hm] at ht

/-- A failed machine trusts nobody, and its open challenge is the old one, if there is one. -/
theorem failed (hi : Trust c h m) (x : Moment) (hc : m'.config = m.config) (hs : m'.state = .failed)
    (he : m'.coordinator.expected = m.coordinator.expected)
    (hp : ∀ p, m'.coordinator.pending = some p → m.coordinator.pending = some p) :
    Trust c (h ++ [x]) m' where
  config := hc.trans hi.config
  expected := he.trans hi.expected
  pending p hq := by
    obtain ⟨h₁, h₂, h₃⟩ := hi.pending p (hp p hq)
    exact ⟨h₁, h₂, exists_mem_concat h₃ x⟩
  attested h := by unfold Machine.TrustsPeer at h; split at h <;> simp [hs] at h
  evidenceOut h := by rw [hs] at h; cases h
  accepted h := by unfold Machine.IsTrusted at h; split at h <;> simp [hs] at h

/-! ### The transitions -/

/-- What the moment of a delivery to `m` is about, given what the transition came to. -/
structure OfDelivery (x : Moment) (m : Machine) (nonce : Bytes) (service : ServiceRequest → Answer)
    (e : Event) (request? : Option ServiceRequest) (t : Turn) : Prop where
  command : ∃ now, x.command = .feed now nonce service e
  before : x.before.state = m.state
  request : x.request? = request?
  actions : x.actions = t.actions
  usedNonce : x.usedNonce = t.usedNonce

variable {nonce : Bytes} {service : ServiceRequest → Answer} {e : Event}
  {req : Option ServiceRequest} {x : Moment}

theorem receives {t : Turn} {p : Payload} (hx : OfDelivery x m nonce service e req t)
    (he : e.Carries p) : x.Receives p := by
  obtain ⟨now, hc⟩ := hx.command
  exact ⟨now, nonce, service, e, hc, he⟩

/-- A machine that sends its challenge has challenged its peer over the nonce that was drawn. -/
theorem challenges {m' : Machine} (hi : Trust c h m)
    (hx : OfDelivery x m nonce service e req
      (settle e ⟨m', .ok [m.outbound (.challenge (m.ownChallenge nonce))], true⟩)) :
    x.Challenges c nonce where
  drawn := by
    obtain ⟨now, hc⟩ := hx.command
    exact ⟨hx.usedNonce, now, service, e, hc⟩
  sent := by
    rw [← hi.config]
    refine ⟨.ofType .attestationChallenge m.nextSequence, ?_⟩
    rw [hx.actions]
    exact List.mem_singleton_self _

/-- A passed response is a verified one. -/
theorem peerAttested {t : Turn} {r : Response} {p : OpenChallenge} {ev : Evidence}
    {reply : ServiceReply} (hi : Trust c h m) (he : e.Carries (.response r))
    (hp : m.coordinator.pending = some p) (ha : Coordinator.Answers p r ev)
    (hv : Coordinator.Verified m.coordinator.expected p (service (Coordinator.verifyRequest p r))
      reply)
    (hx : OfDelivery x m nonce service e (some (Coordinator.verifyRequest p r)) t) :
    PeerAttested c (h ++ [x]) (some (.passed (.ofEvidence ev))) := by
  obtain ⟨htype, hmask, hch⟩ := hi.pending p hp
  have hreq : Coordinator.verifyRequest p r =
      ⟨.verify, c.attestationType, c.selection, p.nonce, some r.evidence⟩ := by
    rw [Coordinator.verifyRequest, htype, hmask]
  obtain ⟨-, hsel, hsame⟩ := Appraisal.judge_eq_ok_iff.1 hv.judged
  rw [hmask] at hsel hsame
  rw [hi.expected] at hsame
  obtain ⟨now, hc⟩ := hx.command
  refine ⟨h, x, [], p.nonce, r, ev, reply, rfl, hch, ?_, _, _, rfl, Appraisal.recordsPass_passed _,
    EvidenceSummary.summarizes_iff.2 rfl⟩
  exact {
    responseNonce := ha.nonce
    decoded := ha.decoded
    evidenceNonce := ha.evidenceNonce
    requested := hx.request.trans (congrArg some hreq)
    answered := ⟨now, nonce, service, e, hc, he, hreq ▸ hv.answer⟩
    passing := hv.status
    selects := hsel
    sameValues := hsame }

/-- A passing verdict over evidence that is out is the peer's acceptance. -/
theorem acceptedByPeer {t : Turn} {r : ResultReport} (hi : Trust c h m)
    (he : e.Carries (.result r)) (ht : m.state = .verdictPending) (hv : r.verdict = .pass)
    (hx : OfDelivery x m nonce service e req t) : AcceptedByPeer (h ++ [x]) :=
  ⟨h, x, [], r, rfl, hi.evidenceOut ht, hx.before.trans ht, receives hx he, hv⟩

/-- A failure keeps the invariant, also one that comes with a used-up challenge. -/
theorem refused {m' : Machine} {err : HandshakeError} {u : Bool} (hi : Trust c h m) (x : Moment)
    (hc : m'.config = m.config) (he : m'.coordinator.expected = m.coordinator.expected)
    (hp : ∀ p, m'.coordinator.pending = some p → m.coordinator.pending = some p) :
    Trust c (h ++ [x]) (settle e ⟨m', .error err, u⟩).machine := by
  obtain ⟨n, hn⟩ := Machine.fail_machine { m' with lastEvent := some e } err
  show Trust c (h ++ [x]) ({ m' with lastEvent := some e }.fail err).1
  rw [hn]
  exact hi.failed x hc rfl he hp

/-- The invariant after a challenge has gone out. -/
theorem challenging {b : Bool} (hi : Trust c h m)
    (hx : OfDelivery x m nonce service e req
      (settle e ⟨{ m.challenging nonce with isMutual := b },
        .ok [m.outbound (.challenge (m.ownChallenge nonce))], true⟩))
    (ha : m.config.role = .initiator → AcceptedByPeer (h ++ [x])) :
    Trust c (h ++ [x]) (settle e ⟨{ m.challenging nonce with isMutual := b },
      .ok [m.outbound (.challenge (m.ownChallenge nonce))], true⟩).machine := by
  have hcfg := hi.config
  refine ⟨hcfg, hi.expected, ?_, ?_, ?_, ?_⟩
  · intro p hp
    cases hp
    exact ⟨congrArg Config.attestationType hcfg, congrArg Config.selection hcfg,
      exists_mem_concat_self (challenges hi hx)⟩
  · intro ht
    cases hr : m.config.role with
    | acceptor => rcases ht.of_acceptor hr with hs | hs | hs | hs <;> cases hs
    | initiator => rcases (ht.of_initiator hr).2 with hs | hs <;> cases hs
  · intro hv
    cases hv
  · intro ht
    cases hr : m.config.role with
    | acceptor => rcases (ht.of_acceptor hr).2 with hs | hs <;> cases hs
    | initiator => exact ha hr

/-- **Every transition keeps the invariant.** -/
theorem transition {pr : Progress} (hi : Trust c h m)
    (tr : m.Transition service nonce e req pr)
    (hx : OfDelivery x m nonce service e req (settle e pr)) :
    Trust c (h ++ [x]) (settle e pr).machine := by
  have hcfg := hi.config
  have hpend : ∀ p, m.coordinator.pending = some p → p.attestationType = c.attestationType ∧
      p.mask = c.selection ∧ ∃ y ∈ h ++ [x], y.Challenges c p.nonce := by
    intro p hp
    obtain ⟨htype, hmask, hch⟩ := hi.pending p hp
    exact ⟨htype, hmask, exists_mem_concat hch x⟩
  cases tr with
  | malformed | peerError | unexpected | unsupported | quoteFailed | rejected =>
    exact hi.refused x rfl rfl fun _ hp => hp
  | appraisalFailed => exact hi.refused x rfl rfl fun _ hp => by cases hp
  | challenged he ht hv =>
    refine hi.challenging hx fun hr => ?_
    rw [ht.1] at hr
    cases hr
  | passedToAcceptor he ht hr hp ha hv =>
    -- a mutual acceptor still has to show evidence of its own, another one is not mutual
    have hstate : ∀ s,
        (if m.isMutual = true then HandshakeState.responseReceived else .metadata) = s →
        s ≠ .verdictPending ∧ (m.isMutual = true → s = .responseReceived) := by
      rintro s rfl
      cases m.isMutual <;> simp
    refine ⟨hcfg, hi.expected, (fun _ hp => by cases hp), fun _ => hi.peerAttested he hp ha hv hx,
      fun hs => absurd rfl (hstate _ hs).1, fun htr => ?_⟩
    obtain ⟨hm, hs | hs⟩ := htr.of_acceptor hr
    · cases (hstate _ hs).2 hm
    · cases (hstate _ hs).2 hm
  | passedToInitiator he ht hr hp ha hv =>
    refine ⟨hcfg, hi.expected, (fun _ hp => by cases hp), fun _ => hi.peerAttested he hp ha hv hx,
      (fun hs => by cases hs), fun _ => ?_⟩
    exact (hi.accepted (Machine.isTrusted_initiator hr (.inl ht))).concat x
  | @quoted ch r he ht hq =>
    -- an acceptor has passed its peer before it shows evidence, an initiator trusts nobody yet
    refine ⟨hcfg, hi.expected, hpend, fun htr => ?_, fun _ => ?_, fun hac => ?_⟩
    · rcases ht with ⟨hr, hs⟩ | ⟨hr, -⟩
      · exact (hi.attested (Machine.trustsPeer_acceptor hr (.inl hs))).concat x
      · rcases (htr.of_initiator hr).2 with hs | hs <;> cases hs
    · refine exists_mem_concat_self ⟨r, .ofType .attestationResponse m.nextSequence, ?_⟩
      rw [hx.actions]
      exact List.mem_singleton_self _
    · rcases ht with ⟨hr, -⟩ | ⟨hr, -⟩
      · rcases (hac.of_acceptor hr).2 with hs | hs <;> cases hs
      · rcases hac.of_initiator hr with hs | hs | hs <;> cases hs
  | acceptedAcceptor he ht hv hr =>
    refine ⟨hcfg, hi.expected, hpend, fun _ => ?_, (fun hs => by cases hs),
      fun _ => hi.acceptedByPeer he ht hv hx⟩
    exact (hi.attested (Machine.trustsPeer_acceptor hr (.inr (.inl ht)))).concat x
  | acceptedMutually he ht hv hr hm =>
    exact hi.challenging (b := m.isMutual) hx fun _ => hi.acceptedByPeer he ht hv hx
  | acceptedOneWay he ht hv hr hm =>
    refine ⟨hcfg, hi.expected, hpend, fun htr => ?_, (fun hs => by cases hs),
      fun _ => hi.acceptedByPeer he ht hv hx⟩
    have hm' : m.isMutual = true := (htr.of_initiator hr).1
    rw [hm] at hm'
    cases hm'
  | describedToAcceptor he ht hr =>
    refine ⟨hcfg, hi.expected, hpend, fun _ => ?_, (fun hs => by cases hs), fun hac => ?_⟩
    · exact (hi.attested (Machine.trustsPeer_acceptor hr (.inr (.inr ht)))).concat x
    · exact (hi.accepted (Machine.isTrusted_acceptor hr (hac.of_acceptor hr).1 ht)).concat x
  | describedToInitiator he ht hr =>
    refine ⟨hcfg, hi.expected, hpend, fun htr => ?_, (fun hs => by cases hs), fun _ => ?_⟩
    · exact (hi.attested (Machine.trustsPeer_initiator hr (htr.of_initiator hr).1 ht)).concat x
    · exact (hi.accepted (Machine.isTrusted_initiator hr (.inr ht))).concat x

/-- **Every command but a reset keeps the invariant.** -/
theorem perform (hi : Trust c h m) (k : Command) (hk : k.isReset = false) :
    Trust c (h ++ [m.perform k]) (m.perform k).after := by
  cases k with
  | start now =>
    rcases m.start_cases now with ⟨err, hs⟩ | ⟨-, hs⟩ | ⟨hr, hst, ho, hs⟩
    · rw [Machine.perform_start_error hs]
      exact hi.frame _ rfl rfl rfl rfl rfl
    · rw [Machine.perform_start_ok hs]
      exact hi.frame _ rfl rfl rfl rfl rfl
    · rw [Machine.perform_start_ok hs]
      -- the initiator may change its mind about mutual attestation, but only before it trusts
      refine ⟨hi.config, hi.expected, fun p hp => ?_, fun htr => ?_, fun hv => ?_, fun hac => ?_⟩
      · obtain ⟨h₁, h₂, h₃⟩ := hi.pending p hp
        exact ⟨h₁, h₂, exists_mem_concat h₃ _⟩
      · obtain ⟨-, hs | hs⟩ := htr.of_initiator hr <;> cases hst.symm.trans hs
      · cases hst.symm.trans hv
      · rcases hac.of_initiator hr with hs | hs | hs <;> cases hst.symm.trans hs
  | feed now nonce service e =>
    cases ht : m.state.isTerminal with
    | true =>
      have hp : (m.perform (.feed now nonce service e)).after = { m with lastEvent := some e } := by
        show ((m.feed now nonce e).run service).machine = _
        rw [Machine.feed_of_terminal ht]
        rfl
      rw [hp]
      exact hi.frame _ rfl rfl rfl rfl rfl
    | false =>
      have hrun := Machine.feed_run_of_running ht now nonce e service
      have hreq := Machine.feed_request_of_running ht now nonce e
      have tr := (m.noteStart now).transition_run nonce e service
      -- the start of the clock is none of the fields that matter
      have hnoted : Trust c h (m.noteStart now) :=
        ⟨hi.config, hi.expected, hi.pending, hi.attested, hi.evidenceOut, hi.accepted⟩
      have hafter : (m.perform (.feed now nonce service e)).after =
          (settle e (((m.noteStart now).transition nonce e).run service)).machine := by
        rw [← hrun]
        rfl
      rw [hafter]
      exact hnoted.transition tr
        ⟨⟨now, rfl⟩, rfl, hreq, congrArg Turn.actions hrun, congrArg Turn.usedNonce hrun⟩
  | abandon now =>
    have ha : m.abandon now = m ∨ m.abandon now = m.noteStart now := by
      unfold Machine.abandon
      split
      · exact .inl rfl
      · exact .inr rfl
    show Trust c (h ++ [m.perform (.abandon now)]) (m.abandon now)
    rcases ha with ha | ha
    · rw [ha]
      exact hi.frame _ rfl rfl rfl rfl rfl
    · rw [ha]
      exact hi.frame _ rfl rfl rfl rfl rfl
  | tick now =>
    show Trust c (h ++ [m.perform (.tick now)]) (m.tick now).1
    rcases m.tick_cases now with ht | ⟨-, elapsed, ht⟩
    · rw [ht]
      exact hi.frame _ rfl rfl rfl rfl rfl
    · obtain ⟨n, hn⟩ := m.fail_machine (.timeOut elapsed)
      rw [ht, hn]
      exact hi.failed _ rfl rfl rfl fun _ hp => hp
  | reset => cases hk

end Trust

/-- **Trust is earned.** In every run of every configuration, whatever the peer sends and whatever
the measurement service answers: a machine that treats its peer as attested has challenged it since
the last reset and then had exactly the evidence of a response over that challenge verified, with
everything it asked for as expected; and one that goes on after its own evidence has been told that
it passed. -/
theorem trust_is_earned (c : Config) (cs : List Command) :
    (((Machine.ofConfig c).run cs).TrustsPeer →
      PeerAttested c (sinceReset ((Machine.ofConfig c).log cs))
        ((Machine.ofConfig c).run cs).appraisal) ∧
    (((Machine.ofConfig c).run cs).IsTrusted →
      AcceptedByPeer (sinceReset ((Machine.ofConfig c).log cs))) := by
  have hi : Trust c (sinceReset ((Machine.ofConfig c).log cs)) ((Machine.ofConfig c).run cs) := by
    refine Machine.run_induction c (Trust.fresh rfl rfl rfl rfl) ?_ ?_ cs
    · intro h m hi
      exact Trust.fresh hi.config hi.expected rfl rfl
    · intro h m k hk hi
      exact hi.perform k hk
  exact ⟨hi.attested, hi.accepted⟩

/-- A connector that wants both sides attested, and for that one property with one value. -/
def plainConfig (r : Role) : Config :=
  { Config.default with
    attestationType := .advanced
    propertyMask := .single 0
    expectedMeasurements := .ofList [(0, [7])]
    mutualAttestation := true
    selfDescription := r.name }

/-- An acceptor is opened to, challenges, and is sent evidence over its nonce. -/
def plainCommands : List Command :=
  [.feed 0 [2, 3] plainService ⟨[], .hello ⟨Hello.currentVersion, true⟩, none⟩,
    .feed 1 [] plainService ⟨[], .response ⟨[2, 3], (plainEvidence [2, 3]).encode⟩, none⟩]

/-- The acceptor treats its peer as attested then, and has attested it. -/
theorem plainCommands_attested :
    let c := plainConfig .acceptor
    ((Machine.ofConfig c).run plainCommands).state = .responseReceived ∧
      PeerAttested c (sinceReset ((Machine.ofConfig c).log plainCommands))
        ((Machine.ofConfig c).run plainCommands).appraisal := by
  obtain ⟨hr, hs⟩ :
      ((Machine.ofConfig (plainConfig .acceptor)).run plainCommands).config.role = .acceptor ∧
      ((Machine.ofConfig (plainConfig .acceptor)).run plainCommands).state = .responseReceived := by
    decide +kernel
  exact ⟨hs, (trust_is_earned (plainConfig .acceptor) plainCommands).1
    (Machine.trustsPeer_acceptor hr (.inl hs))⟩

end AttestedChannel
