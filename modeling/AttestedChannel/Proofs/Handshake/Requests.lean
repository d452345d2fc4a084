import AttestedChannel.Proofs.Attestation.Deciding
import AttestedChannel.Proofs.Handshake.Record
import AttestedChannel.Proofs.Handshake.Restart

/-!
# What a machine asks its measurement service

A peer decides when a machine asks its service, and it decides what the machine is sent. It has no
say in what else is asked: evidence is verified over the nonce that the machine has drawn last, for
the selection that it is configured for, and a quote is made for the challenge that is answered
(`Requests`). Nor can it have the service asked more often than once for either operation: a machine
asks for an operation at one distance from the end of its handshake only (`Requests.rank_eq`), and
whatever it hears brings it nearer to the end.
-/

namespace AttestedChannel

namespace Moment

/-- Whether the service is asked for this operation. -/
def asks (x : Moment) (o : ServiceOperation) : Bool := x.request?.any fun q => q.operation == o

theorem asks_iff {x : Moment} {o : ServiceOperation} :
    x.asks o = true ↔ ∃ q, x.request? = some q ∧ q.operation = o := by
  simp [asks, Option.any_eq_true]

end Moment

/-- The last challenge that was issued among these moments is over this nonce. -/
def LatestChallenge (c : Config) (h : List Moment) (nonce : Bytes) : Prop :=
  ∃ earlier y between, h = earlier ++ y :: between ∧ y.Challenges c nonce ∧
    ∀ z ∈ between, z.usedNonce = false

theorem LatestChallenge.concat {c : Config} {h : List Moment} {nonce : Bytes}
    (hl : LatestChallenge c h nonce) {x : Moment} (hx : x.usedNonce = false) :
    LatestChallenge c (h ++ [x]) nonce := by
  obtain ⟨earlier, y, between, rfl, hy, hb⟩ := hl
  refine ⟨earlier, y, between ++ [x], by simp, hy, fun z hz => ?_⟩
  rcases List.mem_append.1 hz with hz | hz
  · exact hb z hz
  · rwa [List.mem_singleton.1 hz]

theorem latestChallenge_concat_self {c : Config} {h : List Moment} {nonce : Bytes} {x : Moment}
    (hx : x.Challenges c nonce) : LatestChallenge c (h ++ [x]) nonce :=
  ⟨h, x, [], rfl, hx, List.forall_mem_nil _⟩

namespace Machine

variable {m : Machine} {k : Command} {c : Config} {x : Moment} {q : ServiceRequest}
  {o : ServiceOperation}

/-! ## One command -/

/-- A command leaves the attestation alone, or it is a delivery to a running machine. -/
theorem perform_delivers (m : Machine) (hk : k.isReset = false) :
    ((m.perform k).request? = none ∧ (m.perform k).usedNonce = false ∧
      (m.perform k).after.coordinator = m.coordinator) ∨
    m.state.isTerminal = false ∧ ∃ now nonce service e req pr, k = .feed now nonce service e ∧
      Transition service nonce (m.noteStart now) e req pr ∧
      m.perform k = ⟨m, k, (settle e pr).machine, (settle e pr).actions, req,
        (settle e pr).usedNonce⟩ := by
  cases k with
  | start now =>
    rcases m.start_cases now with ⟨err, h⟩ | ⟨-, h⟩ | ⟨-, -, -, h⟩
    · rw [perform_start_error h]
      exact .inl ⟨rfl, rfl, rfl⟩
    · rw [perform_start_ok h]
      exact .inl ⟨rfl, rfl, rfl⟩
    · rw [perform_start_ok h]
      exact .inl ⟨rfl, rfl, rfl⟩
  | feed now nonce service e =>
    cases hm : m.state.isTerminal with
    | true =>
      have h := feed_of_terminal hm now nonce e
      simp only [perform, h]
      exact .inl ⟨rfl, rfl, rfl⟩
    | false =>
      refine .inr ⟨rfl, now, nonce, service, e, _, _, rfl, transition_run _ nonce e service, ?_⟩
      simp only [perform, feed_request_of_running hm, feed_run_of_running hm]
  | abandon now =>
    refine .inl ⟨rfl, rfl, ?_⟩
    show (m.abandon now).coordinator = m.coordinator
    unfold abandon
    split <;> rfl
  | tick now =>
    refine .inl ⟨rfl, rfl, ?_⟩
    show (m.tick now).1.coordinator = m.coordinator
    rcases m.tick_cases now with h | ⟨-, elapsed, h⟩
    · rw [h]
    · obtain ⟨n, hn⟩ := m.fail_machine (.timeOut elapsed)
      rw [h, hn]
  | reset => cases hk

/-- A failure leaves the coordinator alone. -/
theorem coordinator_settle_refuse (m : Machine) (e : Event) (err : HandshakeError) :
    (settle e (m.refuse err)).machine.coordinator = m.coordinator := by
  obtain ⟨n, hn⟩ := m.machine_settle_refuse e err
  rw [hn]

/-- What a machine may ask its service, and when. -/
inductive Requests (m : Machine) (x : Moment) : ServiceRequest → Prop
  | verify {r : Response} {p : OpenChallenge} (hs : m.state = .challengeIssued)
      (hr : x.Receives (.response r)) (hp : m.coordinator.pending = some p) :
    Requests m x (Coordinator.verifyRequest p r)
  | quote {ch : Challenge} (ht : m.TakesChallenge) (hr : x.Receives (.challenge ch)) :
    Requests m x (Coordinator.quoteRequest ch)

/-- **A machine asks its service for nothing else**, and only while it is running. -/
theorem requests_perform (hk : k.isReset = false) (h : (m.perform k).request? = some q) :
    m.state.isTerminal = false ∧ m.Requests (m.perform k) q := by
  rcases m.perform_delivers hk with ⟨hnone, -⟩ | ⟨hm, now, nonce, service, e, req, pr, rfl, tr, hx⟩
  · rw [hnone] at h
    cases h
  · refine ⟨hm, ?_⟩
    rw [hx] at h ⊢
    replace h : req = some q := h
    cases tr with
    | malformed | peerError | unexpected | unsupported | challenged | rejected | acceptedAcceptor
    | acceptedMutually | acceptedOneWay | describedToAcceptor | describedToInitiator => cases h
    | appraisalFailed he ht =>
      obtain ⟨p, _, hp, -, rfl⟩ := Coordinator.request?_appraise_eq_some_iff.1 h
      exact .verify ht ⟨now, nonce, service, e, rfl, he⟩ hp
    | passedToAcceptor he ht _ hp | passedToInitiator he ht _ hp =>
      cases h
      exact .verify ht ⟨now, nonce, service, e, rfl, he⟩ hp
    | quoteFailed he ht | quoted he ht =>
      cases h
      exact .quote ht ⟨now, nonce, service, e, rfl, he⟩

/-- **A challenge is open only if it has been issued last.** A command issues a challenge over a
nonce that is drawn for it, or it draws none and opens none. -/
theorem pending_perform (hk : k.isReset = false) :
    ((m.perform k).usedNonce = false ∧
      ∀ p, (m.perform k).after.coordinator.pending = some p → m.coordinator.pending = some p) ∨
    ∃ nonce, (m.perform k).Challenges m.config nonce ∧
      (m.perform k).after.coordinator.pending = some (m.openChallenge nonce) := by
  rcases m.perform_delivers hk with ⟨-, hnone, hc⟩ |
    ⟨-, now, nonce, service, e, req, pr, rfl, tr, hx⟩
  · exact .inl ⟨hnone, fun p hp => hc ▸ hp⟩
  · rw [hx]
    have hdrawn : ∃ now' service' e', Command.feed now nonce service e =
        .feed now' nonce service' e' := ⟨now, service, e, rfl⟩
    cases tr with
    | malformed | peerError | unexpected | unsupported | quoteFailed | rejected =>
      refine .inl ⟨rfl, fun p hp => ?_⟩
      rwa [coordinator_settle_refuse] at hp
    | appraisalFailed =>
      refine .inl ⟨rfl, fun p hp => ?_⟩
      rw [coordinator_settle_refuse] at hp
      cases hp
    | passedToAcceptor | passedToInitiator => exact .inl ⟨rfl, fun p hp => by cases hp⟩
    | quoted | acceptedAcceptor | acceptedOneWay | describedToAcceptor | describedToInitiator =>
      exact .inl ⟨rfl, fun p hp => hp⟩
    | challenged | acceptedMutually =>
      exact .inr ⟨nonce, ⟨⟨rfl, hdrawn⟩, _, List.mem_singleton_self _⟩, rfl⟩

/-! ## How often a machine asks -/

/-- How far a machine that asks for an operation is from the end of its handshake. -/
def askingRank : Role → ServiceOperation → Nat
  | .acceptor, .verify => 4
  | .acceptor, .quote => 3
  | .initiator, .verify => 2
  | .initiator, .quote => 4

theorem Requests.rank_eq (h : m.Requests x q) : m.rank = askingRank m.config.role q.operation := by
  cases h with
  | verify hs =>
    cases hr : m.config.role <;> simp [rank, hs, hr, Coordinator.verifyRequest, askingRank]
  | quote ht =>
    rcases ht with ⟨hr, hs⟩ | ⟨hr, hs, ho⟩
    · simp [rank, hs, hr, Coordinator.quoteRequest, askingRank]
    · simp [rank, hs, hr, ho, Coordinator.quoteRequest, askingRank]

theorem Requests.receives (h : m.Requests x q) : ∃ p, x.Receives p := by
  cases h with
  | verify _ hr | quote _ hr => exact ⟨_, hr⟩

/-- How often the machine can still ask for an operation. -/
def requestsLeft (m : Machine) (o : ServiceOperation) : Nat :=
  if askingRank m.config.role o ≤ m.rank then 1 else 0

theorem requestsLeft_le_one (m : Machine) (o : ServiceOperation) : m.requestsLeft o ≤ 1 := by
  unfold requestsLeft
  split <;> decide

/-- **A request uses up what is left, and nothing adds to it.** -/
theorem asks_add_requestsLeft_le (m : Machine) (hk : k.isReset = false) (o : ServiceOperation) :
    ((m.perform k).asks o).toNat + (m.perform k).after.requestsLeft o ≤ m.requestsLeft o := by
  have hle := m.rank_perform_le hk
  unfold requestsLeft
  rw [perform_config]
  cases ha : (m.perform k).asks o with
  | false =>
    simp only [Bool.toNat_false]
    split <;> split <;> omega
  | true =>
    obtain ⟨q, hq, rfl⟩ := Moment.asks_iff.1 ha
    obtain ⟨hm, hr⟩ := requests_perform hk hq
    obtain ⟨p, hp⟩ := hr.receives
    have hlt := rank_perform_lt hm hp
    rw [hr.rank_eq] at hlt ⊢
    rw [if_neg (Nat.not_le.2 hlt), if_pos (Nat.le_refl _)]
    decide

/-- **A machine asks for either operation once at most** until it is reset. -/
theorem countP_asks_le_one (c : Config) (cs : List Command) (o : ServiceOperation) :
    (sinceReset ((ofConfig c).log cs)).countP (·.asks o) ≤ 1 := by
  have h : (sinceReset ((ofConfig c).log cs)).countP (·.asks o) +
      ((ofConfig c).run cs).requestsLeft o ≤ 1 := by
    refine run_induction (motive := fun h m => h.countP (·.asks o) + m.requestsLeft o ≤ 1) c
      ?_ (fun h m _ => ?_) (fun h m k hk hi => ?_) cs
    · simpa using requestsLeft_le_one (ofConfig c) o
    · simpa using requestsLeft_le_one m.reset o
    · have hstep := m.asks_add_requestsLeft_le hk o
      rw [List.countP_append, List.countP_singleton]
      cases ha : (m.perform k).asks o <;> simp only [ha, Bool.toNat_false, Bool.toNat_true,
        Bool.false_eq_true, if_false, if_true] at hstep ⊢ <;> omega
  exact Nat.le_of_add_right_le h

/-! ## What the requests of a run are about -/

/-- **The open challenge of a run is the latest one**, made as the machine is configured. -/
theorem pending_run (c : Config) (cs : List Command) {p : OpenChallenge}
    (hp : ((ofConfig c).run cs).coordinator.pending = some p) :
    LatestChallenge c (sinceReset ((ofConfig c).log cs)) p.nonce ∧
      p.attestationType = c.attestationType ∧ p.mask = c.selection := by
  refine (run_induction (motive := fun h m => m.config = c ∧
    ∀ p, m.coordinator.pending = some p → LatestChallenge c h p.nonce ∧
      p.attestationType = c.attestationType ∧ p.mask = c.selection) c
    ⟨rfl, fun p hp => ?_⟩ (fun h m hi => ⟨hi.1, fun p hp => ?_⟩) (fun h m k hk hi => ?_) cs).2 p hp
  · cases hp
  · cases hp
  · obtain ⟨rfl, hpend⟩ := hi
    refine ⟨perform_config m k, fun p hp => ?_⟩
    rcases pending_perform hk with ⟨hnone, hkeep⟩ | ⟨nonce, hx, hopen⟩
    · obtain ⟨hl, hrest⟩ := hpend p (hkeep p hp)
      exact ⟨hl.concat hnone, hrest⟩
    · cases hopen.symm.trans hp
      exact ⟨latestChallenge_concat_self hx, rfl, rfl⟩

end Machine

open Machine

/-- **The service is asked little, and only what it has to be asked.** Whatever the peer sends and
however often, since its last reset a machine has asked its service for one quote and for one
verification at most. It has evidence verified as the peer sent it, over the nonce of its latest
challenge, for the type and the selection of its own configuration; an initiator that does not
attest its peer never does. It has a quote made for the nonce, the type and the selection of the
challenge that it was sent, and nothing else goes along; an acceptor does so only after it has
passed its peer. A delivery that is given up does not count: it asks again when it is repeated. -/
theorem service_is_asked_sparingly (c : Config) (cs : List Command) :
    let h := sinceReset ((ofConfig c).log cs)
    (∀ o, h.countP (·.asks o) ≤ 1) ∧
    ∀ past x later q, h = past ++ x :: later → x.request? = some q →
      (∃ r nonce, x.Receives (.response r) ∧ LatestChallenge c past nonce ∧
        q = ⟨.verify, c.attestationType, c.selection, nonce, some r.evidence⟩ ∧
        (c.role = .initiator → c.mutualAttestation = true)) ∨
      ∃ ch, x.Receives (.challenge ch) ∧
        q = ⟨.quote, ch.attestationType, ch.attestationType.selection ch.propertyMask, ch.nonce,
          none⟩ ∧
        (c.role = .acceptor → PeerAttested c past x.before.appraisal) := by
  refine ⟨countP_asks_le_one c cs, fun past x later q he hq => ?_⟩
  obtain ⟨ds, k, hk, rfl, rfl⟩ := sinceReset_log_eq_append_cons he
  obtain ⟨hm, hr⟩ := requests_perform hk hq
  have hcfg := run_config (ofConfig c) ds
  have hcoh := coherent_run c ds
  rw [perform_before]
  cases hr with
  | @verify r p hs hr hp =>
    obtain ⟨hl, htype, hmask⟩ := pending_run c ds hp
    refine .inl ⟨r, p.nonce, hr, hl, ?_, fun hrole => ?_⟩
    · rw [Coordinator.verifyRequest, htype, hmask]
    · -- an initiator that waits for a response has opened a mutual handshake
      have hrole : ((ofConfig c).run ds).config.role = .initiator := by rw [hcfg]; exact hrole
      have hopen := hcoh.hasOpened hrole (by simp [hs]) (by simp [hs])
      have hmut := hcoh.keepsMutual hrole hopen
      rw [hcoh.challenging hrole hs, hcfg] at hmut
      exact hmut.symm
  | @quote ch ht hr =>
    refine .inr ⟨ch, hr, rfl, fun hrole => ?_⟩
    have hrole : ((ofConfig c).run ds).config.role = .acceptor := by rw [hcfg]; exact hrole
    rcases ht with ⟨-, hs⟩ | ⟨hinit, -⟩
    · exact (trust_run c ds).attested (trustsPeer_acceptor hrole (.inl hs))
    · cases hrole.symm.trans hinit

/-- An acceptor that goes through a mutual handshake has the evidence of its peer verified, over the
nonce of its challenge, and then a quote made for the challenge of the peer, having passed it. -/
theorem plainCourse_asks :
    let c := plainConfig .acceptor
    let h := sinceReset ((ofConfig c).log plainCourse)
    h.map (·.asks .verify) = [false, true, false, false, false] ∧
    h.map (·.asks .quote) = [false, false, true, false, false] ∧
    (∀ o, h.countP (·.asks o) ≤ 1) ∧
    LatestChallenge c (h.take 1) [2, 3] ∧
    PeerAttested c (h.take 2) ((ofConfig c).run (plainCourse.take 2)).appraisal := by
  intro c h
  obtain ⟨honce, habout⟩ := service_is_asked_sparingly c plainCourse
  refine ⟨by decide +kernel, by decide +kernel, honce, ?_, ?_⟩
  · rcases habout (h.take 1) (((ofConfig c).run (plainCourse.take 1)).perform
      (.feed 1 [] plainService ⟨[], .response ⟨[2, 3], (plainEvidence [2, 3]).encode⟩, none⟩))
      (h.drop 2) ⟨.verify, .advanced, .single 0, [2, 3], some (plainEvidence [2, 3]).encode⟩ rfl
      (by decide +kernel) with ⟨r, nonce, -, hl, hq, -⟩ | ⟨ch, -, hq, -⟩
    · cases (ServiceRequest.mk.inj hq).2.2.2.1
      exact hl
    · cases (ServiceRequest.mk.inj hq).1
  · rcases habout (h.take 2) (((ofConfig c).run (plainCourse.take 2)).perform
      (.feed 2 [] plainService ⟨[], .challenge ⟨[5], .advanced, .single 0⟩, none⟩))
      (h.drop 3) ⟨.quote, .advanced, .single 0, [5], none⟩ rfl (by decide +kernel) with
      ⟨r, nonce, -, -, hq, -⟩ | ⟨ch, -, -, hpassed⟩
    · cases (ServiceRequest.mk.inj hq).1
    · exact hpassed rfl

end AttestedChannel
