import AttestedChannel.Proofs.Handshake.Transition
import Mathlib.Data.List.Forall2

/-!
# What a peer notices of a machine

`Machine.Hears m m' p ps` says that a running machine `m` that hears the payload `p` may become `m'`
and say `ps`, as far as the peer can notice: the measurement service, nonces and the clock are left
out, and failures are told apart only by how they are reported. A payload that makes every running
machine fail is *fatal*. `feed_hears` says that feeding an event is hearing its payload, and
`Hears.rank_lt` that each payload brings a machine nearer to the end of its handshake.
-/

namespace AttestedChannel

/-- Whether the payload says that its sender has failed. -/
def Payload.IsFatal : Payload → Prop
  | .error _ => True
  | .result r => r.verdict ≠ .pass
  | _ => False

/-- The actions send these payloads, each in a frame, and do nothing else. -/
def Says (actions : List Action) (ps : List Payload) : Prop :=
  List.Forall₂ (fun a p => ∃ h, a = .send (p.toFrame h)) actions ps

/-- The frames that actions send, whether they can be written or not. -/
def sentBy (actions : List Action) : List Frame :=
  actions.filterMap fun
    | .send f => some f
    | .passThrough _ => none

theorem sentBy_eq_nil {actions : List Action} (h : ∀ f, .send f ∉ actions) :
    sentBy actions = [] := by
  rw [sentBy, List.filterMap_eq_nil_iff]
  intro a ha
  cases a with
  | send f => exact absurd ha (h f)
  | passThrough b => rfl

theorem exists_of_mem_forall₂ {α β : Type} {R : α → β → Prop} {as : List α} {bs : List β}
    (h : List.Forall₂ R as bs) {a : α} (ha : a ∈ as) : ∃ b ∈ bs, R a b := by
  induction h with
  | nil => cases ha
  | @cons a' b' as bs hr _ ih =>
    rcases List.mem_cons.1 ha with rfl | ha
    · exact ⟨b', List.mem_cons_self, hr⟩
    · obtain ⟨b, hb, hr⟩ := ih ha
      exact ⟨b, List.mem_cons_of_mem b' hb, hr⟩

/-- What is said is what is sent. -/
theorem forall₂_sentBy {actions : List Action} {ps : List Payload} (h : Says actions ps) :
    List.Forall₂ (fun f p => ∃ k, f = Payload.toFrame p k) (sentBy actions) ps := by
  induction h with
  | nil => exact .nil
  | cons ha _ ih =>
    obtain ⟨k, rfl⟩ := ha
    exact .cons ⟨k, rfl⟩ ih

namespace Machine

/-- The machine comes into a state, and nothing else changes that matters to its peer. -/
structure Becomes (m m' : Machine) (s : HandshakeState) : Prop where
  state : m'.state = s
  config : m'.config = m.config
  isMutual : m'.isMutual = m.isMutual
  hasOpened : m'.hasOpened = m.hasOpened
  appraisal : m'.appraisal = m.appraisal
  metadata : m'.metadata = m.metadata

/-- The payload is the error report by which a failure is reported. -/
def Reports (q : Payload) (err : HandshakeError) : Prop :=
  ∃ c, err.code? = some c ∧ q = .error ⟨c, err.message⟩

/-- A running machine `m` that hears a payload may become `m'` and say these payloads. -/
inductive Hears (m m' : Machine) : Payload → List Payload → Prop
  | refused {p q : Payload} (ht : ¬ m.Takes p) (hq : q.IsFatal) (hb : m.Becomes m' .failed)
      (he : Reports q (.unexpectedMessage m.state p.messageType)) : Hears m m' p [q]
  | told {p : Payload} (hp : p.IsFatal) (hb : m.Becomes m' .failed) : Hears m m' p []
  | unsupported {h : Hello} {q : Payload} (hv : h.version ≠ Hello.currentVersion) (hq : q.IsFatal)
      (hb : m.Becomes m' .failed) (he : Reports q (.unsupportedVersion h.version)) :
    Hears m m' (.hello h) [q]
  | challenged {h : Hello} {c : Challenge} (hr : m.config.role = .acceptor)
      (hs : m.state = .hello)
      (hb : { m with isMutual := h.mutualAttestation }.Becomes m' .challengeIssued) :
    Hears m m' (.hello h) [.challenge c]
  | unquoted {c : Challenge} {q : Payload} (ht : m.TakesChallenge) (hq : q.IsFatal)
      (hb : m.Becomes m' .failed) (he : ∃ reason, Reports q (.quoteFailed reason)) :
    Hears m m' (.challenge c) [q]
  | quoted {c : Challenge} {r : Response} (ht : m.TakesChallenge)
      (hb : m.Becomes m' .verdictPending) : Hears m m' (.challenge c) [.response r]
  | appraisalFailed {r : Response} {q : Payload} {a : Appraisal} (hs : m.state = .challengeIssued)
      (hq : q.IsFatal) (hb : { m with appraisal := some a }.Becomes m' .failed)
      (he : q = .result a.report ∧ ∃ reason s, a = .failed reason s) : Hears m m' (.response r) [q]
  | passedToAcceptor {r : Response} {s : EvidenceSummary} (hr : m.config.role = .acceptor)
      (hs : m.state = .challengeIssued)
      (hb : { m with appraisal := some (.passed s) }.Becomes m'
        (if m.isMutual then .responseReceived else .metadata)) :
    Hears m m' (.response r) [.result ⟨.pass, none⟩]
  | passedToInitiator {r : Response} {s : EvidenceSummary} (hr : m.config.role = .initiator)
      (hs : m.state = .challengeIssued)
      (hb : { m with appraisal := some (.passed s) }.Becomes m' .metadata) :
    Hears m m' (.response r) [.result ⟨.pass, none⟩, .metadata ⟨m.config.selfDescription⟩]
  | acceptedAcceptor {r : ResultReport} (hv : r.verdict = .pass)
      (hr : m.config.role = .acceptor) (hs : m.state = .verdictPending)
      (hb : m.Becomes m' .metadata) : Hears m m' (.result r) []
  | acceptedMutually {r : ResultReport} {c : Challenge} (hv : r.verdict = .pass)
      (hr : m.config.role = .initiator) (hs : m.state = .verdictPending) (hm : m.isMutual = true)
      (hb : m.Becomes m' .challengeIssued) : Hears m m' (.result r) [.challenge c]
  | acceptedOneWay {r : ResultReport} (hv : r.verdict = .pass) (hr : m.config.role = .initiator)
      (hs : m.state = .verdictPending) (hm : m.isMutual = false) (hb : m.Becomes m' .metadata) :
    Hears m m' (.result r) [.metadata ⟨m.config.selfDescription⟩]
  | describedToAcceptor {d : SelfDescription} (hr : m.config.role = .acceptor)
      (hs : m.state = .metadata)
      (hb : { m with metadata := some d.document }.Becomes m' .complete) :
    Hears m m' (.metadata d) [.metadata ⟨m.config.selfDescription⟩]
  | describedToInitiator {d : SelfDescription} (hr : m.config.role = .initiator)
      (hs : m.state = .metadata)
      (hb : { m with metadata := some d.document }.Becomes m' .complete) :
    Hears m m' (.metadata d) []

/-! ## Failing -/

theorem reply_lastEvent (m : Machine) (err : HandshakeError) (e : Option Event) :
    { m with lastEvent := e }.reply? err = m.reply? err := by cases err <;> rfl

/-- A failure changes nothing that matters to the peer but the state. -/
theorem becomes_settle_refuse (m : Machine) (e : Event) (err : HandshakeError) :
    m.Becomes (settle e (m.refuse err)).machine .failed := by
  obtain ⟨n, hn⟩ := m.machine_settle_refuse e err
  rw [hn]
  exact ⟨rfl, rfl, rfl, rfl, rfl, rfl⟩

/-- A failure leaves a machine failed. -/
theorem state_settle_refuse (m : Machine) (e : Event) (err : HandshakeError) :
    (settle e (m.refuse err)).machine.state = .failed :=
  (becomes_settle_refuse m e err).state

theorem actions_settle_refuse (m : Machine) (e : Event) (err : HandshakeError) :
    (settle e (m.refuse err)).actions = ((m.reply? err).map m.outbound).toList := by
  have h := fail_actions { m with lastEvent := some e } err
  rw [reply_lastEvent] at h
  exact h

/-- A reported failure is one frame to the peer. -/
theorem says_settle_refuse {m : Machine} {e : Event} {err : HandshakeError} {q : Payload}
    (hq : m.reply? err = some q) : Says (settle e (m.refuse err)).actions [q] := by
  rw [actions_settle_refuse, hq]
  exact .cons ⟨_, rfl⟩ .nil

theorem says_settle_silent {m : Machine} {e : Event} {err : HandshakeError}
    (hq : m.reply? err = none) : Says (settle e (m.refuse err)).actions [] := by
  rw [actions_settle_refuse, hq]
  exact .nil

/-! ## Hearing -/

/-- The kinds of failure that every peer is told of by an error report. -/
theorem reply_of_code {m : Machine} {err : HandshakeError} {c : ErrorCode}
    (hc : err.code? = some c) : m.reply? err = some (.error ⟨c, err.message⟩) := by
  cases err <;> simp only [HandshakeError.code?, reduceCtorEq, Option.some.injEq] at hc <;>
    (subst hc; rfl)

/-- **Feeding an event is hearing its payload.** -/
theorem feed_hears {m : Machine} (hm : m.state.isTerminal = false) (now : Instant) (nonce : Bytes)
    {e : Event} {p : Payload} (he : e.Carries p) (service : ServiceRequest → Answer) :
    ∃ ps, m.Hears ((m.feed now nonce e).run service).machine p ps ∧
      Says ((m.feed now nonce e).run service).actions ps := by
  obtain ⟨req, pr, tr, hrun⟩ := feed_transition hm now nonce e service
  rw [hrun]
  -- refusals of the noted machine are refusals of `m`
  have hfail : ∀ err, m.Becomes (settle e ((m.noteStart now).refuse err)).machine .failed :=
    fun err =>
      have hb := (m.noteStart now).becomes_settle_refuse e err
      ⟨hb.state, hb.config, hb.isMutual, hb.hasOpened, hb.appraisal, hb.metadata⟩
  have heq : ∀ {q}, e.Carries q → p = q := fun hq => he.2.symm.trans hq.2
  cases tr with
  | malformed h => rw [he.1] at h; cases h
  | peerError h =>
    cases heq h
    exact ⟨[], .told trivial (hfail _), says_settle_silent rfl⟩
  | unexpected h ht =>
    cases heq h
    exact ⟨_, .refused (q := .error _) ht trivial (hfail _) ⟨_, rfl, rfl⟩,
      says_settle_refuse (reply_of_code rfl)⟩
  | unsupported h ht hv =>
    cases heq h
    exact ⟨_, .unsupported (q := .error _) hv trivial (hfail _) ⟨_, rfl, rfl⟩,
      says_settle_refuse (reply_of_code rfl)⟩
  | challenged h ht hv =>
    cases heq h
    exact ⟨_, .challenged ht.1 ht.2 ⟨rfl, rfl, rfl, rfl, rfl, rfl⟩, .cons ⟨_, rfl⟩ .nil⟩
  | @appraisalFailed r reason s h ht hf =>
    cases heq h
    have hb := ((m.noteStart now).appraised (.failed reason s)).becomes_settle_refuse e
      (.attestationFailed reason)
    have hq : (Payload.result (Appraisal.failed reason s).report).IsFatal := fun h => by cases h
    exact ⟨_, .appraisalFailed ht hq
      ⟨hb.state, hb.config, hb.isMutual, hb.hasOpened, hb.appraisal, hb.metadata⟩
      ⟨rfl, _, _, rfl⟩,
      says_settle_refuse rfl⟩
  | passedToAcceptor h ht hr =>
    cases heq h
    exact ⟨_, .passedToAcceptor hr ht ⟨rfl, rfl, rfl, rfl, rfl, rfl⟩, .cons ⟨_, rfl⟩ .nil⟩
  | passedToInitiator h ht hr =>
    cases heq h
    exact ⟨_, .passedToInitiator hr ht ⟨rfl, rfl, rfl, rfl, rfl, rfl⟩,
      .cons ⟨_, rfl⟩ (.cons ⟨_, rfl⟩ .nil)⟩
  | quoteFailed h ht =>
    cases heq h
    exact ⟨_, .unquoted (q := .error _) ht trivial (hfail _) ⟨_, _, rfl, rfl⟩,
      says_settle_refuse (reply_of_code rfl)⟩
  | quoted h ht =>
    cases heq h
    exact ⟨_, .quoted ht ⟨rfl, rfl, rfl, rfl, rfl, rfl⟩, .cons ⟨_, rfl⟩ .nil⟩
  | rejected h ht hv =>
    cases heq h
    exact ⟨[], .told hv (hfail _), says_settle_silent rfl⟩
  | acceptedAcceptor h ht hv hr =>
    cases heq h
    exact ⟨[], .acceptedAcceptor hv hr ht ⟨rfl, rfl, rfl, rfl, rfl, rfl⟩, .nil⟩
  | acceptedMutually h ht hv hr hmut =>
    cases heq h
    exact ⟨_, .acceptedMutually hv hr ht hmut ⟨rfl, rfl, rfl, rfl, rfl, rfl⟩, .cons ⟨_, rfl⟩ .nil⟩
  | acceptedOneWay h ht hv hr hmut =>
    cases heq h
    exact ⟨_, .acceptedOneWay hv hr ht hmut ⟨rfl, rfl, rfl, rfl, rfl, rfl⟩, .cons ⟨_, rfl⟩ .nil⟩
  | describedToAcceptor h ht hr =>
    cases heq h
    exact ⟨_, .describedToAcceptor hr ht ⟨rfl, rfl, rfl, rfl, rfl, rfl⟩, .cons ⟨_, rfl⟩ .nil⟩
  | describedToInitiator h ht hr =>
    cases heq h
    exact ⟨[], .describedToInitiator hr ht ⟨rfl, rfl, rfl, rfl, rfl, rfl⟩, .nil⟩

/-- A tick does nothing, or it fails the machine and reports that. -/
theorem tick_hears (m : Machine) (now : Instant) :
    m.tick now = (m, []) ∨
      m.state.isTerminal = false ∧ m.Becomes (m.tick now).1 .failed ∧
        ∃ q, q.IsFatal ∧ Says (m.tick now).2 [q] ∧ ∃ elapsed, Reports q (.timeOut elapsed) := by
  rcases m.tick_cases now with h | ⟨hm, elapsed, h⟩
  · exact .inl h
  · obtain ⟨n, hn⟩ := m.fail_machine (.timeOut elapsed)
    have ha := m.fail_actions (.timeOut elapsed)
    have hq : m.reply? (.timeOut elapsed) =
        some (.error ⟨.handshakeTimeout, HandshakeError.message (.timeOut elapsed)⟩) := rfl
    rw [hq] at ha
    rw [h, hn, ha]
    exact .inr ⟨hm, ⟨rfl, rfl, rfl, rfl, rfl, rfl⟩, .error _, trivial, .cons ⟨_, rfl⟩ .nil, elapsed,
      _, rfl, rfl⟩

/-! ## What can be heard and said -/

namespace Hears

variable {m m' : Machine} {p : Payload} {ps : List Payload}

/-- What the machine brings to the handshake stays as it is. -/
theorem same (h : m.Hears m' p ps) : m'.config = m.config ∧ m'.hasOpened = m.hasOpened := by
  cases h with
  | told _ hb | quoted _ hb => exact ⟨hb.config, hb.hasOpened⟩
  | refused _ _ hb | unsupported _ _ hb | challenged _ _ hb | unquoted _ _ hb
  | appraisalFailed _ _ hb | passedToAcceptor _ _ hb | passedToInitiator _ _ hb
  | describedToAcceptor _ _ hb | describedToInitiator _ _ hb =>
    exact ⟨hb.config, hb.hasOpened⟩
  | acceptedAcceptor _ _ _ hb => exact ⟨hb.config, hb.hasOpened⟩
  | acceptedMutually _ _ _ _ hb | acceptedOneWay _ _ _ _ hb => exact ⟨hb.config, hb.hasOpened⟩

end Hears

/-! ## How far a machine has to go -/

/-- How far the machine is from the end of its handshake. -/
def rank (m : Machine) : Nat :=
  -- an initiator awaits its verdict before it challenges the peer, an acceptor after that
  match m.state with
  | .hello => if m.config.role = .initiator ∧ m.hasOpened = true then 4 else 5
  | .challengeIssued => if m.config.role = .initiator then 2 else 4
  | .responseReceived => 3
  | .verdictPending => if m.config.role = .initiator then 3 else 2
  | .metadata => 1
  | .complete | .failed => 0

variable {m m' : Machine} {p : Payload} {ps : List Payload}

theorem ne_of_running (hm : m.state.isTerminal = false) :
    m.state ≠ .complete ∧ m.state ≠ .failed := by
  constructor <;>
  · intro h
    rw [h] at hm
    cases hm

theorem rank_pos (hm : m.state.isTerminal = false) : 0 < m.rank := by
  unfold rank
  cases hs : m.state <;> simp_all [HandshakeState.isTerminal] <;> split <;> decide

theorem rank_of_terminal (hm : m.state.isTerminal = true) : m.rank = 0 := by
  unfold rank
  cases hs : m.state <;> simp_all [HandshakeState.isTerminal]

theorem Becomes.rank_failed {a : Option Appraisal}
    (hb : { m with appraisal := a }.Becomes m' .failed) : m'.rank = 0 :=
  rank_of_terminal (by rw [hb.state]; rfl)

/-- **Hearing a message brings a machine further.** -/
theorem Hears.rank_lt (h : m.Hears m' p ps) (hm : m.state.isTerminal = false) :
    m'.rank < m.rank := by
  have hpos := rank_pos hm
  cases h with
  | refused _ _ hb | unsupported _ _ hb | unquoted _ _ hb | appraisalFailed _ _ hb =>
    rwa [hb.rank_failed]
  | told _ hb => rwa [hb.rank_failed]
  | challenged hr hs hb => simp [rank, hs, hb.state, hb.config, hr]
  | quoted ht hb =>
    rcases ht with ⟨hr, hs⟩ | ⟨hr, hs, ho⟩
    · simp [rank, hs, hb.state, hb.config, hr]
    · simp [rank, hs, hb.state, hb.config, hr, ho]
  | passedToAcceptor hr hs hb =>
    cases hmut : m.isMutual <;> simp [rank, hs, hb.state, hr, hmut]
  | passedToInitiator hr hs hb => simp [rank, hs, hb.state, hr]
  | acceptedAcceptor _ hr hs hb => simp [rank, hs, hb.state, hr]
  | acceptedMutually _ hr hs _ hb => simp [rank, hs, hb.state, hb.config, hr]
  | acceptedOneWay _ hr hs _ hb => simp [rank, hs, hb.state, hr]
  | describedToAcceptor hr hs hb => simp [rank, hs, hb.state]
  | describedToInitiator hr hs hb => simp [rank, hs, hb.state]

/-- A machine says two things at most at a time. -/
theorem Hears.length_le (h : m.Hears m' p ps) : ps.length ≤ 2 := by
  cases h <;> simp

end Machine

end AttestedChannel
