import AttestedChannel.Proofs.Handshake.Hearing
import AttestedChannel.Proofs.Handshake.Trust

/-!
# What the fields of a machine say about each other

A machine that has come about by running is *coherent*: unless it has failed, it has passed its peer
if it treats it as attested and has no appraisal of it otherwise, and an initiator that has opened
the handshake keeps to the kind of attestation that it is configured for, whatever its peer would
like. Hearing a payload keeps this (`Coherent.hears`), and so does every command
(`Coherent.perform`), so it holds of every run (`coherent_run`).

`Does` lists what a command can do as far as the peer can notice; `perform_does` says that this is
all there is. So no command but a reset leads away from the end of the handshake
(`rank_perform_le`).
-/

namespace AttestedChannel.Machine

/-! ## What a command can do -/

/-- A command, a reset apart, leaves the machine where it is, opens the handshake, has it hear a
payload, or makes it fail for a reason of its own. -/
inductive Does (m : Machine) (x : Moment) : Prop
  | idle (hb : m.Becomes x.after m.state) (ha : ∀ f, .send f ∉ x.actions)
  | opened {h : Hello} (hr : m.config.role = .initiator) (hs : m.state = .hello)
      (ho : m.hasOpened = false)
      (hb : { m with isMutual := m.config.mutualAttestation, hasOpened := true }.Becomes x.after
        .hello)
      (ha : Says x.actions [.hello h])
  | heard {p : Payload} {ps : List Payload} (hm : m.state.isTerminal = false) (hp : x.Receives p)
      (hh : m.Hears x.after p ps) (ha : Says x.actions ps)
  | broken {q : Payload} (hm : m.state.isTerminal = false) (hq : q.IsFatal)
      (hb : m.Becomes x.after .failed) (ha : Says x.actions [q]) (he : ∃ err, Reports q err)

/-- **A command does one of these things.** -/
theorem perform_does (m : Machine) (k : Command) (hk : k.isReset = false) :
    m.Does (m.perform k) := by
  cases k with
  | start now =>
    rcases m.start_cases now with ⟨err, h⟩ | ⟨-, h⟩ | ⟨hr, hs, ho, h⟩
    · rw [perform_start_error h]
      exact .idle ⟨rfl, rfl, rfl, rfl, rfl, rfl⟩ (by simp)
    · rw [perform_start_ok h]
      exact .idle ⟨rfl, rfl, rfl, rfl, rfl, rfl⟩ (by simp)
    · rw [perform_start_ok h]
      exact .opened hr hs ho ⟨hs, rfl, rfl, rfl, rfl, rfl⟩ (.cons ⟨_, rfl⟩ .nil)
  | feed now nonce service e =>
    cases ht : m.state.isTerminal with
    | true =>
      have hf := congrArg (Exchange.run service) (feed_of_terminal ht now nonce e)
      refine .idle ?_ ?_
      · show m.Becomes ((m.feed now nonce e).run service).machine m.state
        rw [hf]
        exact ⟨rfl, rfl, rfl, rfl, rfl, rfl⟩
      · intro f
        show .send f ∉ ((m.feed now nonce e).run service).actions
        rw [hf]
        simp [Exchange.run]
    | false =>
      cases hf : e.fault with
      | none =>
        obtain ⟨ps, hh, ha⟩ := feed_hears ht now nonce ⟨hf, rfl⟩ service
        exact .heard ht ⟨now, nonce, service, e, rfl, hf, rfl⟩ hh ha
      | some f =>
        have hrun := feed_run_of_running ht now nonce e service
        rw [transition, hf] at hrun
        have hb := becomes_settle_refuse (m.noteStart now) e (.malformedFrame f)
        have hsays : Says ((m.feed now nonce e).run service).actions
            [.error ⟨.malformedFrame, (HandshakeError.malformedFrame f).message⟩] := by
          rw [hrun]
          exact says_settle_refuse (reply_of_code rfl)
        refine .broken ht (q := .error _) trivial ?_ hsays ⟨.malformedFrame f, _, rfl, rfl⟩
        show m.Becomes ((m.feed now nonce e).run service).machine .failed
        rw [hrun]
        exact ⟨hb.state, hb.config, hb.isMutual, hb.hasOpened, hb.appraisal, hb.metadata⟩
  | abandon now =>
    refine .idle ?_ (by simp [Machine.perform])
    show m.Becomes (m.abandon now) m.state
    unfold abandon
    split <;> exact ⟨rfl, rfl, rfl, rfl, rfl, rfl⟩
  | tick now =>
    rcases m.tick_hears now with h | ⟨ht, hb, q, hq, ha, elapsed, he⟩
    · refine .idle ?_ ?_
      · show m.Becomes (m.tick now).1 m.state
        rw [h]
        exact ⟨rfl, rfl, rfl, rfl, rfl, rfl⟩
      · intro f
        show .send f ∉ (m.tick now).2
        rw [h]
        simp
    · exact .broken ht hq hb ha ⟨_, he⟩
  | reset => cases hk

/-- No command changes the configuration. -/
@[simp] theorem perform_config (m : Machine) (k : Command) :
    (m.perform k).after.config = m.config := by
  cases hk : k.isReset with
  | true => cases k <;> first | rfl | cases hk
  | false =>
    cases m.perform_does k hk with
    | idle hb | opened _ _ _ hb | broken _ _ hb => exact hb.config
    | heard _ _ hh => exact hh.same.1

@[simp] theorem run_config (m : Machine) (cs : List Command) : (m.run cs).config = m.config := by
  induction cs using List.reverseRec with
  | nil => rfl
  | append_singleton cs k ih => rw [run_concat, perform_config, ih]

/-! ### How far it brings the machine -/

/-- No command but a reset leads away from the end of the handshake. -/
theorem rank_perform_le (m : Machine) (hk : k.isReset = false) :
    (m.perform k).after.rank ≤ m.rank := by
  cases m.perform_does k hk with
  | idle hb =>
    refine Nat.le_of_eq ?_
    unfold rank
    rw [hb.state, hb.config, hb.hasOpened]
  | opened hr hs ho hb => simp [rank, hs, ho, hb.state, hb.hasOpened, hr]
  | heard hm _ hh => exact Nat.le_of_lt (hh.rank_lt hm)
  | broken _ _ hb =>
    rw [Becomes.rank_failed hb]
    exact Nat.zero_le _

/-- A running machine that hears a message gets nearer to the end of its handshake. -/
theorem rank_perform_lt {m : Machine} {k : Command} {p : Payload}
    (hm : m.state.isTerminal = false) (hr : (m.perform k).Receives p) :
    (m.perform k).after.rank < m.rank := by
  obtain ⟨now, nonce, service, e, hk, he⟩ := hr
  rw [perform_command] at hk
  subst hk
  obtain ⟨ps, hh, -⟩ := feed_hears hm now nonce he service
  exact hh.rank_lt hm

/-! ## Coherence -/

/-- Whether the machine has attested its peer and passed it. -/
def HasPassedPeer (m : Machine) : Prop := ∃ a, m.appraisal = some a ∧ a.isPass = true

/-- What the fields of a machine say about each other. -/
structure Coherent (m : Machine) : Prop where
  passed : m.TrustsPeer → m.HasPassedPeer
  unappraised : ¬ m.TrustsPeer → m.state ≠ .failed → m.appraisal = none
  opened : m.config.role = .initiator → m.state = .hello ∨ m.state = .failed ∨ m.hasOpened = true
  keepsMutual : m.config.role = .initiator → m.hasOpened = true →
    m.isMutual = m.config.mutualAttestation
  challenging : m.config.role = .initiator → m.state = .challengeIssued → m.isMutual = true

theorem trustsPeer_iff {m : Machine} :
    m.TrustsPeer ↔
      (m.config.role = .acceptor ∧ (m.state = .responseReceived ∨ m.state = .verdictPending ∨
        m.state = .metadata ∨ m.state = .complete)) ∨
      (m.config.role = .initiator ∧ m.isMutual = true ∧
        (m.state = .metadata ∨ m.state = .complete)) := by
  unfold TrustsPeer
  cases m.config.role <;> simp

theorem not_trustsPeer_of_failed {m : Machine} (hs : m.state = .failed) : ¬ m.TrustsPeer := by
  rw [trustsPeer_iff, hs]
  simp

theorem hasPassedPeer_of_passed {m : Machine} {s : EvidenceSummary}
    (h : m.appraisal = some (.passed s)) : m.HasPassedPeer :=
  ⟨_, h, rfl⟩

namespace Coherent

variable {m m' : Machine}

/-- A machine in the first state has no appraisal and trusts nobody. -/
theorem fresh (hs : m.state = .hello) (ho : m.hasOpened = false) (ha : m.appraisal = none) :
    m.Coherent where
  passed ht := by simp [trustsPeer_iff, hs] at ht
  unappraised _ _ := ha
  opened _ := .inl hs
  keepsMutual _ h := by rw [ho] at h; cases h
  challenging _ h := by rw [hs] at h; cases h

/-- Nothing is asked of a failed machine but the kind of attestation. -/
theorem failed (hm : m.Coherent) (hs : m'.state = .failed) (hc : m'.config = m.config)
    (ho : m'.hasOpened = m.hasOpened) (hmu : m'.isMutual = m.isMutual) : m'.Coherent where
  passed ht := absurd ht (not_trustsPeer_of_failed hs)
  unappraised _ hn := absurd hs hn
  opened _ := .inr (.inl hs)
  keepsMutual := by
    rw [hc, ho, hmu]
    exact hm.keepsMutual
  challenging _ h := by rw [hs] at h; cases h

/-- Only these fields matter. -/
theorem frame (hm : m.Coherent) (hc : m'.config = m.config) (hs : m'.state = m.state)
    (ho : m'.hasOpened = m.hasOpened) (hmu : m'.isMutual = m.isMutual)
    (ha : m'.appraisal = m.appraisal) : m'.Coherent := by
  have ht : m'.TrustsPeer ↔ m.TrustsPeer := by rw [trustsPeer_iff, trustsPeer_iff, hc, hs, hmu]
  constructor
  · intro h
    rw [HasPassedPeer, ha]
    exact hm.passed (ht.1 h)
  · rw [ht, hs, ha]
    exact hm.unappraised
  · rw [hc, hs, ho]
    exact hm.opened
  · rw [hc, ho, hmu]
    exact hm.keepsMutual
  · rw [hc, hs, hmu]
    exact hm.challenging

/-- An initiator that is past the first state has opened the handshake. -/
theorem hasOpened (hm : m.Coherent) (hr : m.config.role = .initiator) (hs : m.state ≠ .hello)
    (hs' : m.state ≠ .failed) : m.hasOpened = true := by
  rcases hm.opened hr with h | h | h
  · exact absurd h hs
  · exact absurd h hs'
  · exact h

/-- What is left to show when a machine that has opened the handshake goes on to a state. -/
theorem advanced (hm : m.Coherent) (hc : m'.config = m.config) (ho : m'.hasOpened = m.hasOpened)
    (hmu : m'.isMutual = m.isMutual) (hopen : m.config.role = .initiator → m.hasOpened = true)
    (happ : (m'.TrustsPeer ∧ m'.HasPassedPeer) ∨ (¬ m'.TrustsPeer ∧ m'.appraisal = none))
    (hch : m'.state = .challengeIssued → m.isMutual = true) : m'.Coherent := by
  constructor
  · intro h
    rcases happ with ⟨-, hp⟩ | ⟨hn, -⟩
    · exact hp
    · exact absurd h hn
  · intro hn _
    rcases happ with ⟨h, -⟩ | ⟨-, ha⟩
    · exact absurd h hn
    · exact ha
  · intro hr
    rw [hc] at hr
    rw [ho]
    exact .inr (.inr (hopen hr))
  · rw [hc, ho, hmu]
    exact hm.keepsMutual
  · intro _ hs
    rw [hmu]
    exact hch hs

/-- **Hearing a payload keeps a machine coherent.** -/
theorem hears (hm : m.Coherent) {p : Payload} {ps : List Payload} (h : m.Hears m' p ps) :
    m'.Coherent := by
  cases h with
  | told _ hb | refused _ _ hb | unsupported _ _ hb | unquoted _ _ hb | appraisalFailed _ _ hb =>
    exact hm.failed hb.state hb.config hb.hasOpened hb.isMutual
  | challenged hr hs hb =>
    obtain ⟨hs', hc, -, -, ha, -⟩ := hb
    have hr' : m'.config.role = .acceptor := by rw [hc]; exact hr
    have hn : ¬ m.TrustsPeer := by simp [trustsPeer_iff, hr, hs]
    have hnone : m'.appraisal = none := by
      rw [ha]
      exact hm.unappraised hn (by rw [hs]; decide)
    constructor
    · simp [trustsPeer_iff, hr', hs']
    · exact fun _ _ => hnone
    all_goals simp [hr']
  | quoted ht hb =>
    obtain ⟨hs', hc, hmu, ho, ha, -⟩ := hb
    refine hm.advanced hc ho hmu ?_ ?_ (by simp [hs'])
    · intro hr
      rcases ht with ⟨hr', -⟩ | ⟨-, -, ho⟩
      · rw [hr'] at hr; cases hr
      · exact ho
    · rcases ht with ⟨hr, hs⟩ | ⟨hr, hs, -⟩
      · have hp := hm.passed (trustsPeer_acceptor hr (.inl hs))
        exact .inl ⟨trustsPeer_acceptor (hc ▸ hr) (.inr (.inl hs')), by rwa [HasPassedPeer, ha]⟩
      · refine .inr ⟨by simp [trustsPeer_iff, hc, hr, hs'], ?_⟩
        rw [ha]
        exact hm.unappraised (by simp [trustsPeer_iff, hr, hs]) (by simp [hs])
  | passedToAcceptor hr hs hb =>
    obtain ⟨hs', hc, hmu, ho, ha, -⟩ := hb
    refine hm.advanced hc ho hmu (by simp [hr]) (.inl ⟨?_, hasPassedPeer_of_passed ha⟩) ?_
    · refine trustsPeer_acceptor (hc ▸ hr) ?_
      rw [hs']
      cases m.isMutual <;> simp
    · rw [hs']
      cases m.isMutual <;> simp
  | passedToInitiator hr hs hb =>
    obtain ⟨hs', hc, hmu, ho, ha, -⟩ := hb
    refine hm.advanced hc ho hmu (fun _ => hm.hasOpened hr (by simp [hs]) (by simp [hs]))
      (.inl ⟨?_, hasPassedPeer_of_passed ha⟩) (by simp [hs'])
    exact trustsPeer_initiator (hc ▸ hr) (hmu.trans (hm.challenging hr hs)) hs'
  | acceptedAcceptor hv hr hs hb =>
    obtain ⟨hs', hc, hmu, ho, ha, -⟩ := hb
    have hp := hm.passed (trustsPeer_acceptor hr (.inr (.inl hs)))
    refine hm.advanced hc ho hmu (by simp [hr]) (.inl ⟨?_, by rwa [HasPassedPeer, ha]⟩)
      (by simp [hs'])
    exact trustsPeer_acceptor (hc ▸ hr) (.inr (.inr hs'))
  | acceptedMutually hv hr hs hmut hb =>
    obtain ⟨hs', hc, hmu, ho, ha, -⟩ := hb
    refine hm.advanced hc ho hmu (fun _ => hm.hasOpened hr (by simp [hs]) (by simp [hs]))
      (.inr ⟨by simp [trustsPeer_iff, hc, hr, hs'], ?_⟩) (fun _ => hmut)
    rw [ha]
    exact hm.unappraised (by simp [trustsPeer_iff, hr, hs]) (by simp [hs])
  | acceptedOneWay hv hr hs hmut hb =>
    obtain ⟨hs', hc, hmu, ho, ha, -⟩ := hb
    refine hm.advanced hc ho hmu (fun _ => hm.hasOpened hr (by simp [hs]) (by simp [hs]))
      (.inr ⟨by simp [trustsPeer_iff, hc, hr, hmu, hmut], ?_⟩) (by simp [hs'])
    rw [ha]
    exact hm.unappraised (by simp [trustsPeer_iff, hr, hs]) (by simp [hs])
  | describedToAcceptor hr hs hb =>
    obtain ⟨hs', hc, hmu, ho, ha, -⟩ := hb
    have hp := hm.passed (trustsPeer_acceptor hr (.inr (.inr hs)))
    refine hm.advanced hc ho hmu (by simp [hr]) (.inl ⟨?_, by rwa [HasPassedPeer, ha]⟩)
      (by simp [hs'])
    simp [trustsPeer_iff, hc, hr, hs']
  | describedToInitiator hr hs hb =>
    obtain ⟨hs', hc, hmu, ho, ha, -⟩ := hb
    refine hm.advanced hc ho hmu (fun _ => hm.hasOpened hr (by simp [hs]) (by simp [hs])) ?_
      (by simp [hs'])
    have ht : m'.TrustsPeer ↔ m.TrustsPeer := by simp [trustsPeer_iff, hc, hr, hs, hs', hmu]
    by_cases h : m.TrustsPeer
    · exact .inl ⟨ht.2 h, by rw [HasPassedPeer, ha]; exact hm.passed h⟩
    · exact .inr ⟨fun h' => h (ht.1 h'), by rw [ha]; exact hm.unappraised h (by simp [hs])⟩

/-- **Every command keeps a machine coherent.** -/
theorem perform (hm : m.Coherent) (k : Command) : (m.perform k).after.Coherent := by
  cases hk : k.isReset with
  | true =>
    cases k <;> simp only [Command.isReset, reduceCtorEq] at hk
    exact fresh rfl rfl rfl
  | false =>
    cases m.perform_does k hk with
    | idle hb => exact hm.frame hb.config hb.state hb.hasOpened hb.isMutual hb.appraisal
    | heard _ _ hh => exact hm.hears hh
    | broken _ _ hb => exact hm.failed hb.state hb.config hb.hasOpened hb.isMutual
    | opened hr hs _ hb =>
      obtain ⟨hs', hc, hmu, ho, ha, -⟩ := hb
      have hn : ¬ m.TrustsPeer := by simp [trustsPeer_iff, hr, hs]
      constructor
      · simp [trustsPeer_iff, hs']
      · intro _ _
        rw [ha]
        exact hm.unappraised hn (by simp [hs])
      · exact fun _ => .inl hs'
      · intro _ _
        rw [hmu, hc]
      · simp [hs']

end Coherent

/-- **Every run of a configuration is coherent.** -/
theorem coherent_run (c : Config) (cs : List Command) : ((ofConfig c).run cs).Coherent := by
  induction cs using List.reverseRec with
  | nil => exact .fresh rfl rfl rfl
  | append_singleton cs k ih =>
    rw [run_concat]
    exact ih.perform k

/-- Each moment of a run is that of a command to a machine that has come about by running. -/
theorem exists_of_mem_log {c : Config} {cs : List Command} {x : Moment}
    (hx : x ∈ (ofConfig c).log cs) :
    ∃ (m : Machine) (k : Command), k ∈ cs ∧ x = m.perform k ∧ m.Coherent ∧ m.config = c := by
  induction cs using List.reverseRec with
  | nil => cases hx
  | append_singleton cs k ih =>
    rw [log_concat] at hx
    rcases List.mem_append.1 hx with hx | hx
    · obtain ⟨m, k, hk, hrest⟩ := ih hx
      exact ⟨m, k, List.mem_append_left _ hk, hrest⟩
    · exact ⟨_, k, by simp, List.mem_singleton.1 hx, coherent_run c cs, run_config _ cs⟩

/-- A machine that has passed its peer does not take this back, unless it is reset. -/
theorem HasPassedPeer.perform {m : Machine} (hp : m.HasPassedPeer) (hm : m.Coherent) {k : Command}
    (hk : k.isReset = false) : (m.perform k).after.HasPassedPeer := by
  have keep : ∀ {m' : Machine}, m'.appraisal = m.appraisal → m'.HasPassedPeer := by
    intro m' ha
    rwa [HasPassedPeer, ha]
  cases m.perform_does k hk with
  | idle hb | opened _ _ _ hb | broken _ _ hb => exact keep hb.appraisal
  | heard _ _ hh =>
    revert hh
    generalize (m.perform k).after = m'
    intro hh
    cases hh with
    | refused _ _ hb | unsupported _ _ hb | challenged _ _ hb | unquoted _ _ hb
    | describedToAcceptor _ _ hb | describedToInitiator _ _ hb => exact keep hb.appraisal
    | told _ hb | quoted _ hb => exact keep hb.appraisal
    | acceptedAcceptor _ _ _ hb => exact keep hb.appraisal
    | acceptedMutually _ _ _ _ hb | acceptedOneWay _ _ _ _ hb => exact keep hb.appraisal
    | passedToAcceptor _ _ hb | passedToInitiator _ _ hb =>
      exact hasPassedPeer_of_passed hb.appraisal
    | appraisalFailed hs =>
      -- a machine that waits for a response has no appraisal
      obtain ⟨a, ha, -⟩ := hp
      rw [hm.unappraised (by simp [trustsPeer_iff, hs]) (by simp [hs])] at ha
      cases ha

end AttestedChannel.Machine
