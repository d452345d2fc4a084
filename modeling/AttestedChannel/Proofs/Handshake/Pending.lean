import AttestedChannel.Proofs.Handshake.Deadline
import AttestedChannel.Proofs.Handshake.Numbering

/-!
# The challenge that is open

A challenge that the peer has not answered is kept in two places: the machine is in the state
`challengeIssued`, and its coordinator holds the challenge. They change at different times, the
challenge as soon as there is an appraisal and the state when that has been dealt with.

`Pursues` lists what a command can do to the two: both begin, with the challenge in the frame that
is sent, or both end with an appraisal, or the challenge is not touched, and a machine that waits
for the response to it goes on waiting or fails. `pursues_perform` says that there is nothing else.
So in every run a machine that waits for a response holds the challenge that it has sent last
(`Waits`), and no response is ever found to be one to no challenge. A failed appraisal is at hand
when it has to be reported (`appraisal_of_attestationFailed`).
-/

namespace AttestedChannel

/-- The challenges among these frames. -/
def challengesIn (fs : List Frame) : List Frame :=
  fs.filter fun f => f.header.known? == some .attestationChallenge

theorem challengesIn_append (fs gs : List Frame) :
    challengesIn (fs ++ gs) = challengesIn fs ++ challengesIn gs :=
  List.filter_append fs gs

theorem challengesIn_challenge (ch : Challenge) (k : FrameHeader) :
    challengesIn [(Payload.challenge ch).toFrame k] = [(Payload.challenge ch).toFrame k] := by
  rw [challengesIn, List.filter_cons_of_pos (by simp [Payload.known?_toFrame, Payload.messageType]),
    List.filter_nil]

theorem challengesIn_cons_of_ne {p : Payload} (hp : p.messageType ≠ .attestationChallenge)
    (k : FrameHeader) (fs : List Frame) : challengesIn (p.toFrame k :: fs) = challengesIn fs :=
  List.filter_cons_of_neg (by simp [Payload.known?_toFrame, hp])

/-- A response is found to be one to no challenge only if there is none. -/
theorem Coordinator.pending_eq_none_of_run {c c' : Coordinator} {r : Response}
    {service : ServiceRequest → Answer} {s : Option EvidenceSummary}
    (h : (c.appraise r).run service = (c', .failed .noPendingChallenge s)) : c.pending = none := by
  have ha := c.appraises r
  revert h ha
  generalize c.appraise r = x
  intro h ha
  cases ha with
  | unchallenged hp => exact hp
  | malformed | mismatched => cases h
  | @asked p e =>
    -- what the service is asked about is not turned down unasked
    have hreason := congrArg (fun x => x.2.reason) h
    exact absurd (isFoundUnasked_of_conclude hreason) (by decide)

namespace Machine

variable {m m' : Machine} {k : Command} {e : Event} {nonce : Bytes}
  {service : ServiceRequest → Answer} {now : Instant}

/-! ## One command -/

/-- What a machine can do about the challenge that its peer has to answer, and the frames that it
sends then. -/
inductive Pursues (m m' : Machine) (fs : List Frame) : Prop
  | issued {ch : Challenge} {header : FrameHeader} (hs : m'.state = .challengeIssued)
      (hp : m'.coordinator.pending =
        some ⟨ch.nonce, ch.attestationType, ch.attestationType.selection ch.propertyMask⟩)
      (ha : m'.appraisal = m.appraisal)
      (hfs : challengesIn fs = [(Payload.challenge ch).toFrame header])
  | kept (hp : m'.coordinator.pending = m.coordinator.pending) (ha : m'.appraisal = m.appraisal)
      (hs : m'.state = .challengeIssued → m.state = .challengeIssued)
      (hopen : m.state = .challengeIssued ∨ m.state = .failed →
        m'.state = .challengeIssued ∨ m'.state = .failed)
      (hfs : challengesIn fs = [])
  | closed {a : Appraisal} (hs' : m'.state ≠ .challengeIssued)
      (hp : m'.coordinator.pending = none) (ha : m'.appraisal = some a)
      (hs : m.state = .challengeIssued)
      (hr : a.reason = some .noPendingChallenge → m.coordinator.pending = none)
      (hfs : challengesIn fs = [])

namespace Pursues

variable {fs : List Frame}

/-- It is enough that the state and the challenge stay. -/
theorem same (hs : m'.state = m.state) (hc : m'.coordinator = m.coordinator)
    (ha : m'.appraisal = m.appraisal) (hfs : challengesIn fs = []) : Pursues m m' fs :=
  .kept (by rw [hc]) ha (by rw [hs]; exact id) (by rw [hs]; exact id) hfs

/-- A failure may leave the challenge open. -/
theorem failed (hs : m'.state = .failed) (hc : m'.coordinator = m.coordinator)
    (ha : m'.appraisal = m.appraisal) (hfs : challengesIn fs = []) : Pursues m m' fs :=
  .kept (by rw [hc]) ha (fun h => by rw [hs] at h; cases h) (fun _ => .inr hs) hfs

/-- A machine that does not wait for a response may go on, as long as it issues no challenge. -/
theorem passed (hs : m.state ≠ .challengeIssued ∧ m.state ≠ .failed)
    (hs' : m'.state ≠ .challengeIssued) (hc : m'.coordinator = m.coordinator)
    (ha : m'.appraisal = m.appraisal) (hfs : challengesIn fs = []) : Pursues m m' fs :=
  .kept (by rw [hc]) ha (fun h => absurd h hs')
    (fun h => h.elim (fun h => absurd h hs.1) fun h => absurd h hs.2) hfs

/-- The time of the first event does not matter. -/
theorem of_noteStart (h : (m.noteStart now).Pursues m' fs) : m.Pursues m' fs := by
  cases h with
  | issued hs hp ha hfs => exact .issued hs hp ha hfs
  | kept hp ha hs hopen hfs => exact .kept hp ha hs hopen hfs
  | closed hs' hp ha hs hr hfs => exact .closed hs' hp ha hs hr hfs

end Pursues

/-- No failure is reported by a challenge. -/
theorem messageType_of_reply {err : HandshakeError} {p : Payload} (h : m.reply? err = some p) :
    p.messageType ≠ .attestationChallenge := by
  unfold reply? at h
  split at h
  · obtain ⟨a, -, rfl⟩ := Option.map_eq_some_iff.1 h
    exact nofun
  · obtain ⟨r, -, rfl⟩ := Option.map_eq_some_iff.1 h
    exact nofun

theorem challengesIn_report (m : Machine) (err : HandshakeError) :
    challengesIn (sentBy ((m.reply? err).map m.outbound).toList) = [] := by
  cases hq : m.reply? err with
  | none => rfl
  | some p => exact challengesIn_cons_of_ne (messageType_of_reply hq) _ []

theorem challengesIn_settle_refuse (m : Machine) (e : Event) (err : HandshakeError) :
    challengesIn (sentBy (settle e (m.refuse err)).actions) = [] := by
  rw [actions_settle_refuse, challengesIn_report]

theorem pursues_refuse (m : Machine) (e : Event) (err : HandshakeError) :
    m.Pursues (settle e (m.refuse err)).machine (sentBy (settle e (m.refuse err)).actions) :=
  have hb := m.becomes_settle_refuse e err
  .failed hb.state (coordinator_settle_refuse m e err) hb.appraisal
    (m.challengesIn_settle_refuse e err)

/-- A machine that takes another message than a response does not wait for one. -/
theorem Takes.not_waiting {p : Payload} (ht : m.Takes p) (hr : p.messageType ≠ .attestationResponse)
    (he : p.messageType ≠ .error) : m.state ≠ .challengeIssued ∧ m.state ≠ .failed := by
  have hidle : ∀ {s : HandshakeState}, m.state = s → s ≠ .challengeIssued ∧ s ≠ .failed →
      m.state ≠ .challengeIssued ∧ m.state ≠ .failed := by
    rintro s rfl h
    exact h
  cases p with
  | hello h => exact hidle ht.2 (by decide)
  | challenge ch =>
    rcases ht with ⟨-, hs⟩ | ⟨-, hs, -⟩
    · exact hidle hs (by decide)
    · exact hidle hs (by decide)
  | response r => exact absurd rfl hr
  | result r => exact hidle (s := .verdictPending) ht (by decide)
  | metadata d => exact hidle (s := .metadata) ht (by decide)
  | raw b => exact ht.elim
  | error r => exact absurd rfl he

/-- **A transition does one of these things.** -/
theorem Transition.pursues {req : Option ServiceRequest} {pr : Progress}
    (tr : Transition service nonce m e req pr) :
    m.Pursues (settle e pr).machine (sentBy (settle e pr).actions) := by
  have hother : ∀ {p : Payload} (k : FrameHeader), p.messageType ≠ .attestationChallenge →
      challengesIn [p.toFrame k] = [] := fun k hp => challengesIn_cons_of_ne hp k []
  cases tr with
  | malformed | peerError | unexpected | unsupported | quoteFailed | rejected =>
    exact pursues_refuse m e _
  | challenged | acceptedMutually =>
    exact .issued rfl rfl rfl (challengesIn_challenge (m.ownChallenge nonce) _)
  | @appraisalFailed r reason s he ht hf =>
    have hb := (m.appraised (.failed reason s)).becomes_settle_refuse e (.attestationFailed reason)
    have hc := (m.appraised (.failed reason s)).coordinator_settle_refuse e
      (.attestationFailed reason)
    refine .closed (by rw [hb.state]; decide) (by rw [hc]; rfl) hb.appraisal ht (fun hr => ?_)
      (challengesIn_settle_refuse _ e _)
    cases hr
    exact Coordinator.pending_eq_none_of_run hf
  | passedToAcceptor he ht =>
    refine .closed ?_ rfl rfl ht nofun (hother (p := .result _) _ nofun)
    show (if m.isMutual = true then HandshakeState.responseReceived else .metadata) ≠ _
    split <;> decide
  | passedToInitiator he ht =>
    refine .closed nofun rfl rfl ht nofun ?_
    exact (challengesIn_cons_of_ne (p := .result _) nofun _ _).trans
      (hother (p := .metadata _) _ nofun)
  | quoted he ht =>
    exact .passed (ht.not_waiting nofun nofun) nofun rfl rfl (hother (p := .response _) _ nofun)
  | acceptedAcceptor he ht | describedToInitiator he ht =>
    exact .passed (ht.not_waiting nofun nofun) nofun rfl rfl rfl
  | acceptedOneWay he ht | describedToAcceptor he ht =>
    exact .passed (ht.not_waiting nofun nofun) nofun rfl rfl (hother (p := .metadata _) _ nofun)

/-- **A command does one of these things**, unless it is a reset. -/
theorem pursues_perform (m : Machine) (hk : k.isReset = false) :
    m.Pursues (m.perform k).after (sentBy (m.perform k).actions) := by
  cases k with
  | start now =>
    rcases m.start_cases now with ⟨err, h⟩ | ⟨-, h⟩ | ⟨-, -, -, h⟩
    · rw [perform_start_error h]
      exact .same rfl rfl rfl rfl
    · rw [perform_start_ok h]
      exact .same rfl rfl rfl rfl
    · rw [perform_start_ok h]
      exact .same rfl rfl rfl (challengesIn_cons_of_ne (p := .hello _) nofun _ [])
  | feed now nonce service e =>
    show m.Pursues ((m.feed now nonce e).run service).machine
      (sentBy ((m.feed now nonce e).run service).actions)
    cases hm : m.state.isTerminal with
    | true =>
      rw [feed_of_terminal hm]
      exact .same rfl rfl rfl rfl
    | false =>
      obtain ⟨req, pr, tr, hrun⟩ := feed_transition hm now nonce e service
      rw [hrun]
      exact tr.pursues.of_noteStart
  | abandon now =>
    show m.Pursues (m.abandon now) []
    unfold abandon
    split <;> exact .same rfl rfl rfl rfl
  | tick now =>
    show m.Pursues (m.tick now).1 (sentBy (m.tick now).2)
    rcases m.tick_cases now with h | ⟨-, elapsed, h⟩
    · rw [h]
      exact .same rfl rfl rfl rfl
    · obtain ⟨n, hn⟩ := m.fail_machine (.timeOut elapsed)
      have hfs := m.challengesIn_report (.timeOut elapsed)
      rw [h, fail_actions, hn]
      exact .failed rfl rfl rfl hfs
  | reset => cases hk

/-! ## Runs -/

/-- A machine that waits for a response holds the challenge that was sent last among these moments,
and no other machine but one that has failed holds any. -/
structure Waits (h : List Moment) (m : Machine) : Prop where
  issued : m.state = .challengeIssued → ∃ (ch : Challenge) (header : FrameHeader),
    (challengesIn (sentDuring h)).getLast? = some ((Payload.challenge ch).toFrame header) ∧
      m.coordinator.pending =
        some ⟨ch.nonce, ch.attestationType, ch.attestationType.selection ch.propertyMask⟩
  held : m.coordinator.pending.isSome = true → m.state = .challengeIssued ∨ m.state = .failed
  challenged : ∀ a, m.appraisal = some a → a.reason ≠ some .noPendingChallenge

namespace Waits

variable {h : List Moment}

/-- Nothing is asked of a machine in the first state, whatever was sent before. -/
theorem fresh (hs : m.state = .hello) (hp : m.coordinator.pending = none)
    (ha : m.appraisal = none) : Waits h m where
  issued h := by rw [hs] at h; cases h
  held h := by rw [hp] at h; cases h
  challenged a h := by rw [ha] at h; cases h

/-- **A command keeps the machine and its challenge together.** -/
theorem perform (hw : Waits h m) (hk : k.isReset = false) :
    Waits (h ++ [m.perform k]) (m.perform k).after := by
  have hp := m.pursues_perform hk
  constructor
  · intro hs'
    rw [sentDuring_concat, challengesIn_append]
    cases hp with
    | @issued ch header hs hp ha hfs =>
      exact ⟨ch, header, by rw [hfs, List.getLast?_concat], hp⟩
    | kept hp ha hs hopen hfs =>
      obtain ⟨ch, header, hlast, hpend⟩ := hw.issued (hs hs')
      exact ⟨ch, header, by rw [hfs, List.append_nil, hlast], hp.trans hpend⟩
    | closed hn => exact absurd hs' hn
  · intro hsome
    cases hp with
    | issued hs => exact .inl hs
    | kept hp ha hs hopen => exact hopen (hw.held (by rwa [hp] at hsome))
    | closed hn hp =>
      rw [hp] at hsome
      cases hsome
  · intro a ha' hreason
    cases hp with
    | issued hs hp ha => exact hw.challenged a (ha ▸ ha') hreason
    | kept hp ha => exact hw.challenged a (ha ▸ ha') hreason
    | closed hn hp ha hs hr =>
      -- the challenge is still there while the machine waits
      obtain ⟨ch, header, -, hpend⟩ := hw.issued hs
      cases ha.symm.trans ha'
      rw [hr hreason] at hpend
      cases hpend

end Waits

/-- **Every run keeps the machine and its challenge together.** -/
theorem waits_run (c : Config) (cs : List Command) :
    Waits ((ofConfig c).log cs) ((ofConfig c).run cs) := by
  induction cs using List.reverseRec with
  | nil => exact .fresh rfl rfl rfl
  | append_singleton cs k ih =>
    rw [log_concat, run_concat]
    cases hk : k.isReset with
    | false => exact ih.perform hk
    | true =>
      cases k <;> simp only [Command.isReset, reduceCtorEq] at hk
      exact .fresh rfl rfl rfl

/-- **A failed appraisal is at hand when it is reported.** -/
theorem appraisal_of_attestationFailed {reason : FailureReason} (hm : m.state.isTerminal = false)
    (hf : (((m.noteStart now).transition nonce e).run service).outcome =
      .error (.attestationFailed reason)) :
    ∃ s, ((m.feed now nonce e).run service).machine.appraisal = some (.failed reason s) ∧
      ((m.feed now nonce e).run service).actions =
        [m.outbound (.result (Appraisal.failed reason s).report)] := by
  rw [feed_run_of_running hm]
  have tr := (m.noteStart now).transition_run nonce e service
  revert hf tr
  generalize ((m.noteStart now).transition nonce e).run service = pr
  generalize ((m.noteStart now).transition nonce e).request? = req
  intro hf tr
  cases tr with
  | @appraisalFailed r reason' s =>
    cases hf
    have hb := ((m.noteStart now).appraised (.failed reason s)).becomes_settle_refuse e
      (.attestationFailed reason)
    exact ⟨s, hb.appraisal, actions_settle_of_reply rfl⟩
  | malformed | peerError | unexpected | unsupported | quoteFailed | rejected | challenged
  | passedToAcceptor | passedToInitiator | quoted | acceptedAcceptor | acceptedMutually
  | acceptedOneWay | describedToAcceptor | describedToInitiator => cases hf

end Machine

open Machine

/-- **A machine that waits for a response holds the challenge that it has sent last.** This is so in
every run, resets included: the open challenge is over the nonce of that challenge, for its type and
for the selection that it makes, and no machine holds one that neither waits for a response nor has
failed. An initiator that is past the first state and has not failed has opened the handshake, and
the time is kept from the opening or from the first event on. So no response is ever found to be one
to no challenge, and when a verification fails, the appraisal is there and is what the one frame
reports that goes out. -/
theorem open_challenge_is_last_sent (c : Config) (cs : List Command) :
    let m := (ofConfig c).run cs
    (m.state = .challengeIssued → ∃ ch header p,
      (challengesIn (sentDuring ((ofConfig c).log cs))).getLast? =
        some ((Payload.challenge ch).toFrame header) ∧
      m.coordinator.pending = some p ∧ p.nonce = ch.nonce ∧
      p.attestationType = ch.attestationType ∧
      p.mask = ch.attestationType.selection ch.propertyMask) ∧
    (m.coordinator.pending.isSome = true → m.state = .challengeIssued ∨ m.state = .failed) ∧
    (c.role = .initiator → m.state ≠ .hello → m.state ≠ .failed → m.hasOpened = true) ∧
    (m.state ≠ .hello ∨ m.hasOpened = true → m.startedAt.isSome = true) ∧
    (∀ a, m.appraisal = some a → a.reason ≠ some .noPendingChallenge) ∧
    ∀ now nonce service e reason, m.state.isTerminal = false →
      (((m.noteStart now).transition nonce e).run service).outcome =
        .error (.attestationFailed reason) →
      let t := (m.feed now nonce e).run service
      reason ≠ .noPendingChallenge ∧
        (∃ a, t.machine.appraisal = some a ∧ a.RecordsFailure reason) ∧
        t.actions = [m.outbound (.result ⟨.fail, some reason.name⟩)] := by
  intro m
  have hw : Waits ((ofConfig c).log cs) m := waits_run c cs
  refine ⟨fun hs => ?_, hw.held, fun hr hs hf => ?_, isSome_startedAt_run c cs, hw.challenged,
    fun now nonce service e reason hm hf => ?_⟩
  · obtain ⟨ch, header, hlast, hpend⟩ := hw.issued hs
    exact ⟨ch, header, _, hlast, hpend, rfl, rfl, rfl⟩
  · refine (coherent_run c cs).hasOpened ?_ hs hf
    rw [run_config]
    exact hr
  · obtain ⟨s, ha, hactions⟩ := appraisal_of_attestationFailed hm hf
    -- the delivery is a run that is one command longer
    have hnext := waits_run c (cs ++ [.feed now nonce service e])
    rw [run_concat] at hnext
    exact ⟨fun hreason => hnext.challenged _ ha (congrArg some hreason),
      ⟨_, ha, Appraisal.recordsFailure_failed reason s⟩, hactions⟩

/-- An acceptor holds its challenge while it waits, and still does when it has waited for too long.
A response over another nonce fails for that, and the peer is told so. An initiator that has shown
its evidence has opened the handshake and keeps the time. -/
theorem plainCommands_hold_challenge :
    let m := (ofConfig (plainConfig .acceptor)).run (plainCommands.take 1)
    let late := (ofConfig (plainConfig .acceptor)).run
      (plainCommands.take 1 ++ [.tick 100000000000])
    let r : Event := ⟨[], .response ⟨[5], (plainEvidence [5]).encode⟩, none⟩
    let opened := (ofConfig plainMutual).run plainOpening
    (∃ (ch : Challenge) (header : FrameHeader) (p : OpenChallenge),
      (challengesIn (sentDuring ((ofConfig (plainConfig .acceptor)).log
        (plainCommands.take 1)))).getLast? = some ((Payload.challenge ch).toFrame header) ∧
      m.coordinator.pending = some p ∧ p.nonce = ch.nonce) ∧
    (late.coordinator.pending.isSome = true ∧
      (late.state = .challengeIssued ∨ late.state = .failed)) ∧
    (((m.feed 1 [] r).run plainService).actions =
        [m.outbound (.result ⟨.fail, some "nonce-mismatch"⟩)] ∧
      ∀ a, ((m.feed 1 [] r).run plainService).machine.appraisal = some a →
        a.reason ≠ some .noPendingChallenge) ∧
    opened.hasOpened = true ∧ opened.startedAt.isSome = true := by
  intro m late r opened
  obtain ⟨hwaits, -, -, -, -, hfails⟩ :=
    open_challenge_is_last_sent (plainConfig .acceptor) (plainCommands.take 1)
  obtain ⟨-, hheld, -⟩ := open_challenge_is_last_sent (plainConfig .acceptor)
    (plainCommands.take 1 ++ [.tick 100000000000])
  obtain ⟨-, -, -, -, hnever, -⟩ := open_challenge_is_last_sent (plainConfig .acceptor)
    (plainCommands.take 1 ++ [.feed 1 [] plainService r])
  obtain ⟨-, -, hopened, htime, -⟩ := open_challenge_is_last_sent plainMutual plainOpening
  have hopen : opened.hasOpened = true := hopened rfl (by decide +kernel) (by decide +kernel)
  have hlate : late.coordinator.pending.isSome = true := by decide +kernel
  obtain ⟨ch, header, p, hlast, hp, hnonce, -⟩ := hwaits (by decide +kernel)
  refine ⟨⟨ch, header, p, hlast, hp, hnonce⟩, ⟨hlate, hheld hlate⟩, ⟨?_, ?_⟩, hopen,
    htime (.inr hopen)⟩
  · have hrunning : m.state.isTerminal = false := by decide +kernel
    have hmismatch : (((m.noteStart 1).transition [] r).run plainService).outcome =
        .error (.attestationFailed .nonceMismatch) := by decide +kernel
    exact (hfails 1 [] plainService r .nonceMismatch hrunning hmismatch).2.2
  · rw [run_concat] at hnever
    exact hnever

end AttestedChannel
