import AttestedChannel.Proofs.Handshake.Coherence

/-!
# A reset is a fresh start

A reset leaves nothing of the handshake behind: whatever a machine has been through, after a reset
it is the machine of its configuration before anything has happened (`reset_run`), and so it does
from then on what that one does. The only field that a reset takes over besides the configuration
holds the expected values, and no command changes them; `trust_run` knows that.

A response that passes answers a challenge of the same handshake (`challenges_of_passes`), so one to
an earlier challenge does not pass unless its nonce is drawn again.
-/

namespace AttestedChannel

/-- The machine is fed this response and passes its peer for it. -/
def Moment.Passes (x : Moment) (r : Response) : Prop :=
  x.Receives (.response r) ∧ ¬ x.before.HasPassedPeer ∧ x.after.HasPassedPeer

namespace Machine

variable {m : Machine} {c : Config}

/-- **The invariant of trust holds of every run.** -/
theorem trust_run (c : Config) (cs : List Command) :
    Trust c (sinceReset ((ofConfig c).log cs)) ((ofConfig c).run cs) := by
  refine run_induction c (Trust.fresh rfl rfl rfl rfl) (fun h m hi => ?_) (fun h m k hk hi => ?_) cs
  · exact Trust.fresh hi.config hi.expected rfl rfl
  · exact hi.perform k hk

/-- A reset keeps the configuration and the expected values, and nothing else. -/
theorem reset_eq_ofConfig (hc : m.config = c)
    (he : m.coordinator.expected = c.expectedMeasurements) : m.reset = ofConfig c := by
  subst hc
  simp only [reset, ofConfig, Coordinator.reset, Coordinator.ofExpected, he]

/-- **After any run a reset leaves the machine of the configuration.** -/
theorem reset_run (c : Config) (cs : List Command) : ((ofConfig c).run cs).reset = ofConfig c :=
  reset_eq_ofConfig (trust_run c cs).config (trust_run c cs).expected

/-- An entry of a log is what its command did to the machine of that moment. -/
theorem log_eq_append_cons {cs : List Command} {past later : List Moment} {x : Moment}
    (he : m.log cs = past ++ x :: later) :
    ∃ ds k, m.log ds = past ∧ (m.run ds).perform k = x := by
  induction past generalizing m cs with
  | nil =>
    cases cs with
    | nil => cases he
    | cons k cs => exact ⟨[], k, rfl, (List.cons.inj he).1⟩
  | cons y past ih =>
    cases cs with
    | nil => cases he
    | cons k cs =>
      obtain ⟨hy, he⟩ := List.cons.inj he
      obtain ⟨ds, j, hds, hj⟩ := ih he
      refine ⟨k :: ds, j, ?_, hj⟩
      rw [log, hds, hy]

/-! ## What a response that passes answers -/

/-- A failure does not pass the peer. -/
theorem not_hasPassedPeer_refuse (hn : ¬ m.HasPassedPeer) (e : Event) (err : HandshakeError) :
    ¬ (settle e (m.refuse err)).machine.HasPassedPeer := by
  rwa [HasPassedPeer, (becomes_settle_refuse m e err).appraisal]

theorem not_hasPassedPeer_of_failed {reason : FailureReason} {s : Option EvidenceSummary}
    (h : m.appraisal = some (.failed reason s)) : ¬ m.HasPassedPeer := by
  rintro ⟨a, ha, hp⟩
  cases h.symm.trans ha
  cases hp

/-- A response that passes answers the open challenge. -/
theorem answers_of_passes {k : Command} {r : Response} (h : (m.perform k).Passes r) :
    ∃ p e, m.coordinator.pending = some p ∧ Coordinator.Answers p r e := by
  obtain ⟨⟨now, nonce, service, e, hk, he⟩, hn, hp⟩ := h
  rw [perform_before] at hn
  rw [perform_command] at hk
  subst hk
  replace hp : ((m.feed now nonce e).run service).machine.HasPassedPeer := hp
  cases ht : m.state.isTerminal with
  | true =>
    rw [feed_of_terminal ht] at hp
    exact absurd hp hn
  | false =>
    obtain ⟨req, pr, tr, hrun⟩ := feed_transition ht now nonce e service
    rw [hrun] at hp
    cases tr with
    | malformed | peerError | unexpected | unsupported | quoteFailed | rejected =>
      exact absurd hp (not_hasPassedPeer_refuse (m := m.noteStart now) hn _ _)
    | appraisalFailed =>
      refine absurd hp (not_hasPassedPeer_refuse ?_ _ _)
      exact not_hasPassedPeer_of_failed (m := (m.noteStart now).appraised _) rfl
    | passedToAcceptor hr _ _ hpend ha | passedToInitiator hr _ _ hpend ha =>
      cases he.2.symm.trans hr.2
      exact ⟨_, _, hpend, ha⟩
    | challenged | quoted | acceptedAcceptor | acceptedMutually | acceptedOneWay
    | describedToAcceptor | describedToInitiator => exact absurd hp hn

/-- **A response that passes answers a challenge that was issued since the last reset**, over the
nonce that was drawn for it. -/
theorem challenges_of_passes {cs : List Command} {past later : List Moment} {y : Moment}
    {r : Response} (he : (ofConfig c).log cs = past ++ y :: later) (hy : y.Passes r) :
    ∃ x ∈ sinceReset past, x.Challenges c r.nonce := by
  obtain ⟨ds, k, rfl, rfl⟩ := log_eq_append_cons he
  obtain ⟨p, e, hp, ha⟩ := answers_of_passes hy
  rw [ha.nonce]
  exact ((trust_run c ds).pending p hp).2.2

end Machine

open Machine

/-- **A reset is a fresh start.** Whatever a machine has been through, after a reset it does in
every further run what the machine of its configuration does: each command has the same result, the
same actions and the same request to the measurement service, uses its nonce or not, and leaves the
same machine. And whenever it passes its peer for a response, it has drawn the nonce of that
response for a challenge since the last reset. -/
theorem reset_is_fresh_start (c : Config) (cs ds : List Command) :
    (((ofConfig c).run cs).reset.log ds = (ofConfig c).log ds ∧
      ∀ now, (((ofConfig c).run cs).reset.run ds).start now =
        ((ofConfig c).run ds).start now) ∧
    ∀ past y later r, ((ofConfig c).run cs).reset.log ds = past ++ y :: later → y.Passes r →
      ∃ x ∈ sinceReset past, x.Challenges c r.nonce := by
  rw [reset_run]
  exact ⟨⟨rfl, fun _ => rfl⟩, fun past y later r he hy => challenges_of_passes he hy⟩

/-- An acceptor that has passed its peer is reset and goes through the same again. It passes the
response to the first challenge once more, but only because the nonce is drawn once more. -/
theorem plainCommands_restart :
    let c := plainConfig .acceptor
    ((ofConfig c).run plainCommands).reset.log plainCommands = (ofConfig c).log plainCommands ∧
      (((ofConfig c).run plainCommands).reset.run plainCommands).HasPassedPeer ∧
      ∃ x ∈ sinceReset ((ofConfig c).log (plainCommands.take 1)), x.Challenges c [2, 3] := by
  intro c
  obtain ⟨⟨hlog, -⟩, hfresh⟩ := reset_is_fresh_start c plainCommands plainCommands
  obtain ⟨hn, hp⟩ : ((ofConfig c).run (plainCommands.take 1)).appraisal = none ∧
      ((ofConfig c).run plainCommands).appraisal =
        some (.passed (.ofEvidence (plainEvidence [2, 3]))) := by
    decide +kernel
  have hpass : ((ofConfig c).run plainCommands).HasPassedPeer := hasPassedPeer_of_passed hp
  refine ⟨hlog, by rwa [reset_run], ?_⟩
  refine hfresh _ _ [] ⟨[2, 3], (plainEvidence [2, 3]).encode⟩ hlog ⟨?_, ?_, hpass⟩
  · exact ⟨1, [], plainService, _, rfl, rfl, rfl⟩
  · rintro ⟨a, ha, -⟩
    cases hn.symm.trans ha

end AttestedChannel
