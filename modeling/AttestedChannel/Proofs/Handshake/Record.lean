import AttestedChannel.Proofs.Handshake.Coherence
import AttestedChannel.Proofs.Payload.RoundTrip
import AttestedChannel.Proofs.Payload.Size

/-!
# What a machine keeps of its peer

A machine keeps two things of its peer, an appraisal and a self-description. Each of them is written
once, unless the machine is reset. The appraisal is reported to the peer when it is written, and at
no other time; the self-description is that of the message that completes the handshake.

`Hears.appraisal_cases` and `Hears.metadata_cases` say it of what a machine can hear,
`appraisal_perform` and `metadata_perform` of a command, and `results_are_written_once` of a run.
-/

namespace AttestedChannel

/-- The frames that report a verdict to the peer. -/
def Moment.reports (x : Moment) : List Frame :=
  (sentBy x.actions).filter fun f => f.header.known? == some .attestationResult

/-- Whether the payload is a verdict. -/
def Payload.isReport (p : Payload) : Bool := p.messageType == .attestationResult

/-- Whether the appraisal has a verdict, and a reason if it is a bad one. -/
def Appraisal.IsTruthful (a : Appraisal) : Prop :=
  (a.verdict = .pass ↔ a.reason = none) ∧ a.verdict ≠ .indeterminate

theorem Appraisal.isTruthful_passed (s : EvidenceSummary) : (passed s).IsTruthful := by
  constructor <;> simp [passed]

theorem Appraisal.isTruthful_failed (r : FailureReason) (s : Option EvidenceSummary) :
    (failed r s).IsTruthful := by
  constructor <;> simp [failed]

/-- What is said of a verdict is what is reported. -/
theorem forall₂_reports {x : Moment} {ps : List Payload} (h : Says x.actions ps) :
    List.Forall₂ (fun f p => ∃ k, f = Payload.toFrame p k) x.reports
      (ps.filter Payload.isReport) := by
  refine List.rel_filter ?_ (forall₂_sentBy h)
  rintro f p ⟨k, rfl⟩
  simp [Payload.known?_toFrame, Payload.isReport]

/-! ## Written once -/

section

variable {α : Type} [DecidableEq α] (field : Machine → Option α)

/-- Whether the moment writes a field. -/
def Moment.writes (x : Moment) : Bool := decide (field x.after ≠ field x.before)

/-- A field that is only ever written when there is nothing in it is written once at most. -/
theorem Machine.countP_writes (m : Machine) (cs : List Command)
    (h : ∀ x ∈ m.log cs, x.writes field = true → field x.before = none ∧ field x.after ≠ none) :
    (m.log cs).countP (·.writes field) + (field m).toList.length =
      (field (m.run cs)).toList.length := by
  induction cs generalizing m with
  | nil => exact Nat.zero_add _
  | cons k cs ih =>
    have hi := ih (m.perform k).after fun x hx => h x (List.mem_cons_of_mem _ hx)
    have hk := h _ List.mem_cons_self
    show List.countP _ (m.perform k :: (m.perform k).after.log cs) + _ =
      (field ((m.perform k).after.run cs)).toList.length
    rw [List.countP_cons, ← hi]
    cases hw : (m.perform k).writes field with
    | true =>
      obtain ⟨hb, ha⟩ := hk hw
      rw [Machine.perform_before] at hb
      obtain ⟨v, hv⟩ := Option.ne_none_iff_exists'.1 ha
      simp [hb, hv]
    | false =>
      have hsame : field (m.perform k).after = field m := by
        simpa [Moment.writes] using hw
      simp [hsame]

theorem Machine.countP_writes_le_one (m : Machine) (cs : List Command)
    (h : ∀ x ∈ m.log cs, x.writes field = true → field x.before = none ∧ field x.after ≠ none) :
    (m.log cs).countP (·.writes field) ≤ 1 := by
  have hc := Machine.countP_writes field m cs h
  have hl : (field (m.run cs)).toList.length ≤ 1 := by
    cases field (m.run cs) <;> simp
  omega

end

namespace Machine

variable {m m' : Machine} {p : Payload} {ps : List Payload}

/-! ## One message -/

/-- A machine reports the appraisal that it writes, and it writes one only while it waits for a
response. -/
theorem Hears.appraisal_cases (h : m.Hears m' p ps) :
    (m'.appraisal = m.appraisal ∧ ps.filter Payload.isReport = []) ∨
      m.state = .challengeIssued ∧ ∃ a : Appraisal, m'.appraisal = some a ∧ a.IsTruthful ∧
        ps.filter Payload.isReport = [.result a.report] := by
  cases h with
  | refused _ _ hb he | unsupported _ _ hb he =>
    obtain ⟨c, -, rfl⟩ := he
    exact .inl ⟨hb.appraisal, rfl⟩
  | unquoted _ _ hb he =>
    obtain ⟨reason, c, -, rfl⟩ := he
    exact .inl ⟨hb.appraisal, rfl⟩
  | told _ hb | quoted _ hb => exact .inl ⟨hb.appraisal, rfl⟩
  | challenged _ _ hb | describedToAcceptor _ _ hb | describedToInitiator _ _ hb =>
    exact .inl ⟨hb.appraisal, rfl⟩
  | acceptedAcceptor _ _ _ hb => exact .inl ⟨hb.appraisal, rfl⟩
  | acceptedMutually _ _ _ _ hb | acceptedOneWay _ _ _ _ hb => exact .inl ⟨hb.appraisal, rfl⟩
  | appraisalFailed hs _ hb he =>
    obtain ⟨rfl, reason, s, rfl⟩ := he
    exact .inr ⟨hs, _, hb.appraisal, Appraisal.isTruthful_failed reason s, rfl⟩
  | passedToAcceptor _ hs hb | passedToInitiator _ hs hb =>
    exact .inr ⟨hs, _, hb.appraisal, Appraisal.isTruthful_passed _, rfl⟩

/-- A machine writes the self-description that completes the handshake. -/
theorem Hears.metadata_cases (h : m.Hears m' p ps) :
    (m'.metadata = m.metadata ∧ m'.state ≠ .complete) ∨
      m'.state = .complete ∧ ∃ d, p = .metadata ⟨d⟩ ∧ m'.metadata = some d := by
  cases h with
  | refused _ _ hb | unsupported _ _ hb | unquoted _ _ hb | appraisalFailed _ _ hb
  | challenged _ _ hb | passedToInitiator _ _ hb =>
    exact .inl ⟨hb.metadata, by rw [hb.state]; decide⟩
  | told _ hb | quoted _ hb => exact .inl ⟨hb.metadata, by rw [hb.state]; decide⟩
  | acceptedAcceptor _ _ _ hb => exact .inl ⟨hb.metadata, by rw [hb.state]; decide⟩
  | acceptedMutually _ _ _ _ hb | acceptedOneWay _ _ _ _ hb =>
    exact .inl ⟨hb.metadata, by rw [hb.state]; decide⟩
  | passedToAcceptor _ _ hb =>
    refine .inl ⟨hb.metadata, ?_⟩
    rw [hb.state]
    split <;> decide
  | describedToAcceptor _ _ hb | describedToInitiator _ _ hb =>
    exact .inr ⟨hb.state, _, rfl, hb.metadata⟩

end Machine

/-! ## One moment -/

namespace Moment

/-- The appraisal is written at this moment: there was none, and it is what the one frame that
reports a verdict carries. -/
def WritesAppraisal (x : Moment) (a : Appraisal) : Prop :=
  x.before.appraisal = none ∧ x.after.appraisal = some a ∧
    ∃ h, x.reports = [(Payload.result a.report).toFrame h] ∧
      Payload.ofFrame ((Payload.result a.report).toFrame h) = .ok (.result a.report)

/-- The self-description is written at this moment: there was none, and it is that of the message
that completes the handshake. -/
def WritesMetadata (x : Moment) (d : String) : Prop :=
  x.before.metadata = none ∧ x.after.metadata = some d ∧ x.before.state ≠ .complete ∧
    x.after.state = .complete ∧ x.Receives (.metadata ⟨d⟩)

end Moment

namespace Machine

/-- What a machine keeps of its peer is in order. -/
structure KeepsRecord (m : Machine) : Prop where
  truthful : ∀ a, m.appraisal = some a → a.IsTruthful
  described : m.metadata.isSome = true ↔ m.state = .complete

variable {m : Machine} {k : Command}

/-- What happens to the appraisal at one moment. -/
theorem appraisal_perform (hm : m.Coherent) (hk : k.isReset = false) :
    ((m.perform k).after.appraisal = m.appraisal ∧ (m.perform k).reports = []) ∨
      ∃ a, (m.perform k).WritesAppraisal a ∧ a.IsTruthful := by
  unfold Moment.WritesAppraisal
  rw [perform_before]
  cases m.perform_does k hk with
  | idle hb ha =>
    refine .inl ⟨hb.appraisal, ?_⟩
    rw [Moment.reports, sentBy_eq_nil ha]
    rfl
  | opened _ _ _ hb ha =>
    exact .inl ⟨hb.appraisal, List.forall₂_nil_right_iff.1 (forall₂_reports ha)⟩
  | broken _ _ hb ha he =>
    obtain ⟨err, c, -, rfl⟩ := he
    exact .inl ⟨hb.appraisal, List.forall₂_nil_right_iff.1 (forall₂_reports ha)⟩
  | heard hrun hp hh ha =>
    have hr := forall₂_reports ha
    rcases hh.appraisal_cases with ⟨hsame, hnil⟩ | ⟨hs, a, happ, htrue, hps⟩
    · rw [hnil] at hr
      exact .inl ⟨hsame, List.forall₂_nil_right_iff.1 hr⟩
    · rw [hps] at hr
      obtain ⟨f, fs, ⟨h, rfl⟩, hfs, hl⟩ := List.forall₂_cons_right_iff.1 hr
      rw [List.forall₂_nil_right_iff.1 hfs] at hl
      -- a machine that waits for a response has no appraisal
      have hnone : m.appraisal = none :=
        hm.unappraised (by simp [trustsPeer_iff, hs]) (by rw [hs]; decide)
      refine .inr ⟨a, ⟨hnone, happ, _, hl, Payload.ofFrame_toFrame ?_ h⟩, htrue⟩
      exact Nat.lt_of_le_of_lt a.length_encode_report_le (by decide)

/-- What happens to the self-description at one moment. -/
theorem metadata_perform (hm : m.KeepsRecord) (hk : k.isReset = false) :
    ((m.perform k).after.metadata = m.metadata ∧
      ((m.perform k).after.state = .complete ↔ m.state = .complete)) ∨
      ∃ d, (m.perform k).WritesMetadata d := by
  unfold Moment.WritesMetadata
  rw [perform_before]
  cases m.perform_does k hk with
  | idle hb => exact .inl ⟨hb.metadata, by rw [hb.state]⟩
  | opened _ hs _ hb => exact .inl ⟨hb.metadata, by rw [hb.state, hs]⟩
  | broken hrun _ hb =>
    exact .inl ⟨hb.metadata, by simp [hb.state, (ne_of_running hrun).1]⟩
  | heard hrun hp hh =>
    have hn := (ne_of_running hrun).1
    rcases hh.metadata_cases with ⟨hsame, hs⟩ | ⟨hs, d, rfl, hd⟩
    · exact .inl ⟨hsame, by simp [hs, hn]⟩
    · -- only a machine that has completed the handshake has a self-description
      have hnone : m.metadata = none := by
        rw [← Option.not_isSome_iff_eq_none, hm.described]
        exact hn
      exact .inr ⟨d, hnone, hd, hn, hs, hp⟩

/-! ## Runs -/

theorem keepsRecord_ofConfig (c : Config) : (ofConfig c).KeepsRecord where
  truthful _ h := by cases h
  described := by simp [ofConfig]

/-- **A command keeps the record in order.** -/
theorem KeepsRecord.perform (hr : m.KeepsRecord) (hm : m.Coherent) (hk : k.isReset = false) :
    (m.perform k).after.KeepsRecord where
  truthful a ha := by
    rcases appraisal_perform hm hk with ⟨hsame, -⟩ | ⟨b, hb, htrue⟩
    · exact hr.truthful a (hsame ▸ ha)
    · cases hb.2.1.symm.trans ha
      exact htrue
  described := by
    rcases metadata_perform hr hk with ⟨hsame, hs⟩ | ⟨d, -, hd, -, hs, -⟩
    · rw [hsame, hs]
      exact hr.described
    · simp [hd, hs]

/-- Each moment of a run without a reset is that of a command to a machine with its record in
order. -/
theorem keepsRecord_run (c : Config) {cs : List Command} (hcs : ∀ k ∈ cs, k.isReset = false) :
    ((ofConfig c).run cs).KeepsRecord ∧ ∀ x ∈ (ofConfig c).log cs,
      ∃ (m : Machine) (k : Command), x = m.perform k ∧ k.isReset = false ∧ m.Coherent ∧
        m.KeepsRecord := by
  induction cs using List.reverseRec with
  | nil => exact ⟨keepsRecord_ofConfig c, fun x hx => by cases hx⟩
  | append_singleton cs k ih =>
    obtain ⟨hr, hlog⟩ := ih fun k' h => hcs k' (List.mem_append_left _ h)
    have hk := hcs k (by simp)
    have hm := coherent_run c cs
    rw [run_concat, log_concat]
    refine ⟨hr.perform hm hk, fun x hx => ?_⟩
    rcases List.mem_append.1 hx with hx | hx
    · exact hlog x hx
    · exact ⟨_, k, List.mem_singleton.1 hx, hk, hm, hr⟩

end Machine

open Machine

/-- **What a machine keeps of its peer is written once and reported truthfully.** In a run without a
reset the appraisal and the self-description are each written at one moment at most, and only where
there was none. A frame that reports a verdict is sent exactly when the appraisal is written, and it
carries the appraisal. The self-description is that of the message that completes the handshake. At
every point of the run the appraisal is a pass if and only if it gives no reason, it is never left
open, and there is a self-description if and only if the handshake is complete. -/
theorem results_are_written_once (c : Config) (cs : List Command)
    (hcs : ∀ k ∈ cs, k.isReset = false) :
    ((ofConfig c).log cs).countP (·.writes appraisal) ≤ 1 ∧
    ((ofConfig c).log cs).countP (·.writes metadata) ≤ 1 ∧
    (∀ x ∈ (ofConfig c).log cs,
      ((x.after.appraisal = x.before.appraisal ∧ x.reports = []) ∨ ∃ a, x.WritesAppraisal a) ∧
      ((x.after.metadata = x.before.metadata ∧
          (x.after.state = .complete ↔ x.before.state = .complete)) ∨ ∃ d, x.WritesMetadata d)) ∧
    (∀ a, ((ofConfig c).run cs).appraisal = some a →
      (a.verdict = .pass ↔ a.reason = none) ∧ a.verdict ≠ .indeterminate) ∧
    (((ofConfig c).run cs).metadata.isSome = true ↔ ((ofConfig c).run cs).state = .complete) := by
  obtain ⟨hrun, hlog⟩ := keepsRecord_run c hcs
  have hcases : ∀ x ∈ (ofConfig c).log cs,
      ((x.after.appraisal = x.before.appraisal ∧ x.reports = []) ∨ ∃ a, x.WritesAppraisal a) ∧
      ((x.after.metadata = x.before.metadata ∧
          (x.after.state = .complete ↔ x.before.state = .complete)) ∨ ∃ d, x.WritesMetadata d) := by
    intro x hx
    obtain ⟨m, k, rfl, hk, hm, hr⟩ := hlog x hx
    rw [perform_before]
    exact ⟨(appraisal_perform hm hk).imp_right fun ⟨a, ha, _⟩ => ⟨a, ha⟩, metadata_perform hr hk⟩
  refine ⟨?_, ?_, hcases, hrun.truthful, hrun.described⟩
  · refine countP_writes_le_one _ _ _ fun x hx hw => ?_
    rcases (hcases x hx).1 with ⟨hsame, -⟩ | ⟨a, hb, ha, -⟩
    · exact absurd hsame (of_decide_eq_true hw)
    · exact ⟨hb, by rw [ha]; exact Option.some_ne_none a⟩
  · refine countP_writes_le_one _ _ _ fun x hx hw => ?_
    rcases (hcases x hx).2 with ⟨hsame, -⟩ | ⟨d, hb, hd, -⟩
    · exact absurd hsame (of_decide_eq_true hw)
    · exact ⟨hb, by rw [hd]; exact Option.some_ne_none d⟩

/-- An acceptor is opened to, challenges, is sent evidence, shows its own, is told that it has
passed, and is sent a self-description. -/
def plainCourse : List Command :=
  plainCommands ++
    [.feed 2 [] plainService ⟨[], .challenge ⟨[5], .advanced, .single 0⟩, none⟩,
      .feed 3 [] plainService ⟨[], .result ⟨.pass, none⟩, none⟩,
      .feed 4 [] plainService ⟨[], .metadata ⟨"initiator"⟩, none⟩]

/-- The acceptor reports what it makes of the evidence, and has a self-description in the end. -/
theorem plainCourse_recorded :
    (∃ x ∈ (ofConfig (plainConfig .acceptor)).log plainCourse, ∃ a, x.WritesAppraisal a) ∧
    ((ofConfig (plainConfig .acceptor)).run plainCourse).metadata.isSome = true := by
  obtain ⟨-, -, hcases, -, hdescribed⟩ :=
    results_are_written_once (plainConfig .acceptor) plainCourse (by decide)
  constructor
  · have hx : ((ofConfig (plainConfig .acceptor)).run (plainCourse.take 1)).perform
        (.feed 1 [] plainService ⟨[], .response ⟨[2, 3], (plainEvidence [2, 3]).encode⟩, none⟩) ∈
        (ofConfig (plainConfig .acceptor)).log plainCourse := .tail _ (.head _)
    refine ⟨_, hx, (hcases _ hx).1.resolve_left fun h => ?_⟩
    have hne : (((ofConfig (plainConfig .acceptor)).run (plainCourse.take 1)).perform
        (.feed 1 [] plainService
          ⟨[], .response ⟨[2, 3], (plainEvidence [2, 3]).encode⟩, none⟩)).writes appraisal =
        true := by decide +kernel
    exact of_decide_eq_true hne h.1
  · exact hdescribed.2 (by decide +kernel)

end AttestedChannel
