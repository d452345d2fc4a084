import AttestedChannel.Proofs.Dialogue.Moves
import AttestedChannel.Proofs.Handshake.Trust

/-!
# Agreement of two honest machines

Whatever the order of deliveries and whichever clock runs out: an initiator that has completed the
handshake talks to an acceptor that has, each knows the self-description of the other, both have
the same idea of what was attested, and the appraisals say so (`agreement`).

`Machine.Advances` is what a machine may do at most in one move, with what it hears and says. The
invariant `Agreement` ties the two machines and the messages between them together; that advances
keep it is shown once (`Agreement.acted`), and that every rule of a dialogue is an advance is shown
rule by rule (`Hears.advances` and its neighbours).
-/

namespace AttestedChannel

namespace Machine

/-- Whether the machine is through with attestation, or has failed. -/
def Settled (m : Machine) : Prop :=
  m.state = .metadata ∨ m.state = .complete ∨ m.state = .failed

/-- The machine knows whether both sides attest: an initiator since it opened the handshake, an
acceptor since it has heard of it. -/
def MutualFits (mutually : Bool) (m : Machine) : Prop :=
  match m.config.role with
  | .initiator =>
    (m.hasOpened = true → m.isMutual = mutually) ∧
      (m.state = .hello ∨ m.state = .failed ∨ m.hasOpened = true)
  | .acceptor => m.state = .hello ∨ m.state = .failed ∨ m.isMutual = mutually

/-- The appraisal of the peer has happened as far as it should have, and then it has passed. -/
def AppraisalFits (m : Machine) : Prop :=
  match m.config.role, m.state with
  | .initiator, .hello | .initiator, .verdictPending => m.appraisal = none
  | .initiator, .challengeIssued => m.isMutual = true
  | .initiator, .metadata | .initiator, .complete =>
    if m.isMutual then ∃ s, m.appraisal = some (.passed s) else m.appraisal = none
  | .acceptor, .responseReceived | .acceptor, .verdictPending | .acceptor, .metadata
  | .acceptor, .complete => ∃ s, m.appraisal = some (.passed s)
  | _, _ => True

/-- What a machine may do in one move, with the payload it hears and those it says. -/
structure Advances (m m' : Machine) (heard : Option Payload) (said : List Payload) : Prop where
  config : m'.config = m.config
  settled : m.Settled → m'.Settled
  /-- a machine that has completed stays as it is -/
  stays : m.state = .complete → m'.state = .complete ∧ m'.metadata = m.metadata
  completes : m'.state = .complete →
    m.state = .complete ∨ ∃ d, heard = some (.metadata d) ∧ m'.metadata = some d.document
  opens : ∀ h, .hello h ∈ said →
    m.config.role = .initiator ∧ h.mutualAttestation = m.config.mutualAttestation
  describes : ∀ d, .metadata d ∈ said → d.document = m.config.selfDescription ∧
    (m.config.role = .initiator → m'.Settled) ∧ (m.config.role = .acceptor → m'.state = .complete)
  mutualFits : ∀ mutually,
    (m.config.role = .acceptor → ∀ h, heard = some (.hello h) → h.mutualAttestation = mutually) →
    (m.config.role = .initiator → m.config.mutualAttestation = mutually) →
    m.MutualFits mutually → m'.MutualFits mutually
  appraisalFits : m.AppraisalFits → m'.AppraisalFits

variable {m m' : Machine} {p q : Payload} {ps : List Payload}

/-- Fatal payloads open nothing and describe nobody. -/
theorem not_mem_of_fatal {P : Prop} (hq : q.IsFatal) :
    (∀ h, Payload.hello h ∈ [q] → P) ∧ ∀ d, Payload.metadata d ∈ [q] → P := by
  constructor <;>
  · intro x hx
    cases List.mem_singleton.1 hx
    exact hq.elim

/-- Failing is an advance of a running machine, whatever it has heard. -/
theorem Becomes.advances_failed {a : Option Appraisal}
    (hb : { m with appraisal := a }.Becomes m' .failed) (hm : m.state.isTerminal = false)
    (heard : Option Payload) (hps : ps = [] ∨ ∃ q, q.IsFatal ∧ ps = [q]) :
    m.Advances m' heard ps where
  config := hb.config
  settled _ := .inr (.inr hb.state)
  stays h := by rw [h] at hm; cases hm
  completes h := by rw [hb.state] at h; cases h
  opens h hh := by
    rcases hps with rfl | ⟨q, hq, rfl⟩
    · cases hh
    · exact (not_mem_of_fatal hq).1 h hh
  describes d hd := by
    rcases hps with rfl | ⟨q, hq, rfl⟩
    · cases hd
    · exact (not_mem_of_fatal hq).2 d hd
  mutualFits mutually _ _ h := by
    have hc : m'.config = m.config := hb.config
    have ho : m'.hasOpened = m.hasOpened := hb.hasOpened
    have hm : m'.isMutual = m.isMutual := hb.isMutual
    unfold MutualFits at h ⊢
    rw [hc, hb.state, ho, hm]
    split at h
    · exact ⟨h.1, .inr (.inl rfl)⟩
    · exact .inr (.inl rfl)
  appraisalFits _ := by
    unfold AppraisalFits
    rw [hb.state]
    cases m'.config.role <;> exact trivial

/-- An advance that neither begins after attestation nor completes the handshake. -/
theorem Advances.of_not_settled {heard : Option Payload} (hc : m'.config = m.config)
    (hm : ¬ m.Settled) (hn : m'.state ≠ .complete) (hopens : ∀ h, .hello h ∉ ps)
    (hdescribes : ∀ d, .metadata d ∈ ps → d.document = m.config.selfDescription ∧
      m.config.role = .initiator ∧ m'.state = .metadata)
    (hmutual : ∀ mutually,
      (m.config.role = .acceptor → ∀ h, heard = some (.hello h) → h.mutualAttestation = mutually) →
      m.MutualFits mutually → m'.MutualFits mutually)
    (happraisal : m.AppraisalFits → m'.AppraisalFits) : m.Advances m' heard ps where
  config := hc
  settled h := absurd h hm
  stays h := absurd (.inr (.inl h)) hm
  completes h := absurd h hn
  opens h hh := absurd hh (hopens h)
  describes d hd := by
    obtain ⟨hdoc, hr, hs⟩ := hdescribes d hd
    exact ⟨hdoc, fun _ => .inl hs, fun ha => by rw [hr] at ha; cases ha⟩
  mutualFits mutually hh _ := hmutual mutually hh
  appraisalFits := happraisal

theorem not_settled {s : HandshakeState} (hs : m.state = s)
    (h : s ≠ .metadata ∧ s ≠ .complete ∧ s ≠ .failed) : ¬ m.Settled := by
  subst hs
  rintro (hs | hs | hs)
  · exact h.1 hs
  · exact h.2.1 hs
  · exact h.2.2 hs

theorem mutualFits_acceptor {mutually : Bool} (hr : m.config.role = .acceptor) :
    m.MutualFits mutually ↔ m.state = .hello ∨ m.state = .failed ∨ m.isMutual = mutually := by
  unfold MutualFits
  rw [hr]

theorem mutualFits_initiator {mutually : Bool} (hr : m.config.role = .initiator) :
    m.MutualFits mutually ↔ (m.hasOpened = true → m.isMutual = mutually) ∧
      (m.state = .hello ∨ m.state = .failed ∨ m.hasOpened = true) := by
  unfold MutualFits
  rw [hr]

/-- Past its first state a machine knows whether both sides attest, and keeps to it. -/
theorem MutualFits.mono {mutually : Bool} (h : m.MutualFits mutually)
    (hc : m'.config = m.config) (hm : m'.isMutual = m.isMutual) (ho : m'.hasOpened = m.hasOpened)
    (hs : m.state ≠ .hello ∧ m.state ≠ .failed ∨ m.hasOpened = true ∧
      m.config.role = .initiator) : m'.MutualFits mutually := by
  cases hr : m.config.role with
  | acceptor =>
    have hr' : m'.config.role = .acceptor := by rw [hc, hr]
    rw [mutualFits_acceptor hr] at h
    rw [mutualFits_acceptor hr', hm]
    rcases hs with ⟨h₁, h₂⟩ | ⟨-, hi⟩
    · exact .inr (.inr ((h.resolve_left h₁).resolve_left h₂))
    · cases hr.symm.trans hi
  | initiator =>
    have hr' : m'.config.role = .initiator := by rw [hc, hr]
    rw [mutualFits_initiator hr] at h
    rw [mutualFits_initiator hr', hm, ho]
    rcases hs with ⟨h₁, h₂⟩ | ⟨ho, -⟩
    · exact ⟨h.1, .inr (.inr ((h.2.resolve_left h₁).resolve_left h₂))⟩
    · exact ⟨h.1, .inr (.inr ho)⟩

/-- **Hearing a message is an advance.** -/
theorem Hears.advances (h : m.Hears m' p ps) (hm : m.state.isTerminal = false) :
    m.Advances m' (some p) ps := by
  cases h with
  | refused _ hq hb | unsupported _ hq hb | unquoted _ hq hb | appraisalFailed _ hq hb =>
    exact hb.advances_failed hm _ (.inr ⟨_, hq, rfl⟩)
  | told _ hb => exact hb.advances_failed hm _ (.inl rfl)
  | @challenged h c hr hs hb =>
    refine .of_not_settled hb.config (not_settled hs (by decide)) (by rw [hb.state]; decide)
      (by simp) (by simp) (fun mutually hh _ => ?_) fun _ => ?_
    · have hr' : m'.config.role = .acceptor := hb.config ▸ hr
      rw [mutualFits_acceptor hr', hb.isMutual]
      exact .inr (.inr (hh hr h rfl))
    · simp only [AppraisalFits, hb.state, hb.config, hr]
  | @quoted c r ht hb =>
    refine .of_not_settled hb.config ?_ (by rw [hb.state]; decide) (by simp) (by simp)
      (fun mutually _ hmut => ?_) fun hap => ?_
    · rcases ht with ⟨-, hs⟩ | ⟨-, hs, -⟩ <;> exact not_settled hs (by decide)
    · refine hmut.mono hb.config hb.isMutual hb.hasOpened ?_
      rcases ht with ⟨-, hs⟩ | ⟨hr, -, ho⟩
      · exact .inl (by rw [hs]; decide)
      · exact .inr ⟨ho, hr⟩
    · rcases ht with ⟨hr, hs⟩ | ⟨hr, hs, -⟩
      · simpa only [AppraisalFits, hb.state, hb.config, hb.appraisal, hr, hs] using hap
      · simpa only [AppraisalFits, hb.state, hb.config, hb.appraisal, hr, hs] using hap
  | @passedToAcceptor r s hr hs hb =>
    refine .of_not_settled hb.config (not_settled hs (by decide)) ?_ (by simp) (by simp)
      (fun mutually _ hmut => ?_) fun _ => ?_
    · rw [hb.state]
      split <;> decide
    · exact hmut.mono hb.config hb.isMutual hb.hasOpened (.inl (by rw [hs]; decide))
    · cases hmut : m.isMutual <;>
        simp [AppraisalFits, hb.state, hb.config, hb.appraisal, hr, hmut]
  | @passedToInitiator r s hr hs hb =>
    refine .of_not_settled hb.config (not_settled hs (by decide)) (by rw [hb.state]; decide)
      (by simp) (fun d hd => ?_) (fun mutually _ hmut => ?_) fun hap => ?_
    · -- the initiator describes itself in the same move, and is through with attestation then
      simp only [List.mem_cons, reduceCtorEq, Payload.metadata.injEq, List.not_mem_nil, or_false,
        false_or] at hd
      exact ⟨by rw [hd], hr, hb.state⟩
    · exact hmut.mono hb.config hb.isMutual hb.hasOpened (.inl (by rw [hs]; decide))
    · -- only if both sides attest does an initiator wait for a response
      have hmut : m.isMutual = true := by simpa only [AppraisalFits, hr, hs] using hap
      simp [AppraisalFits, hb.state, hb.config, hb.appraisal, hb.isMutual, hr, hmut]
  | @acceptedAcceptor r _ hr hs hb =>
    refine .of_not_settled hb.config (not_settled hs (by decide)) (by rw [hb.state]; decide)
      (by simp) (by simp) (fun mutually _ hmut => ?_) fun hap => ?_
    · exact hmut.mono hb.config hb.isMutual hb.hasOpened (.inl (by rw [hs]; decide))
    · simpa only [AppraisalFits, hb.state, hb.config, hb.appraisal, hr, hs] using hap
  | @acceptedMutually r c _ hr hs hmut hb =>
    refine .of_not_settled hb.config (not_settled hs (by decide)) (by rw [hb.state]; decide)
      (by simp) (by simp) (fun mutually _ hmut => ?_) fun _ => ?_
    · exact hmut.mono hb.config hb.isMutual hb.hasOpened (.inl (by rw [hs]; decide))
    · simpa only [AppraisalFits, hb.state, hb.config, hb.isMutual, hr] using hmut
  | @acceptedOneWay r _ hr hs hmut hb =>
    refine .of_not_settled hb.config (not_settled hs (by decide)) (by rw [hb.state]; decide)
      (by simp) (fun d hd => ?_) (fun mutually _ hmut => ?_) fun hap => ?_
    · simp only [List.mem_cons, Payload.metadata.injEq, List.not_mem_nil, or_false] at hd
      exact ⟨by rw [hd], hr, hb.state⟩
    · exact hmut.mono hb.config hb.isMutual hb.hasOpened (.inl (by rw [hs]; decide))
    · have hnone : m.appraisal = none := by simpa only [AppraisalFits, hr, hs] using hap
      simp [AppraisalFits, hb.state, hb.config, hb.appraisal, hb.isMutual, hr, hmut, hnone]
  | @describedToAcceptor d hr hs hb =>
    exact {
      config := hb.config
      settled := fun _ => .inr (.inl hb.state)
      stays := fun h => by cases hs.symm.trans h
      completes := fun _ => .inr ⟨d, rfl, hb.metadata⟩
      opens := by simp
      describes := fun d' hd => by
        cases List.mem_singleton.1 hd
        exact ⟨rfl, (fun hi => by cases hr.symm.trans hi), fun _ => hb.state⟩
      mutualFits := fun mutually _ _ hmut =>
        hmut.mono hb.config hb.isMutual hb.hasOpened (.inl (by rw [hs]; decide))
      appraisalFits := fun hap => by
        simpa only [AppraisalFits, hb.state, hb.config, hb.appraisal, hr, hs] using hap }
  | @describedToInitiator d hr hs hb =>
    exact {
      config := hb.config
      settled := fun _ => .inr (.inl hb.state)
      stays := fun h => by cases hs.symm.trans h
      completes := fun _ => .inr ⟨d, rfl, hb.metadata⟩
      opens := by simp
      describes := by simp
      mutualFits := fun mutually _ _ hmut =>
        hmut.mono hb.config hb.isMutual hb.hasOpened (.inl (by rw [hs]; decide))
      appraisalFits := fun hap => by
        simpa only [AppraisalFits, hb.state, hb.config, hb.appraisal, hb.isMutual, hr, hs]
          using hap }

/-- Opening the handshake is an advance. -/
theorem Becomes.advances_opened
    (hb : { m with isMutual := m.config.mutualAttestation, hasOpened := true }.Becomes m' .hello)
    (hr : m.config.role = .initiator) (hs : m.state = .hello) :
    m.Advances m' none [.hello ⟨Hello.currentVersion, m'.isMutual⟩] where
  config := hb.config
  settled h := absurd h (not_settled hs (by decide))
  stays h := by cases hs.symm.trans h
  completes h := by cases hb.state.symm.trans h
  opens h hh := by
    cases List.mem_singleton.1 hh
    exact ⟨hr, hb.isMutual⟩
  describes := by simp
  mutualFits mutually _ hw _ := by
    have hr' : m'.config.role = .initiator := hb.config ▸ hr
    rw [mutualFits_initiator hr', hb.isMutual]
    exact ⟨fun _ => hw hr, .inl hb.state⟩
  appraisalFits hap := by
    simpa only [AppraisalFits, hb.state, hb.config, hb.appraisal, hr, hs] using hap

/-- Handing a message on is an advance. -/
theorem Becomes.advances_same (hb : m.Becomes m' m.state) : m.Advances m' none [] where
  config := hb.config
  settled h := by
    unfold Settled at h ⊢
    rwa [hb.state]
  stays h := ⟨hb.state.trans h, hb.metadata⟩
  completes h := .inl (hb.state.symm.trans h)
  opens := by simp
  describes := by simp
  mutualFits mutually _ _ h := by
    unfold MutualFits at h ⊢
    rwa [hb.config, hb.state, hb.isMutual, hb.hasOpened]
  appraisalFits h := by
    unfold AppraisalFits at h ⊢
    rwa [hb.config, hb.state, hb.isMutual, hb.appraisal]

end Machine

namespace Dialogue

open Simulation.Link (framesOf)

variable {c : Role → Config} {d : Dialogue}

/-! ## The invariant -/

/-- What a message that waits for a machine says about the other. A self-description is on its way
to the initiator only when the acceptor has completed. -/
def Justified (c : Role → Config) (d : Dialogue) : Role → Payload → Prop
  | .acceptor, .hello h => h.mutualAttestation = (c .initiator).mutualAttestation
  | .acceptor, .metadata m =>
    m.document = (c .initiator).selfDescription ∧ (d.machine .initiator).Settled
  | .initiator, .metadata m =>
    m.document = (c .acceptor).selfDescription ∧ (d.machine .acceptor).state = .complete
  | _, _ => True

/-- What the machines and the messages between them have to do with each other. -/
structure Agreement (c : Role → Config) (d : Dialogue) : Prop where
  justified : ∀ r b p, b ∈ d.inbox r → Bears b p → Justified c d r p
  mutualFits : ∀ r, (d.machine r).MutualFits (c .initiator).mutualAttestation
  appraisalFits : ∀ r, (d.machine r).AppraisalFits
  acceptorDone : (d.machine .acceptor).state = .complete →
    (d.machine .acceptor).metadata = some (c .initiator).selfDescription ∧
      (d.machine .initiator).Settled
  initiatorDone : (d.machine .initiator).state = .complete →
    (d.machine .initiator).metadata = some (c .acceptor).selfDescription ∧
      (d.machine .acceptor).state = .complete

theorem agreement_ofConfigs (c : Role → Config) : Agreement c (ofConfigs c) where
  justified _ _ _ hb := by cases hb
  mutualFits r := by
    cases r with
    | acceptor => exact .inl rfl
    | initiator => exact ⟨(fun h => by cases h), .inl rfl⟩
  appraisalFits r := by
    cases r with
    | acceptor => exact trivial
    | initiator => rfl
  acceptorDone h := by cases h
  initiatorDone h := by cases h

/-- Taking octets out of an inbox leaves less to be justified. -/
theorem Agreement.leaving (hi : Agreement c d) {r : Role} {b : Bytes} {rest : List Bytes}
    (hq : d.inbox r = b :: rest) : Agreement c (d.leaving r rest) where
  justified s x p hx hp := by
    have hj := hi.justified s x p (mem_inbox_leaving hq hx) hp
    cases s <;> cases p <;> exact hj
  mutualFits := hi.mutualFits
  appraisalFits := hi.appraisalFits
  acceptorDone := hi.acceptorDone
  initiatorDone := hi.initiatorDone

variable {r : Role} {m : Machine} {heard : Option Payload} {ps : List Payload}
  {actions : List Action}

/-- An initiator that is settled stays so, whichever of the two machines has acted. -/
theorem settled_acted (ha : (d.machine r).Advances m heard ps)
    (h : (d.machine .initiator).Settled) : ((d.acted r m actions).machine .initiator).Settled := by
  cases r with
  | acceptor => exact h
  | initiator => exact ha.settled h

theorem complete_acted (ha : (d.machine r).Advances m heard ps)
    (h : (d.machine .acceptor).state = .complete) :
    ((d.acted r m actions).machine .acceptor).state = .complete := by
  cases r with
  | acceptor => exact (ha.stays h).1
  | initiator => exact h

/-- A justified message stays justified while it waits. -/
theorem justified_acted (ha : (d.machine r).Advances m heard ps) {s : Role} {p : Payload}
    (h : Justified c d s p) : Justified c (d.acted r m actions) s p := by
  cases s <;> cases p <;> first
    | exact trivial
    | exact h
    | exact h.imp_right (settled_acted ha)
    | exact h.imp_right (complete_acted ha)

/-- A message is justified when it is said. -/
theorem justified_of_said (hd : Sound c d) (ha : (d.machine r).Advances m heard ps) {p : Payload}
    (hp : p ∈ ps) : Justified c (d.acted r m actions) r.peer p := by
  have hc := hd.config r
  cases r with
  | acceptor =>
    cases p with
    | metadata x =>
      -- an acceptor describes itself when it completes, not before
      obtain ⟨hdoc, -, hs⟩ := ha.describes x hp
      rw [hc] at hdoc
      exact ⟨hdoc, hs (by rw [hc]; rfl)⟩
    | _ => exact trivial
  | initiator =>
    cases p with
    | hello x =>
      have hw := (ha.opens x hp).2
      rwa [hc] at hw
    | metadata x =>
      obtain ⟨hdoc, hs, -⟩ := ha.describes x hp
      rw [hc] at hdoc
      exact ⟨hdoc, hs (by rw [hc]; rfl)⟩
    | _ => exact trivial

/-- **An advance of either machine keeps the invariant.** -/
theorem Agreement.acted (hd : Sound c d) (hi : Agreement c d)
    (ha : (d.machine r).Advances m heard ps) (hheard : ∀ p, heard = some p → Justified c d r p)
    (hsaid : ∀ b ∈ framesOf actions, ∃ p ∈ ps, Bears b p) : Agreement c (d.acted r m actions) where
  justified s b p hb hp := by
    rcases mem_inbox_acted hb with hold | ⟨rfl, hnew⟩
    · exact justified_acted ha (hi.justified s b p hold hp)
    · obtain ⟨q, hq, hbq⟩ := hsaid b hnew
      cases hp.unique hbq
      exact justified_of_said hd ha hq
  mutualFits s := by
    rw [machine_acted]
    split
    · next hs =>
      subst hs
      have hc := hd.config s
      have hr : (d.machine s).config.role = s := by rw [hc]; rfl
      refine ha.mutualFits _ (fun hs x hx => ?_) (fun hs => ?_) (hi.mutualFits s)
      · cases hr.symm.trans hs
        exact hheard _ hx
      · cases hr.symm.trans hs
        rw [hc]
        rfl
    · exact hi.mutualFits s
  appraisalFits s := by
    rw [machine_acted]
    split
    · next hs =>
      subst hs
      exact ha.appraisalFits (hi.appraisalFits s)
    · exact hi.appraisalFits s
  acceptorDone h := by
    cases r with
    | acceptor =>
      -- it completes by hearing a description, which only a settled initiator sends
      rcases ha.completes h with hold | ⟨x, hx, hm⟩
      · obtain ⟨hm, hs⟩ := hi.acceptorDone hold
        exact ⟨(ha.stays hold).2.trans hm, hs⟩
      · obtain ⟨hdoc, hs⟩ := hheard _ hx
        exact ⟨hm.trans (congrArg some hdoc), hs⟩
    | initiator => exact (hi.acceptorDone h).imp_right (settled_acted ha)
  initiatorDone h := by
    cases r with
    | acceptor => exact (hi.initiatorDone h).imp_right (complete_acted ha)
    | initiator =>
      -- it completes by hearing a description, which only a completed acceptor sends
      rcases ha.completes h with hold | ⟨x, hx, hm⟩
      · obtain ⟨hm, hs⟩ := hi.initiatorDone hold
        exact ⟨(ha.stays hold).2.trans hm, hs⟩
      · obtain ⟨hdoc, hs⟩ := hheard _ hx
        exact ⟨hm.trans (congrArg some hdoc), hs⟩

/-- A move keeps the invariant. -/
theorem Agreement.step (hd : Sound c d) (hi : Agreement c d) {mv : Move} {d' : Dialogue}
    (h : Step d mv d') : Agreement c d' := by
  cases h with
  | idle => exact hi
  | opened hs ho hb hspoken =>
    have hr : (d.machine .initiator).config.role = .initiator := by rw [hd.config]; rfl
    exact hi.acted hd (hb.advances_opened hr hs) (fun _ h => by cases h) (bears_of_framesOf hspoken)
  | @heard r now nonce service b rest m p ps actions hq hm hp hh hspoken =>
    have hj := hi.justified r b p (by rw [hq]; exact List.mem_cons_self) hp
    refine (hi.leaving hq).acted (hd.leaving hq) (hh.advances hm) (fun x hx => ?_)
      (bears_of_framesOf hspoken)
    cases hx
    cases r <;> cases p <;> exact hj
  | passedOn hq hm hb =>
    exact (hi.leaving hq).acted (hd.leaving hq) hb.advances_same (fun _ h => by cases h)
      fun _ hb => by cases hb
  | timedOut hm hb hq hspoken =>
    exact hi.acted hd (Machine.Becomes.advances_failed hb hm none (.inr ⟨_, hq, rfl⟩))
      (fun _ h => by cases h) (bears_of_framesOf hspoken)

/-- **Two honest machines agree.** In every run of an initiator and an acceptor, with deliveries and
clocks in any order: once the initiator has completed the handshake, so has the acceptor; both have
the same idea of whether both sides attest, each has the self-description of the other, the acceptor
has passed the initiator, and the initiator has passed the acceptor if both sides attest and has no
appraisal otherwise. Once the acceptor has completed it, it has the self-description of the
initiator, which is through with attestation or has failed. -/
theorem agreement (c : Role → Config) (moves : List Move) :
    let i := ((ofConfigs c).run moves).machine .initiator
    let a := ((ofConfigs c).run moves).machine .acceptor
    (i.state = .complete →
      a.state = .complete ∧ i.isMutual = a.isMutual ∧
      i.metadata = some (c .acceptor).selfDescription ∧
      a.metadata = some (c .initiator).selfDescription ∧
      (∃ record s, a.appraisal = some record ∧ record.RecordsPass s) ∧
      if i.isMutual then ∃ record s, i.appraisal = some record ∧ record.RecordsPass s
      else i.appraisal = none) ∧
    (a.state = .complete →
      a.metadata = some (c .initiator).selfDescription ∧
      (i.state = .metadata ∨ i.state = .complete ∨ i.state = .failed)) := by
  obtain ⟨hd, hi⟩ := run_induction (P := Agreement c) (Q := fun _ => True) (sound_ofConfigs c)
    (agreement_ofConfigs c) (fun mv (_ : mv ∈ moves) => trivial) fun _ _ _ hd hi _ => hi.step hd
  generalize (ofConfigs c).run moves = d at hd hi
  have hri : (d.machine .initiator).config.role = .initiator := by rw [hd.config]; rfl
  have hra : (d.machine .acceptor).config.role = .acceptor := by rw [hd.config]; rfl
  refine ⟨fun hs => ?_, hi.acceptorDone⟩
  obtain ⟨him, has⟩ := hi.initiatorDone hs
  have hmi := (Machine.mutualFits_initiator hri).1 (hi.mutualFits .initiator)
  have hma := (Machine.mutualFits_acceptor hra).1 (hi.mutualFits .acceptor)
  have hai := hi.appraisalFits .initiator
  have haa := hi.appraisalFits .acceptor
  simp only [hs, has, reduceCtorEq, false_or] at hmi hma
  simp only [Machine.AppraisalFits, hri, hra, hs, has] at hai haa
  -- a passed peer is recorded as one
  have hrecord : ∀ {o : Option Appraisal}, (∃ s, o = some (.passed s)) →
      ∃ record s, o = some record ∧ record.RecordsPass s :=
    fun ⟨s, ho⟩ => ⟨_, s, ho, Appraisal.recordsPass_passed s⟩
  refine ⟨has, (hmi.1 hmi.2).trans hma.symm, him, (hi.acceptorDone has).1, hrecord haa, ?_⟩
  split at hai
  · next hm =>
    rw [if_pos hm]
    exact hrecord hai
  · next hm =>
    rw [if_neg hm]
    exact hai

/-- Every message of a handshake in which both sides attest, as it comes. -/
def plainHandshake : List Move :=
  .start 0 :: [Role.acceptor, .initiator, .acceptor, .initiator, .acceptor, .initiator, .acceptor,
    .acceptor, .initiator].map fun r => .deliver r 1 [2, 3] plainService

/-- In this handshake the initiator completes, so all that `agreement` says comes true. -/
theorem plainHandshake_agreement :
    let i := ((ofConfigs plainConfig).run plainHandshake).machine .initiator
    let a := ((ofConfigs plainConfig).run plainHandshake).machine .acceptor
    a.state = .complete ∧ i.isMutual = a.isMutual ∧ i.metadata = some "acceptor" ∧
      a.metadata = some "initiator" ∧
      ∃ record s, i.appraisal = some record ∧ record.RecordsPass s := by
  obtain ⟨hs, hm⟩ :
      (((ofConfigs plainConfig).run plainHandshake).machine .initiator).state = .complete ∧
      (((ofConfigs plainConfig).run plainHandshake).machine .initiator).isMutual = true := by
    decide +kernel
  obtain ⟨ha, hmut, hi, hd, -, happ⟩ := (agreement plainConfig plainHandshake).1 hs
  rw [if_pos hm] at happ
  exact ⟨ha, hmut, hi, hd, happ⟩

end Dialogue

end AttestedChannel
