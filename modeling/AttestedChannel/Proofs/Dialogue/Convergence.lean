import AttestedChannel.Proofs.Dialogue.Agreement
import AttestedChannel.Proofs.Dialogue.Notice
import AttestedChannel.Proofs.Dialogue.Progress

/-!
# Convergence of two honest machines

A dialogue comes to an end (`count_add_measure_le`), and at its end no machine is left waiting
(`convergence`), provided that every frame can be written.

`Script` lists what can be seen of a handshake in which nothing fails: the states of both machines
and the messages on their way. `Phase` is the invariant of a dialogue in which no clock runs out: it
has not begun, follows the script, or one machine has failed and the other has failed as well or is
about to be told. Where clocks do run out, `Noticed` is all that is left of it.
-/

namespace AttestedChannel

/-- Where a handshake can be in which nothing fails: the states of the initiator and the acceptor,
the messages to the initiator and those to the acceptor. -/
inductive Script (mutually : Bool) :
    HandshakeState → HandshakeState → List Payload → List Payload → Prop
  | opened : Script mutually .hello .hello [] [.hello ⟨Hello.currentVersion, mutually⟩]
  | challenged (c : Challenge) : Script mutually .hello .challengeIssued [.challenge c] []
  | answered (r : Response) : Script mutually .verdictPending .challengeIssued [] [.response r]
  | passed (h : mutually = false) :
    Script mutually .verdictPending .metadata [.result ⟨.pass, none⟩] []
  | passedMutually (h : mutually = true) :
    Script mutually .verdictPending .responseReceived [.result ⟨.pass, none⟩] []
  | challengedBack (c : Challenge) :
    Script mutually .challengeIssued .responseReceived [] [.challenge c]
  | answeredBack (r : Response) :
    Script mutually .challengeIssued .verdictPending [.response r] []
  | passedBack (d : SelfDescription) :
    Script mutually .metadata .verdictPending [] [.result ⟨.pass, none⟩, .metadata d]
  | described (d : SelfDescription) : Script mutually .metadata .metadata [] [.metadata d]
  | describedBack (d : SelfDescription) : Script mutually .metadata .complete [.metadata d] []
  | completed : Script mutually .complete .complete [] []

namespace Script

variable {mutually : Bool} {s : HandshakeState} {m m' : Machine} {p : Payload}
  {ps qs toPeer : List Payload}

/-- A machine has failed and nothing but that is on its way to the other, which is running and takes
it. -/
structure Breaks (m' : Machine) (peer : HandshakeState) (toPeer ps : List Payload) : Prop where
  failed : m'.state = .failed
  running : peer.isTerminal = false
  silent : toPeer = []
  told : ∃ q, q.IsFatal ∧ ps = [q]
  taken : ∀ q ∈ ps, (∃ r, q = .error r) ∨ peer = .verdictPending

/-- **What the acceptor does with a message of the script follows the script**, or it fails and
says so. -/
theorem acceptor_hears (hs : Script mutually s m.state toPeer (p :: qs))
    (hr : m.config.role = .acceptor) (hw : m.MutualFits mutually) (hh : m.Hears m' p ps) :
    Script mutually s m'.state (toPeer ++ ps) qs ∨ Breaks m' s toPeer ps := by
  -- the acceptor goes the way that the hello of the initiator asked for
  have hmut : m.state ≠ .hello → m.state ≠ .failed → m.isMutual = mutually := fun h₁ h₂ =>
    (((Machine.mutualFits_acceptor hr).1 hw).resolve_left h₁).resolve_left h₂
  generalize hst : m.state = t at hs
  cases hs with
  | opened =>
    cases hh with
    | refused ht => exact absurd ⟨hr, hst⟩ ht
    | told hp => exact hp.elim
    | unsupported hv => exact absurd rfl hv
    | challenged _ _ hb =>
      rw [hb.state]
      exact .inl (.challenged _)
  | answered r =>
    cases hh with
    | refused ht => exact absurd hst ht
    | told hp => exact hp.elim
    | appraisalFailed _ hq hb =>
      exact .inr ⟨hb.state, rfl, rfl, ⟨_, hq, rfl⟩, fun _ _ => .inr rfl⟩
    | passedToAcceptor _ _ hb =>
      have hm := hmut (by rw [hst]; decide) (by rw [hst]; decide)
      rw [hb.state]
      cases hmm : m.isMutual with
      | true => exact .inl (.passedMutually (hm.symm.trans hmm))
      | false => exact .inl (.passed (hm.symm.trans hmm))
    | passedToInitiator hi => cases hr.symm.trans hi
  | challengedBack c =>
    cases hh with
    | refused ht => exact absurd (.inl ⟨hr, hst⟩) ht
    | told hp => exact hp.elim
    | unquoted _ hq hb he =>
      obtain ⟨_, _, -, rfl⟩ := he
      exact .inr ⟨hb.state, rfl, rfl, ⟨_, hq, rfl⟩, by simp⟩
    | quoted _ hb =>
      rw [hb.state]
      exact .inl (.answeredBack _)
  | passedBack d =>
    cases hh with
    | refused ht => exact absurd hst ht
    | told hp => exact absurd rfl hp
    | acceptedAcceptor _ _ _ hb =>
      rw [hb.state]
      exact .inl (.described d)
    | acceptedMutually _ hi | acceptedOneWay _ hi => cases hr.symm.trans hi
  | described d =>
    cases hh with
    | refused ht => exact absurd hst ht
    | told hp => exact hp.elim
    | describedToAcceptor _ _ hb =>
      rw [hb.state]
      exact .inl (.describedBack _)
    | describedToInitiator hi => cases hr.symm.trans hi

/-- **What the initiator does with a message of the script follows the script**, or it fails and
says so. -/
theorem initiator_hears (hs : Script mutually m.state s (p :: qs) toPeer)
    (hr : m.config.role = .initiator) (ho : m.hasOpened = true) (hw : m.MutualFits mutually)
    (hh : m.Hears m' p ps) :
    Script mutually m'.state s qs (toPeer ++ ps) ∨ Breaks m' s toPeer ps := by
  have hmut : m.isMutual = mutually := ((Machine.mutualFits_initiator hr).1 hw).1 ho
  generalize hst : m.state = t at hs
  cases hs with
  | challenged c =>
    cases hh with
    | refused ht => exact absurd (.inr ⟨hr, hst, ho⟩) ht
    | told hp => exact hp.elim
    | unquoted _ hq hb he =>
      obtain ⟨_, _, -, rfl⟩ := he
      exact .inr ⟨hb.state, rfl, rfl, ⟨_, hq, rfl⟩, by simp⟩
    | quoted _ hb =>
      rw [hb.state]
      exact .inl (.answered _)
  | passed h =>
    cases hh with
    | refused ht => exact absurd hst ht
    | told hp => exact absurd rfl hp
    | acceptedAcceptor _ ha => cases hr.symm.trans ha
    | acceptedMutually _ _ _ hm => cases hm.symm.trans (hmut.trans h)
    | acceptedOneWay _ _ _ _ hb =>
      rw [hb.state]
      exact .inl (.described _)
  | passedMutually h =>
    cases hh with
    | refused ht => exact absurd hst ht
    | told hp => exact absurd rfl hp
    | acceptedAcceptor _ ha => cases hr.symm.trans ha
    | acceptedMutually _ _ _ _ hb =>
      rw [hb.state]
      exact .inl (.challengedBack _)
    | acceptedOneWay _ _ _ hm => cases hm.symm.trans (hmut.trans h)
  | answeredBack r =>
    cases hh with
    | refused ht => exact absurd hst ht
    | told hp => exact hp.elim
    | appraisalFailed _ hq hb =>
      exact .inr ⟨hb.state, rfl, rfl, ⟨_, hq, rfl⟩, fun _ _ => .inr rfl⟩
    | passedToAcceptor ha => cases hr.symm.trans ha
    | passedToInitiator _ _ hb =>
      rw [hb.state]
      exact .inl (.passedBack _)
  | describedBack d =>
    cases hh with
    | refused ht => exact absurd hst ht
    | told hp => exact hp.elim
    | describedToAcceptor ha => cases hr.symm.trans ha
    | describedToInitiator _ _ hb =>
      rw [hb.state]
      exact .inl .completed

/-- Nothing is on its way to a machine that is over. -/
theorem silent_of_terminal {i a : HandshakeState} {toInitiator toAcceptor : List Payload}
    (hs : Script mutually i a toInitiator toAcceptor) :
    (i.isTerminal = true → toInitiator = []) ∧ (a.isTerminal = true → toAcceptor = []) := by
  cases hs <;> simp [HandshakeState.isTerminal]

/-- While something is on its way, or until both machines have completed, the script goes on. -/
theorem completed_of_silent {i a : HandshakeState} (hs : Script mutually i a [] []) :
    i = .complete ∧ a = .complete := by
  cases hs
  exact ⟨rfl, rfl⟩

end Script

namespace Dialogue

open Simulation.Link (framesOf)

variable {c : Role → Config} {d d' : Dialogue}

/-! ## The invariant of a dialogue without time-outs -/

/-- Where a dialogue can be while no clock runs out. -/
inductive Phase (mutually : Bool) (d : Dialogue) : Prop
  | silent (ho : (d.machine .initiator).hasOpened = false) (hs : ∀ r, (d.machine r).state = .hello)
      (hq : ∀ r, d.inbox r = [])
  | following {toInitiator toAcceptor : List Payload}
      (ho : (d.machine .initiator).hasOpened = true)
      (hs : Script mutually (d.machine .initiator).state (d.machine .acceptor).state toInitiator
        toAcceptor)
      (hi : List.Forall₂ Bears (d.inbox .initiator) toInitiator)
      (ha : List.Forall₂ Bears (d.inbox .acceptor) toAcceptor)
  | broken (r : Role) (ho : (d.machine .initiator).hasOpened = true)
      (hf : (d.machine r).state = .failed) (hr : (d.machine r.peer).state.isTerminal = false)
      (hq : ∃ b q, d.inbox r.peer = [b] ∧ Bears b q ∧ q.IsFatal)
  | failed (hf : ∀ r, (d.machine r).state = .failed)

theorem phase_ofConfigs (c : Role → Config) (mutually : Bool) : Phase mutually (ofConfigs c) :=
  .silent rfl (fun _ => rfl) fun _ => rfl

theorem hasOpened_acted {r : Role} {m : Machine} {actions : List Action}
    (ho : (d.machine .initiator).hasOpened = true) (h : m.hasOpened = (d.machine r).hasOpened) :
    ((d.acted r m actions).machine .initiator).hasOpened = true := by
  rw [machine_acted]
  split
  · next hr =>
    subst hr
    rw [h, ho]
  · exact ho

variable {mutually : Bool} {r : Role} {b : Bytes} {rest : List Bytes} {m : Machine} {p : Payload}
  {ps qs : List Payload} {actions : List Action}

/-- A machine that breaks off the script leaves the other one thing to hear. -/
theorem phase_of_breaks (hb : Script.Breaks m (d.machine r.peer).state qs ps)
    (ho : (d.machine .initiator).hasOpened = true) (hm : m.hasOpened = (d.machine r).hasOpened)
    (hq : List.Forall₂ Bears (d.inbox r.peer) qs) (hspoken : Says actions ps)
    (hfits : Fits (sentBy actions)) : Phase mutually (d.acted r m actions) := by
  obtain ⟨hf, hr, rfl, ⟨q, hfatal, rfl⟩, -⟩ := hb
  have hin := forall₂_bears_framesOf hspoken hfits
  rw [List.forall₂_nil_right_iff] at hq
  obtain ⟨x, us, hx, hus, hl⟩ := List.forall₂_cons_right_iff.1 hin
  rw [List.forall₂_nil_right_iff] at hus
  refine .broken r (hasOpened_acted ho hm) ?_ ?_ ⟨x, q, ?_, hx, hfatal⟩
  · rw [machine_acted, if_pos rfl, hf]
  · rw [machine_acted, if_neg (Role.peer_ne r), hr]
  · simp only [acted, Function.update_self, hq, hl, hus, List.nil_append]

/-- **Hearing a message leads from one phase to another.** -/
theorem Phase.heard (hd : Sound c d) (hw : ∀ r, (d.machine r).MutualFits mutually)
    (hp : Phase mutually d) (hq : d.inbox r = b :: rest)
    (hm : (d.machine r).state.isTerminal = false) (hb : Bears b p)
    (hh : (d.machine r).Hears m p ps) (hspoken : Says actions ps) (hfits : Fits (sentBy actions)) :
    Phase mutually ((d.leaving r rest).acted r m actions) := by
  have hin := forall₂_bears_framesOf hspoken hfits
  have hr : (d.machine r).config.role = r := by rw [hd.config]; rfl
  cases hp with
  | silent _ _ hnil =>
    rw [hnil] at hq
    cases hq
  | following ho hs hi ha =>
    -- the message at the front is the one that comes next in the script
    cases r with
    | acceptor =>
      rw [hq] at ha
      obtain ⟨p', qs, hb', hrest, rfl⟩ := List.forall₂_cons_left_iff.1 ha
      cases hb.unique hb'
      rcases hs.acceptor_hears hr (hw _) hh with hs | hbr
      · exact .following ho hs (List.rel_append hi hin) hrest
      · exact phase_of_breaks hbr ho hh.same.2 hi hspoken hfits
    | initiator =>
      rw [hq] at hi
      obtain ⟨p', qs, hb', hrest, rfl⟩ := List.forall₂_cons_left_iff.1 hi
      cases hb.unique hb'
      rcases hs.initiator_hears hr ho (hw _) hh with hs | hbr
      · exact .following (hh.same.2.trans ho) hs hrest (List.rel_append ha hin)
      · exact phase_of_breaks hbr ho hh.same.2 ha hspoken hfits
  | broken s ho hf hrun hone =>
    have hrs : r ≠ s := by
      rintro rfl
      rw [hf] at hm
      cases hm
    obtain rfl := Role.eq_peer hrs
    -- the machine that still runs hears of the failure, and of nothing else
    obtain ⟨x, q, hx, hbq, hfatal⟩ := hone
    rw [hx] at hq
    cases hq
    cases hb.unique hbq
    refine .failed fun t => ?_
    rw [machine_acted]
    split
    · exact hh.failed_of_fatal hfatal
    · next ht =>
      have hts : t = s := by rw [Role.eq_peer ht, Role.peer_peer]
      rw [hts]
      exact hf
  | failed hf =>
    rw [hf] at hm
    cases hm

/-- Handing a message on does not change the phase. -/
theorem Phase.passedOn (hp : Phase mutually d) (hq : d.inbox r = b :: rest)
    (hm : (d.machine r).state.isTerminal = true)
    (hb : (d.machine r).Becomes m (d.machine r).state) :
    Phase mutually ((d.leaving r rest).acted r m [.passThrough b]) := by
  cases hp with
  | silent _ _ hnil =>
    rw [hnil] at hq
    cases hq
  | following _ hs hi ha =>
    -- in the script nothing waits for a machine that is over
    obtain ⟨hsi, hsa⟩ := hs.silent_of_terminal
    cases r with
    | acceptor =>
      rw [hq, hsa hm] at ha
      cases ha
    | initiator =>
      rw [hq, hsi hm] at hi
      cases hi
  | broken s ho hf hrun hone =>
    have hrs : r = s := by
      by_contra hne
      rw [Role.eq_peer hne, hrun] at hm
      cases hm
    subst hrs
    obtain ⟨x, q, hx, hbq, hfatal⟩ := hone
    refine .broken r (hasOpened_acted ho hb.hasOpened) ?_ ?_ ⟨x, q, ?_, hbq, hfatal⟩
    · rw [machine_acted, if_pos rfl, hb.state, hf]
    · rw [machine_acted, if_neg (Role.peer_ne r)]
      exact hrun
    · simp only [acted, Function.update_self, leaving, Function.update_of_ne (Role.peer_ne r), hx]
      rfl
  | failed hf =>
    refine .failed fun t => ?_
    rw [machine_acted]
    split
    · exact hb.state.trans (hf r)
    · exact hf t

/-- **A start or a delivery leads from one phase to another.** -/
theorem Phase.step (hd : Sound c d)
    (hw : ∀ r, (d.machine r).MutualFits (c .initiator).mutualAttestation)
    (hp : Phase (c .initiator).mutualAttestation d) {mv : Move} (hmv : mv.isTick = false)
    (h : Step d mv d') (hfits : Fits d'.sent) : Phase (c .initiator).mutualAttestation d' := by
  cases h with
  | idle => exact hp
  | @opened now m actions hs ho hb hspoken =>
    cases hp with
    | silent _ hst hnil =>
      have hmut : m.isMutual = (c .initiator).mutualAttestation := by
        rw [hb.isMutual]
        dsimp only
        rw [hd.config]
        rfl
      have hin := forall₂_bears_framesOf hspoken (fits_append.1 hfits).2
      rw [hmut] at hin
      have hnone : ∀ r, List.Forall₂ Bears (d.inbox r) [] := fun r => by rw [hnil]; exact .nil
      have hopened : Script (c .initiator).mutualAttestation m.state (d.machine .acceptor).state []
          [.hello ⟨Hello.currentVersion, (c .initiator).mutualAttestation⟩] := by
        rw [hb.state, hst]
        exact .opened
      exact .following hb.hasOpened hopened (hnone .initiator)
        (List.rel_append (hnone .acceptor) hin)
    | following ho' => cases ho.symm.trans ho'
    | broken _ ho' => cases ho.symm.trans ho'
    | failed hf => cases hs.symm.trans (hf .initiator)
  | heard hq hm hb hh hspoken => exact hp.heard hd hw hq hm hb hh hspoken (fits_append.1 hfits).2
  | passedOn hq hm hb => exact hp.passedOn hq hm hb
  | timedOut => cases hmv

/-- When nothing is on its way and the handshake was opened, it is over for both machines and in
the same way. -/
theorem Phase.over (hp : Phase mutually d) (ho : (d.machine .initiator).hasOpened = true)
    (hq : ∀ r, d.inbox r = []) :
    (∀ r, (d.machine r).state = .complete) ∨ ∀ r, (d.machine r).state = .failed := by
  cases hp with
  | silent ho' => cases ho.symm.trans ho'
  | following _ hs hi ha =>
    rw [hq, List.forall₂_nil_left_iff] at hi ha
    subst hi ha
    obtain ⟨hi, ha⟩ := hs.completed_of_silent
    exact .inl fun r => by cases r <;> assumption
  | broken r _ _ _ hone =>
    obtain ⟨b, q, hb, -⟩ := hone
    rw [hq] at hb
    cases hb
  | failed hf => exact .inr hf

/-! ## The end of a dialogue -/

theorem fits_of_step {mv : Move} (h : Step d mv d') (hf : Fits d'.sent) : Fits d.sent := by
  cases h with
  | idle => exact hf
  | _ => exact (fits_append.1 hf).1

/-- **Two honest machines converge.** A run of an initiator and an acceptor makes at most twenty
starts and deliveries. If every frame in it can be written and nothing is on its way at its end,
then, first, once the handshake was opened and no clock was looked at, both machines have completed
it or both have failed; and, second, with clocks looked at whenever, both are over once one of them
has failed. -/
theorem convergence (c : Role → Config) :
    (∀ moves, (ofConfigs c).AdmitsAll moves → moves.countP (fun mv => !mv.isTick) ≤ 20) ∧
    ∀ moves, Fits ((ofConfigs c).run moves).sent →
      (∀ r, ((ofConfigs c).run moves).inbox r = []) →
      ((((ofConfigs c).run moves).machine .initiator).hasOpened = true →
        (∀ mv ∈ moves, mv.isTick = false) →
        (∀ r, (((ofConfigs c).run moves).machine r).state = .complete) ∨
          ∀ r, (((ofConfigs c).run moves).machine r).state = .failed) ∧
      ((∃ r, (((ofConfigs c).run moves).machine r).state = .failed) →
        ∀ r, (((ofConfigs c).run moves).machine r).state.isTerminal = true) := by
  refine ⟨fun moves h => ?_, fun moves hfits hq => ⟨fun ho hticks => ?_, fun ⟨r, hr⟩ => ?_⟩⟩
  · have hle := count_add_measure_le (sound_ofConfigs c) h
    have h20 : (ofConfigs c).measure = 20 := rfl
    omega
  · -- `Agreement` goes along, since it says that both machines follow the same script
    have hp := (run_induction
      (P := fun d => Agreement c d ∧ (Fits d.sent → Phase (c .initiator).mutualAttestation d))
      (sound_ofConfigs c) ⟨agreement_ofConfigs c, fun _ => phase_ofConfigs c _⟩ hticks
      fun d d' mv hd hi hmv hs => ⟨hi.1.step hd hs, fun hf =>
        (hi.2 (fits_of_step hs hf)).step hd hi.1.mutualFits hmv hs hf⟩).2.2 hfits
    exact hp.over ho hq
  · -- with ticks the script is lost, but not the notices
    have hn := (run_induction (P := fun d => Fits d.sent → Noticed d) (Q := fun _ => True)
      (sound_ofConfigs c) (fun _ => noticed_ofConfigs c) (fun mv (_ : mv ∈ moves) => trivial)
      fun d d' mv _ hi _ hs hf => (hi (fits_of_step hs hf)).step hs hf).2 hfits
    exact hn.terminal hq hr

/-- A clock runs out while the acceptor is about to answer. -/
def lateHandshake : List Move :=
  [.start 0, .deliver .acceptor 1 [2, 3] plainService, .tick .initiator 60000000000,
    .deliver .initiator 1 [] plainService, .deliver .acceptor 1 [] plainService]

/-- Every message of the plain handshake can be delivered when it is, and in the end nothing is on
its way; so both machines have completed it or both have failed. In the late handshake the initiator
fails, and so the acceptor is over in the end, too. -/
theorem plainHandshake_convergence :
    plainHandshake.countP (fun mv => !mv.isTick) ≤ 20 ∧
      ((∀ r, (((ofConfigs plainConfig).run plainHandshake).machine r).state = .complete) ∨
        ∀ r, (((ofConfigs plainConfig).run plainHandshake).machine r).state = .failed) ∧
      ∀ r, (((ofConfigs plainConfig).run lateHandshake).machine r).state.isTerminal = true := by
  obtain ⟨hcount, hend⟩ := convergence plainConfig
  refine ⟨hcount plainHandshake (by decide +kernel), ?_, ?_⟩
  · obtain ⟨hfits, hi, ha, ho⟩ : Fits ((ofConfigs plainConfig).run plainHandshake).sent ∧
        ((ofConfigs plainConfig).run plainHandshake).inbox .initiator = [] ∧
        ((ofConfigs plainConfig).run plainHandshake).inbox .acceptor = [] ∧
        (((ofConfigs plainConfig).run plainHandshake).machine .initiator).hasOpened = true := by
      decide +kernel
    exact (hend plainHandshake hfits fun r => by cases r <;> assumption).1 ho (by decide)
  · obtain ⟨hfits, hi, ha, hs⟩ : Fits ((ofConfigs plainConfig).run lateHandshake).sent ∧
        ((ofConfigs plainConfig).run lateHandshake).inbox .initiator = [] ∧
        ((ofConfigs plainConfig).run lateHandshake).inbox .acceptor = [] ∧
        (((ofConfigs plainConfig).run lateHandshake).machine .initiator).state = .failed := by
      decide +kernel
    exact (hend lateHandshake hfits fun r => by cases r <;> assumption).2 ⟨.initiator, hs⟩

end Dialogue

end AttestedChannel
