import AttestedChannel.Proofs.Handshake.Coherence

/-!
# No disclosure before trust

The self-description of a connector is for peers that it trusts. `describing` puts another one into
a configuration; two machines that differ in it do exactly the same until one of them sends it
(`perform_describing`, `log_describing`). And it is sent only to a peer that has passed, or, by an
initiator that does not attest its peer, after the peer has passed the initiator (`perform_discloses`).
-/

namespace AttestedChannel

/-- The configuration with another self-description. -/
def Config.describing (c : Config) (d : String) : Config := { c with selfDescription := d }

/-- The machine with another self-description. -/
def Machine.describing (m : Machine) (d : String) : Machine :=
  { m with config := m.config.describing d }

/-- The progress with another self-description. -/
def Progress.describing (p : Progress) (d : String) : Progress :=
  { p with machine := p.machine.describing d }

/-- The turn with another self-description. -/
def Turn.describing (t : Turn) (d : String) : Turn := { t with machine := t.machine.describing d }

/-- The moment with another self-description. -/
def Moment.describing (x : Moment) (d : String) : Moment :=
  { x with before := x.before.describing d, after := x.after.describing d }

/-- Whether the action sends the self-description. -/
def Action.discloses : Action → Bool
  | .send f => f.header.known? == some .metadata
  | .passThrough _ => false

/-- The actions send the self-description. -/
def Discloses (actions : List Action) : Prop := ∃ a ∈ actions, a.discloses = true

instance (actions : List Action) : Decidable (Discloses actions) :=
  inferInstanceAs (Decidable (∃ a ∈ actions, a.discloses = true))

/-- The machine is told that its evidence has passed. -/
def Moment.IsAccepted (x : Moment) : Prop :=
  x.before.state = .verdictPending ∧ ∃ r, x.Receives (.result r) ∧ r.verdict = .pass

namespace Machine

variable {m : Machine} {d : String}

/-! ## Transitions do not look at the self-description -/

/-- The transition sends the self-description. -/
def Reveals (p : Progress) : Prop := ∃ actions, p.outcome = .ok actions ∧ Discloses actions

theorem discloses_describeSelf {m : Machine} {actions : List Action}
    (h : m.describeSelf.2 ∈ actions) : Discloses actions :=
  ⟨_, h, beq_iff_eq.2 (MessageType.ofCode?_code .metadata)⟩

theorem describing_role : (m.describing d).config.role = m.config.role := rfl

theorem describing_state : (m.describing d).state = m.state := rfl

theorem describing_isMutual : (m.describing d).isMutual = m.isMutual := rfl

theorem receiveHello_describing (nonce : Bytes) (h : Hello) :
    (m.describing d).receiveHello nonce h = (m.receiveHello nonce h).describing d := by
  unfold receiveHello
  split <;> rfl

theorem concludeQuote_describing (r : Except FailureReason Response) :
    (m.describing d).concludeQuote r = (m.concludeQuote r).describing d := by
  cases r <;> rfl

theorem concludeAppraisal_describing {c : Coordinator} {a : Appraisal}
    (h : ¬ Reveals (m.concludeAppraisal c a)) :
    (m.describing d).concludeAppraisal c a = (m.concludeAppraisal c a).describing d := by
  obtain ⟨v, s, reason⟩ := a
  unfold concludeAppraisal at h ⊢
  cases reason with
  | some reason => rfl
  | none =>
    cases hr : m.config.role with
    | acceptor =>
      simp only [send, describing_role, hr]
      rfl
    | initiator =>
      simp only [send, hr] at h
      exact absurd ⟨_, rfl, discloses_describeSelf (List.mem_cons_of_mem _ (.head _))⟩ h

theorem receiveVerdict_describing {nonce : Bytes} {r : ResultReport}
    (h : ¬ Reveals (m.receiveVerdict nonce r)) :
    (m.describing d).receiveVerdict nonce r = (m.receiveVerdict nonce r).describing d := by
  unfold receiveVerdict at h ⊢
  split
  · rfl
  · next hv =>
    rw [if_neg hv] at h
    cases hr : m.config.role with
    | acceptor =>
      simp only [describing_role, hr]
      rfl
    | initiator =>
      cases hm : m.isMutual with
      | true =>
        simp only [describing_role, describing_isMutual, hr, hm]
        rfl
      | false =>
        simp only [hr, hm, Bool.false_eq_true, if_false] at h
        exact absurd ⟨_, rfl, discloses_describeSelf (.head _)⟩ h

theorem receiveMetadata_describing {s : SelfDescription} (h : ¬ Reveals (m.receiveMetadata s)) :
    (m.describing d).receiveMetadata s = (m.receiveMetadata s).describing d := by
  unfold receiveMetadata at h ⊢
  cases hr : m.config.role with
  | acceptor =>
    simp only [hr] at h
    exact absurd ⟨_, rfl, discloses_describeSelf (.head _)⟩ h
  | initiator =>
    simp only [describing_role, hr]
    rfl

/-- The answer to a payload depends on the self-description only if it sends it. -/
theorem receive_describing {nonce : Bytes} {p : Payload} {service : ServiceRequest → Answer}
    (h : ¬ Reveals ((m.receive nonce p).run service)) :
    ((m.describing d).receive nonce p).request? = (m.receive nonce p).request? ∧
      ((m.describing d).receive nonce p).run service =
        ((m.receive nonce p).run service).describing d := by
  have htakes : (m.describing d).Takes p ↔ m.Takes p := Iff.rfl
  by_cases ht : m.Takes p
  · have ht' := htakes.2 ht
    cases p with
    | hello v =>
      rw [receive_hello ht, receive_hello ht', receiveHello_describing]
      exact ⟨rfl, rfl⟩
    | challenge ch =>
      rw [receive_challenge ht, receive_challenge ht']
      exact ⟨rfl, concludeQuote_describing _⟩
    | response r =>
      rw [receive_response ht] at h ⊢
      rw [receive_response ht']
      unfold appraisePeer at h ⊢
      rw [Exchange.run_map] at h
      rw [Exchange.run_map, Exchange.run_map, Exchange.request?_map, Exchange.request?_map]
      exact ⟨rfl, concludeAppraisal_describing h⟩
    | result r =>
      rw [receive_result ht] at h ⊢
      rw [receive_result ht']
      exact ⟨rfl, receiveVerdict_describing h⟩
    | metadata s =>
      rw [receive_metadata ht] at h ⊢
      rw [receive_metadata ht']
      exact ⟨rfl, receiveMetadata_describing h⟩
    | raw b => exact ht.elim
    | error r => exact ⟨rfl, rfl⟩
  · rw [receive_of_not_takes ht, receive_of_not_takes (htakes.not.2 ht)]
    exact ⟨rfl, rfl⟩

theorem transition_describing {nonce : Bytes} {e : Event} {service : ServiceRequest → Answer}
    (h : ¬ Reveals ((m.transition nonce e).run service)) :
    ((m.describing d).transition nonce e).request? = (m.transition nonce e).request? ∧
      ((m.describing d).transition nonce e).run service =
        ((m.transition nonce e).run service).describing d := by
  unfold transition at h ⊢
  cases hf : e.fault with
  | some fault => exact ⟨rfl, rfl⟩
  | none =>
    rw [hf] at h
    exact receive_describing h

theorem fail_describing (err : HandshakeError) :
    (m.describing d).fail err = ((m.fail err).1.describing d, (m.fail err).2) := by
  unfold fail
  have hreply : { m.describing d with state := .failed }.reply? err =
      { m with state := .failed }.reply? err := by cases err <;> rfl
  dsimp only
  rw [hreply]
  cases { m with state := .failed }.reply? err <;> rfl

theorem settle_describing (e : Event) (p : Progress) :
    settle e (p.describing d) = (settle e p).describing d := by
  obtain ⟨m, outcome, used⟩ := p
  cases outcome with
  | ok actions => rfl
  | error err =>
    have h := fail_describing (m := { m with lastEvent := some e }) (d := d) err
    exact congrArg (fun t : Machine × List Action => (⟨t.1, t.2, used⟩ : Turn)) h

theorem discloses_settle {e : Event} {p : Progress} (h : Reveals p) :
    Discloses (settle e p).actions := by
  obtain ⟨actions, hok, hd⟩ := h
  unfold settle
  rw [hok]
  exact hd

theorem feed_describing {now : Instant} {nonce : Bytes} {service : ServiceRequest → Answer}
    {e : Event} (h : ¬ Discloses ((m.feed now nonce e).run service).actions) :
    ((m.describing d).feed now nonce e).request? = (m.feed now nonce e).request? ∧
      ((m.describing d).feed now nonce e).run service =
        ((m.feed now nonce e).run service).describing d := by
  cases ht : m.state.isTerminal with
  | true =>
    rw [feed_of_terminal ht, feed_of_terminal (m := m.describing d) ht]
    exact ⟨rfl, rfl⟩
  | false =>
    rw [feed_run_of_running ht] at h ⊢
    rw [feed_run_of_running (m := m.describing d) ht, feed_request_of_running ht,
      feed_request_of_running (m := m.describing d) ht]
    obtain ⟨hreq, hrun⟩ :=
      transition_describing (d := d) fun hr => h (discloses_settle (e := e) hr)
    exact ⟨hreq, (congrArg (settle e) hrun).trans (settle_describing e _)⟩

theorem start_describing (now : Instant) :
    (m.describing d).perform (.start now) = (m.perform (.start now)).describing d := by
  unfold perform start
  cases hr : m.config.role with
  | acceptor =>
    simp only [describing_role, hr]
    rfl
  | initiator =>
    have hopen : ((m.describing d).state ≠ .hello ∨ (m.describing d).hasOpened = true) =
        (m.state ≠ .hello ∨ m.hasOpened = true) := rfl
    by_cases ho : m.state ≠ .hello ∨ m.hasOpened = true
    · simp only [describing_role, hr, hopen, if_pos ho]
      rfl
    · simp only [describing_role, hr, hopen, if_neg ho]
      rfl

theorem tick_describing (now : Instant) :
    (m.describing d).tick now = ((m.tick now).1.describing d, (m.tick now).2) := by
  have hstart : (m.describing d).startedAt = m.startedAt := rfl
  have htime : (m.describing d).config.handshakeTimeout = m.config.handshakeTimeout := rfl
  unfold tick
  rw [describing_state, hstart, htime]
  split
  · rfl
  · split
    · rfl
    · split
      · exact fail_describing _
      · rfl

/-- **A command that does not send the self-description does not depend on it.** -/
theorem perform_describing {k : Command} (h : ¬ Discloses (m.perform k).actions) :
    (m.describing d).perform k = (m.perform k).describing d := by
  cases k with
  | start now => exact start_describing now
  | feed now nonce service e =>
    obtain ⟨hreq, hrun⟩ := feed_describing (d := d) h
    unfold perform
    dsimp only
    rw [hreq, hrun]
    rfl
  | abandon now =>
    unfold perform abandon
    dsimp only
    rw [describing_state]
    split <;> rfl
  | tick now =>
    unfold perform
    dsimp only
    rw [tick_describing]
    rfl
  | reset => rfl

/-- **A run that does not send the self-description does not depend on it.** -/
theorem log_describing {cs : List Command} (h : ∀ x ∈ m.log cs, ¬ Discloses x.actions) :
    (m.describing d).log cs = (m.log cs).map (·.describing d) := by
  induction cs generalizing m with
  | nil => rfl
  | cons k cs ih =>
    have hk := perform_describing (d := d) (h _ (.head _))
    simp only [log, hk, List.map_cons]
    exact congrArg _ (ih fun x hx => h x (.tail _ hx))

/-! ## Who is told -/

theorem exists_of_says_of_discloses {actions : List Action} {ps : List Payload}
    (hs : Says actions ps) (hd : Discloses actions) : ∃ s, .metadata s ∈ ps := by
  obtain ⟨b, hb, ht⟩ := hd
  induction hs with
  | nil => cases hb
  | @cons a p _ _ ha _ ih =>
    cases hb with
    | head =>
      obtain ⟨h, rfl⟩ := ha
      have hp : p.messageType = .metadata :=
        Option.some.inj ((MessageType.ofCode?_code p.messageType).symm.trans (beq_iff_eq.1 ht))
      cases p <;> first | exact ⟨_, .head _⟩ | cases hp
    | tail _ hb =>
      obtain ⟨s, hs⟩ := ih hb
      exact ⟨s, .tail _ hs⟩

/-- **The self-description is sent only to a peer that has passed**, or, by an initiator that does
not attest its peer, after the peer has passed the initiator. -/
theorem perform_discloses (hm : m.Coherent) {k : Command}
    (hd : Discloses (m.perform k).actions) :
    (m.config.role = .acceptor ∨ m.config.mutualAttestation = true) ∧
        (m.perform k).after.HasPassedPeer ∨
      m.config.role = .initiator ∧ m.config.mutualAttestation = false ∧
        (m.perform k).IsAccepted := by
  cases hk : k.isReset with
  | true =>
    cases k <;> simp only [Command.isReset, reduceCtorEq] at hk
    obtain ⟨a, ha, -⟩ := hd
    cases ha
  | false =>
    cases m.perform_does k hk with
    | idle _ ha =>
      obtain ⟨a, hmem, hd⟩ := hd
      cases a with
      | send f => exact absurd hmem (ha f)
      | passThrough b => cases hd
    | opened _ _ _ _ ha =>
      obtain ⟨s, hs⟩ := exists_of_says_of_discloses ha hd
      simp at hs
    | broken _ hq _ ha =>
      obtain ⟨s, hs⟩ := exists_of_says_of_discloses ha hd
      cases List.mem_singleton.1 hs
      exact hq.elim
    | heard _ hp hh ha =>
      obtain ⟨s, hs⟩ := exists_of_says_of_discloses ha hd
      cases hh with
      | refused _ hq | unsupported _ hq | unquoted _ hq | appraisalFailed _ hq =>
        cases List.mem_singleton.1 hs
        exact hq.elim
      | told | challenged | quoted | passedToAcceptor | acceptedAcceptor | acceptedMutually
      | describedToInitiator => simp at hs
      | passedToInitiator hr ht hb =>
        have hkeeps := hm.keepsMutual hr (hm.hasOpened hr (by simp [ht]) (by simp [ht]))
        exact .inl ⟨.inr (hkeeps ▸ hm.challenging hr ht), hasPassedPeer_of_passed hb.appraisal⟩
      | describedToAcceptor hr ht hb =>
        have hpass := hm.passed (trustsPeer_acceptor hr (.inr (.inr ht)))
        refine .inl ⟨.inl hr, ?_⟩
        rwa [HasPassedPeer, hb.appraisal]
      | acceptedOneWay hv hr ht hmut =>
        have hkeeps := hm.keepsMutual hr (hm.hasOpened hr (by simp [ht]) (by simp [ht]))
        exact .inr ⟨hr, hkeeps ▸ hmut, by rwa [perform_before], _, hp, hv⟩

/-! ## Runs -/

/-- While a machine has not passed its peer it has not passed it at any moment before. -/
theorem not_hasPassedPeer_of_mem_log {c : Config} {cs : List Command}
    (hk : ∀ k ∈ cs, k.isReset = false) (hn : ¬ ((ofConfig c).run cs).HasPassedPeer) {x : Moment}
    (hx : x ∈ (ofConfig c).log cs) : ¬ x.after.HasPassedPeer := by
  induction cs using List.reverseRec with
  | nil => cases hx
  | append_singleton cs k ih =>
    rw [log_concat] at hx
    rw [run_concat] at hn
    rcases List.mem_append.1 hx with hx | hx
    · refine ih (fun k h => hk k (List.mem_append_left _ h)) (fun hp => hn ?_) hx
      exact hp.perform (coherent_run c cs) (hk k (by simp))
    · rwa [List.mem_singleton.1 hx]

end Machine

open Machine

/-- **No disclosure before trust.** Two machines that differ in their self-description do and become
the same: an acceptor and an initiator that attests its peer until it has passed the peer, any other
initiator until it is told that the peer has passed it. And an initiator that attests its peer has
passed it whenever it sends its self-description or completes the handshake, whatever the peer
sends. -/
theorem no_disclosure_before_trust (c : Config) (d : String) (cs : List Command) :
    (c.role = .acceptor ∨ c.mutualAttestation = true → (∀ k ∈ cs, k.isReset = false) →
      ¬ ((ofConfig c).run cs).HasPassedPeer →
      (ofConfig (c.describing d)).log cs = ((ofConfig c).log cs).map (·.describing d)) ∧
    (c.role = .initiator → c.mutualAttestation = false →
      (∀ x ∈ (ofConfig c).log cs, ¬ x.IsAccepted) →
      (ofConfig (c.describing d)).log cs = ((ofConfig c).log cs).map (·.describing d)) ∧
    (c.role = .initiator → c.mutualAttestation = true →
      ∀ x ∈ (ofConfig c).log cs, Discloses x.actions ∨ x.after.state = .complete →
        x.after.HasPassedPeer) := by
  have hd : ofConfig (c.describing d) = (ofConfig c).describing d := rfl
  rw [hd]
  refine ⟨fun hc hk hn => ?_, fun hr hmut hacc => ?_, fun hr hmut x hx hx' => ?_⟩
  · refine log_describing fun x hx hdis => ?_
    have hpass := not_hasPassedPeer_of_mem_log hk hn hx
    obtain ⟨m, k, -, rfl, hm, rfl⟩ := exists_of_mem_log hx
    rcases perform_discloses hm hdis with ⟨-, h⟩ | ⟨hr, hmut, -⟩
    · exact hpass h
    · simp [hr, hmut] at hc
  · refine log_describing fun x hx hdis => ?_
    have hnot := hacc x hx
    obtain ⟨m, k, -, rfl, hm, rfl⟩ := exists_of_mem_log hx
    rcases perform_discloses hm hdis with ⟨hc, -⟩ | ⟨-, -, h⟩
    · simp [hr, hmut] at hc
    · exact hnot h
  · obtain ⟨m, k, -, rfl, hm, rfl⟩ := exists_of_mem_log hx
    rcases hx' with hdis | hs
    · rcases perform_discloses hm hdis with ⟨-, h⟩ | ⟨-, hmut', -⟩
      · exact h
      · rw [hmut] at hmut'
        cases hmut'
    · have hm' := hm.perform k
      have hr' : (m.perform k).after.config.role = .initiator := by rwa [perform_config]
      have ho := hm'.hasOpened hr' (by simp [hs]) (by simp [hs])
      have hmut' := hm'.keepsMutual hr' ho
      rw [perform_config, hmut] at hmut'
      exact hm'.passed (by simp [trustsPeer_iff, hr, hs, hmut'])

/-- An initiator that attests its peer. -/
def plainMutual : Config := (plainConfig .initiator).asRole .initiator

/-- An initiator that does not attest its peer. -/
def plainOneWay : Config := { plainMutual with mutualAttestation := false }

/-- An initiator opens the handshake and shows evidence. -/
def plainOpening : List Command :=
  [.start 0, .feed 1 [] plainService ⟨[], .challenge ⟨[5], .advanced, .single 0⟩, none⟩]

/-- It is told that the evidence has passed, and challenges the peer if it attests it. -/
def plainAcceptance : List Command :=
  plainOpening ++ [.feed 2 [2, 3] plainService ⟨[], .result ⟨.pass, none⟩, none⟩]

/-- The peer answers the challenge. -/
def plainDisclosure : List Command :=
  plainAcceptance ++
    [.feed 3 [] plainService ⟨[], .response ⟨[2, 3], (plainEvidence [2, 3]).encode⟩, none⟩]

/-- An initiator that attests its peer has disclosed nothing when its challenge is out, another one
has disclosed nothing when its evidence is out. The self-description that the first one then sends
goes to a peer that has passed. -/
theorem plainDisclosure_discloses :
    (((ofConfig plainMutual).run plainAcceptance).state = .challengeIssued ∧
      (ofConfig (plainMutual.describing "x")).log plainAcceptance =
        ((ofConfig plainMutual).log plainAcceptance).map (·.describing "x")) ∧
    (((ofConfig plainOneWay).run plainOpening).state = .verdictPending ∧
      (ofConfig (plainOneWay.describing "x")).log plainOpening =
        ((ofConfig plainOneWay).log plainOpening).map (·.describing "x")) ∧
    ∃ x ∈ (ofConfig plainMutual).log plainDisclosure,
      Discloses x.actions ∧ x.after.HasPassedPeer := by
  refine ⟨⟨by decide +kernel, ?_⟩, ⟨by decide +kernel, ?_⟩, ?_⟩
  · refine (no_disclosure_before_trust _ "x" plainAcceptance).1 (.inr rfl) (by decide) ?_
    rintro ⟨a, ha, -⟩
    have hnone : ((ofConfig plainMutual).run plainAcceptance).appraisal = none := by
      decide +kernel
    rw [hnone] at ha
    cases ha
  · refine (no_disclosure_before_trust _ "x" plainOpening).2.1 rfl rfl ?_
    have hstate : ∀ x ∈ (ofConfig plainOneWay).log plainOpening,
        x.before.state ≠ .verdictPending := by decide +kernel
    exact fun x hx h => hstate x hx h.1
  · have hd : ∃ x ∈ (ofConfig plainMutual).log plainDisclosure,
        Discloses x.actions := by decide +kernel
    obtain ⟨x, hx, hd⟩ := hd
    have hpass := (no_disclosure_before_trust _ "x" plainDisclosure).2.2 rfl rfl x hx (.inl hd)
    exact ⟨x, hx, hd, hpass⟩

end AttestedChannel
