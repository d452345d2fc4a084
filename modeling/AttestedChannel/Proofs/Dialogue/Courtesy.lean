import AttestedChannel.Proofs.Dialogue.Readiness
import AttestedChannel.Proofs.Handshake.Failing

/-!
# Honest machines do not accuse each other

In a dialogue nobody is told that it has broken the protocol, since nobody does
(`honest_peers_never_accuse`). The `log` of a dialogue says who has acted, on which event, and what
it has sent. What is sent is *polite*: an error report is about a failure of the own platform or
about the time. A machine that reports a failure is over, so it does so once; and if no clock runs
out only the first failure is reported, since the other machine learns of it and keeps silent
(`Speaks`).
-/

namespace AttestedChannel

/-! ## What is sent -/

/-- Whether the frame reports a failure of its sender. -/
def Frame.reportsFailure (f : Frame) : Bool :=
  match Payload.ofFrame f with
  | .ok (.error _) => true
  | .ok (.result r) => r.verdict != .pass
  | _ => false

namespace Payload

/-- The payload does not accuse the peer, and can be written if it is a report. -/
def IsPolite : Payload → Prop
  | .error e => (e.code = .attestationFailed ∨ e.code = .handshakeTimeout) ∧ (Payload.error e).Fits
  | .result r => (Payload.result r).Fits
  | _ => True

variable {p q : Payload} {k : FrameHeader}

/-- What is read of a message type is a payload of that type. -/
theorem messageType_of_decode {t : MessageType} {b : Bytes} (h : decode t b = .ok q) :
    q.messageType = t := by
  have hwrap : ∀ {α : Type} {r : Nat → Cbor.Reader α} {wrap : α → Payload},
      decodeAs r wrap b = .ok q → ∃ a, wrap a = q := by
    intro α r wrap h
    unfold decodeAs at h
    split at h
    · cases h
    · cases h
      exact ⟨_, rfl⟩
  cases t with
  | raw =>
    cases h
    rfl
  | _ =>
    obtain ⟨a, rfl⟩ := hwrap h
    rfl

theorem messageType_of_ofFrame (h : ofFrame (p.toFrame k) = .ok q) :
    q.messageType = p.messageType := by
  unfold ofFrame at h
  rw [known?_toFrame] at h
  exact messageType_of_decode h

theorem Fits.ofFrame_toFrame (h : p.Fits) (k : FrameHeader) : ofFrame (p.toFrame k) = .ok p :=
  Payload.ofFrame_toFrame (Nat.lt_of_le_of_lt h (by decide)) k

/-- A report that is read of the frame of a polite payload is that payload. -/
theorem IsPolite.eq_of_ofFrame (hp : p.IsPolite) (h : ofFrame (p.toFrame k) = .ok q)
    (hq : q.messageType = .error ∨ q.messageType = .attestationResult) : q = p := by
  rw [messageType_of_ofFrame h] at hq
  have hfits : p.Fits := by
    cases p with
    | error e => exact hp.2
    | result r => exact hp
    | _ => simp [messageType] at hq
  rw [hfits.ofFrame_toFrame k] at h
  cases h
  rfl

/-- Only a fatal payload is read as a failure. -/
theorem IsPolite.isFatal (hp : p.IsPolite) (h : (p.toFrame k).reportsFailure = true) :
    p.IsFatal := by
  unfold Frame.reportsFailure at h
  split at h
  · next e he =>
    rw [← hp.eq_of_ofFrame he (.inl rfl)]
    exact trivial
  · next r hr =>
    rw [← hp.eq_of_ofFrame hr (.inr rfl)]
    exact bne_iff_ne.1 h
  · cases h

/-- An error that is read of a frame accuses nobody. -/
theorem IsPolite.code_ne (hp : p.IsPolite) {e : ErrorReport}
    (h : ofFrame (p.toFrame k) = .ok (.error e)) :
    e.code ≠ .protocolViolation ∧ e.code ≠ .unsupportedVersion ∧ e.code ≠ .malformedFrame := by
  obtain rfl := hp.eq_of_ofFrame h (.inl rfl)
  rcases hp.1 with hc | hc <;> rw [hc] <;> decide

end Payload

namespace Machine

variable {m m' : Machine} {p q : Payload} {ps : List Payload}

/-- A machine that hears what it expects answers politely. -/
theorem Hears.polite (h : m.Hears m' p ps) (he : m.Expects p) : ∀ q ∈ ps, q.IsPolite := by
  cases h with
  | refused ht => exact absurd he.1 ht
  | unsupported hv => exact absurd (he.2 _ rfl) hv
  | unquoted _ _ _ hq =>
    obtain ⟨reason, c, hc, rfl⟩ := hq
    cases hc
    intro q hq
    cases List.mem_singleton.1 hq
    exact ⟨.inl rfl, HandshakeError.fits_of_length_le (HandshakeError.length_quoteFailed_le reason)⟩
  | appraisalFailed _ _ _ hq =>
    obtain ⟨rfl, -⟩ := hq
    intro q hq
    cases List.mem_singleton.1 hq
    exact Nat.le_trans (Appraisal.length_encode_report_le _) (by decide)
  | passedToInitiator =>
    intro q hq
    rcases List.mem_pair.1 hq with rfl | rfl
    · exact (by decide : (Payload.result ⟨.pass, none⟩).Fits)
    · exact trivial
  | passedToAcceptor =>
    intro q hq
    cases List.mem_singleton.1 hq
    exact (by decide : (Payload.result ⟨.pass, none⟩).Fits)
  | told | acceptedAcceptor | describedToInitiator => exact fun q hq => by cases hq
  | challenged | quoted | acceptedMutually | acceptedOneWay | describedToAcceptor =>
    intro q hq
    cases List.mem_singleton.1 hq
    exact trivial

/-- A machine that reports a failure says nothing else. -/
theorem Hears.length_of_fatal (h : m.Hears m' p ps) (hq : q ∈ ps) (hf : q.IsFatal) :
    ps.length = 1 := by
  cases h with
  | passedToInitiator =>
    rcases List.mem_pair.1 hq with rfl | rfl
    · exact absurd rfl hf
    · exact hf.elim
  | told | acceptedAcceptor | describedToInitiator => cases hq
  | _ => rfl

end Machine

/-! ## The log of a dialogue -/

/-- The machine that makes a move. -/
def Move.actor : Move → Role
  | .start _ => .initiator
  | .deliver r .. | .tick r _ => r

namespace Dialogue

/-- What one move came to. -/
structure Entry where
  actor : Role
  /-- the event that was delivered -/
  heard : Option Event
  /-- the frames that were to be sent -/
  said : List Frame

/-- What was delivered is well formed, and nothing that was sent says that the peer has broken the
protocol, speaks another version or has sent what cannot be read. -/
structure Entry.IsCivil (x : Entry) : Prop where
  heard : ∀ e, x.heard = some e → e.fault = none
  said : ∀ f ∈ x.said, ∀ e, Payload.ofFrame f = .ok (.error e) →
    e.code ≠ .protocolViolation ∧ e.code ≠ .unsupportedVersion ∧ e.code ≠ .malformedFrame

/-- The event that a move delivers. -/
def heard? (d : Dialogue) : Move → Option Event
  | .deliver r .. => (d.inbox r).head?.map .ofBytes
  | _ => none

/-- What a move comes to. -/
def entry (d : Dialogue) (mv : Move) : Entry :=
  ⟨mv.actor, d.heard? mv, (d.step mv).sent.drop d.sent.length⟩

/-- What each of a list of moves came to. -/
def log : Dialogue → List Move → List Entry
  | _, [] => []
  | d, mv :: moves => d.entry mv :: (d.step mv).log moves

/-- The frames of a log that report a failure of their sender. -/
def failures (log : List Entry) : Nat := (log.flatMap (·.said)).countP Frame.reportsFailure

/-- Whether no clock runs out at a move. -/
def IsInTime (d : Dialogue) : Move → Prop
  | .tick r now => (d.machine r).tick now = (d.machine r, [])
  | _ => True

/-- Whether no clock runs out in a run. -/
def InTime : Dialogue → List Move → Prop
  | _, [] => True
  | d, mv :: moves => d.IsInTime mv ∧ (d.step mv).InTime moves

instance (d : Dialogue) : (mv : Move) → Decidable (d.IsInTime mv)
  | .tick r now => inferInstanceAs (Decidable ((d.machine r).tick now = (d.machine r, [])))
  | .start _ | .deliver .. => inferInstanceAs (Decidable True)

instance decidableInTime : (d : Dialogue) → (moves : List Move) → Decidable (d.InTime moves)
  | _, [] => inferInstanceAs (Decidable True)
  | d, mv :: moves =>
    have := decidableInTime (d.step mv) moves
    inferInstanceAs (Decidable (d.IsInTime mv ∧ (d.step mv).InTime moves))

variable {c : Role → Config} {d d' : Dialogue} {mutually inTime : Bool} {r s : Role} {mv : Move}
  {m : Machine} {ps : List Payload} {actions : List Action}

/-- A move adds to what was to be sent. -/
theorem sent_step (d : Dialogue) (mv : Move) :
    (d.step mv).sent = d.sent ++ (d.entry mv).said := by
  have h : d.sent <+: (d.step mv).sent := by
    cases mv with
    | start now =>
      simp only [step]
      split
      · exact List.prefix_append _ _
      · exact List.prefix_rfl
    | deliver r now nonce service =>
      simp only [step]
      split
      · exact List.prefix_rfl
      · exact List.prefix_append _ _
    | tick r now => exact List.prefix_append _ _
  exact (List.prefix_iff_eq_append.1 h).symm

/-- The log has every frame that was to be sent, in order. -/
theorem sent_run (d : Dialogue) (moves : List Move) :
    (d.run moves).sent = d.sent ++ (d.log moves).flatMap (·.said) := by
  induction moves generalizing d with
  | nil => exact (List.append_nil _).symm
  | cons mv moves ih =>
    rw [log, List.flatMap_cons, ← List.append_assoc, ← sent_step]
    exact ih (d.step mv)

/-- At a look at the clock that is in time nothing happens. -/
theorem step_eq_of_isInTime (h : d.IsInTime mv) (hmv : mv.isTick = true) : d.step mv = d := by
  cases mv with
  | tick r now =>
    have ht : (d.machine r).tick now = (d.machine r, []) := h
    show d.acted r ((d.machine r).tick now).1 ((d.machine r).tick now).2 = d
    rw [ht, acted_nil]
  | start | deliver => cases hmv

/-- What is delivered in a sound dialogue is well formed. -/
theorem Sound.fault_heard (hd : Sound c d) {e : Event} (h : d.heard? mv = some e) :
    e.fault = none := by
  cases mv with
  | start | tick => cases h
  | deliver r now nonce service =>
    obtain ⟨b, hb, rfl⟩ := Option.map_eq_some_iff.1 h
    obtain ⟨p, hp⟩ := hd.letters r b (List.mem_of_mem_head? hb)
    exact hp.carries.1

/-! ## One move -/

/-- What the machine that moves says. It says that it has failed when it does, and then nothing
else; if no clock runs out it does not say so when the other has failed before. -/
structure Speaks (inTime : Bool) (d : Dialogue) (r : Role) (d' : Dialogue) (ps : List Payload) :
    Prop where
  said : List.Forall₂ (fun f p => ∃ k, f = Payload.toFrame p k) (d'.sent.drop d.sent.length) ps
  polite : ∀ p ∈ ps, p.IsPolite
  fails : (∃ p ∈ ps, p.IsFatal) → ps.length = 1 ∧ (d.machine r).state ≠ .failed ∧
    (d'.machine r).state = .failed
  stays : ∀ s, (d.machine s).state = .failed → (d'.machine s).state = .failed
  hushed : inTime = true → (∃ s, (d.machine s).state = .failed) → ∀ p ∈ ps, ¬ p.IsFatal

theorem speaks_idle (inTime : Bool) (d : Dialogue) (r : Role) : Speaks inTime d r d [] where
  said := by
    rw [List.drop_length]
    exact .nil
  polite _ h := by cases h
  fails := fun ⟨_, h, _⟩ => by cases h
  stays _ h := h
  hushed _ _ _ h := by cases h

theorem speaks_acted (hs : Says actions ps) (hpolite : ∀ p ∈ ps, p.IsPolite)
    (hfails : (∃ p ∈ ps, p.IsFatal) → ps.length = 1 ∧ (d.machine r).state ≠ .failed ∧
      m.state = .failed)
    (hstays : (d.machine r).state = .failed → m.state = .failed)
    (hhushed : inTime = true → (∃ s, (d.machine s).state = .failed) → ∀ p ∈ ps, ¬ p.IsFatal) :
    Speaks inTime d r (d.acted r m actions) ps where
  said := by
    show List.Forall₂ _ ((d.sent ++ sentBy actions).drop d.sent.length) ps
    rw [List.drop_left]
    exact forall₂_sentBy hs
  polite := hpolite
  fails h := by
    rw [machine_acted, if_pos rfl]
    exact hfails h
  stays s h := by
    rw [machine_acted]
    split
    · next hs =>
      subst hs
      exact hstays h
    · exact h
  hushed := hhushed

theorem Speaks.of_leaving {rest : List Bytes} (h : Speaks inTime (d.leaving s rest) r d' ps) :
    Speaks inTime d r d' ps :=
  ⟨h.said, h.polite, h.fails, h.stays, h.hushed⟩

/-- **What a machine says in a move it says politely**, and it reports a failure only once. -/
theorem Stage.speaks (hd : Sound c d) (hp : Stage mutually inTime d)
    (hmv : inTime = true → mv.isTick = true → d' = d) (h : Step d mv d') :
    ∃ ps, Speaks inTime d mv.actor d' ps := by
  cases h with
  | idle => exact ⟨[], speaks_idle inTime d _⟩
  | opened hs _ hb hspoken =>
    have hne : (d.machine .initiator).state ≠ .failed := by rw [hs]; decide
    refine ⟨_, speaks_acted hspoken (fun p hp => ?_) (fun ⟨p, hp, hf⟩ => ?_)
      (fun h => absurd h hne) fun _ _ p hp hf => ?_⟩
    all_goals cases List.mem_singleton.1 hp
    · exact trivial
    · exact hf.elim
    · exact hf
  | @heard r now nonce service b rest m p ps actions hq hm hb hh hspoken =>
    obtain ⟨hexp, hfatal⟩ := hp.expects hd hq hm hb
    have hne := (Machine.ne_of_running hm).2
    refine ⟨ps, .of_leaving (speaks_acted hspoken (hh.polite hexp)
      (fun ⟨q, hq, hf⟩ => ⟨hh.length_of_fatal hq hf, hne, hh.failed_of_said hq hf⟩)
      (fun h => absurd h hne) fun ht hs q hq _ => ?_)⟩
    -- what has been said by the other is taken and not answered
    rw [hh.eq_nil_of_fatal (hfatal ht hs) hexp.1] at hq
    cases hq
  | @passedOn r now nonce service b rest m hq hm hb =>
    have hs : Speaks inTime (d.leaving r rest) r ((d.leaving r rest).acted r m []) [] :=
      speaks_acted .nil (fun p hp => by cases hp) (fun ⟨p, hp, _⟩ => by cases hp)
        (fun h => hb.state.trans h) fun _ _ p hp => by cases hp
    exact ⟨[], hs.of_leaving⟩
  | @timedOut r now m q actions hm hb hq hspoken he =>
    cases inTime with
    | true =>
      rw [hmv rfl rfl]
      exact ⟨[], speaks_idle true d _⟩
    | false =>
      obtain ⟨elapsed, code, hc, rfl⟩ := he
      cases hc
      refine ⟨_, speaks_acted hspoken (fun p hp => ?_)
        (fun _ => ⟨rfl, (Machine.ne_of_running hm).2, hb.state⟩) (fun _ => hb.state)
        fun h => by cases h⟩
      cases List.mem_singleton.1 hp
      exact ⟨.inr rfl,
        HandshakeError.fits_of_length_le (HandshakeError.length_timeOut_le elapsed)⟩

/-- A move reports at most one failure, and none unless something fatal is said. -/
theorem Speaks.countP_le (h : Speaks inTime d r d' ps) :
    (d'.sent.drop d.sent.length).countP Frame.reportsFailure ≤ 1 ∧
      (0 < (d'.sent.drop d.sent.length).countP Frame.reportsFailure → ∃ p ∈ ps, p.IsFatal) := by
  have hpos : 0 < (d'.sent.drop d.sent.length).countP Frame.reportsFailure →
      ∃ p ∈ ps, p.IsFatal := by
    intro hpos
    obtain ⟨f, hf, hreports⟩ := List.countP_pos_iff.1 hpos
    obtain ⟨p, hp, k, rfl⟩ := exists_of_mem_forall₂ h.said hf
    exact ⟨p, hp, (h.polite p hp).isFatal hreports⟩
  refine ⟨?_, hpos⟩
  by_contra hlt
  have hone := (h.fails (hpos (by omega))).1
  have hle := List.countP_le_length (p := Frame.reportsFailure) (l := d'.sent.drop d.sent.length)
  rw [h.said.length_eq] at hle
  omega

/-! ## Runs -/

/-- The failures that a machine may still report. -/
def allowance (d : Dialogue) (r : Role) : Nat := if (d.machine r).state = .failed then 0 else 1

theorem allowance_eq_zero : d.allowance r = 0 ↔ (d.machine r).state = .failed := by
  unfold allowance
  split <;> simp_all

theorem allowance_le (d : Dialogue) (r : Role) : d.allowance r ≤ 1 := by
  unfold allowance
  split <;> decide

theorem Speaks.allowance_le (h : Speaks inTime d r d' ps) (s : Role) :
    d'.allowance s ≤ d.allowance s := by
  by_cases hs : (d.machine s).state = .failed
  · rw [allowance_eq_zero.2 (h.stays s hs)]
    exact Nat.zero_le _
  · have hone : d.allowance s = 1 := if_neg hs
    rw [hone]
    exact d'.allowance_le s

/-- A failure that a machine reports uses up its allowance. -/
theorem Speaks.countP_add_allowance_le (h : Speaks inTime d r d' ps) :
    (d'.sent.drop d.sent.length).countP Frame.reportsFailure + d'.allowance r ≤ d.allowance r := by
  obtain ⟨hle, hpos⟩ := h.countP_le
  by_cases hp : ∃ p ∈ ps, p.IsFatal
  · obtain ⟨-, hs, hs'⟩ := h.fails hp
    have hone : d.allowance r = 1 := if_neg hs
    rw [allowance_eq_zero.2 hs', hone]
    exact hle
  · have hzero := Nat.eq_zero_of_not_pos (mt hpos hp)
    rw [hzero, Nat.zero_add]
    exact h.allowance_le r

/-- If no clock runs out it uses up the allowance of both machines. -/
theorem Speaks.countP_add_min_le (h : Speaks true d r d' ps) :
    (d'.sent.drop d.sent.length).countP Frame.reportsFailure +
        min (d'.allowance .initiator) (d'.allowance .acceptor) ≤
      min (d.allowance .initiator) (d.allowance .acceptor) := by
  have hi := h.allowance_le .initiator
  have ha := h.allowance_le .acceptor
  obtain ⟨hle, hpos⟩ := h.countP_le
  by_cases hp : ∃ p ∈ ps, p.IsFatal
  · -- nothing has failed before, since the machine would keep silent
    have hnone : ∀ s, d.allowance s = 1 := fun s => if_neg fun hs => by
      obtain ⟨p, hp, hf⟩ := hp
      exact h.hushed rfl ⟨s, hs⟩ p hp hf
    have hr : d'.allowance r = 0 := allowance_eq_zero.2 (h.fails hp).2.2
    rw [hnone, hnone]
    cases r <;> omega
  · have hzero := Nat.eq_zero_of_not_pos (mt hpos hp)
    omega

/-- **Induction over the log of a dialogue.** What holds of the empty log and of a longer one, since
what is said in the move before is said politely, holds of the log of every run. -/
theorem log_induction (inTime : Bool) {motive : Dialogue → List Entry → Prop}
    (nil : ∀ d, motive d [])
    (cons : ∀ d mv ps log, Sound c d → Speaks inTime d mv.actor (d.step mv) ps →
      motive (d.step mv) log → motive d (d.entry mv :: log)) (moves : List Move)
    (ht : inTime = true → (ofConfigs c).InTime moves) :
    motive (ofConfigs c) ((ofConfigs c).log moves) := by
  -- the invariants go along with every dialogue that is reached
  have hall : ∀ d, Sound c d → Agreement c d → Stage (c .initiator).mutualAttestation inTime d →
      (inTime = true → d.InTime moves) → motive d (d.log moves) := by
    clear ht
    induction moves with
    | nil => exact fun d _ _ _ _ => nil d
    | cons mv moves ih =>
      intro d hd hi hp ht
      have hs := step_cases hd mv
      have hmv : inTime = true → mv.isTick = true → d.step mv = d := fun h =>
        step_eq_of_isInTime (ht h).1
      obtain ⟨ps, hspeaks⟩ := hp.speaks hd hmv hs
      exact cons d mv ps _ hd hspeaks (ih _ (hd.step hs) (hi.step hd hs)
        (hp.step hd hi.mutualFits hmv hs) fun h => (ht h).2)
  exact hall _ (sound_ofConfigs c) (agreement_ofConfigs c) (stage_ofConfigs c _ _) ht

theorem failures_cons (x : Entry) (log : List Entry) :
    failures (x :: log) = x.said.countP Frame.reportsFailure + failures log := by
  rw [failures, List.flatMap_cons, List.countP_append]
  rfl

/-- **Honest machines do not accuse each other.** Whatever the configurations, the measurement
services, the order of deliveries and the clocks: no event that is delivered has a fault, and no
error report that is sent says that the peer has broken the protocol, speaks another version or has
sent what cannot be read. Each of the machines reports at most one failure. If no clock runs out the
two of them together report at most one. -/
theorem honest_peers_never_accuse (c : Role → Config) (moves : List Move) :
    (∀ x ∈ (ofConfigs c).log moves, x.IsCivil) ∧
    (∀ r, failures (((ofConfigs c).log moves).filter (·.actor = r)) ≤ 1) ∧
    ((ofConfigs c).InTime moves → failures ((ofConfigs c).log moves) ≤ 1) := by
  have hlate : false = true → (ofConfigs c).InTime moves := fun h => by cases h
  refine ⟨?_, fun r => ?_, fun ht => ?_⟩
  · refine log_induction false (motive := fun _ log => ∀ x ∈ log, x.IsCivil)
      (fun _ x hx => by cases hx) ?_ moves hlate
    intro d mv ps log hd hs ih x hx
    rcases List.mem_cons.1 hx with rfl | hx
    · refine ⟨fun e he => hd.fault_heard he, fun f hf e he => ?_⟩
      obtain ⟨p, hp, k, rfl⟩ := exists_of_mem_forall₂ hs.said hf
      exact (hs.polite p hp).code_ne he
    · exact ih x hx
  · refine Nat.le_trans (log_induction false (motive := fun d log =>
      failures (log.filter (·.actor = r)) ≤ d.allowance r) (fun _ => Nat.zero_le _) ?_ moves hlate)
      (allowance_le _ r)
    intro d mv ps log hd hs ih
    rw [List.filter_cons]
    split
    · next hr =>
      obtain rfl : mv.actor = r := of_decide_eq_true hr
      rw [failures_cons]
      exact Nat.le_trans (Nat.add_le_add_left ih _) hs.countP_add_allowance_le
    · exact Nat.le_trans ih (hs.allowance_le r)
  · refine Nat.le_trans (log_induction true (motive := fun d log =>
      failures log ≤ min (d.allowance .initiator) (d.allowance .acceptor))
      (fun _ => Nat.zero_le _) ?_ moves fun _ => ht)
      (Nat.le_trans (Nat.min_le_left _ _) (allowance_le _ _))
    intro d mv ps log hd hs ih
    rw [failures_cons]
    exact Nat.le_trans (Nat.add_le_add_left ih _) hs.countP_add_min_le

/-- The platform of the initiator cannot be quoted. -/
def brokenHandshake : List Move :=
  [.start 0, .deliver .acceptor 1 [2, 3] plainService, .tick .initiator 2,
    .deliver .initiator 3 [] fun _ => .timeOut, .deliver .acceptor 4 [] plainService]

/-- The initiator reports that, and the acceptor takes it without a word. -/
theorem brokenHandshake_reports :
    failures ((ofConfigs plainConfig).log brokenHandshake) = 1 ∧
      ∀ x ∈ (ofConfigs plainConfig).log brokenHandshake, x.IsCivil := by
  obtain ⟨hcivil, -, hone⟩ := honest_peers_never_accuse plainConfig brokenHandshake
  exact ⟨Nat.le_antisymm (hone (by decide +kernel)) (by decide +kernel), hcivil⟩

end Dialogue

end AttestedChannel
