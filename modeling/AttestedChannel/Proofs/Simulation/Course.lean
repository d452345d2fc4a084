import AttestedChannel.Proofs.Handshake.Failing
import AttestedChannel.Proofs.Handshake.Standing
import AttestedChannel.Proofs.Simulation.Attesting
import AttestedChannel.Simulation.Link

/-!
# The course of a simulated handshake

The positions of a handshake between two connectors with simulated services, as long as nothing has
gone wrong (`Course`), and what the next message leads to (`Course.step`): the next position, or a
side that has failed and whose message to the other is on its way (`Broken`). A position is numbered
by a bound on the messages that are still to come.

Since the messages are handed over as they were sent and in order, a position says exactly what
waits for each side, and never does something wait for both.
-/

namespace AttestedChannel.Simulation

@[simp] theorem Side.opposite_opposite (s : Side) : s.opposite.opposite = s := by cases s <;> rfl

/-- There is no third side. -/
theorem Side.eq_or_eq_opposite (s t : Side) : t = s ∨ t = s.opposite := by
  cases s <;> cases t <;> first | exact .inl rfl | exact .inr rfl

/-- Both connectors of a simulation. -/
structure Setting where
  config : Side → Config
  behavior : Side → Behavior

namespace Setting

/-- The configuration under which a side's machine runs. -/
def configOf (x : Setting) (s : Side) : Config := (x.config s).asRole s.role

/-- Whether both sides attest, as the initiator wishes. -/
def isMutual (x : Setting) : Bool := (x.config .initiator).mutualAttestation

/-- A side is convinced by the other. -/
def Convinces (x : Setting) (verifier : Side) : Prop :=
  Attests (x.configOf verifier) (x.behavior verifier) (x.behavior verifier.opposite)

/-- The acceptor is convinced by the initiator and, if both attest, the initiator by the acceptor.
-/
def Succeeds (x : Setting) : Prop :=
  x.Convinces .acceptor ∧ (x.isMutual = true → x.Convinces .initiator)

/-- The self-description of a side, as a message. -/
def description (x : Setting) (s : Side) : Payload := .metadata ⟨(x.config s).selfDescription⟩

/-- The self-descriptions fit a frame. -/
def DescribesBriefly (x : Setting) : Prop := ∀ s, (x.description s).Fits

/-- The challenge of a side over a nonce. -/
def challenge (x : Setting) (s : Side) (nonce : Bytes) : Challenge :=
  ⟨nonce, (x.config s).attestationType, (x.config s).propertyMask⟩

/-- What has to be the case before a side challenges the other. -/
def MayChallenge (x : Setting) : Side → Prop
  | .acceptor => True
  | .initiator => x.isMutual = true ∧ x.Convinces .acceptor

theorem not_succeeds {x : Setting} {v : Side} (hmay : x.MayChallenge v) (h : ¬ x.Convinces v) :
    ¬ x.Succeeds := by
  rintro ⟨ha, hi⟩
  cases v with
  | acceptor => exact h ha
  | initiator => exact h (hi hmay.1)

/-! ## Who sends what -/

/-- The messages before the challenge of a side, with their senders. -/
def prelude : Side → List (Side × MessageType)
  | .acceptor => [(.initiator, .hello)]
  | .initiator =>
    [(.initiator, .hello), (.acceptor, .attestationChallenge), (.initiator, .attestationResponse),
     (.acceptor, .attestationResult)]

/-- The messages before the descriptions. -/
def attestation (x : Setting) : List (Side × MessageType) :=
  prelude .initiator ++
    if x.isMutual then
      [(.initiator, .attestationChallenge), (.acceptor, .attestationResponse),
       (.initiator, .attestationResult)]
    else []

/-- All messages of a handshake that succeeds. -/
def transcript (x : Setting) : List (Side × MessageType) :=
  x.attestation ++ [(.initiator, .metadata), (.acceptor, .metadata)]

/-- What a side sends in a handshake that succeeds. -/
def partOf (x : Setting) : Side → List MessageType
  | .initiator =>
    if x.isMutual then
      [.hello, .attestationResponse, .attestationChallenge, .attestationResult, .metadata]
    else [.hello, .attestationResponse, .metadata]
  | .acceptor =>
    if x.isMutual then
      [.attestationChallenge, .attestationResult, .attestationResponse, .metadata]
    else [.attestationChallenge, .attestationResult, .metadata]

theorem filter_transcript (x : Setting) (s : Side) :
    (x.transcript.filter (·.1 == s)).map (·.2) = x.partOf s := by
  rw [transcript, attestation]
  cases s <;> rw [partOf] <;> cases x.isMutual <;> rfl

end Setting

/-! ## Positions -/

/-- A bound on the messages that are still to come when a side is sent a response. -/
def rank : Side → Nat
  | .acceptor => 7
  | .initiator => 4

/-- The positions of a handshake in which nothing has gone wrong: the machine of each side, what
waits for it, and the messages that have been handed over. -/
inductive Course (x : Setting) (M : Side → Machine) (Q : Side → List Payload) :
    Nat → List (Side × MessageType) → Prop
  | opened (hi : (M .initiator).Stands (x.configOf .initiator) .hello x.isMutual)
      (ha : (M .acceptor).Stands (x.configOf .acceptor) .hello false)
      (qi : Q .initiator = [])
      (qa : Q .acceptor = [.hello ⟨Hello.currentVersion, x.isMutual⟩]) :
    Course x M Q 9 []
  | challenged {v : Side} {nonce : Bytes} {s : HandshakeState} (hn : nonce.length = 32)
      (hmay : x.MayChallenge v)
      (hv : (M v).Awaits (x.configOf v) x.isMutual nonce)
      (hp : (M v.opposite).Stands (x.configOf v.opposite) s x.isMutual)
      (ht : (M v.opposite).TakesChallenge)
      (qv : Q v = []) (qp : Q v.opposite = [.challenge (x.challenge v nonce)]) :
    Course x M Q (rank v + 1) (Setting.prelude v)
  | answered {v : Side} {nonce ev : Bytes} (hn : nonce.length = 32) (hmay : x.MayChallenge v)
      (hv : (M v).Awaits (x.configOf v) x.isMutual nonce)
      (hp : (M v.opposite).Stands (x.configOf v.opposite) .verdictPending x.isMutual)
      (hq : quoted? (x.behavior v.opposite) (x.challenge v nonce) = some ev)
      (qv : Q v = [.response ⟨nonce, ev⟩]) (qp : Q v.opposite = []) :
    Course x M Q (rank v) (Setting.prelude v ++ [(v, .attestationChallenge)])
  | passedInitiator (hpass : x.Convinces .acceptor)
      (hi : (M .initiator).Stands (x.configOf .initiator) .verdictPending x.isMutual)
      (ha : (M .acceptor).Stands (x.configOf .acceptor)
        (if x.isMutual then .responseReceived else .metadata) x.isMutual)
      (qi : Q .initiator = [.result ⟨.pass, none⟩]) (qa : Q .acceptor = []) :
    Course x M Q 6 (Setting.prelude .acceptor ++
      [(.acceptor, .attestationChallenge), (.initiator, .attestationResponse)])
  | passedAcceptor (hm : x.isMutual = true)
      (hpass : x.Succeeds)
      (hi : (M .initiator).Stands (x.configOf .initiator) .metadata x.isMutual)
      (ha : (M .acceptor).Stands (x.configOf .acceptor) .verdictPending x.isMutual)
      (qi : Q .initiator = [])
      (qa : Q .acceptor = [.result ⟨.pass, none⟩, x.description .initiator]) :
    Course x M Q 3 (Setting.prelude .initiator ++
      [(.initiator, .attestationChallenge), (.acceptor, .attestationResponse)])
  | attested (hpass : x.Succeeds)
      (hi : (M .initiator).Stands (x.configOf .initiator) .metadata x.isMutual)
      (ha : (M .acceptor).Stands (x.configOf .acceptor) .metadata x.isMutual)
      (qi : Q .initiator = []) (qa : Q .acceptor = [x.description .initiator]) :
    Course x M Q 2 x.attestation
  | described (hpass : x.Succeeds)
      (hi : (M .initiator).Stands (x.configOf .initiator) .metadata x.isMutual)
      (ha : (M .acceptor).state = .complete)
      (qi : Q .initiator = [x.description .acceptor]) (qa : Q .acceptor = []) :
    Course x M Q 1 (x.attestation ++ [(.initiator, .metadata)])
  | completed (hpass : x.Succeeds)
      (hi : (M .initiator).state = .complete) (ha : (M .acceptor).state = .complete)
      (qi : Q .initiator = []) (qa : Q .acceptor = []) :
    Course x M Q 0 x.transcript

/-- A side has failed, and its report waits for the other. -/
structure Broken (x : Setting) (M : Side → Machine) (Q : Side → List Payload) (s : Side) :
    Prop where
  fails : ¬ x.Succeeds
  failed : (M s).state = .failed
  running : (M s.opposite).state.isTerminal = false
  empty : Q s = []
  report : ∃ q, Q s.opposite = [q] ∧ q.IsFatal ∧ (M s.opposite).Takes q

/-! ## Handing over -/

/-- A message for a side has been dealt with. -/
structure HandedOver (M M' : Side → Machine) (Q Q' : Side → List Payload) (s : Side) (t : Turn)
    (rest ps : List Payload) : Prop where
  fed : M' s = t.machine
  other : M' s.opposite = M s.opposite
  taken : Q' s = rest
  sent : Q' s.opposite = Q s.opposite ++ ps

/-- Where nothing waited, what has been said waits now. -/
theorem HandedOver.sent_of_empty {M M' : Side → Machine} {Q Q' : Side → List Payload} {s : Side}
    {t : Turn} {rest ps : List Payload} (hd : HandedOver M M' Q Q' s t rest ps)
    (ho : Q s.opposite = []) : Q' s.opposite = ps := by
  rw [hd.sent, ho, List.nil_append]

/-- What the machine of a side comes to when its message is handed over: it says something that can
be sent, and what becomes of both sides has the property. -/
def Leads (M : Side → Machine) (Q : Side → List Payload) (s : Side) (t : Turn) (rest : List Payload)
    (P : (Side → Machine) → (Side → List Payload) → Prop) : Prop :=
  ∃ ps, Says t.actions ps ∧ (∀ p ∈ ps, p.Fits) ∧
    ∀ M' Q', HandedOver M M' Q Q' s t rest ps → P M' Q'

/-- Only what was left when the message was taken matters. -/
theorem Leads.of_taken {M : Side → Machine} {Q Q₀ : Side → List Payload} {s : Side} {t : Turn}
    {rest : List Payload} {P : (Side → Machine) → (Side → List Payload) → Prop}
    (h : Leads M Q s t rest P) (hs : Q₀ s = rest) (ho : Q₀ s.opposite = Q s.opposite) :
    Leads M Q₀ s t (Q₀ s) P := by
  obtain ⟨ps, hspoken, hfits, hP⟩ := h
  refine ⟨ps, hspoken, hfits, fun M' Q' hd => hP M' Q' ⟨hd.fed, hd.other, ?_, ?_⟩⟩
  · exact hd.taken.trans hs
  · rw [hd.sent, ho]

/-- The handshake goes on after a message for a side, without having waited for a service in vain,
or it breaks. -/
def Goes (x : Setting) (n : Nat) (log : List (Side × MessageType)) (s : Side)
    (request? : Option ServiceRequest) (M' : Side → Machine) (Q' : Side → List Payload) : Prop :=
  Broken x M' Q' s ∨
    (request? = none ∨ x.behavior s ≠ .unresponsive) ∧ ∃ n' < n, Course x M' Q' n' log

variable {x : Setting} {M M' : Side → Machine} {Q Q' : Side → List Payload} {s v : Side}
  {now : Instant} {nonce nonce' : Bytes} {e : Event}

theorem fits_hello (h : Hello) : (Payload.hello h).Fits :=
  Nat.le_trans h.length_encode_le (by decide)

theorem fits_challenge (hn : nonce.length = 32) : (Payload.challenge (x.challenge v nonce)).Fits :=
  Nat.le_trans (x.challenge v nonce).length_encode_le (by simp only [Setting.challenge, hn]; decide)

theorem fits_response {b : Behavior} {ch : Challenge} {ev : Bytes} (hn : ch.nonce.length = 32)
    (h : quoted? b ch = some ev) : (Payload.response ⟨ch.nonce, ev⟩).Fits := by
  have hl := length_quoted_le hn h
  have hr := (Response.mk ch.nonce ev).length_encode_le
  rw [hn] at hr
  refine Nat.le_trans hr ?_
  show 100 + 2 * (32 + ev.length) ≤ 1024 * 1024
  omega

theorem fits_report (a : Appraisal) : (Payload.result a.report).Fits :=
  Nat.le_trans a.length_encode_report_le (by decide)

theorem fits_nil : ∀ p ∈ ([] : List Payload), p.Fits := fun _ hp => by cases hp

/-- A single message that fits. -/
theorem fits_singleton {q : Payload} (hq : q.Fits) : ∀ p ∈ [q], p.Fits := fun p hp => by
  rw [List.mem_singleton.1 hp]
  exact hq

/-! ## One message -/

section

variable (now nonce nonce')

/-- An initiator that says hello is challenged. -/
theorem leads_hello (hi : (M .initiator).Stands (x.configOf .initiator) .hello x.isMutual)
    (ha : (M .acceptor).Stands (x.configOf .acceptor) .hello false) (qi : Q .initiator = [])
    (hn : nonce.length = 32) (he : e.Carries (.hello ⟨Hello.currentVersion, x.isMutual⟩)) :
    Leads M Q .acceptor (((M .acceptor).feed now nonce e).run (answerOf (x.behavior .acceptor))) []
      (Goes x 9 [(.initiator, .hello)] .acceptor ((M .acceptor).feed now nonce e).request?) := by
  obtain ⟨hawaits, hspoken⟩ := ha.hears_hello now nonce (answerOf (x.behavior .acceptor)) rfl
    he
  refine ⟨_, hspoken, fits_singleton (fits_challenge (x := x) (v := .acceptor) hn),
    fun M' Q' hd => .inr ⟨.inl ?_, 8, by decide, ?_⟩⟩
  · exact Machine.feed_request?_eq_none (by rw [ha.state]; rfl) he not_false
  · have hi' : M' Side.acceptor.opposite = M .initiator := hd.other
    have ht : (M .initiator).TakesChallenge :=
      .inr ⟨by rw [hi.config]; rfl, hi.state, hi.hasOpened rfl⟩
    refine .challenged (v := .acceptor) hn trivial (hd.fed ▸ hawaits) (hi'.symm ▸ hi)
      (hi'.symm ▸ ht) hd.taken ?_
    exact hd.sent_of_empty qi

/-- A side that has failed while the other one was waiting. -/
theorem HandedOver.broken {t : Turn} {q : Payload} (hd : HandedOver M M' Q Q' s t [] [q])
    (hx : ¬ x.Succeeds) (hs : t.machine.state = .failed)
    (hr : (M s.opposite).state.isTerminal = false) (hf : q.IsFatal) (ht : (M s.opposite).Takes q)
    (qo : Q s.opposite = []) : Broken x M' Q' s where
  fails := hx
  failed := hd.fed ▸ hs
  running := hd.other ▸ hr
  empty := hd.taken
  report := ⟨q, hd.sent_of_empty qo, hf, hd.other ▸ ht⟩

/-- A side that is challenged quotes its platform, or fails. -/
theorem leads_challenge {st : HandshakeState} (hn : nonce.length = 32) (hmay : x.MayChallenge v)
    (hv : (M v).Awaits (x.configOf v) x.isMutual nonce)
    (hp : (M v.opposite).Stands (x.configOf v.opposite) st x.isMutual)
    (ht : (M v.opposite).TakesChallenge) (qv : Q v = [])
    (he : e.Carries (.challenge (x.challenge v nonce))) :
    Leads M Q v.opposite
      (((M v.opposite).feed now nonce' e).run (answerOf (x.behavior v.opposite))) []
      (Goes x (rank v + 1) (Setting.prelude v ++ [(v, .attestationChallenge)]) v.opposite
        ((M v.opposite).feed now nonce' e).request?) := by
  have hrespond := respond_answerOf (x.behavior v.opposite) (x.challenge v nonce)
  have hopp := v.opposite_opposite
  cases hq : quoted? (x.behavior v.opposite) (x.challenge v nonce) with
  | none =>
    rw [hq] at hrespond
    obtain ⟨hstate, hspoken⟩ := Machine.fails_unquoted now nonce' _ ht he hrespond
    refine ⟨_, hspoken, fits_singleton ?_, fun M' Q' hd => .inl ?_⟩
    · exact HandshakeError.fits_of_length_le (HandshakeError.length_quoteFailed_le _)
    · refine hd.broken (Setting.not_succeeds hmay fun h => ?_) hstate ?_ trivial trivial ?_
      · rw [quoted_of_quotes h.quotes] at hq
        cases hq
      · rw [hopp, hv.stands.state]
        rfl
      · rw [hopp, qv]
  | some ev =>
    rw [hq] at hrespond
    obtain ⟨hstands, hspoken⟩ := hp.hears_challenge now nonce' _ ht he hrespond
    refine ⟨_, hspoken, fits_singleton (fits_response hn hq),
      fun M' Q' hd => .inr ⟨.inr ?_, rank v, Nat.lt_succ_self _, ?_⟩⟩
    · intro hb
      rw [hb] at hq
      cases hq
    · have hother := hd.other
      have hsent := hd.sent_of_empty (by rw [hopp, qv])
      rw [hopp] at hother hsent
      exact .answered hn hmay (hother ▸ hv) (hd.fed ▸ hstands) hq hsent hd.taken

/-- A side that is sent a response passes the other exactly if it is convinced. -/
theorem leads_response {ev : Bytes} (hbrief : x.DescribesBriefly) (hn : nonce.length = 32)
    (hmay : x.MayChallenge v) (hv : (M v).Awaits (x.configOf v) x.isMutual nonce)
    (hp : (M v.opposite).Stands (x.configOf v.opposite) .verdictPending x.isMutual)
    (hq : quoted? (x.behavior v.opposite) (x.challenge v nonce) = some ev)
    (qp : Q v.opposite = []) (he : e.Carries (.response ⟨nonce, ev⟩)) :
    Leads M Q v (((M v).feed now nonce' e).run (answerOf (x.behavior v))) []
      (Goes x (rank v)
        (Setting.prelude v ++ [(v, .attestationChallenge), (v.opposite, .attestationResponse)]) v
        ((M v).feed now nonce' e).request?) := by
  rcases appraise_run (x.behavior v) (x.configOf v) hn hq hv.stands.expected hv.pending with
    ⟨hconvinced, summary, hrun⟩ | ⟨hnot, reason, summary, hrun⟩
  · -- a service that verifies has answered
    have hanswered : x.behavior v ≠ .unresponsive := hconvinced.verifies.ne_unresponsive
    cases v with
    | acceptor =>
      obtain ⟨hstands, hspoken⟩ := hv.hears_response_acceptor now nonce' _ rfl he hrun
      refine ⟨_, hspoken, fits_singleton (fits_report (.passed summary)),
        fun M' Q' hd => .inr ⟨.inr hanswered, 6, by decide, ?_⟩⟩
      have hi : M' .initiator = M .initiator := hd.other
      refine .passedInitiator hconvinced (hi ▸ hp) (hd.fed ▸ hstands) ?_ hd.taken
      exact hd.sent_of_empty qp
    | initiator =>
      obtain ⟨hstands, hspoken⟩ := hv.hears_response_initiator now nonce' _ rfl he hrun
      refine ⟨_, hspoken, ?_, fun M' Q' hd => .inr ⟨.inr hanswered, 3, by decide, ?_⟩⟩
      · intro p hp
        rcases List.mem_cons.1 hp with rfl | hp
        · exact fits_report (.passed summary)
        · rw [List.mem_singleton.1 hp]
          exact hbrief .initiator
      · have ha : M' .acceptor = M .acceptor := hd.other
        refine .passedAcceptor hmay.1 ⟨hmay.2, fun _ => hconvinced⟩ (hd.fed ▸ hstands) (ha ▸ hp)
          hd.taken ?_
        exact hd.sent_of_empty qp
  · obtain ⟨hstate, hspoken⟩ := hv.fails_response now nonce' _ he hrun
    refine ⟨_, hspoken, fits_singleton (fits_report _), fun M' Q' hd => .inl ?_⟩
    refine hd.broken (Setting.not_succeeds hmay hnot) hstate ?_ (fun hpass => ?_) hp.state qp
    · rw [hp.state]
      rfl
    · cases hpass

/-- An initiator that has passed challenges the acceptor or describes itself. -/
theorem leads_verdict_initiator (hbrief : x.DescribesBriefly) (hpass : x.Convinces .acceptor)
    (hi : (M .initiator).Stands (x.configOf .initiator) .verdictPending x.isMutual)
    (ha : (M .acceptor).Stands (x.configOf .acceptor)
      (if x.isMutual then .responseReceived else .metadata) x.isMutual)
    (qa : Q .acceptor = []) (hn : nonce.length = 32) (he : e.Carries (.result ⟨.pass, none⟩)) :
    Leads M Q .initiator
      (((M .initiator).feed now nonce e).run (answerOf (x.behavior .initiator))) []
      (Goes x 6 (Setting.prelude .initiator) .initiator
        ((M .initiator).feed now nonce e).request?) := by
  have hasked : ((M .initiator).feed now nonce e).request? = none :=
    Machine.feed_request?_eq_none (by rw [hi.state]; rfl) he not_false
  cases hm : x.isMutual with
  | true =>
    rw [hm] at hi ha
    obtain ⟨hawaits, hspoken⟩ := hi.hears_verdict_mutual now nonce
      (answerOf (x.behavior .initiator)) rfl he
    refine ⟨_, hspoken, fits_singleton (fits_challenge (x := x) (v := .initiator) hn),
      fun M' Q' hd => .inr ⟨.inl hasked, 5, by decide, ?_⟩⟩
    have ha' : M' Side.initiator.opposite = M .acceptor := hd.other
    have ht : (M .acceptor).TakesChallenge := .inl ⟨by rw [ha.config]; rfl, ha.state⟩
    refine .challenged (v := .initiator) hn ⟨hm, hpass⟩ (hm ▸ hd.fed ▸ hawaits)
      (hm ▸ ha'.symm ▸ ha) (ha'.symm ▸ ht) hd.taken ?_
    exact hd.sent_of_empty qa
  | false =>
    rw [hm] at hi ha
    obtain ⟨hstands, hspoken⟩ := hi.hears_verdict_oneWay now nonce
      (answerOf (x.behavior .initiator)) rfl he
    refine ⟨_, hspoken, fits_singleton (hbrief .initiator),
      fun M' Q' hd => .inr ⟨.inl hasked, 2, by decide, ?_⟩⟩
    have ha' : M' .acceptor = M .acceptor := hd.other
    have hlog : Setting.prelude .initiator = x.attestation := by
      rw [Setting.attestation, hm]
      rfl
    rw [hlog]
    refine .attested ⟨hpass, fun h => ?_⟩ (hm ▸ hd.fed ▸ hstands) (hm ▸ ha' ▸ ha) hd.taken ?_
    · rw [hm] at h
      cases h
    · exact hd.sent_of_empty qa

/-- An acceptor that has passed waits for the description that is already on its way. -/
theorem leads_verdict_acceptor (hpass : x.Succeeds)
    (hi : (M .initiator).Stands (x.configOf .initiator) .metadata x.isMutual)
    (ha : (M .acceptor).Stands (x.configOf .acceptor) .verdictPending x.isMutual)
    (qi : Q .initiator = []) (he : e.Carries (.result ⟨.pass, none⟩)) :
    Leads M Q .acceptor (((M .acceptor).feed now nonce e).run (answerOf (x.behavior .acceptor)))
      [x.description .initiator]
      (Goes x 3 x.attestation .acceptor ((M .acceptor).feed now nonce e).request?) := by
  obtain ⟨hstands, hspoken⟩ := ha.hears_verdict_acceptor now nonce
    (answerOf (x.behavior .acceptor)) rfl he
  refine ⟨_, hspoken, fits_nil, fun M' Q' hd => .inr ⟨.inl ?_, 2, by decide, ?_⟩⟩
  · exact Machine.feed_request?_eq_none (by rw [ha.state]; rfl) he not_false
  · have hi' : M' .initiator = M .initiator := hd.other
    refine .attested hpass (hi' ▸ hi) (hd.fed ▸ hstands) ?_ hd.taken
    exact hd.sent_of_empty qi

/-- An acceptor that is told the description of the initiator sends its own. -/
theorem leads_description_acceptor (hbrief : x.DescribesBriefly) (hpass : x.Succeeds)
    (hi : (M .initiator).Stands (x.configOf .initiator) .metadata x.isMutual)
    (ha : (M .acceptor).Stands (x.configOf .acceptor) .metadata x.isMutual)
    (qi : Q .initiator = []) (he : e.Carries (x.description .initiator)) :
    Leads M Q .acceptor (((M .acceptor).feed now nonce e).run (answerOf (x.behavior .acceptor))) []
      (Goes x 2 (x.attestation ++ [(.initiator, .metadata)]) .acceptor
        ((M .acceptor).feed now nonce e).request?) := by
  obtain ⟨hstate, hspoken⟩ := ha.hears_metadata_acceptor now nonce
    (answerOf (x.behavior .acceptor)) rfl he
  refine ⟨_, hspoken, fits_singleton (hbrief .acceptor),
    fun M' Q' hd => .inr ⟨.inl ?_, 1, by decide, ?_⟩⟩
  · exact Machine.feed_request?_eq_none (by rw [ha.state]; rfl) he not_false
  · have hi' : M' .initiator = M .initiator := hd.other
    refine .described hpass (hi' ▸ hi) (hd.fed ▸ hstate) ?_ hd.taken
    exact hd.sent_of_empty qi

/-- An initiator that is told the description of the acceptor has nothing more to say. -/
theorem leads_description_initiator (hpass : x.Succeeds)
    (hi : (M .initiator).Stands (x.configOf .initiator) .metadata x.isMutual)
    (ha : (M .acceptor).state = .complete) (qa : Q .acceptor = [])
    (he : e.Carries (x.description .acceptor)) :
    Leads M Q .initiator
      (((M .initiator).feed now nonce e).run (answerOf (x.behavior .initiator))) []
      (Goes x 1 x.transcript .initiator ((M .initiator).feed now nonce e).request?) := by
  obtain ⟨hstate, hspoken⟩ := hi.hears_metadata_initiator now nonce
    (answerOf (x.behavior .initiator)) rfl he
  refine ⟨_, hspoken, fits_nil, fun M' Q' hd => .inr ⟨.inl ?_, 0, by decide, ?_⟩⟩
  · exact Machine.feed_request?_eq_none (by rw [hi.state]; rfl) he not_false
  · have ha' : M' .acceptor = M .acceptor := hd.other
    refine .completed hpass (hd.fed ▸ hstate) (ha' ▸ ha) hd.taken ?_
    exact hd.sent_of_empty qa

end

/-! ## Steps -/

/-- The next message waits for this side, and it leads on. -/
structure Ready (x : Setting) (M : Side → Machine) (Q : Side → List Payload) (n : Nat)
    (log : List (Side × MessageType)) (s : Side) (q : Payload) (rest : List Payload) : Prop where
  waits : Q s = q :: rest
  alone : Q s.opposite = []
  running : (M s).state.isTerminal = false
  leads : ∀ (now : Instant) (nonce : Bytes) (e : Event), nonce.length = 32 → e.Carries q →
    Leads M Q s (((M s).feed now nonce e).run (answerOf (x.behavior s))) rest
      (Goes x n (log ++ [(s.opposite, q.messageType)]) s ((M s).feed now nonce e).request?)

/-- **Before the end there is exactly one side for which a message waits, and it leads to the next
position** or breaks the handshake. -/
theorem Course.step {n : Nat} {log : List (Side × MessageType)} (h : Course x M Q n log)
    (hbrief : x.DescribesBriefly) (hn : n ≠ 0) : ∃ s q rest, Ready x M Q n log s q rest := by
  cases h with
  | opened hi ha qi qa =>
    refine ⟨.acceptor, _, _, qa, qi, by rw [ha.state]; rfl, fun now nonce e hlen he => ?_⟩
    exact leads_hello now nonce hi ha qi hlen he
  | @challenged v nonce st hlen hmay hv hp ht qv qp =>
    refine ⟨v.opposite, _, _, qp, by rw [v.opposite_opposite, qv], ?_, fun now nonce' e _ he => ?_⟩
    · rcases ht with ⟨-, ht⟩ | ⟨-, ht, -⟩ <;> rw [ht] <;> rfl
    · rw [v.opposite_opposite]
      exact leads_challenge now nonce nonce' hlen hmay hv hp ht qv he
  | @answered v nonce ev hlen hmay hv hp hq qv qp =>
    refine ⟨v, _, _, qv, qp, by rw [hv.stands.state]; rfl, fun now nonce' e _ he => ?_⟩
    rw [List.append_assoc]
    exact leads_response now nonce nonce' hbrief hlen hmay hv hp hq qp he
  | passedInitiator hpass hi ha qi qa =>
    refine ⟨.initiator, _, _, qi, qa, by rw [hi.state]; rfl, fun now nonce e hlen he => ?_⟩
    exact leads_verdict_initiator now nonce hbrief hpass hi ha qa hlen he
  | passedAcceptor hm hpass hi ha qi qa =>
    refine ⟨.acceptor, _, _, qa, qi, by rw [ha.state]; rfl, fun now nonce e _ he => ?_⟩
    have hlog : x.attestation = Setting.prelude .initiator ++
        [(.initiator, .attestationChallenge), (.acceptor, .attestationResponse)] ++
          [(.initiator, .attestationResult)] := by
      rw [Setting.attestation, if_pos hm]
      rfl
    have hlead := leads_verdict_acceptor now nonce hpass hi ha qi he
    rwa [hlog] at hlead
  | attested hpass hi ha qi qa =>
    refine ⟨.acceptor, _, _, qa, qi, by rw [ha.state]; rfl, fun now nonce e _ he => ?_⟩
    exact leads_description_acceptor now nonce hbrief hpass hi ha qi he
  | described hpass hi ha qi qa =>
    refine ⟨.initiator, _, _, qi, qa, by rw [hi.state]; rfl, fun now nonce e _ he => ?_⟩
    have hlead := leads_description_initiator now nonce hpass hi ha qa he
    have hlog : x.transcript = x.attestation ++ [(.initiator, .metadata)] ++
        [(.acceptor, .metadata)] := by
      rw [List.append_assoc]
      rfl
    rwa [hlog] at hlead
  | completed => exact absurd rfl hn

/-- Where nothing is to come any more, both sides are complete. -/
theorem Course.completed_of_zero {log : List (Side × MessageType)} (h : Course x M Q 0 log) :
    x.Succeeds ∧ (∀ s, (M s).state = .complete) ∧ (∀ s, Q s = []) ∧ log = x.transcript := by
  generalize hn : 0 = n at h
  cases h with
  | completed hpass hi ha qi qa =>
    refine ⟨hpass, ?_, ?_, rfl⟩
    · rintro ⟨⟩
      · exact hi
      · exact ha
    · rintro ⟨⟩
      · exact qi
      · exact qa
  | @answered v =>
    cases v <;> cases hn
  | _ => cases hn

/-- The handshake is over, and both sides have failed. -/
structure Lost (request? : Option ServiceRequest) (M : Side → Machine) (Q : Side → List Payload) :
    Prop where
  asked : request? = none
  failed : ∀ s, (M s).state = .failed
  empty : ∀ s, Q s = []

/-- **A broken handshake ends in failure on both sides** with the next message. -/
theorem Broken.leads {r : Side} {q : Payload} (h : Broken x M Q r) (hq : Q r.opposite = [q])
    (he : e.Carries q) :
    Leads M Q r.opposite
      (((M r.opposite).feed now nonce e).run (answerOf (x.behavior r.opposite))) []
      (Lost ((M r.opposite).feed now nonce e).request?) := by
  obtain ⟨q', hq', hfatal, ht⟩ := h.report
  cases hq.symm.trans hq'
  obtain ⟨hstate, hspoken⟩ := Machine.hears_fatal now nonce
    (answerOf (x.behavior r.opposite)) h.running ht hfatal he
  refine ⟨_, hspoken, fits_nil, fun M' Q' hd => ⟨?_, fun s => ?_, fun s => ?_⟩⟩
  · exact Machine.feed_request?_eq_none h.running he hfatal.not_concernsEvidence
  · have hother := hd.other
    rw [r.opposite_opposite] at hother
    rcases r.eq_or_eq_opposite s with rfl | rfl
    · exact hother ▸ h.failed
    · exact hd.fed ▸ hstate
  · have hsent := hd.sent_of_empty (by rw [r.opposite_opposite, h.empty])
    rw [r.opposite_opposite] at hsent
    rcases r.eq_or_eq_opposite s with rfl | rfl
    · exact hsent
    · exact hd.taken

end AttestedChannel.Simulation
