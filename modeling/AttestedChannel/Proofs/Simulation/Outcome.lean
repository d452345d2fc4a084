import AttestedChannel.Proofs.Simulation.Pairing
import AttestedChannel.Simulation.Scenario

/-!
# The outcome of a simulated handshake

A scenario ends with both sides complete exactly if the sides that have to be convinced are, and
otherwise with both failed (`Scenario.handshake_outcome`). Handing messages over goes through the
positions of the handshake until nothing waits any more (`Stands.settles`). Only where a service
never answers does it come to rest before that, and then the time-out of the call ends the handshake
(`Stalls.passTo`).
-/

namespace AttestedChannel.Simulation

namespace Pairing

variable {p p' : Pairing} {x : Setting} {M : Side → Machine} {Q : Side → List Payload} {s v : Side}

/-! ## Settling -/

theorem advance?_of_inbox (h : (p.get s).inbox = []) : p.advance? s = none := by
  simp [advance?, h]

theorem advance?_of_call {k : LostCall} (h : (p.get s).call = some k) : p.advance? s = none := by
  simp [advance?, h]

/-- Where neither side can be handed anything, nothing happens. -/
theorem settleWithin_eq_self (hv : p.advance? v = none) (ho : p.advance? v.opposite = none)
    (n : Nat) (s : Side) : settleWithin n s p = p := by
  cases n with
  | zero => rfl
  | succ n =>
    rcases v.eq_or_eq_opposite s with rfl | rfl
    · simp only [settleWithin, hv, ho]
    · simp only [settleWithin, hv, ho, v.opposite_opposite]

/-- Where only one side can be handed something, it is. -/
theorem settleWithin_succ (h : p.advance? v = some p') (ho : p.advance? v.opposite = none)
    (n : Nat) (s : Side) : settleWithin (n + 1) s p = settleWithin n v p' := by
  rcases v.eq_or_eq_opposite s with rfl | rfl
  · simp only [settleWithin, h]
  · simp only [settleWithin, ho, h, v.opposite_opposite]

/-- The handshake is over on both sides, as the setting has it. -/
structure IsOver (p : Pairing) (x : Setting) : Prop where
  free : p.IsFree
  quiet : ∀ s, (p.get s).inbox = []
  outcome : (x.Succeeds ∧ (∀ s, (p.get s).view.state = .complete) ∧ p.log = x.transcript) ∨
    ¬ x.Succeeds ∧ ∀ s, (p.get s).view.state = .failed

theorem IsOver.settleWithin (h : p.IsOver x) (n : Nat) (s : Side) : settleWithin n s p = p :=
  settleWithin_eq_self (advance?_of_inbox (h.quiet .initiator))
    (advance?_of_inbox (h.quiet _)) n s

theorem IsOver.completion? (h : p.IsOver x) (s : Side) :
    (p.get s).view.completion?.isSome = true := by
  rcases h.outcome with ⟨-, hs, -⟩ | ⟨-, hs⟩ <;> simp [SessionView.completion?, hs s,
    HandshakeState.isTerminal]

/-- The report of a side that has failed ends the handshake. -/
theorem Stands.settles_broken {r : Side} (h : p.Stands x M Q) (hfree : p.IsFree)
    (hb : Broken x M Q r) (n : Nat) (s : Side) :
    (settleWithin (n + 1) s p).time = p.time ∧ (settleWithin (n + 1) s p).IsOver x := by
  obtain ⟨q, hq, -⟩ := hb.report
  obtain ⟨p', hp', hadvanced⟩ := h.advance (P := Lost) hfree hq
    (by rw [r.opposite_opposite, hb.empty]) hb.running fun _ _ _ he => hb.leads hq he
  have hquiet : p.advance? r.opposite.opposite = none := by
    rw [r.opposite_opposite]
    exact advance?_of_inbox (h.inbox_eq_nil hb.empty)
  rw [settleWithin_succ hp' hquiet]
  obtain ⟨request?, ⟨M', Q', hlost, hstands, hfree'⟩ | ⟨hasked, -, hstalls⟩⟩ := hadvanced.outcome
  · have hover : p'.IsOver x := {
      free := hfree'
      quiet := fun v => hstands.inbox_eq_nil (hlost.empty v)
      outcome := .inr ⟨hb.fails, fun v => by
        rw [(hstands.connector v).state_view, hlost.failed v]⟩ }
    rw [hover.settleWithin]
    exact ⟨hadvanced.time, hover⟩
  · -- a service that is not asked cannot be waited for
    obtain ⟨k, -, -, hk⟩ := hstalls.call
    obtain ⟨M', Q', hlost, -⟩ := hk 0
    exact absurd hlost.asked hasked

/-- A pairing in which nothing can happen until the call of a side runs into its limit. -/
theorem Stalls.settleWithin {limitAt : Instant}
    {P : (Side → Machine) → (Side → List Payload) → Prop} (h : p.Stalls x v limitAt P)
    (n : Nat) (s : Side) : settleWithin n s p = p := by
  obtain ⟨k, hk, -⟩ := h.call
  exact settleWithin_eq_self (advance?_of_call hk) (advance?_of_inbox h.quiet) n s

theorem Stalls.imp {limitAt : Instant} {P P' : (Side → Machine) → (Side → List Payload) → Prop}
    (h : p.Stalls x v limitAt P) (hP : ∀ M Q, P M Q → P' M Q) : p.Stalls x v limitAt P' where
  call := by
    obtain ⟨k, hk, hlimit, hr⟩ := h.call
    refine ⟨k, hk, hlimit, fun now => ?_⟩
    obtain ⟨M, Q, hPM, hstands, hfree⟩ := hr now
    exact ⟨M, Q, hP M Q hPM, hstands, hfree⟩
  running := h.running
  other := h.other
  quiet := h.quiet

/-- What a pairing comes to when all has been handed over: the handshake is over, or a side waits in
vain for its service and will then have failed. -/
def Rests (p : Pairing) (x : Setting) (now : Instant) : Prop :=
  p.time = now ∧ (p.IsOver x ∨ ∃ v, p.Stalls x v (now + (x.config v).measurementTimeout.toNanos)
    fun M Q => Broken x M Q v)

/-- **Handing over goes through the positions of the handshake to their end**, unless a service
never answers. -/
theorem Stands.settles {n : Nat} {log : List (Side × MessageType)} (hbrief : x.DescribesBriefly)
    (hc : Course x M Q n log) (h : p.Stands x M Q) (hfree : p.IsFree) (hlog : p.log = log) {k : Nat}
    (hk : n < k) (s : Side) : (Pairing.settleWithin k s p).Rests x p.time := by
  -- on the bound of the messages that are still to come
  induction n using Nat.strong_induction_on generalizing p M Q log k s with
  | _ n ih =>
    by_cases hn : n = 0
    · subst hn
      obtain ⟨hpass, hstate, hempty, hdone⟩ := hc.completed_of_zero
      have hover : p.IsOver x := {
        free := hfree
        quiet := fun v => h.inbox_eq_nil (hempty v)
        outcome := .inl ⟨hpass, fun v => by rw [(h.connector v).state_view, hstate v],
          hlog.trans hdone⟩ }
      rw [hover.settleWithin]
      exact ⟨rfl, .inl hover⟩
    · obtain ⟨v, q, rest, hready⟩ := hc.step hbrief hn
      obtain ⟨p', hp', hadvanced⟩ := h.advance hfree hready.waits hready.alone hready.running
        fun nonce e hl he => hready.leads p.time nonce e hl he
      obtain ⟨k, rfl⟩ : ∃ j, k = j + 2 := ⟨k - 2, by omega⟩
      rw [settleWithin_succ hp' (advance?_of_inbox (h.inbox_eq_nil hready.alone)), ← hadvanced.time]
      obtain ⟨request?, ⟨M', Q', hgoes, hstands, hfree'⟩ | ⟨hasked, hun, hstalls⟩⟩ :=
        hadvanced.outcome
      · rcases hgoes with hb | ⟨-, n', hn', hc'⟩
        · obtain ⟨htime, hover⟩ := hstands.settles_broken hfree' hb k v
          exact ⟨htime, .inl hover⟩
        · exact ih n' hn' hc' hstands hfree' (by rw [hadvanced.log, hlog]) (by omega) v
      · rw [hstalls.settleWithin]
        refine ⟨rfl, .inr ⟨v, ?_⟩⟩
        rw [hadvanced.time]
        refine hstalls.imp fun M' Q' hgoes => ?_
        rcases hgoes with hb | ⟨hnone | hanswers, -⟩
        · exact hb
        · exact absurd hnone hasked
        · exact absurd hun hanswers

/-! ## Time -/

theorem land_of_free (h : (p.get s).call = none) : p.land s = p := by
  simp only [land, h]

theorem land_of_call {k : LostCall} (h : (p.get s).call = some k) (hk : k.limitAt ≤ p.time) :
    p.land s = (p.resumed s k).settle s := by
  simp only [land, h, if_pos hk]
  rfl

theorem IsOver.land (h : p.IsOver x) (s : Side) : p.land s = p := land_of_free (h.free s)

/-- When the lost call runs into its limit, the handshake ends. -/
theorem Stalls.passTo {limitAt : Instant}
    (h : p.Stalls x v limitAt fun M Q => Broken x M Q v) : (p.passTo limitAt).IsOver x := by
  obtain ⟨k, hk, hlimit, hr⟩ := h.call
  obtain ⟨M, Q, hb, hstands, hfree⟩ := hr limitAt
  have hover : (({ p with time := limitAt }.resumed v k).settle v).IsOver x :=
    (hstands.settles_broken hfree hb _ v).2
  have hland : { p with time := limitAt }.land v =
      ({ p with time := limitAt }.resumed v k).settle v :=
    land_of_call (by rw [get_time, hk]) (Nat.le_of_eq hlimit)
  have hother : { p with time := limitAt }.land v.opposite = { p with time := limitAt } :=
    land_of_free (by rw [get_time, h.other])
  cases v with
  | initiator =>
    rw [Pairing.passTo, hland, hover.land]
    exact hover
  | acceptor =>
    show ((Pairing.land { p with time := limitAt } Side.acceptor.opposite).land .acceptor).IsOver x
    rw [hother, hland]
    exact hover

/-- The next time-out is that of the only call. -/
theorem Stalls.nextAt {limitAt : Instant} {P : (Side → Machine) → (Side → List Payload) → Prop}
    (h : p.Stalls x v limitAt P) : p.nextAt = some limitAt := by
  obtain ⟨k, hk, hlimit, -⟩ := h.call
  have ho := h.other
  cases v <;> simp_all [Pairing.nextAt, get, Side.opposite]

/-- While a side waits in vain for its service, no handshake is over. -/
theorem Stalls.completion? {limitAt : Instant}
    (h : p.Stalls x v limitAt fun M Q => Broken x M Q v) (s : Side) :
    (p.get s).view.completion? = none := by
  rcases v.eq_or_eq_opposite s with rfl | rfl
  · exact h.running
  · obtain ⟨k, -, -, hr⟩ := h.call
    obtain ⟨M, Q, hb, hstands, -⟩ := hr p.time
    have hview := (hstands.connector v.opposite).completion?_eq_none hb.running
    rw [resumed, get_opposite_absorb, get_opposite_set, get_time] at hview
    exact hview

theorem IsOver.waitWithin (h : p.IsOver x) (s : Side) (deadline : Instant) (n : Nat) :
    waitWithin s deadline n p = p := by
  cases n with
  | zero => rfl
  | succ n => rw [Pairing.waitWithin, if_pos (h.completion? s)]

/-- A wait that is longer than any call ends with the handshake. -/
theorem Rests.waitWithin {now deadline : Instant} (h : p.Rests x now)
    (hd : ∀ v, now + (x.config v).measurementTimeout.toNanos ≤ deadline) (s : Side) (n : Nat) :
    (waitWithin s deadline (n + 1) p).IsOver x := by
  obtain ⟨-, hover | ⟨v, hstalls⟩⟩ := h
  · rwa [hover.waitWithin]
  · have hnone := hstalls.completion? s
    rw [Pairing.waitWithin, hstalls.nextAt, if_neg (by simp [hnone])]
    simp only [if_neg (Nat.not_lt.2 (hd v))]
    rw [hstalls.passTo.waitWithin]
    exact hstalls.passTo

theorem wait_of_completion? (h : (p.get s).view.completion?.isSome = true) (d : Duration) :
    (p.wait s d).1 = p := by
  obtain ⟨o, ho⟩ := Option.isSome_iff_exists.1 h
  simp [wait, ho]

/-- Waiting for the end of a handshake that has begun ends with it. -/
theorem Stands.wait {n : Nat} {log : List (Side × MessageType)} {d : Duration}
    (hbrief : x.DescribesBriefly) (hc : Course x M Q n log) (h : p.Stands x M Q) (hfree : p.IsFree)
    (hlog : p.log = log) (hn : n < handshakeFrames) (hs : (M s).state.isTerminal = false)
    (hd : ∀ v, (x.config v).measurementTimeout.toNanos < d.toNanos) : (p.wait s d).1.IsOver x := by
  have hnone := (h.connector s).completion?_eq_none hs
  have hpositive : d.toNanos ≠ 0 := Nat.ne_of_gt (Nat.zero_lt_of_lt (hd s))
  have hrests : (p.settle .acceptor).Rests x p.time :=
    h.settles hbrief hc hfree hlog (Nat.lt_of_lt_of_le hn (Nat.le_add_left _ _)) .acceptor
  have hover := hrests.waitWithin
    (fun v => Nat.add_le_add_left (Nat.le_of_lt (hd v)) p.time) s 7
  have hwait : (p.wait s d).1 =
      Pairing.waitWithin s (p.time + d.toNanos) handshakeCalls (p.settle .acceptor) := by
    obtain ⟨o, ho⟩ := Option.isSome_iff_exists.1 (hover.completion? s)
    have ho' : ((Pairing.waitWithin s (p.time + d.toNanos) handshakeCalls
        (p.settle .acceptor)).get s).view.completion? = some o := ho
    simp [Pairing.wait, hnone, hpositive, ho']
  rw [hwait]
  exact hover

/-! ## After the handshake -/

/-- Where no service is waited for, what was passed through is read once. -/
theorem collectUntilQuiet_of_nextAt (h : (p.collect s).2.nextAt = none) (quiet n : Nat)
    (deadline : Instant) : (collectUntilQuiet s quiet (n + 1) deadline p).2 = (p.collect s).2 := by
  rcases hc : p.collect s with ⟨ms, p'⟩
  rw [hc] at h
  simp only [collectUntilQuiet, hc, h]

theorem IsOver.nextAt_collect (h : p.IsOver x) (s : Side) : (p.collect s).2.nextAt = none := by
  have hi : p.initiator.call = none := h.free .initiator
  have ha : p.acceptor.call = none := h.free .acceptor
  cases s <;> simp [Pairing.nextAt, collect, Pairing.set, get, hi, ha]

theorem post_nil (p : Pairing) (s : Side) : p.post s [] = p := by
  rw [post, List.append_nil]
  exact p.set_get s

theorem IsOver.settle_post_nil (h : p.IsOver x) (s : Side) : (p.post s []).settle s = p := by
  rw [post_nil]
  exact h.settleWithin _ s

/-- Reading what was passed through does not change what can be seen of the sessions. -/
theorem view_collect (p : Pairing) (s v : Side) :
    ((p.collect s).2.get v).view = (p.get v).view := by
  cases s <;> cases v <;> rfl

theorem log_collect (p : Pairing) (s : Side) : (p.collect s).2.log = p.log := by
  cases s <;> rfl

end Pairing

/-! ## Opening -/

namespace Pairing

variable (p : Pairing) (s : Side)

/-- What the registry of a side makes of opening its session. -/
def openedBy : Registry × Nat × List Bytes :=
  (p.get s).registry.openSession s.role p.time (p.get s).session

theorem openSession_eq : p.openSession s =
    (p.set s { p.get s with registry := (p.openedBy s).1 }).post s.opposite
      (p.openedBy s).2.2 := rfl

theorem get_openSession :
    (p.openSession s).get s = { p.get s with registry := (p.openedBy s).1 } := by
  rw [openSession_eq, post]
  simp

theorem get_opposite_openSession : (p.openSession s).get s.opposite =
    { p.get s.opposite with inbox := (p.get s.opposite).inbox ++ (p.openedBy s).2.2 } := by
  rw [openSession_eq, post]
  simp

theorem time_openSession : (p.openSession s).time = p.time := by
  rw [openSession_eq, post]
  simp

/-- The sides open their sessions independently of each other. -/
theorem openedBy_openSession : (p.openSession s).openedBy s.opposite = p.openedBy s.opposite := by
  rw [openedBy, get_opposite_openSession, time_openSession]
  rfl

/-- Both sides open their sessions, one after the other. -/
theorem get_openSessions (v : Side) : ((p.openSession s).openSession s.opposite).get v =
    { p.get v with
      registry := (p.openedBy v).1
      inbox := (p.get v).inbox ++ (p.openedBy v.opposite).2.2 } := by
  rcases s.eq_or_eq_opposite v with rfl | rfl
  · have h := (p.openSession v).get_opposite_openSession v.opposite
    rwa [v.opposite_opposite, openedBy_openSession, get_openSession] at h
  · rw [get_openSession, openedBy_openSession, get_opposite_openSession, s.opposite_opposite]

end Pairing

/-- A connector that has opened its session, and what it has sent. -/
theorem Connector.stands_opened (c : Config) (capacity : Nat) (session : SessionId) (b : Behavior)
    (r : Role) (now : Instant) {ps : List Payload}
    (hspoken : Says ((Machine.ofConfig (c.asRole r)).perform (.start now)).actions ps)
    (hfits : ∀ p ∈ ps, p.Fits) :
    { Connector.ofConfig c capacity session b 0 with
        registry := ((Registry.ofConfig c capacity).openSession r now session).1 }.Stands c b
      ((Machine.ofConfig (c.asRole r)).perform (.start now)).after [] ∧
    List.Forall₂ Bears ((Registry.ofConfig c capacity).openSession r now session).2.2 ps := by
  obtain ⟨hmirrors, hfollows⟩ := Adapter.mirrors_opened (.ofConfig (c.asRole r)) now session
  obtain ⟨ch, hr⟩ := Registry.seat_eq (.ofConfig c capacity) r now session
  have hopen : ((Registry.ofConfig c capacity).openSession r now session).1 = _ := hr
  have hsent : ((Registry.ofConfig c capacity).openSession r now session).2.2 = _ := hmirrors.sent
  rw [hopen, hsent]
  exact ⟨⟨rfl, ⟨_, rfl, hfollows⟩, rfl, rfl, .nil⟩,
    forall₂_bears_framesOf hspoken (fits_sentBy hspoken hfits)⟩

/-! ## Scenarios -/

namespace Scenario

/-- Both connectors of a scenario. -/
def setting (s : Scenario) : Setting where
  config
    | .initiator => s.initiator
    | .acceptor => s.acceptor
  behavior
    | .initiator => s.initiatorBehavior
    | .acceptor => s.acceptorBehavior

/-- The number of a side's session. -/
def sessionOf : Side → SessionId
  | .initiator => initiatorSession
  | .acceptor => acceptorSession

/-- The pairing of a scenario before any session is open. -/
def unopened (s : Scenario) : Pairing :=
  ⟨.ofConfig s.initiator channelCapacity initiatorSession s.initiatorBehavior 0,
    .ofConfig s.acceptor channelCapacity acceptorSession s.acceptorBehavior 0,
    [.keystream s.seed], 0, []⟩

/-- The machines that a scenario begins with. -/
def openedMachine (s : Scenario) (v : Side) : Machine :=
  ((Machine.ofConfig (s.setting.configOf v)).perform (.start 0)).after

/-- The messages that a scenario begins with. -/
def openingMessages (s : Scenario) : Side → List Payload
  | .initiator => []
  | .acceptor => [.hello ⟨Hello.currentVersion, s.setting.isMutual⟩]

theorem says_opening (s : Scenario) (v : Side) :
    Says ((Machine.ofConfig (s.setting.configOf v)).perform (.start 0)).actions
      (s.openingMessages v.opposite) := by
  cases v with
  | initiator => exact .cons ⟨_, rfl⟩ .nil
  | acceptor => exact .nil

theorem fits_opening (s : Scenario) (v : Side) : ∀ p ∈ s.openingMessages v, p.Fits := by
  cases v with
  | initiator => exact fits_nil
  | acceptor => exact fits_singleton (fits_hello _)

theorem stands_pairing (s : Scenario) :
    s.pairing.Stands s.setting s.openedMachine s.openingMessages where
  connector v := by
    have hget : ∀ v, s.unopened.get v = .ofConfig (s.setting.config v) channelCapacity (sessionOf v)
        (s.setting.behavior v) 0 := by rintro ⟨⟩ <;> rfl
    have hopened := fun v => Connector.stands_opened (s.setting.config v) channelCapacity
      (sessionOf v) (s.setting.behavior v) v.role 0 (s.says_opening v) (s.fits_opening v.opposite)
    have hpost := (hopened v).1.post (hopened v.opposite).2
    rw [v.opposite_opposite] at hpost
    have hpairing := s.unopened.get_openSessions .acceptor v
    rw [Pairing.openedBy, Pairing.openedBy, hget, hget] at hpairing
    rw [show s.pairing.get v = _ from hpairing]
    exact hpost
  generators := ⟨_, rfl⟩

theorem opened_pairing (s : Scenario) :
    Course s.setting s.openedMachine s.openingMessages 9 [] :=
  .opened ⟨rfl, rfl, rfl, rfl, fun _ => rfl⟩ ⟨rfl, rfl, rfl, rfl, nofun⟩ rfl rfl

/-- The wait for the initiator lasts until the handshake is over. -/
theorem isOver_wait (s : Scenario) (hbrief : s.setting.DescribesBriefly)
    (hpatient : ∀ v, (s.setting.config v).measurementTimeout.toNanos < s.patience.toNanos) :
    (s.pairing.wait .initiator s.patience).1.IsOver s.setting :=
  s.stands_pairing.wait hbrief s.opened_pairing (by rintro ⟨⟩ <;> rfl) rfl (by decide) rfl hpatient

/-- Once the handshake is over, a scenario without frames only reads what was passed through. -/
theorem run_pairing (s : Scenario) (hframes : s.frames = [])
    (hover : (s.pairing.wait .initiator s.patience).1.IsOver s.setting) :
    s.run.pairing = ((s.pairing.wait .initiator s.patience).1.collect .acceptor).2 := by
  -- `run` is opened as a function: applied to a scenario it would be evaluated up to the first wait
  generalize hr : run = r
  delta run at hr
  have hs := congrFun hr s
  beta_reduce at hs
  rcases hp : s.pairing.wait .initiator s.patience with ⟨p, o⟩
  rw [hp] at hover hs
  have hwait := Pairing.wait_of_completion? (hover.completion? .acceptor) s.patience
  rcases ho : p.wait .acceptor s.patience with ⟨p', o'⟩
  rw [ho] at hwait
  subst hwait
  rw [← hs]
  simp only [ho, hframes, hover.settle_post_nil]
  exact Pairing.collectUntilQuiet_of_nextAt (hover.nextAt_collect .acceptor) _ 7 _

/-- A run leaves both sides as the setting has it. -/
theorem run_cases (s : Scenario) (hframes : s.frames = []) (hbrief : s.setting.DescribesBriefly)
    (hpatient : ∀ v, (s.setting.config v).measurementTimeout.toNanos < s.patience.toNanos) :
    (s.setting.Succeeds ∧ (∀ v, (s.run.pairing.get v).view.state = .complete) ∧
        s.run.pairing.log = s.setting.transcript) ∨
      ¬ s.setting.Succeeds ∧ ∀ v, (s.run.pairing.get v).view.state = .failed := by
  have hover := s.isOver_wait hbrief hpatient
  rw [s.run_pairing hframes hover]
  simp only [Pairing.view_collect, Pairing.log_collect]
  exact hover.outcome

/-- The types of what a side has sent, out of all that was handed over. -/
theorem typesFrom_run (s : Scenario) (v : Side) :
    s.run.typesFrom v = (s.run.pairing.log.filter (·.1 == v)).map (·.2) := by
  simp only [ScenarioResult.typesFrom, Pairing.log, List.filter_map, List.map_map]
  rfl

/-- **The outcome of a simulated handshake.** Both sides end complete exactly if the acceptor is
convinced by the initiator and, where both attest, the initiator by the acceptor; in every other
case both have failed. On success each side has sent exactly the messages of its part. -/
theorem handshake_outcome (s : Scenario) (hframes : s.frames = [])
    (hbrief : s.setting.DescribesBriefly)
    (hpatient : ∀ v, (s.setting.config v).measurementTimeout.toNanos < s.patience.toNanos) :
    ((∀ v, (s.run.pairing.get v).view.state = .complete) ↔ s.setting.Succeeds) ∧
    (¬ s.setting.Succeeds → ∀ v, (s.run.pairing.get v).view.state = .failed) ∧
    (s.setting.Succeeds → ∀ v, s.run.typesFrom v = s.setting.partOf v) := by
  rcases s.run_cases hframes hbrief hpatient with ⟨hsucceeds, hstate, hlog⟩ | ⟨hfails, hstate⟩
  · refine ⟨iff_of_true hstate hsucceeds, fun hno => absurd hsucceeds hno, fun _ v => ?_⟩
    rw [typesFrom_run, hlog, Setting.filter_transcript]
  · refine ⟨iff_of_false (fun hall => ?_) hfails, fun _ => hstate, fun hyes => absurd hyes hfails⟩
    cases (hstate .initiator).symm.trans (hall .initiator)

/-- Two honest connectors that attest each other. -/
def mutualScenario : Scenario :=
  { default with initiator := { simulatedConfig .initiator with mutualAttestation := true } }

/-- An honest service has the values that a simulated connector expects. -/
theorem convinces_mutualScenario (v : Side) : mutualScenario.setting.Convinces v := by
  have hexpected : (mutualScenario.setting.configOf v).expectedMeasurements =
      reportedValues .honest (mutualScenario.setting.configOf v).selection := by cases v <;> rfl
  have hhonest : ∀ w, mutualScenario.setting.behavior w = .honest := by rintro ⟨⟩ <;> rfl
  have hselects : (0 : UInt8) ∈ (mutualScenario.setting.configOf v).selection.indices := by
    cases v <;> decide
  rw [Setting.Convinces, hhonest, hhonest]
  refine ⟨.inl rfl, .inl rfl, ⟨0, hselects⟩, fun i hi => ?_⟩
  rw [hexpected]
  exact get?_reportedValues .honest hi

theorem mutualScenario_completes :
    mutualScenario.frames = [] ∧ mutualScenario.setting.DescribesBriefly ∧
      (∀ v, (mutualScenario.setting.config v).measurementTimeout.toNanos <
        mutualScenario.patience.toNanos) ∧
      (∀ v, (mutualScenario.run.pairing.get v).view.state = .complete) ∧
      mutualScenario.run.typesFrom .acceptor =
        [.attestationChallenge, .attestationResult, .attestationResponse, .metadata] := by
  have hbrief : mutualScenario.setting.DescribesBriefly := by
    rintro ⟨⟩ <;> exact of_decide_eq_true (by decide +kernel)
  have hpatient : ∀ v, (mutualScenario.setting.config v).measurementTimeout.toNanos <
      mutualScenario.patience.toNanos := by rintro ⟨⟩ <;> decide
  have hsucceeds : mutualScenario.setting.Succeeds :=
    ⟨convinces_mutualScenario .acceptor, fun _ => convinces_mutualScenario .initiator⟩
  obtain ⟨hcomplete, -, htypes⟩ := handshake_outcome mutualScenario rfl hbrief hpatient
  exact ⟨rfl, hbrief, hpatient, hcomplete.2 hsucceeds, htypes hsucceeds .acceptor⟩

end Scenario

end AttestedChannel.Simulation
