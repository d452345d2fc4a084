import AttestedChannel.Proofs.Frame.RoundTrip
import AttestedChannel.Proofs.Handshake.Hearing
import AttestedChannel.Session.Registry
import AttestedChannel.Simulation.Link
import Mathlib.Logic.Function.Basic

/-!
# Dialogues

Two machines, an initiator and an acceptor, and the octets that each of them has sent and the other
has not yet been fed. In a dialogue nothing is altered, lost on its way or delivered twice, but a
frame that cannot be written is never sent. A `Move` is one thing that can happen next, with all
that comes from outside; any list of moves is a run.

`step_cases` lists what a move can do, as rules about what the two machines hear and say, and
`run_induction` is the induction over runs that goes with it. Both rest on `bears_of_framesOf`: what
waits for a machine are well-formed messages.
-/

namespace AttestedChannel

/-- The other side of a handshake. -/
def Role.peer : Role → Role
  | .acceptor => .initiator
  | .initiator => .acceptor

@[simp] theorem Role.peer_ne (r : Role) : r.peer ≠ r := by cases r <;> decide

@[simp] theorem Role.ne_peer (r : Role) : r ≠ r.peer := by cases r <;> decide

@[simp] theorem Role.peer_peer (r : Role) : r.peer.peer = r := by cases r <;> rfl

theorem Role.peer_inj {r s : Role} (h : r.peer = s.peer) : r = s := by
  rw [← peer_peer r, h, peer_peer]

theorem Role.eq_peer {r s : Role} (h : r ≠ s) : r = s.peer := by
  cases r <;> cases s <;> first | rfl | exact absurd rfl h

/-- The octets are a well-formed message with this payload. -/
def Bears (b : Bytes) (p : Payload) : Prop := Event.ofBytes b = ⟨b, p, none⟩

theorem Bears.carries {b : Bytes} {p : Payload} (h : Bears b p) : (Event.ofBytes b).Carries p := by
  rw [show Event.ofBytes b = _ from h]
  exact ⟨rfl, rfl⟩

theorem Bears.unique {b : Bytes} {p q : Payload} (hp : Bears b p) (hq : Bears b q) : p = q :=
  congrArg Event.payload (hp.symm.trans hq)

/-! ## Frames on their way -/

open Simulation.Link (framesOf)

/-- The frames can be written. -/
def Fits (fs : List Frame) : Prop := ∀ f ∈ fs, f.payload.length ≤ FrameHeader.maxPayload

instance (fs : List Frame) : Decidable (Fits fs) :=
  inferInstanceAs (Decidable (∀ f ∈ fs, f.payload.length ≤ FrameHeader.maxPayload))

/-- The frames that leave a machine are those that its adapter hands to the transport. -/
theorem sentOf_effectsOf (s : SessionId) (actions : List Action) :
    Registry.sentOf (actions.flatMap (Adapter.effectsOf s)) = framesOf actions := by
  induction actions with
  | nil => rfl
  | cons a actions ih =>
    have hc : Registry.sentOf ((a :: actions).flatMap (Adapter.effectsOf s)) =
        Registry.sentOf (Adapter.effectsOf s a) ++
          Registry.sentOf (actions.flatMap (Adapter.effectsOf s)) := List.filterMap_append
    rw [hc, ih]
    cases a with
    | passThrough b => rfl
    | send f => cases hf : f.encode <;> simp [Adapter.effectsOf, framesOf, Registry.sentOf, hf,
        Except.toOption]

/-- What machines say is well formed on its way, as far as it can be written. -/
theorem bears_of_framesOf {actions : List Action} {ps : List Payload} (h : Says actions ps) :
    ∀ b ∈ framesOf actions, ∃ p ∈ ps, Bears b p := by
  induction h with
  | nil => simp [framesOf]
  | @cons a p actions ps ha _ ih =>
    obtain ⟨k, rfl⟩ := ha
    intro b hb
    simp only [framesOf, List.mem_filterMap, List.mem_cons, exists_eq_or_imp] at hb ih
    rcases hb with hb | hb
    · cases he : (p.toFrame k).encode with
      | error e => rw [he] at hb; cases hb
      | ok b' =>
        rw [he] at hb
        cases hb
        exact ⟨p, List.mem_cons_self, Event.ofBytes_of_encode he⟩
    · obtain ⟨q, hq, hbq⟩ := ih b hb
      exact ⟨q, List.mem_cons_of_mem p hq, hbq⟩

/-- What machines say arrives completely and in order if it can be written. -/
theorem forall₂_bears_framesOf {actions : List Action} {ps : List Payload} (h : Says actions ps)
    (hf : Fits (sentBy actions)) : List.Forall₂ Bears (framesOf actions) ps := by
  induction h with
  | nil => exact .nil
  | @cons a p actions ps ha _ ih =>
    obtain ⟨k, rfl⟩ := ha
    have hl : (p.toFrame k).payload.length ≤ FrameHeader.maxPayload := hf _ List.mem_cons_self
    have he : (p.toFrame k).encode =
        .ok ((p.toFrame k).header.encode ++ (p.toFrame k).payload) :=
      if_neg (Nat.not_lt.2 hl)
    have hframes : framesOf (.send (p.toFrame k) :: actions) =
        ((p.toFrame k).header.encode ++ (p.toFrame k).payload) :: framesOf actions := by
      simp only [framesOf, List.filterMap_cons, he, Except.toOption]
    rw [hframes]
    exact .cons (Event.ofBytes_of_encode he) (ih fun f hm => hf f (List.mem_cons_of_mem _ hm))

/-! ## Dialogues -/

/-- Two machines and the octets that wait for each of them. -/
structure Dialogue where
  machine : Role → Machine
  inbox : Role → List Bytes
  /-- every frame that was to be sent -/
  sent : List Frame

/-- What can happen next in a dialogue. The nonce and the service of a delivery are those of the
machine that is fed. -/
inductive Move where
  /-- the initiator opens the handshake -/
  | start (now : Instant)
  /-- a machine is fed the oldest octets that wait for it -/
  | deliver (r : Role) (now : Instant) (nonce : Bytes) (service : ServiceRequest → Answer)
  /-- a machine looks at the clock -/
  | tick (r : Role) (now : Instant)

/-- Whether the move is a look at the clock. -/
def Move.isTick : Move → Bool
  | .tick .. => true
  | _ => false

namespace Dialogue

/-- Nothing has happened yet. -/
def ofConfigs (c : Role → Config) : Dialogue where
  machine r := .ofConfig ((c r).asRole r)
  inbox _ := []
  sent := []

/-- A machine has acted: its frames wait for the other. -/
def acted (d : Dialogue) (r : Role) (m : Machine) (actions : List Action) : Dialogue where
  machine := Function.update d.machine r m
  inbox := Function.update d.inbox r.peer (d.inbox r.peer ++ framesOf actions)
  sent := d.sent ++ sentBy actions

/-- All but some octets have been taken by a machine. -/
def leaving (d : Dialogue) (r : Role) (rest : List Bytes) : Dialogue :=
  { d with inbox := Function.update d.inbox r rest }

/-- Makes a move. Where it cannot be made nothing happens. -/
def step (d : Dialogue) : Move → Dialogue
  | .start now =>
    match (d.machine .initiator).start now with
    | .ok (m, actions) => d.acted .initiator m actions
    | .error _ => d
  | .deliver r now nonce service =>
    match d.inbox r with
    | [] => d
    | b :: rest =>
      let t := ((d.machine r).feed now nonce (.ofBytes b)).run service
      (d.leaving r rest).acted r t.machine t.actions
  | .tick r now =>
    let (m, actions) := (d.machine r).tick now
    d.acted r m actions

/-- Makes moves one after the other. -/
def run (d : Dialogue) (moves : List Move) : Dialogue := moves.foldl step d

/-- Whether a move can be made. The clock can always be looked at. -/
def Admits (d : Dialogue) : Move → Prop
  | .start _ => (d.machine .initiator).state = .hello ∧ (d.machine .initiator).hasOpened = false
  | .deliver r .. => d.inbox r ≠ []
  | .tick .. => True

instance (d : Dialogue) : (mv : Move) → Decidable (d.Admits mv)
  | .start _ => inferInstanceAs (Decidable (_ ∧ _))
  | .deliver r .. => inferInstanceAs (Decidable (d.inbox r ≠ []))
  | .tick .. => inferInstanceAs (Decidable True)

/-- Whether moves can be made one after the other. -/
def AdmitsAll : Dialogue → List Move → Prop
  | _, [] => True
  | d, mv :: moves => d.Admits mv ∧ (d.step mv).AdmitsAll moves

instance decidableAdmitsAll : (d : Dialogue) → (moves : List Move) → Decidable (d.AdmitsAll moves)
  | _, [] => inferInstanceAs (Decidable True)
  | d, mv :: moves =>
    have := decidableAdmitsAll (d.step mv) moves
    inferInstanceAs (Decidable (d.Admits mv ∧ (d.step mv).AdmitsAll moves))

/-! ## What a move can do -/

/-- The machines have their configurations, and all that waits for them is well formed. -/
structure Sound (c : Role → Config) (d : Dialogue) : Prop where
  config : ∀ r, (d.machine r).config = (c r).asRole r
  letters : ∀ r, ∀ b ∈ d.inbox r, ∃ p, Bears b p

/-- The moves of a sound dialogue. -/
inductive Step (d : Dialogue) : Move → Dialogue → Prop
  | idle {mv : Move} (h : mv.isTick = true ∨ ¬ d.Admits mv) : Step d mv d
  | opened {now : Instant} {m : Machine} {actions : List Action}
      (hs : (d.machine .initiator).state = .hello)
      (ho : (d.machine .initiator).hasOpened = false)
      (hb : { d.machine .initiator with
        isMutual := (d.machine .initiator).config.mutualAttestation
        hasOpened := true }.Becomes m .hello)
      (hspoken : Says actions [.hello ⟨Hello.currentVersion, m.isMutual⟩]) :
    Step d (.start now) (d.acted .initiator m actions)
  | heard {r : Role} {now : Instant} {nonce : Bytes} {service : ServiceRequest → Answer}
      {b : Bytes} {rest : List Bytes} {m : Machine} {p : Payload} {ps : List Payload}
      {actions : List Action} (hq : d.inbox r = b :: rest)
      (hm : (d.machine r).state.isTerminal = false) (hp : Bears b p)
      (hh : (d.machine r).Hears m p ps) (hspoken : Says actions ps) :
    Step d (.deliver r now nonce service) ((d.leaving r rest).acted r m actions)
  | passedOn {r : Role} {now : Instant} {nonce : Bytes} {service : ServiceRequest → Answer}
      {b : Bytes} {rest : List Bytes} {m : Machine} (hq : d.inbox r = b :: rest)
      (hm : (d.machine r).state.isTerminal = true)
      (hb : (d.machine r).Becomes m (d.machine r).state) :
    Step d (.deliver r now nonce service) ((d.leaving r rest).acted r m [.passThrough b])
  | timedOut {r : Role} {now : Instant} {m : Machine} {q : Payload} {actions : List Action}
      (hm : (d.machine r).state.isTerminal = false) (hb : (d.machine r).Becomes m .failed)
      (hq : q.IsFatal) (hspoken : Says actions [q])
      (he : ∃ elapsed, Machine.Reports q (.timeOut elapsed)) :
    Step d (.tick r now) (d.acted r m actions)

theorem acted_nil (d : Dialogue) (r : Role) : d.acted r (d.machine r) [] = d := by
  unfold acted
  rw [show framesOf [] = [] from rfl, show sentBy [] = [] from rfl, List.append_nil,
    List.append_nil, Function.update_eq_self, Function.update_eq_self]

variable {c : Role → Config} {d : Dialogue}

/-- **A move of a sound dialogue is one of the listed ones.** -/
theorem step_cases (hd : Sound c d) (mv : Move) : Step d mv (d.step mv) := by
  cases mv with
  | start now =>
    have hr : (d.machine .initiator).config.role = .initiator := by
      rw [hd.config]
      rfl
    show Step d _ (match (d.machine .initiator).start now with
      | .ok (m, actions) => d.acted .initiator m actions
      | .error _ => d)
    by_cases hs : d.Admits (.start now)
    · -- an initiator that has not begun is not refused
      rcases (d.machine .initiator).start_cases now with ⟨err, h⟩ | ⟨ha, -⟩ | ⟨-, -, -, h⟩
      · unfold Machine.start at h
        rw [hr] at h
        simp only [hs.1, hs.2, ne_eq, not_true, Bool.false_eq_true, or_self, if_false,
          reduceCtorEq] at h
      · cases hr.symm.trans ha
      · rw [h]
        exact .opened hs.1 hs.2 ⟨hs.1, rfl, rfl, rfl, rfl, rfl⟩ (.cons ⟨_, rfl⟩ .nil)
    · rcases (d.machine .initiator).start_cases now with ⟨err, h⟩ | ⟨ha, -⟩ | ⟨-, h₁, h₂, -⟩
      · rw [h]
        exact .idle (.inr hs)
      · cases hr.symm.trans ha
      · exact absurd ⟨h₁, h₂⟩ hs
  | deliver r now nonce service =>
    show Step d _ (match d.inbox r with
      | [] => d
      | b :: rest =>
        (d.leaving r rest).acted r (((d.machine r).feed now nonce (.ofBytes b)).run service).machine
          (((d.machine r).feed now nonce (.ofBytes b)).run service).actions)
    cases hq : d.inbox r with
    | nil => exact .idle (.inr fun h => h hq)
    | cons b rest =>
      obtain ⟨p, hp⟩ := hd.letters r b (by rw [hq]; exact List.mem_cons_self)
      cases hm : (d.machine r).state.isTerminal with
      | true =>
        dsimp only
        rw [Machine.feed_of_terminal hm, show (Event.ofBytes b).raw = b by rw [hp]]
        exact .passedOn hq hm ⟨rfl, rfl, rfl, rfl, rfl, rfl⟩
      | false =>
        obtain ⟨ps, hh, hspoken⟩ := Machine.feed_hears hm now nonce hp.carries service
        exact .heard hq hm hp hh hspoken
  | tick r now =>
    show Step d _ (d.acted r ((d.machine r).tick now).1 ((d.machine r).tick now).2)
    rcases (d.machine r).tick_hears now with h | ⟨hm, hb, q, hq, hspoken, he⟩
    · rw [h, acted_nil]
      exact .idle (.inl rfl)
    · exact .timedOut hm hb hq hspoken he

/-! ## Runs -/

theorem machine_acted (d : Dialogue) (r s : Role) (m : Machine) (actions : List Action) :
    (d.acted r m actions).machine s = if s = r then m else d.machine s :=
  Function.update_apply d.machine r m s

theorem inbox_acted_self (d : Dialogue) (r : Role) (m : Machine) (actions : List Action) :
    (d.acted r m actions).inbox r = d.inbox r :=
  Function.update_of_ne (Role.ne_peer r) _ _

theorem inbox_acted_peer (d : Dialogue) (r : Role) (m : Machine) (actions : List Action) :
    (d.acted r m actions).inbox r.peer = d.inbox r.peer ++ framesOf actions :=
  Function.update_self _ _ _

theorem inbox_leaving_self (d : Dialogue) (r : Role) (rest : List Bytes) :
    (d.leaving r rest).inbox r = rest :=
  Function.update_self _ _ _

theorem inbox_leaving_peer (d : Dialogue) (r : Role) (rest : List Bytes) :
    (d.leaving r rest).inbox r.peer = d.inbox r.peer :=
  Function.update_of_ne (Role.peer_ne r) _ _

/-- What waits for a machine has waited before, or the other machine has just sent it. -/
theorem mem_inbox_acted {r s : Role} {m : Machine} {actions : List Action} {b : Bytes}
    (h : b ∈ (d.acted r m actions).inbox s) :
    b ∈ d.inbox s ∨ s = r.peer ∧ b ∈ framesOf actions := by
  by_cases hs : s = r.peer
  · subst hs
    simp only [acted, Function.update_self, List.mem_append] at h
    exact h.imp_right fun h => ⟨rfl, h⟩
  · simp only [acted, Function.update_of_ne hs] at h
    exact .inl h

theorem mem_inbox_leaving {r s : Role} {a b : Bytes} {rest : List Bytes}
    (hq : d.inbox r = a :: rest) (h : b ∈ (d.leaving r rest).inbox s) : b ∈ d.inbox s := by
  by_cases hs : s = r
  · subst hs
    simp only [leaving, Function.update_self] at h
    rw [hq]
    exact List.mem_cons_of_mem _ h
  · simp only [leaving, Function.update_of_ne hs] at h
    exact h

theorem Sound.acted (hd : Sound c d) {r : Role} {m : Machine} {actions : List Action}
    (hc : m.config = (d.machine r).config)
    (hl : ∀ b ∈ framesOf actions, ∃ p, Bears b p) : Sound c (d.acted r m actions) where
  config s := by
    by_cases hs : s = r
    · subst hs
      simp only [Dialogue.acted, Function.update_self, hc, hd.config]
    · simp only [Dialogue.acted, Function.update_of_ne hs, hd.config]
  letters s b hb := by
    rcases mem_inbox_acted hb with hb | ⟨-, hb⟩
    · exact hd.letters s b hb
    · exact hl b hb

theorem Sound.leaving (hd : Sound c d) {r : Role} {a : Bytes} {rest : List Bytes}
    (hq : d.inbox r = a :: rest) : Sound c (d.leaving r rest) where
  config := hd.config
  letters s b hb := hd.letters s b (mem_inbox_leaving hq hb)

theorem letters_of_spoken {actions : List Action} {ps : List Payload} (h : Says actions ps) :
    ∀ b ∈ framesOf actions, ∃ p, Bears b p := fun b hb =>
  have ⟨p, _, hp⟩ := bears_of_framesOf h b hb
  ⟨p, hp⟩

/-- A move keeps a dialogue sound. -/
theorem Sound.step (hd : Sound c d) {mv : Move} {d' : Dialogue} (h : Step d mv d') :
    Sound c d' := by
  cases h with
  | idle => exact hd
  | opened _ _ hb hspoken => exact hd.acted hb.config (letters_of_spoken hspoken)
  | heard hq _ _ hh hspoken => exact (hd.leaving hq).acted hh.same.1 (letters_of_spoken hspoken)
  | passedOn hq _ hb => exact (hd.leaving hq).acted hb.config fun b hb => by cases hb
  | timedOut _ hb _ hspoken => exact hd.acted hb.config (letters_of_spoken hspoken)

theorem sound_ofConfigs (c : Role → Config) : Sound c (ofConfigs c) where
  config _ := rfl
  letters _ _ hb := by cases hb

/-- **Induction over the runs of a dialogue.** What holds of a sound dialogue and is kept by the
rules for those moves that are made holds after them, and the dialogue is still sound. -/
theorem run_induction {P : Dialogue → Prop} {Q : Move → Prop} {moves : List Move} (hd : Sound c d)
    (hp : P d) (hmoves : ∀ mv ∈ moves, Q mv)
    (hstep : ∀ d d' mv, Sound c d → P d → Q mv → Step d mv d' → P d') :
    Sound c (d.run moves) ∧ P (d.run moves) := by
  induction moves generalizing d with
  | nil => exact ⟨hd, hp⟩
  | cons mv moves ih =>
    have hs := step_cases hd mv
    exact ih (hd.step hs) (hstep _ _ mv hd hp (hmoves mv List.mem_cons_self) hs)
      fun mv' h => hmoves mv' (List.mem_cons_of_mem mv h)

end Dialogue

end AttestedChannel
