import AttestedChannel.Proofs.Session.Live
import AttestedChannel.Proofs.Simulation.Course
import AttestedChannel.Simulation.Pairing

/-!
# Handing over a message

How a pairing of two connectors does what a step of their machines says. `Stands` relates a pairing
to two machines and to the messages that wait for them. A connector that is free and is handed a
message either comes to what its machine comes to with the answer of its service, or its call of the
service is lost and it will come to that when the call runs into its limit (`Stands.advance`).
-/

namespace AttestedChannel.Simulation

/-- The frames of payloads that fit can be written. -/
theorem fits_sentBy {actions : List Action} {ps : List Payload} (h : Says actions ps)
    (hf : ∀ p ∈ ps, p.Fits) : Fits (sentBy actions) := by
  induction h with
  | nil =>
    intro f hm
    cases hm
  | @cons a p actions ps ha _ ih =>
    obtain ⟨k, rfl⟩ := ha
    intro f hm
    rcases List.mem_cons.1 hm with rfl | hm
    · exact hf p List.mem_cons_self
    · exact ih (fun q hq => hf q (List.mem_cons_of_mem p hq)) f hm

/-! ## Both connectors -/

namespace Pairing

variable (p : Pairing) (s : Side) (k : Connector)

@[simp] theorem get_set : (p.set s k).get s = k := by cases s <;> rfl

@[simp] theorem get_opposite_set : (p.set s k).get s.opposite = p.get s.opposite := by
  cases s <;> rfl

@[simp] theorem get_set_opposite : (p.set s.opposite k).get s = p.get s := by cases s <;> rfl

@[simp] theorem set_get : p.set s (p.get s) = p := by cases s <;> rfl

@[simp] theorem time_set : (p.set s k).time = p.time := by cases s <;> rfl

@[simp] theorem generators_set : (p.set s k).generators = p.generators := by cases s <;> rfl

@[simp] theorem handovers_set : (p.set s k).handovers = p.handovers := by cases s <;> rfl

@[simp] theorem get_time (now : Instant) : { p with time := now }.get s = p.get s := by
  cases s <;> rfl

/-- The senders and types of the messages that have been handed over. -/
def log : List (Side × MessageType) := p.handovers.map fun h => (h.sender, h.type)

/-- No connector waits for its service. -/
def IsFree : Prop := ∀ s, (p.get s).call = none

variable {p s} in
theorem isFree_of (hs : (p.get s).call = none) (ho : (p.get s.opposite).call = none) :
    p.IsFree := by
  intro t
  rcases s.eq_or_eq_opposite t with rfl | rfl
  · exact hs
  · exact ho

variable {p s} in
/-- A nonce has its length, and the generator that it is drawn from is the only one. -/
theorem exists_drawFor (h : ∃ e, p.generators = [e]) (hs : (p.get s).generator = 0) :
    (p.drawFor s).1.length = 32 ∧ ∃ e, (p.drawFor s).2 = [e] := by
  obtain ⟨e, he⟩ := h
  have hd : p.drawFor s = ((e.draw 32).1, [(e.draw 32).2]) := by
    simp [drawFor, hs, he, Coordinator.nonceLength]
  rw [hd]
  exact ⟨by simp [Entropy.draw], _, rfl⟩

/-! ### Outcomes of operations -/

variable (r : Reaction)

theorem get_absorb :
    (p.absorb s r).get s = { p.get s with registry := (p.get s).registry.apply 0 r } := by
  cases s <;> cases hu : r.usedNonce <;> simp [absorb, post, hu, get, set, Side.opposite]

theorem get_opposite_absorb :
    (p.absorb s r).get s.opposite =
      { p.get s.opposite with
        inbox := (p.get s.opposite).inbox ++ Registry.sentOf r.effects } := by
  cases s <;> cases hu : r.usedNonce <;> simp [absorb, post, hu, get, set, Side.opposite]

theorem generators_absorb :
    (p.absorb s r).generators = if r.usedNonce then (p.drawFor s).2 else p.generators := by
  cases hu : r.usedNonce <;> simp [absorb, post, hu]

@[simp] theorem time_absorb : (p.absorb s r).time = p.time := by
  cases hu : r.usedNonce <;> simp [absorb, post, hu]

@[simp] theorem handovers_absorb : (p.absorb s r).handovers = p.handovers := by
  cases hu : r.usedNonce <;> simp [absorb, post, hu]

@[simp] theorem log_absorb : (p.absorb s r).log = p.log := by
  rw [log, log, handovers_absorb]

@[simp] theorem call_absorb (t : Side) : ((p.absorb s r).get t).call = (p.get t).call := by
  rcases s.eq_or_eq_opposite t with rfl | rfl
  · rw [get_absorb]
  · rw [get_opposite_absorb]

end Pairing

/-! ## Connectors and their machines -/

/-- A connector has this configuration and a service of this behavior, its session follows this
machine, and these messages wait for it. -/
structure Connector.Stands (k : Connector) (c : Config) (b : Behavior) (m : Machine)
    (q : List Payload) : Prop where
  config : k.registry.config = c
  adapter : ∃ a, k.registry.adapters = [a] ∧ Adapter.Follows k.session a m
  behavior : k.service.behavior = b
  generator : k.generator = 0
  inbox : List.Forall₂ Bears k.inbox q

namespace Connector.Stands

variable {k : Connector} {c : Config} {b : Behavior} {m : Machine} {q ps : List Payload}

theorem follows (h : k.Stands c b m q) : Adapter.Follows k.session k.adapter m := by
  obtain ⟨a, ha, hf⟩ := h.adapter
  rwa [Connector.adapter, ha]

theorem state_view (h : k.Stands c b m q) : k.view.state = m.state := by
  rw [Connector.view, h.follows.view]
  rfl

theorem completion?_eq_none (h : k.Stands c b m q) (hm : m.state.isTerminal = false) :
    k.view.completion? = none := by
  rw [Connector.view, h.follows.view, SessionView.completion?]
  simp [SessionView.ofMachine, hm]

/-- The outcome of the next call becomes that of the machine. -/
theorem apply (h : k.Stands c b m q) (m' : Machine) (actions : List Action) (u : Bool) :
    { k with registry := k.registry.apply 0 (k.adapter.commit k.session m' actions u) }.Stands
      c b m' q := by
  obtain ⟨a, ha, -⟩ := h.adapter
  have hkept : ∀ t, .released t ∉ (k.adapter.commit k.session m' actions u).effects :=
    fun t => Adapter.not_released_mem_effectsOf k.session t actions
  obtain ⟨ch, hr⟩ := Registry.foldl_absorb_eq hkept
    { k.registry with
      adapters := k.registry.adapters.set 0 (k.adapter.commit k.session m' actions u).adapter }
  have hreg : k.registry.apply 0 (k.adapter.commit k.session m' actions u) = _ := hr
  rw [hreg]
  exact {
    config := h.config
    adapter := ⟨_, by rw [ha]; rfl, ⟨m', rfl, .inl rfl⟩, rfl⟩
    behavior := h.behavior
    generator := h.generator
    inbox := h.inbox }

/-- What the peer says is added to what waits. -/
theorem post (h : k.Stands c b m q) {bs : List Bytes} (hb : List.Forall₂ Bears bs ps) :
    { k with inbox := k.inbox ++ bs }.Stands c b m (q ++ ps) where
  config := h.config
  adapter := h.adapter
  behavior := h.behavior
  generator := h.generator
  inbox := List.rel_append h.inbox hb

/-- What the service has been asked does not matter. -/
theorem asked (h : k.Stands c b m q) {service : MeasurementService}
    (hs : service.behavior = k.service.behavior) (call : Option LostCall) :
    { k with service := service, call := call }.Stands c b m q where
  config := h.config
  adapter := h.adapter
  behavior := hs.trans h.behavior
  generator := h.generator
  inbox := h.inbox

end Connector.Stands

namespace Pairing

/-- A pairing in a setting, with the machines of both sides and what waits for them. -/
structure Stands (p : Pairing) (x : Setting) (M : Side → Machine) (Q : Side → List Payload) :
    Prop where
  connector : ∀ s, (p.get s).Stands (x.config s) (x.behavior s) (M s) (Q s)
  generators : ∃ e, p.generators = [e]

variable {p : Pairing} {x : Setting} {M M' : Side → Machine} {Q Q' : Side → List Payload}
  {s : Side} {q : Payload} {rest ps : List Payload} {t : Turn}

namespace Stands

/-- Only the connectors and the generators count. -/
theorem of_get {p' : Pairing} (h : p.Stands x M Q) (hg : ∀ s, p'.get s = p.get s)
    (he : p'.generators = p.generators) : p'.Stands x M Q where
  connector s := hg s ▸ h.connector s
  generators := he ▸ h.generators

/-- A connector may be replaced by one that stands where it stood. -/
theorem set {k : Connector} (h : p.Stands x M Q)
    (hk : k.Stands (x.config s) (x.behavior s) (M s) (Q s)) : (p.set s k).Stands x M Q where
  connector t := by
    rcases s.eq_or_eq_opposite t with rfl | rfl
    · rwa [get_set]
    · rw [get_opposite_set]
      exact h.connector s.opposite
  generators := by
    rw [generators_set]
    exact h.generators

/-- Where nothing waits there are no octets. -/
theorem inbox_eq_nil (h : p.Stands x M Q) (hq : Q s = []) : (p.get s).inbox = [] := by
  have hin := (h.connector s).inbox
  rw [hq] at hin
  exact List.forall₂_nil_right_iff.1 hin

/-- The nonce that is drawn next has its length, and one generator is left. -/
theorem drawFor (h : p.Stands x M Q) (s : Side) :
    (p.drawFor s).1.length = 32 ∧ ∃ e, (p.drawFor s).2 = [e] :=
  exists_drawFor h.generators (h.connector s).generator

/-- What waits for a side begins with octets that bear the first message. -/
theorem take (h : p.Stands x M Q) (hq : Q s = q :: rest) :
    ∃ b bs Q₀, (p.get s).inbox = b :: bs ∧ Bears b q ∧ Q₀ s = rest ∧
      Q₀ s.opposite = Q s.opposite ∧ (p.set s { p.get s with inbox := bs }).Stands x M Q₀ := by
  have hin := (h.connector s).inbox
  rw [hq] at hin
  obtain ⟨b, bs, hb, hbs, heq⟩ := List.forall₂_cons_right_iff.1 hin
  refine ⟨b, bs, Function.update Q s rest, heq, hb, by simp, ?_, fun t => ?_, ?_⟩
  · cases s <;> simp [Side.opposite]
  · rcases s.eq_or_eq_opposite t with rfl | rfl
    · have hk := h.connector t
      rw [get_set, Function.update_self]
      exact ⟨hk.config, hk.adapter, hk.behavior, hk.generator, hbs⟩
    · rw [get_opposite_set, Function.update_of_ne (by cases s <;> decide)]
      exact h.connector s.opposite
  · rw [generators_set]
    exact h.generators

/-- The outcome of a call is kept, and what the machine says is on its way to the other side. -/
theorem absorb (h : p.Stands x M Q) (hspoken : Says t.actions ps) (hfits : ∀ p ∈ ps, p.Fits)
    (hd : HandedOver M M' Q Q' s t (Q s) ps) :
    (p.absorb s ((p.get s).adapter.commit (p.get s).session t.machine t.actions
      t.usedNonce)).Stands x M' Q' where
  connector v := by
    rcases s.eq_or_eq_opposite v with rfl | rfl
    · rw [get_absorb, hd.fed, hd.taken]
      exact (h.connector v).apply t.machine t.actions t.usedNonce
    · rw [get_opposite_absorb, hd.other, hd.sent]
      refine (h.connector s.opposite).post ?_
      rw [show Registry.sentOf ((p.get s).adapter.commit (p.get s).session t.machine t.actions
        t.usedNonce).effects = _ from sentOf_effectsOf _ t.actions]
      exact forall₂_bears_framesOf hspoken (fits_sentBy hspoken hfits)
  generators := by
    rw [generators_absorb]
    split
    · exact (h.drawFor s).2
    · exact h.generators

end Stands

/-! ## Handing over -/

/-- The pairing after a message for a side was noted. -/
def noted (p : Pairing) (s : Side) (b : Bytes) : Pairing :=
  { p with handovers := p.handovers ++ [⟨s.opposite, (Event.ofBytes b).messageType, b⟩] }

@[simp] theorem get_noted (p : Pairing) (s v : Side) (b : Bytes) :
    (p.noted s b).get v = p.get v := by cases v <;> rfl

/-- What a pairing comes to: machines and messages with a property, and no call of a service. -/
def Reaches (p : Pairing) (x : Setting)
    (P : (Side → Machine) → (Side → List Payload) → Prop) : Prop :=
  ∃ M Q, P M Q ∧ p.Stands x M Q ∧ p.IsFree

/-- The pairing when the lost call of a side has run into its limit. -/
def resumed (p : Pairing) (s : Side) (k : LostCall) : Pairing :=
  (p.set s { p.get s with call := none }).absorb s (k.resume .timeOut)

/-- A side waits in vain for its service and nothing waits for the other. When the call runs into
its limit, the pairing comes to something with the property. -/
structure Stalls (p : Pairing) (x : Setting) (s : Side) (limitAt : Instant)
    (P : (Side → Machine) → (Side → List Payload) → Prop) : Prop where
  call : ∃ k, (p.get s).call = some k ∧ k.limitAt = limitAt ∧
    ∀ now, ({ p with time := now }.resumed s k).Reaches x P
  running : (p.get s).view.completion? = none
  other : (p.get s.opposite).call = none
  quiet : (p.get s.opposite).inbox = []

/-- What is done with what the adapter of a side makes of a message: the service is asked, and its
answer or the time-out of the call is kept at once, or the call is lost. -/
def received (p : Pairing) (s : Side) : Exchange Reaction → Pairing
  | .finished r => p.absorb s r
  | .awaiting request resume =>
    let c := p.get s
    match (c.service.measure request).2 with
    | some outcome =>
      (p.set s { c with service := (c.service.measure request).1 }).absorb s
        (resume (.ofOutcome outcome))
    | none =>
      let limitAt := p.time + c.registry.config.measurementTimeout.toNanos
      if limitAt ≤ p.time then
        (p.set s { c with service := (c.service.measure request).1 }).absorb s (resume .timeOut)
      else
        p.set s
          { c with service := (c.service.measure request).1, call := some ⟨limitAt, resume⟩ }

theorem handOver_eq (p : Pairing) (s : Side) (b : Bytes) :
    p.handOver s b = (p.noted s b).received s
      ((p.get s).adapter.message p.time (p.drawFor s).1 (p.get s).session b) := by
  cases s <;> rfl

/-- What comes of a message either is kept or is put off, and then the service never answers. -/
theorem received_cases (p : Pairing) (s : Side) (x : Exchange Turn) (f : Turn → Reaction) :
    ∃ service : MeasurementService, service.behavior = (p.get s).service.behavior ∧
      (p.received s (x.map f) = (p.set s { p.get s with service := service }).absorb s
          (f (x.run (answerOf (p.get s).service.behavior))) ∨
        x.request? ≠ none ∧ (p.get s).service.behavior = .unresponsive ∧
          ∃ k : LostCall,
            k.limitAt = p.time + (p.get s).registry.config.measurementTimeout.toNanos ∧
            k.resume .timeOut = f (x.run (answerOf (p.get s).service.behavior)) ∧
            p.received s (x.map f) =
              p.set s { p.get s with service := service, call := some k }) := by
  cases x with
  | finished t =>
    refine ⟨(p.get s).service, rfl, .inl ?_⟩
    show p.absorb s (f t) = (p.set s (p.get s)).absorb s (f t)
    rw [set_get]
  | awaiting r resume =>
    refine ⟨((p.get s).service.measure r).1, ?_, ?_⟩
    · cases ho : r.operation <;> simp [MeasurementService.measure, ho]
    · have hm : ((p.get s).service.measure r).2 = outcome? (p.get s).service.behavior r := rfl
      simp only [Exchange.map, Exchange.run, answerOf, received, hm]
      cases ho : outcome? (p.get s).service.behavior r with
      | some outcome => exact .inl rfl
      | none =>
        have hb : (p.get s).service.behavior = .unresponsive := by
          revert ho
          cases (p.get s).service.behavior <;> cases hop : r.operation <;> simp [outcome?, hop]
        dsimp only
        split
        · exact .inl rfl
        · exact .inr ⟨by simp [Exchange.request?], hb, _, rfl, rfl, rfl⟩

/-- A message that waits for a side that is free. -/
theorem advance?_eq {b : Bytes} {bs : List Bytes} (hc : (p.get s).call = none)
    (hb : (p.get s).inbox = b :: bs) :
    p.advance? s = some ((p.set s { p.get s with inbox := bs }).handOver s b) := by
  simp only [advance?, hc, hb]

/-- A message of octets has the type of what they bear. -/
theorem log_noted {b : Bytes} (hb : Bears b q) :
    (p.noted s b).log = p.log ++ [(s.opposite, q.messageType)] := by
  have ht : (Event.ofBytes b).messageType = q.messageType := by
    rw [show Event.ofBytes b = _ from hb]
    rfl
  simp [log, noted, ht]

/-- What becomes of the machines and the queues when a message is handed over. -/
theorem exists_handedOver (M : Side → Machine) (Q : Side → List Payload) (s : Side) (t : Turn)
    (rest ps : List Payload) : ∃ M' Q', HandedOver M M' Q Q' s t rest ps := by
  refine ⟨Function.update M s t.machine,
    Function.update (Function.update Q s rest) s.opposite (Q s.opposite ++ ps), ?_⟩
  have ho : s ≠ s.opposite := by cases s <;> decide
  exact ⟨by simp, by simp [ho.symm], by simp [ho], by simp⟩

/-- Where a machine leads, its pairing comes. -/
theorem Stands.reaches (h : p.Stands x M Q) (hfree : p.IsFree)
    {P : (Side → Machine) → (Side → List Payload) → Prop} (hl : Leads M Q s t (Q s) P) :
    (p.absorb s ((p.get s).adapter.commit (p.get s).session t.machine t.actions
      t.usedNonce)).Reaches x P := by
  obtain ⟨ps, hspoken, hfits, hP⟩ := hl
  obtain ⟨M', Q', hd⟩ := exists_handedOver M Q s t (Q s) ps
  exact ⟨M', Q', hP M' Q' hd, h.absorb hspoken hfits hd, fun v => by rw [call_absorb, hfree v]⟩

/-- A call that runs into its limit brings about what it put off. -/
theorem Stands.resumed {k : LostCall} (h : p.Stands x M Q)
    (ho : (p.get s.opposite).call = none)
    (hk : k.resume .timeOut =
      (p.get s).adapter.commit (p.get s).session t.machine t.actions t.usedNonce)
    {P : (Side → Machine) → (Side → List Payload) → Prop} (hl : Leads M Q s t (Q s) P) :
    (p.resumed s k).Reaches x P := by
  have hstands := h.set ((h.connector s).asked rfl none)
  have hreaches := hstands.reaches (isFree_of (by rw [get_set])
    (by rw [get_opposite_set]; exact ho)) hl
  rw [get_set] at hreaches
  rw [Pairing.resumed, hk]
  exact hreaches

/-- What the adapter makes of a message comes about, or a service that never answers puts it off. -/
theorem Stands.received (h : p.Stands x M Q) (hfree : p.IsFree) (ho : Q s.opposite = [])
    (hm : (M s).state.isTerminal = false) {exchange : Exchange Turn} {f : Turn → Reaction}
    (hf : ∀ t : Turn, f t =
      (p.get s).adapter.commit (p.get s).session t.machine t.actions t.usedNonce)
    {P : (Side → Machine) → (Side → List Payload) → Prop}
    (hl : Leads M Q s (exchange.run (answerOf (x.behavior s))) (Q s) P) :
    (p.received s (exchange.map f)).time = p.time ∧
    (p.received s (exchange.map f)).log = p.log ∧
    ((p.received s (exchange.map f)).Reaches x P ∨
      exchange.request? ≠ none ∧ x.behavior s = .unresponsive ∧
        (p.received s (exchange.map f)).Stalls x s
          (p.time + (x.config s).measurementTimeout.toNanos) P) := by
  have hk := h.connector s
  obtain ⟨service, hservice, hcases⟩ := received_cases p s exchange f
  rw [hk.behavior, hk.config, hf] at hcases
  rcases hcases with hdone | ⟨hasked, hun, k, hlimit, hresume, hlost⟩
  · rw [hdone, time_absorb, time_set, log_absorb, Pairing.log, handovers_set]
    have hstands := h.set (hk.asked hservice (p.get s).call)
    have hreaches := hstands.reaches (isFree_of (by rw [get_set]; exact hfree s)
      (by rw [get_opposite_set]; exact hfree s.opposite)) hl
    rw [get_set] at hreaches
    exact ⟨rfl, rfl, .inl hreaches⟩
  · rw [hlost, time_set, Pairing.log, handovers_set]
    refine ⟨rfl, rfl, .inr ⟨hasked, hun, ?_⟩⟩
    have hstands := h.set (hk.asked hservice (some k))
    refine ⟨⟨k, by rw [get_set], hlimit, fun now => ?_⟩, ?_, ?_, ?_⟩
    · have hlater := hstands.of_get (fun v => get_time _ v now) rfl
      refine hlater.resumed ?_ ?_ hl
      · rw [get_time, get_opposite_set]
        exact hfree s.opposite
      · rw [get_time, get_set]
        exact hresume
    · rw [get_set]
      exact hk.completion?_eq_none hm
    · rw [get_opposite_set]
      exact hfree s.opposite
    · rw [get_opposite_set]
      exact h.inbox_eq_nil ho

/-- What becomes of a pairing `p` when a message is handed over to a side: it has come to something
with the property, which depends on what the service was asked, or a service that never answers puts
that off. -/
structure Advanced (p p' : Pairing) (x : Setting) (s : Side) (q : Payload)
    (P : Option ServiceRequest → (Side → Machine) → (Side → List Payload) → Prop) : Prop where
  time : p'.time = p.time
  log : p'.log = p.log ++ [(s.opposite, q.messageType)]
  outcome : ∃ request? : Option ServiceRequest, p'.Reaches x (P request?) ∨
    request? ≠ none ∧ x.behavior s = .unresponsive ∧
      p'.Stalls x s (p.time + (x.config s).measurementTimeout.toNanos) (P request?)

/-- The rules of the machine say what handing over octets does. -/
theorem Stands.handOver {b : Bytes} (h : p.Stands x M Q) (hfree : p.IsFree) (hb : Bears b q)
    (ho : Q s.opposite = []) (hm : (M s).state.isTerminal = false)
    {P : Option ServiceRequest → (Side → Machine) → (Side → List Payload) → Prop}
    (hleads : ∀ (nonce : Bytes) (e : Event), nonce.length = 32 → e.Carries q →
      Leads M Q s (((M s).feed p.time nonce e).run (answerOf (x.behavior s))) (Q s)
        (P ((M s).feed p.time nonce e).request?)) :
    p.Advanced (p.handOver s b) x s q P := by
  have hnoted : (p.noted s b).Stands x M Q := h.of_get (fun v => get_noted p s v b) rfl
  have hfree' : (p.noted s b).IsFree := fun v => by rw [get_noted, hfree v]
  rw [handOver_eq, (h.connector s).follows.message_eq hm p.time (p.drawFor s).1 b]
  obtain ⟨htime, hlog, hout⟩ := hnoted.received hfree' ho hm
    (fun t => by rw [get_noted]) (hleads _ _ (h.drawFor s).1 hb.carries)
  exact ⟨htime, hlog.trans (log_noted hb), _, hout⟩

/-- **The next message of a side that is free is handed over.** The pairing comes to what its
machine comes to; only a service that never answers puts that off. -/
theorem Stands.advance (h : p.Stands x M Q) (hfree : p.IsFree) (hq : Q s = q :: rest)
    (ho : Q s.opposite = []) (hm : (M s).state.isTerminal = false)
    {P : Option ServiceRequest → (Side → Machine) → (Side → List Payload) → Prop}
    (hleads : ∀ (nonce : Bytes) (e : Event), nonce.length = 32 → e.Carries q →
      Leads M Q s (((M s).feed p.time nonce e).run (answerOf (x.behavior s))) rest
        (P ((M s).feed p.time nonce e).request?)) :
    ∃ p', p.advance? s = some p' ∧ p.Advanced p' x s q P := by
  obtain ⟨b, bs, Q₀, hb, hbears, h0, hopp, htaken⟩ := h.take hq
  refine ⟨_, advance?_eq (hfree s) hb, ?_⟩
  have hadvanced := htaken.handOver (isFree_of (by rw [get_set]; exact hfree s)
    (by rw [get_opposite_set]; exact hfree s.opposite)) hbears (hopp.trans ho) hm
    fun nonce e hn he => by
      rw [time_set]
      exact (hleads nonce e hn he).of_taken h0 hopp
  obtain ⟨htime, hlog, hout⟩ := hadvanced
  rw [time_set] at htime hout
  rw [Pairing.log, Pairing.log, handovers_set] at hlog
  exact ⟨htime, hlog, hout⟩

end Pairing

end AttestedChannel.Simulation
