import AttestedChannel.Proofs.Handshake.Restart
import AttestedChannel.Proofs.Session.Live

/-!
# Notices for another session

A message, the end of a session and an error of the transport reach an adapter with the number of
the session they are about. Only a message is held against the session that is bound: one for
another session is ignored, so a run is the same without all of them (`after_heeded`). The number of
an end or of an error is not looked at. It is passed on to the listener, and apart from that the run
is the same whatever these numbers are (`heard_renumbered`): the late end of an earlier session
tears the present one down, and its late error lets the present one start over.

What a notice finds is an adapter without a session, or one that follows a machine of its
configuration (`Stands`). With that it can be said when a misaddressed notice changes something: an
end unless the adapter is shut already, an error unless the machine that is bound is fresh.
-/

namespace AttestedChannel

namespace Adapter

/-! ## Notices -/

/-- What an adapter is told. -/
inductive Notice where
  | opened (now : Instant) (s : SessionId)
  | message (now : Instant) (nonce : Bytes) (service : ServiceRequest → Answer) (s : SessionId)
      (b : Bytes)
  /-- a delivery is given up while the service has not answered -/
  | abandon (now : Instant)
  | tick (now : Instant)
  | closed (s : SessionId)
  | failed (s : SessionId)

/-- The number that a notice about an earlier opening carries. -/
def Notice.addressee? : Notice → Option SessionId
  | .message _ _ _ s _ | .closed s | .failed s => some s
  | .opened .. | .abandon _ | .tick _ => none

/-- What a notice does. -/
def notify (a : Adapter) : Notice → Entry
  | .opened now s => .ofReaction none (a.opened now s)
  | .message now nonce service s b => a.perform s (.message now nonce service b)
  | .abandon now => ⟨a.abandon now, [], none, false⟩
  | .tick now => .ofReaction none (a.tick now)
  | .closed s => .ofReaction none (a.closed s)
  | .failed _ => .ofReaction none a.failed

/-- What each of a list of notices does. -/
def heard : Adapter → List Notice → List Entry
  | _, [] => []
  | a, n :: ns => a.notify n :: (a.notify n).after.heard ns

/-- The adapter after a list of notices. -/
def after (a : Adapter) (ns : List Notice) : Adapter := ns.foldl (fun a n => (a.notify n).after) a

/-- The adapter is bound to the session. -/
def IsBoundTo (a : Adapter) (s : SessionId) : Prop := ∃ x ∈ a.bound, x.session = s

/-- The notice carries the number of a session to which the adapter is not bound. -/
def IsMisaddressed (a : Adapter) (n : Notice) : Prop := ∃ s ∈ n.addressee?, ¬ a.IsBoundTo s

instance (a : Adapter) (s : SessionId) : Decidable (a.IsBoundTo s) :=
  inferInstanceAs (Decidable (∃ x ∈ a.bound, x.session = s))

instance (a : Adapter) (n : Notice) : Decidable (a.IsMisaddressed n) :=
  inferInstanceAs (Decidable (∃ s ∈ n.addressee?, ¬ a.IsBoundTo s))

/-- Whether the notice is a message. -/
def Notice.isMessage : Notice → Bool
  | .message .. => true
  | _ => false

variable {a : Adapter} {c : Config} {s t : SessionId} {m : Machine}

@[simp] theorem after_concat (a : Adapter) (ns : List Notice) (n : Notice) :
    a.after (ns ++ [n]) = ((a.after ns).notify n).after := by
  simp [after]

/-! ## What notices find -/

/-- The adapter has no session, or follows a machine of its configuration in a run. -/
structure Stands (c : Config) (a : Adapter) : Prop where
  config : a.config = c
  standing : (a.bound = none ∧ (a.view = .unopened ∨ a.view = .closed)) ∨
    ∃ s cs, Follows s a ((Machine.ofConfig c).run cs)

theorem stands_ofConfig (c : Config) : Stands c (ofConfig c) := ⟨rfl, .inl ⟨rfl, .inl rfl⟩⟩

/-- A message for another session does nothing. -/
theorem perform_message_of_not_isBoundTo (h : ¬ a.IsBoundTo s) (now : Instant) (nonce : Bytes)
    (service : ServiceRequest → Answer) (b : Bytes) :
    a.perform s (.message now nonce service b) = ⟨a, [], none, false⟩ := by
  have hm : a.message now nonce s b = .finished a.ignore := by
    unfold message
    cases hb : a.bound with
    | none => rfl
    | some x =>
      obtain ⟨t, m⟩ := x
      have hne : t ≠ s := fun ht => h ⟨⟨t, m⟩, hb, ht⟩
      exact if_pos hne
  simp only [perform, hm]
  rfl

theorem Follows.eq_of_isBoundTo (h : Follows s a m) (ht : a.IsBoundTo t) : t = s := by
  obtain ⟨x, hb, rfl⟩ := ht
  exact IsLiveFor.unique ⟨⟨x.machine, hb⟩, h.isLiveFor.2⟩ h.isLiveFor

/-- A call leaves the configuration alone. -/
theorem config_perform (a : Adapter) (s : SessionId) (k : Call) :
    (a.perform s k).after.config = a.config := by
  cases k with
  | message now nonce service b =>
    by_cases h : a.IsBoundTo s
    · obtain ⟨⟨t, m⟩, hb, rfl⟩ := h
      cases ht : m.state.isTerminal with
      | true => simp [perform, message, Option.mem_def.1 hb, ht, Entry.ofReaction, Exchange.run]
      | false => simp [perform, message, Option.mem_def.1 hb, ht, Entry.ofReaction, commit]
    · rw [perform_message_of_not_isBoundTo h]
  | abandon now =>
    simp only [perform, abandon]
    split <;> rfl
  | tick now =>
    simp only [perform, Adapter.tick, Entry.ofReaction]
    split
    · rfl
    · split <;> rfl
  | failed =>
    simp only [perform, failed, Entry.ofReaction]
    split <;> rfl

/-- An adapter that has a session follows its machine through a call. -/
theorem Stands.perform (h : Stands c a) (hs : a.IsBoundTo s) (k : Call) :
    Stands c (a.perform s k).after := by
  refine ⟨(config_perform a s k).trans h.config, ?_⟩
  obtain ⟨hn, -⟩ | ⟨t, cs, hf⟩ := h.standing
  · obtain ⟨x, hb, -⟩ := hs
    cases hn.symm.trans hb
  · obtain rfl := hf.eq_of_isBoundTo hs
    refine .inr ⟨s, cs ++ [k.command], ?_⟩
    rw [Machine.run_concat]
    exact (hf.perform k).2

/-- **Every notice leaves an adapter without a session, or with one whose machine it follows.** -/
theorem Stands.notify (h : Stands c a) (n : Notice) : Stands c (a.notify n).after := by
  have unbound : (a.notify n).after = a → Stands c (a.notify n).after := by
    intro he
    rwa [he]
  cases n with
  | opened now s =>
    have hm := (mirrors_opened a now s).2
    rw [h.config] at hm
    refine ⟨?_, .inr ⟨s, [.start now], hm⟩⟩
    rw [← h.config]
    simp only [Adapter.notify, opened, Entry.ofReaction]
    split <;> rfl
  | message now nonce service s b =>
    by_cases hs : a.IsBoundTo s
    · exact h.perform hs _
    · exact unbound (by rw [Adapter.notify, perform_message_of_not_isBoundTo hs])
  | closed s => exact ⟨h.config, .inl ⟨rfl, .inr rfl⟩⟩
  | abandon now =>
    cases hb : a.bound with
    | none => exact unbound (by simp [Adapter.notify, abandon, hb])
    | some x => exact h.perform ⟨x, hb, rfl⟩ (.abandon now)
  | tick now =>
    cases hb : a.bound with
    | none => exact unbound (by simp [Adapter.notify, tick, hb, Entry.ofReaction, ignore])
    | some x => exact h.perform ⟨x, hb, rfl⟩ (.tick now)
  | failed s =>
    cases hb : a.bound with
    | none => exact unbound (by simp [Adapter.notify, failed, hb, Entry.ofReaction, ignore])
    | some x => exact h.perform ⟨x, hb, rfl⟩ .failed

theorem stands_after (c : Config) (ns : List Notice) : Stands c ((ofConfig c).after ns) := by
  induction ns using List.reverseRec with
  | nil => exact stands_ofConfig c
  | append_singleton ns n ih =>
    rw [after_concat]
    exact ih.notify n

/-! ## An error of the transport -/

/-- An error of the transport leaves the session that is bound with a machine to which nothing has
happened. -/
theorem Stands.failed_eq (h : Stands c a) (hb : a.bound = some ⟨t, m⟩) :
    a.failed = a.commit t (.ofConfig c) [] false := by
  obtain ⟨hn, -⟩ | ⟨s, cs, ⟨⟨m', hb', hm⟩, -⟩⟩ := h.standing
  · cases hn.symm.trans hb
  · cases hb.symm.trans hb'
    have hreset : m.reset = .ofConfig c := by
      rw [← Machine.reset_run c cs]
      rcases hm with he | ⟨-, e, he⟩
      · rw [he]
      · rw [he]
        rfl
    simp only [failed, hb, hreset]

/-- What is shown is the machine that is bound. -/
theorem Stands.view_eq (h : Stands c a) (hb : a.bound = some ⟨t, m⟩) : a.view = .ofMachine t m := by
  obtain ⟨hn, -⟩ | ⟨s, cs, ⟨⟨m', hb', hm⟩, hv⟩⟩ := h.standing
  · cases hn.symm.trans hb
  · cases hb.symm.trans hb'
    rw [hv]
    rcases hm with he | ⟨-, e, he⟩
    · rw [he]
    · rw [he]
      rfl

/-- An error of the transport changes nothing exactly if no session has got anywhere. -/
theorem Stands.failed_adapter_eq_iff (h : Stands c a) :
    a.failed.adapter = a ↔ ∀ t m, a.bound = some ⟨t, m⟩ → m = .ofConfig c := by
  cases hb : a.bound with
  | none => simp [failed, hb, ignore]
  | some x =>
    obtain ⟨t, m⟩ := x
    rw [h.failed_eq hb]
    constructor
    · rintro he t' m' ⟨⟩
      have hbound := congrArg Adapter.bound he
      rw [hb] at hbound
      cases hbound
      rfl
    · intro he
      have hm := he t m rfl
      have hv := h.view_eq hb
      subst hm
      cases a
      cases hb
      cases hv
      rfl

/-- The end of a session changes nothing exactly if the adapter is shut. -/
theorem closed_adapter_eq_iff (a : Adapter) (s : SessionId) :
    (a.closed s).adapter = a ↔ a.IsShut := by
  refine ⟨fun he => ?_, fun h => h.closed_adapter s⟩
  rw [← he]
  exact isShut_closed a s

/-! ## Runs without misaddressed messages -/

/-- A misaddressed message does nothing. -/
theorem notify_of_isMessage {n : Notice} (hn : n.isMessage = true) (h : a.IsMisaddressed n) :
    a.notify n = ⟨a, [], none, false⟩ := by
  cases n with
  | message now nonce service s b =>
    obtain ⟨_, ⟨⟩, hs⟩ := h
    exact perform_message_of_not_isBoundTo hs now nonce service b
  | opened | abandon | tick | closed | failed => cases hn

/-- The notices that are no misaddressed messages, each judged when its turn comes. -/
def heeded : Adapter → List Notice → List Notice
  | _, [] => []
  | a, n :: ns =>
    if n.isMessage = true ∧ a.IsMisaddressed n then a.heeded ns
    else n :: (a.notify n).after.heeded ns

/-- **A run is the same without the misaddressed messages**: the adapter ends as it does, and hands
out and asks the same in the same order. -/
theorem after_heeded (a : Adapter) (ns : List Notice) :
    a.after (a.heeded ns) = a.after ns ∧
      (a.heard (a.heeded ns)).flatMap (·.effects) = (a.heard ns).flatMap (·.effects) ∧
      (a.heard (a.heeded ns)).filterMap (·.request?) = (a.heard ns).filterMap (·.request?) := by
  induction ns generalizing a with
  | nil => exact ⟨rfl, rfl, rfl⟩
  | cons n ns ih =>
    unfold heeded
    split
    · next h =>
      have hn := notify_of_isMessage h.1 h.2
      simpa only [after, List.foldl_cons, heard, hn, List.flatMap_cons, List.nil_append,
        List.filterMap_cons] using ih a
    · obtain ⟨hafter, heffects, hrequests⟩ := ih (a.notify n).after
      refine ⟨hafter, ?_, ?_⟩
      · simp only [heard, List.flatMap_cons, heffects]
      · simp only [heard, List.filterMap_cons, hrequests]

/-! ## Runs with other numbers -/

/-- The notices are the same, but for the number of an end or of an error. -/
inductive Notice.Renumbers : Notice → Notice → Prop
  | same (n : Notice) : Renumbers n n
  | closed (s t : SessionId) : Renumbers (.closed s) (.closed t)
  | failed (s t : SessionId) : Renumbers (.failed s) (.failed t)

/-- Two notices did the same, but for the number of a session that is given back. -/
structure Entry.Agrees (x y : Entry) : Prop where
  after : x.after = y.after
  sent : Registry.sentOf x.effects = Registry.sentOf y.effects
  passed : passedBy x.effects = passedBy y.effects
  request : x.request? = y.request?
  usedNonce : x.usedNonce = y.usedNonce

theorem Notice.Renumbers.notify {n k : Notice} (h : n.Renumbers k) (a : Adapter) :
    (a.notify n).Agrees (a.notify k) := by
  cases h with
  | same => exact ⟨rfl, rfl, rfl, rfl, rfl⟩
  | closed s t => exact ⟨rfl, rfl, rfl, rfl, rfl⟩
  | failed s t => exact ⟨rfl, rfl, rfl, rfl, rfl⟩

/-- **The number of an end or of an error is not looked at.** -/
theorem heard_renumbered {ns ks : List Notice} (h : List.Forall₂ Notice.Renumbers ns ks)
    (a : Adapter) : List.Forall₂ Entry.Agrees (a.heard ns) (a.heard ks) := by
  induction h generalizing a with
  | nil => exact .nil
  | cons hn _ ih =>
    have hx := hn.notify a
    refine .cons hx ?_
    rw [hx.after]
    exact ih _

/-! ## Misaddressed notices -/

/-- A misaddressed notice sends nothing and passes nothing through. -/
theorem IsMisaddressed.silent {n : Notice} (h : a.IsMisaddressed n) :
    Registry.sentOf (a.notify n).effects = [] ∧ passedBy (a.notify n).effects = [] ∧
      (a.notify n).request? = none ∧ (a.notify n).usedNonce = false := by
  cases n with
  | message now nonce service s b =>
    rw [notify_of_isMessage rfl h]
    exact ⟨rfl, rfl, rfl, rfl⟩
  | closed s => exact ⟨rfl, rfl, rfl, rfl⟩
  | failed s =>
    cases hb : a.bound with
    | none => simp [notify, failed, hb, Entry.ofReaction, ignore, Registry.sentOf, passedBy]
    | some x =>
      simp [notify, failed, hb, Entry.ofReaction, commit, Registry.sentOf, passedBy]
  | opened | abandon | tick =>
    obtain ⟨s, hs, -⟩ := h
    cases hs

/-- **Misaddressed messages are ignored, late ends and errors are not.** Whatever an adapter has
been told, a notice for another session than the one that is bound sends nothing, passes nothing
through, asks for nothing and draws no nonce. A message changes nothing either; a late end leaves
the adapter shut, which changes something unless it was shut before; and a late error leaves the
session that is bound with a fresh machine, which changes something unless nothing had happened to
the machine. So a run is the same without its misaddressed messages, and it is the same whatever the
numbers of its ends and errors are. -/
theorem only_messages_are_held_against_session (c : Config) (ns : List Notice) :
    (∀ n, ((ofConfig c).after ns).IsMisaddressed n →
      let a := (ofConfig c).after ns
      let x := a.notify n
      (Registry.sentOf x.effects = [] ∧ passedBy x.effects = [] ∧ x.request? = none ∧
        x.usedNonce = false) ∧
      (n.isMessage = true → x.effects = [] ∧ x.after = a) ∧
      (∀ s, n = .closed s → x.after.IsShut ∧ (x.after = a ↔ a.IsShut)) ∧
      ∀ s, n = .failed s →
        (∀ t m, a.bound = some ⟨t, m⟩ → x.after.bound = some ⟨t, .ofConfig c⟩) ∧
        (x.after = a ↔ ∀ t m, a.bound = some ⟨t, m⟩ → m = .ofConfig c)) ∧
    ((ofConfig c).after ((ofConfig c).heeded ns) = (ofConfig c).after ns ∧
      ((ofConfig c).heard ((ofConfig c).heeded ns)).flatMap (·.effects) =
        ((ofConfig c).heard ns).flatMap (·.effects) ∧
      ((ofConfig c).heard ((ofConfig c).heeded ns)).filterMap (·.request?) =
        ((ofConfig c).heard ns).filterMap (·.request?)) ∧
    ∀ ks, List.Forall₂ Notice.Renumbers ns ks →
      List.Forall₂ Entry.Agrees ((ofConfig c).heard ns) ((ofConfig c).heard ks) := by
  refine ⟨fun n hn => ?_, after_heeded _ ns, fun ks h => heard_renumbered h _⟩
  have hstands := stands_after c ns
  generalize (ofConfig c).after ns = a at hn hstands
  refine ⟨hn.silent, fun hm => ?_, ?_, ?_⟩
  · rw [notify_of_isMessage hm hn]
    exact ⟨rfl, rfl⟩
  · rintro s rfl
    exact ⟨isShut_closed a s, closed_adapter_eq_iff a s⟩
  · rintro s rfl
    refine ⟨fun t m hb => ?_, hstands.failed_adapter_eq_iff⟩
    simp only [notify, Entry.ofReaction, hstands.failed_eq hb]
    rfl

/-- The first message of an initiator. -/
def plainHello : Frame := (Payload.hello ⟨Hello.currentVersion, true⟩).toFrame (.ofType .hello 0)

/-- An acceptor is opened for a session, then for another one, and takes a Hello for that. -/
def plainReopening : List Notice :=
  [.opened 0 ⟨1⟩, .opened 1 ⟨2⟩,
    .message 2 [2, 3] plainService ⟨2⟩ (plainHello.header.encode ++ plainHello.payload)]

/-- Late notices of the first session find the second one: nothing leaves the adapter for a message,
and it is shut by an end. -/
theorem plainReopening_misaddressed :
    let a := (ofConfig (plainConfig .acceptor)).after plainReopening
    a.IsMisaddressed (.message 3 [] plainService ⟨1⟩ []) ∧
      (a.notify (.message 3 [] plainService ⟨1⟩ [])).after = a ∧
      a.IsMisaddressed (.closed ⟨1⟩) ∧ (a.notify (.closed ⟨1⟩)).after.IsShut ∧
      Registry.sentOf (a.notify (.closed ⟨1⟩)).effects = [] := by
  intro a
  have hm : a.IsMisaddressed (.message 3 [] plainService ⟨1⟩ []) ∧
      a.IsMisaddressed (.closed ⟨1⟩) := by
    decide +kernel
  obtain ⟨h, -⟩ := only_messages_are_held_against_session (plainConfig .acceptor) plainReopening
  obtain ⟨-, hmessage, -⟩ := h _ hm.1
  obtain ⟨⟨hsent, -⟩, -, hclosed, -⟩ := h _ hm.2
  exact ⟨hm.1, (hmessage rfl).2, hm.2, (hclosed ⟨1⟩ rfl).1, hsent⟩

/-- The late error of an earlier session lets the present one start over, and its late end tears the
present one down. -/
theorem late_notices_reach_session :
    let a := (ofConfig (plainConfig .acceptor)).after plainReopening
    a.IsMisaddressed (.failed ⟨1⟩) ∧ a.IsMisaddressed (.closed ⟨1⟩) ∧
      a.view.session = some ⟨2⟩ ∧ a.view.state = .challengeIssued ∧
      (a.notify (.failed ⟨1⟩)).after.view.state = .hello ∧
      (a.notify (.closed ⟨1⟩)).after.view = .closed := by
  decide +kernel

end Adapter
end AttestedChannel
