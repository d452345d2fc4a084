import AttestedChannel.Simulation.Defaults
import AttestedChannel.Proofs.Session.Live

/-!
# Registered if and only if live

A registry finds an adapter under a session number exactly while the adapter is bound to that
session and has not been closed. Three stores have to agree for that: what an adapter is bound to,
what it shows, and the list of the live sessions. They are renewed in different orders when a
session is opened, when a number is used again and when the transport closes a session, possibly
late or twice, of an adapter that has been replaced.

A `Roster` is a registry together with the session that each adapter was made for. `Sound` says that
the three stores agree, and every operation keeps it (`Sound.perform`). Closing is the interesting
case: a late close of an adapter that has been replaced finds another one under its number, which is
open, and leaves it there.
-/

namespace AttestedChannel

/-! ## Runs -/

/-- A registry, and the session that each of its adapters was made for. -/
structure Roster where
  registry : Registry
  sessions : List SessionId

namespace Roster

open Registry Adapter

/-- What can be done to a registry and its adapters. Adapters stay within reach after they have been
closed or replaced. -/
inductive Operation where
  /-- a session is accepted or connected, as the role says -/
  | openSession (role : Role) (now : Instant) (s : SessionId)
  /-- something is done to an adapter, for its own session -/
  | call (i : Nat) (k : Call)
  /-- the transport closes the session of an adapter -/
  | close (i : Nat)

/-- What one operation did. -/
structure Outcome where
  after : Roster
  /-- what the adapters handed out, each effect with the number of its adapter -/
  effects : List (Nat × Effect)

/-- A roster without adapters. -/
def ofConfig (c : Config) (capacity : Nat) : Roster := ⟨.ofConfig c capacity, []⟩

/-- Lets an adapter do something for its own session. -/
def handle (r : Roster) (i : Nat) (f : SessionId → Adapter → Reaction) : Outcome :=
  match r.sessions[i]?, r.registry.adapters[i]? with
  | some s, some a =>
    ⟨{ r with registry := r.registry.apply i (f s a) }, (f s a).effects.map fun e => (i, e)⟩
  | _, _ => ⟨r, []⟩

/-- Closes the session of an adapter. -/
def close (r : Roster) (i : Nat) : Outcome := r.handle i fun s a => a.closed s

/-- Closes the adapter that has a session number, if there is one. -/
def vacate (r : Roster) (s : SessionId) : Outcome :=
  match r.registry.get? s with
  | none => ⟨r, []⟩
  | some i => r.close i

/-- What a call did to an adapter, as its registry sees it. -/
def reactionOf (e : Adapter.Entry) : Reaction := ⟨e.after, e.effects, e.usedNonce⟩

/-- Does what an operation says. -/
def perform (r : Roster) : Operation → Outcome
  | .openSession role now s =>
    ⟨⟨(r.registry.openSession role now s).1, r.sessions ++ [s]⟩,
      (r.vacate s).effects ++
        ((Adapter.ofConfig (r.registry.config.asRole role)).opened now s).effects.map fun e =>
          ((r.registry.openSession role now s).2.1, e)⟩
  | .call i k => r.handle i fun s a => reactionOf (a.perform s k)
  | .close i => r.close i

/-- The roster after some operations. -/
def run : Roster → List Operation → Roster
  | r, [] => r
  | r, k :: ks => (r.perform k).after.run ks

/-- What each of a list of operations did. -/
def log : Roster → List Operation → List Outcome
  | _, [] => []
  | r, k :: ks => r.perform k :: (r.perform k).after.log ks

/-! ## The invariant -/

/-- What the adapters are bound to, what they show and what the registry knows agree. -/
structure Sound (r : Roster) : Prop where
  length : r.sessions.length = r.registry.adapters.length
  holds : ∀ (i : Nat) (s : SessionId) (a : Adapter), r.sessions[i]? = some s →
    r.registry.adapters[i]? = some a → Holds s a
  ascending : Ascending r.registry.live
  live : ∀ s i, (s, i) ∈ r.registry.live ↔ r.registry.IsLive i s

variable {r : Roster} {s t : SessionId} {i j : Nat} {a : Adapter}

theorem sound_ofConfig (c : Config) (capacity : Nat) : Sound (.ofConfig c capacity) where
  length := rfl
  holds i s a hs := by cases hs
  ascending := .nil
  live s i := by
    constructor
    · intro h
      cases h
    · rintro ⟨a, ha, -⟩
      cases ha

/-- What the registry finds is what is live. -/
theorem Sound.get?_eq_some (h : Sound r) : r.registry.get? s = some i ↔ r.registry.IsLive i s :=
  h.ascending.lookup_eq_some.trans (h.live s i)

/-- Every adapter was made for a session. -/
theorem Sound.session (h : Sound r) (ha : r.registry.adapters[i]? = some a) :
    ∃ s, r.sessions[i]? = some s ∧ Holds s a := by
  obtain ⟨hi, -⟩ := List.getElem?_eq_some_iff.1 ha
  have hs := List.getElem?_eq_getElem (h.length ▸ hi : i < r.sessions.length)
  exact ⟨_, hs, h.holds i _ a hs ha⟩

/-- The adapter of a live session was made for it. -/
theorem Sound.session_of_get? (h : Sound r) (hi : r.registry.get? s = some i) :
    ∃ a, r.registry.adapters[i]? = some a ∧ r.sessions[i]? = some s := by
  obtain ⟨a, ha, hl⟩ := h.get?_eq_some.1 hi
  obtain ⟨t, ht, hh⟩ := h.session ha
  rw [hh.eq_of_isLiveFor hl]
  exact ⟨a, ha, ht⟩

/-- Live or not is decided by the adapter alone. -/
theorem isLive_congr {x y : Registry} (h : x.adapters[i]? = y.adapters[i]?) :
    x.IsLive i s ↔ y.IsLive i s := by
  unfold IsLive
  rw [h]

/-- What stands in a list with one more entry. -/
theorem getElem?_concat_eq_some {α : Type} {l : List α} {x y : α} :
    (l ++ [x])[i]? = some y ↔ l[i]? = some y ∨ i = l.length ∧ x = y := by
  rcases lt_trichotomy i l.length with hi | rfl | hi
  · rw [List.getElem?_append_left hi]
    simp [hi.ne]
  · simp
  · have hi' : (l ++ [x]).length ≤ i := by
      rw [List.length_append, List.length_singleton]
      exact hi
    rw [List.getElem?_eq_none hi.le, List.getElem?_eq_none hi']
    simp [hi.ne']

theorem handle_eq (hs : r.sessions[i]? = some s) (ha : r.registry.adapters[i]? = some a)
    (f : SessionId → Adapter → Reaction) : r.handle i f =
      ⟨{ r with registry := r.registry.apply i (f s a) }, (f s a).effects.map fun e => (i, e)⟩ := by
  simp [handle, hs, ha]

/-- There is nothing to do where there is no adapter. -/
theorem handle_eq_of_none (ha : r.registry.adapters[i]? = none)
    (f : SessionId → Adapter → Reaction) : r.handle i f = ⟨r, []⟩ := by
  unfold handle
  rw [ha]
  cases r.sessions[i]? <;> rfl

/-! ## One operation -/

/-- **Calls keep the invariant**: an adapter stays open or closed, and no session is released. -/
theorem Sound.call (h : Sound r) (i : Nat) (k : Call) : Sound (r.perform (.call i k)).after := by
  cases ha : r.registry.adapters[i]? with
  | none =>
    rw [perform, handle_eq_of_none ha]
    exact h
  | some a =>
    obtain ⟨s, hs, hh⟩ := h.session ha
    obtain ⟨hholds, hlive, hkept⟩ := hh.perform k
    rw [perform, handle_eq hs ha]
    obtain ⟨ch, hr⟩ := foldl_absorb_eq hkept
      { r.registry with adapters := r.registry.adapters.set i (a.perform s k).after }
    rw [reactionOf, Registry.apply, hr]
    obtain ⟨hi, -⟩ := List.getElem?_eq_some_iff.1 ha
    refine ⟨by simpa using h.length, fun j t b ht hb => ?_, h.ascending, fun t j => ?_⟩
    · rcases eq_or_ne i j with rfl | hne
      · cases hs.symm.trans ht
        rw [List.getElem?_set_self hi] at hb
        cases hb
        exact hholds
      · rw [List.getElem?_set_ne hne] at hb
        exact h.holds j t b ht hb
    · refine (h.live t j).trans ?_
      rcases eq_or_ne i j with rfl | hne
      · unfold IsLive
        rw [List.getElem?_set_self hi, ha]
        simpa using (hlive t).symm
      · exact isLive_congr (List.getElem?_set_ne hne).symm

/-- What closing does. The registry looks at the adapters as they are afterwards. -/
theorem Sound.close_eq (h : Sound r) (hs : r.sessions[i]? = some s)
    (ha : r.registry.adapters[i]? = some a) : ∃ l, r.close i =
      ⟨⟨{ r.registry with adapters := r.registry.adapters.set i (a.closed s).adapter, live := l },
        r.sessions⟩, [(i, .released s)]⟩ ∧ Ascending l ∧
      ∀ t j, (t, j) ∈ l ↔ (t, j) ∈ r.registry.live ∧
        ¬ (t = s ∧ (r.close i).after.registry.isClosed j = true) := by
  obtain ⟨l, hl, hasc, hmem⟩ := release_eq (r := { r.registry with
    adapters := r.registry.adapters.set i (a.closed s).adapter }) h.ascending s
  have heq : r.close i =
      ⟨⟨{ r.registry with adapters := r.registry.adapters.set i (a.closed s).adapter, live := l },
        r.sessions⟩, [(i, .released s)]⟩ := by
    rw [close, handle_eq hs ha, Registry.apply, ← hl]
    rfl
  refine ⟨l, heq, hasc, ?_⟩
  rw [heq]
  exact hmem

/-- **Closing keeps the invariant.** If the number belongs to another adapter by now, that one is
open and the registry keeps it. -/
theorem Sound.close (h : Sound r) (i : Nat) : Sound (r.close i).after := by
  cases ha : r.registry.adapters[i]? with
  | none =>
    rw [Roster.close, handle_eq_of_none ha]
    exact h
  | some a =>
    obtain ⟨s, hs, hh⟩ := h.session ha
    obtain ⟨hi, -⟩ := List.getElem?_eq_some_iff.1 ha
    obtain ⟨l, heq, hasc, hmem⟩ := h.close_eq hs ha
    rw [heq] at hmem ⊢
    refine ⟨by simpa using h.length, fun j t b ht hb => ?_, hasc, fun t j => (hmem t j).trans ?_⟩
    · rcases eq_or_ne i j with rfl | hne
      · rw [List.getElem?_set_self hi] at hb
        cases hb
        exact .shut (isShut_closed a s)
      · rw [List.getElem?_set_ne hne] at hb
        exact h.holds j t b ht hb
    · rcases eq_or_ne i j with rfl | hne
      · have hself := List.getElem?_set_self hi (a := (a.closed s).adapter)
        constructor
        · rintro ⟨hm, hno⟩
          obtain ⟨b, hb, hl⟩ := (h.live t i).1 hm
          cases ha.symm.trans hb
          refine absurd ⟨hh.eq_of_isLiveFor hl, ?_⟩ hno
          exact isClosed_eq_true.2 ⟨_, hself, rfl⟩
        · rintro ⟨b, hb, hl⟩
          cases hself.symm.trans hb
          exact absurd hl ((isShut_closed a s).not_isLiveFor t)
      · have hlive := isLive_congr (s := t) (x := { r.registry with
          adapters := r.registry.adapters.set i (a.closed s).adapter, live := l })
          (y := r.registry) (List.getElem?_set_ne hne)
        rw [hlive, ← h.live t j]
        refine and_iff_left_of_imp fun hm => ?_
        rintro ⟨-, hc⟩
        cases hc.symm.trans (hlive.2 ((h.live t j).1 hm)).isClosed

/-- A number is free once the adapter that had it has been closed. -/
theorem Sound.vacate (h : Sound r) (s : SessionId) :
    Sound (r.vacate s).after ∧ ∀ i, ¬ (r.vacate s).after.registry.IsLive i s := by
  unfold Roster.vacate
  split
  next hs =>
    refine ⟨h, fun i hi => ?_⟩
    cases hs.symm.trans (h.get?_eq_some.2 hi)
  next i hs =>
    refine ⟨h.close i, fun j hj => ?_⟩
    obtain ⟨a, ha, ht⟩ := h.session_of_get? hs
    obtain ⟨hi, -⟩ := List.getElem?_eq_some_iff.1 ha
    obtain ⟨l, heq, -, -⟩ := h.close_eq ht ha
    obtain ⟨b, hb, hl⟩ := hj
    rw [heq] at hb
    rcases eq_or_ne i j with rfl | hne
    · rw [List.getElem?_set_self hi] at hb
      cases hb
      exact (isShut_closed a s).not_isLiveFor s hl
    · -- another adapter that was live for the same session would have been found in its place
      rw [List.getElem?_set_ne hne] at hb
      cases hs.symm.trans (h.get?_eq_some.2 ⟨b, hb, hl⟩)
      exact hne rfl

theorem Sound.vacate_eq (h : Sound r) (s : SessionId) :
    (r.vacate s).after = ⟨r.registry.freed s, r.sessions⟩ := by
  unfold Registry.freed Roster.vacate
  cases hs : r.registry.get? s with
  | none => rfl
  | some i =>
    obtain ⟨a, ha, ht⟩ := h.session_of_get? hs
    simp only [ha, Roster.close, handle_eq ht ha]

/-- Opening a session frees its number and then seats a new adapter. -/
theorem Sound.openSession_eq (h : Sound r) (role : Role) (now : Instant) (s : SessionId) :
    (r.perform (.openSession role now s)).after =
      ⟨((r.vacate s).after.registry.seat role now s).1, (r.vacate s).after.sessions ++ [s]⟩ := by
  rw [perform, Registry.openSession_eq, h.vacate_eq]

/-- **A new adapter keeps the invariant**, if its number is free. -/
theorem Sound.seat (h : Sound r) (hfree : ∀ i, ¬ r.registry.IsLive i s) (role : Role)
    (now : Instant) : Sound ⟨(r.registry.seat role now s).1, r.sessions ++ [s]⟩ ∧
      (r.registry.seat role now s).1.IsLive r.registry.adapters.length s := by
  obtain ⟨-, hfollows⟩ := mirrors_opened (.ofConfig (r.registry.config.asRole role)) now s
  obtain ⟨ch, hr⟩ := seat_eq r.registry role now s
  rw [hr]
  generalize ((Adapter.ofConfig (r.registry.config.asRole role)).opened now s).adapter = a at *
  have hnew := hfollows.isLiveFor
  refine ⟨⟨by simp [h.length], fun i t b ht hb => ?_, ascending_insertLive h.ascending s _,
    fun t i => (mem_insertLive h.ascending).trans ?_⟩, a, List.getElem?_concat_length, hnew⟩
  · rcases getElem?_concat_eq_some.1 hb with hb | ⟨rfl, rfl⟩
    · obtain ⟨hi, -⟩ := List.getElem?_eq_some_iff.1 hb
      rw [List.getElem?_append_left (h.length ▸ hi)] at ht
      exact h.holds i t b ht hb
    · rw [← h.length, List.getElem?_concat_length] at ht
      cases ht
      exact .live _ hfollows
  · rw [h.live t i]
    constructor
    · rintro (⟨rfl, rfl⟩ | ⟨-, b, hb, hl⟩)
      · exact ⟨a, List.getElem?_concat_length, hnew⟩
      · exact ⟨b, getElem?_concat_eq_some.2 (.inl hb), hl⟩
    · rintro ⟨b, hb, hl⟩
      rcases getElem?_concat_eq_some.1 hb with hold | ⟨rfl, rfl⟩
      · refine .inr ⟨?_, b, hold, hl⟩
        rintro rfl
        exact hfree i ⟨b, hold, hl⟩
      · exact .inl ⟨hl.unique hnew, rfl⟩

/-- **Every operation keeps the invariant.** -/
theorem Sound.perform (h : Sound r) (k : Operation) : Sound (r.perform k).after := by
  cases k with
  | openSession role now s =>
    obtain ⟨hv, hfree⟩ := h.vacate s
    rw [h.openSession_eq]
    exact (hv.seat hfree role now).1
  | call i k => exact h.call i k
  | close i => exact h.close i

/-- **Every run keeps the invariant.** -/
theorem Sound.run (h : Sound r) (ks : List Operation) : Sound (r.run ks) := by
  induction ks generalizing r with
  | nil => exact h
  | cons k ks ih => exact ih (h.perform k)

/-! ## Adapters that have been closed -/

/-- An adapter is shut when the registry has it as closed. -/
theorem Sound.isShut (h : Sound r) (hc : r.registry.isClosed i = true) :
    ∃ a, r.registry.adapters[i]? = some a ∧ a.IsShut := by
  obtain ⟨a, ha, hv⟩ := isClosed_eq_true.1 hc
  obtain ⟨s, -, hh⟩ := h.session ha
  exact ⟨a, ha, hh.isShut_of_isClosed hv⟩

/-- The adapter is the same after an operation, and nothing but notices of its closing has come
from it. -/
def Outcome.Spares (x : Outcome) (i : Nat) (a : Adapter) : Prop :=
  x.after.registry.adapters[i]? = some a ∧ ∀ e, (i, e) ∈ x.effects → ∃ t, e = .released t

/-- What is done to one adapter spares another, and a closed one that is handled alike. -/
theorem spares_handle (ha : r.registry.adapters[i]? = some a) {f : SessionId → Adapter → Reaction}
    (hf : ∀ s, (f s a).adapter = a ∧ ∀ e ∈ (f s a).effects, ∃ t, e = .released t) (j : Nat) :
    (r.handle j f).Spares i a := by
  obtain ⟨hi, -⟩ := List.getElem?_eq_some_iff.1 ha
  unfold handle
  split
  next s b hs hb =>
    have hadapters : (r.registry.apply j (f s b)).adapters =
        r.registry.adapters.set j (f s b).adapter := foldl_absorb_adapters _ _
    rcases eq_or_ne j i with rfl | hne
    · cases ha.symm.trans hb
      obtain ⟨hsame, heffects⟩ := hf s
      refine ⟨?_, fun e he => ?_⟩
      · rw [hadapters, hsame, List.getElem?_set_self hi]
      · obtain ⟨e', he', heq⟩ := List.mem_map.1 he
        cases heq
        exact heffects _ he'
    · refine ⟨?_, fun e he => ?_⟩
      · rw [hadapters, List.getElem?_set_ne hne, ha]
      · obtain ⟨e', -, heq⟩ := List.mem_map.1 he
        cases heq
        exact absurd rfl hne
  next => exact ⟨ha, fun e he => by cases he⟩

theorem spares_close (ha : r.registry.adapters[i]? = some a) (hshut : a.IsShut) (j : Nat) :
    (r.close j).Spares i a := by
  refine spares_handle ha (fun s => ⟨hshut.closed_adapter s, fun e he => ?_⟩) j
  exact ⟨s, List.mem_singleton.1 he⟩

theorem spares_vacate (ha : r.registry.adapters[i]? = some a) (hshut : a.IsShut) (s : SessionId) :
    (r.vacate s).Spares i a := by
  unfold vacate
  split
  next => exact ⟨ha, fun e he => by cases he⟩
  next j _ => exact spares_close ha hshut j

/-- **No operation does anything to a closed adapter.** -/
theorem Sound.spares (h : Sound r) (ha : r.registry.adapters[i]? = some a) (hshut : a.IsShut)
    (k : Operation) : (r.perform k).Spares i a := by
  cases k with
  | openSession role now s =>
    obtain ⟨hv, heffects⟩ := spares_vacate ha hshut s
    refine ⟨?_, fun e he => ?_⟩
    · rw [h.openSession_eq]
      obtain ⟨ch, hr⟩ := seat_eq (r.vacate s).after.registry role now s
      rw [hr]
      exact getElem?_concat_eq_some.2 (.inl hv)
    · rcases List.mem_append.1 he with he | he
      · exact heffects e he
      · obtain ⟨e', -, heq⟩ := List.mem_map.1 he
        obtain ⟨hi, -⟩ := List.getElem?_eq_some_iff.1 ha
        have hnumber := (Prod.mk.inj heq).1
        rw [openSession_number] at hnumber
        exact absurd hnumber hi.ne'
  | call j k =>
    refine spares_handle ha (fun s => ?_) j
    rw [hshut.perform s k]
    exact ⟨rfl, fun e he => by cases he⟩
  | close j => exact spares_close ha hshut j

theorem Sound.spares_run (h : Sound r) (ha : r.registry.adapters[i]? = some a) (hshut : a.IsShut)
    (ks : List Operation) : (r.run ks).registry.adapters[i]? = some a ∧
      ∀ x ∈ r.log ks, ∀ e, (i, e) ∈ x.effects → ∃ t, e = .released t := by
  induction ks generalizing r with
  | nil => exact ⟨ha, fun x hx => by cases hx⟩
  | cons k ks ih =>
    obtain ⟨hk, heffects⟩ := h.spares ha hshut k
    obtain ⟨hrun, hlog⟩ := ih (h.perform k) hk
    refine ⟨hrun, fun x hx => ?_⟩
    rcases List.mem_cons.1 hx with rfl | hx
    · exact heffects
    · exact hlog x hx

/-! ## The registry and its adapters -/

theorem Sound.close_isClosed (h : Sound r) (hi : i < r.registry.adapters.length) :
    (r.close i).after.registry.isClosed i = true := by
  have ha := List.getElem?_eq_getElem hi
  obtain ⟨s, hs, -⟩ := h.session ha
  obtain ⟨l, heq, -, -⟩ := h.close_eq hs ha
  rw [heq]
  exact isClosed_eq_true.2 ⟨_, List.getElem?_set_self hi, rfl⟩

/-- **A close spares the sessions of the other adapters**, whatever their numbers are. -/
theorem Sound.get?_close (h : Sound r) (hs : r.registry.get? s = some i) (hne : j ≠ i) :
    (r.close j).after.registry.get? s = some i := by
  refine (h.close j).get?_eq_some.2 ((isLive_congr ?_).1 (h.get?_eq_some.1 hs))
  cases ha : r.registry.adapters[j]? with
  | none => rw [Roster.close, handle_eq_of_none ha]
  | some a =>
    obtain ⟨t, ht, -⟩ := h.session ha
    obtain ⟨l, heq, -, -⟩ := h.close_eq ht ha
    rw [heq, List.getElem?_set_ne hne]

/-- **Opening a session registers the new adapter and closes the one that had its number.** -/
theorem Sound.openSession (h : Sound r) (role : Role) (now : Instant) (s : SessionId) :
    (r.perform (.openSession role now s)).after.registry.get? s =
        some r.registry.adapters.length ∧
      ∀ i, r.registry.get? s = some i →
        (r.perform (.openSession role now s)).after.registry.isClosed i = true := by
  have hsound := h.perform (.openSession role now s)
  obtain ⟨hv, hfree⟩ := h.vacate s
  obtain ⟨-, hlive⟩ := hv.seat hfree role now
  rw [h.openSession_eq] at hsound ⊢
  refine ⟨?_, fun i hi => ?_⟩
  · have hlength : (r.vacate s).after.registry.adapters.length = r.registry.adapters.length := by
      rw [h.vacate_eq]
      exact length_freed _ s
    rw [hsound.get?_eq_some, ← hlength]
    exact hlive
  · obtain ⟨a, ha, -⟩ := h.session_of_get? hi
    obtain ⟨hlt, -⟩ := List.getElem?_eq_some_iff.1 ha
    have hclosed : (r.vacate s).after.registry.isClosed i = true := by
      simp only [Roster.vacate, hi]
      exact h.close_isClosed hlt
    obtain ⟨b, hb, hv⟩ := isClosed_eq_true.1 hclosed
    obtain ⟨ch, hr⟩ := seat_eq (r.vacate s).after.registry role now s
    rw [hr]
    exact isClosed_eq_true.2 ⟨b, getElem?_concat_eq_some.2 (.inl hb), hv⟩

/-- **Registered if and only if live.** After any sequence of operations on a registry and on any of
the adapters it has made, closed and replaced ones included:

* an adapter is found under a session number exactly if it is bound to that session and not closed;
  the numbers that the registry names are those of the live sessions, each once and in ascending
  order, and its size is how many they are;
* accepting or connecting a session registers the new adapter and closes the one that had the
  number, and a close by the transport closes its adapter;
* closing any other adapter, early, late or again, leaves an adapter registered;
* an adapter that has been closed stays as it is, and whatever is done after that, it hands out
  nothing any more but notices of its closing: no frame and no message of the application. -/
theorem registered_iff_live (c : Config) (capacity : Nat) (ks : List Operation) :
    let r := (Roster.ofConfig c capacity).run ks
    ((∀ s i, r.registry.get? s = some i ↔ r.registry.IsLive i s) ∧
      (∀ s, s ∈ r.registry.ids ↔ ∃ i, r.registry.IsLive i s) ∧
      r.registry.ids.Pairwise (fun s t => s.value < t.value) ∧
      r.registry.size = r.registry.ids.length) ∧
    (∀ role now s,
      (r.perform (.openSession role now s)).after.registry.get? s =
          some r.registry.adapters.length ∧
        ∀ i, r.registry.get? s = some i →
          (r.perform (.openSession role now s)).after.registry.isClosed i = true) ∧
    (∀ i, i < r.registry.adapters.length →
      (r.perform (.close i)).after.registry.isClosed i = true) ∧
    (∀ s i j, r.registry.get? s = some i → j ≠ i →
      (r.perform (.close j)).after.registry.get? s = some i) ∧
    ∀ i, r.registry.isClosed i = true → ∀ ls,
      (r.run ls).registry.adapters[i]? = r.registry.adapters[i]? ∧
        ∀ x ∈ r.log ls, ∀ e, (i, e) ∈ x.effects → ∃ t, e = .released t := by
  intro r
  have h : Sound r := (sound_ofConfig c capacity).run ks
  refine ⟨⟨fun s i => h.get?_eq_some, fun s => ?_, h.ascending.map _ fun _ _ h => h, ?_⟩,
    h.openSession, fun i => h.close_isClosed, fun s i j => h.get?_close, fun i hc ls => ?_⟩
  · rw [Registry.ids, List.mem_map]
    constructor
    · rintro ⟨⟨t, i⟩, hm, rfl⟩
      exact ⟨i, (h.live t i).1 hm⟩
    · rintro ⟨i, hi⟩
      exact ⟨(s, i), (h.live s i).2 hi, rfl⟩
  · rw [Registry.size, Registry.ids, List.length_map]
  · obtain ⟨a, ha, hshut⟩ := h.isShut hc
    rw [ha]
    exact h.spares_run ha hshut ls

/-- The number of a session is used again. However late the first adapter is closed and whatever it
is given, the second one stays registered and the first one is silent. -/
theorem reused_number_keeps_replacement :
    let r := (Roster.ofConfig (Simulation.simulatedConfig .acceptor) 4).run
      [.openSession .acceptor 0 ⟨7⟩, .openSession .initiator 0 ⟨7⟩]
    r.registry.get? ⟨7⟩ = some 1 ∧ r.registry.isClosed 0 = true ∧
      (r.perform (.close 0)).after.registry.get? ⟨7⟩ = some 1 ∧
      ∀ x ∈ r.log [.call 0 (.message 1 [] (fun _ => .timeOut) [1, 2]), .close 0, .close 0],
        ∀ e, (0, e) ∈ x.effects → ∃ t, e = .released t := by
  have h := registered_iff_live (Simulation.simulatedConfig .acceptor) 4
    [.openSession .acceptor 0 ⟨7⟩, .openSession .initiator 0 ⟨7⟩]
  have hreused :
      let r := (Roster.ofConfig (Simulation.simulatedConfig .acceptor) 4).run
        [.openSession .acceptor 0 ⟨7⟩, .openSession .initiator 0 ⟨7⟩]
      r.registry.get? ⟨7⟩ = some 1 ∧ r.registry.isClosed 0 = true := by
    decide +kernel
  -- from here on it does not matter which roster it is
  revert h hreused
  generalize (Roster.ofConfig (Simulation.simulatedConfig .acceptor) 4).run _ = r
  rintro ⟨-, -, -, hclose, hshut⟩ ⟨hs, hc⟩
  exact ⟨hs, hc, hclose _ 1 0 hs (by decide), (hshut 0 hc _).2⟩

end Roster

end AttestedChannel
