import AttestedChannel.Proofs.Session.Roster

/-!
# The adapters of one session

The number of a session may be used again, so there may be many adapters for it, of which one is
live at most. All adapters of a session with what they have handed out are its `Lane`. An adapter is
addressed by its session and its place in the lane, which other sessions do not change.

Here is what happens to the lanes of a roster when something is done to one adapter
(`lane_performAt_self`, `lane_performAt_ne`), when a number is freed (`lane_vacate_self`,
`lane_vacate_ne`) and when a new adapter is seated (`lane_seat_self`, `lane_seat_ne`): it can be
told from the lane of the session alone, and nothing happens to any other. Which adapter is
registered can be told from the lane as well (`open_lane`).
-/

namespace AttestedChannel

open Adapter

/-! ## The adapters of one session number -/

/-- The adapters that were made for a session, the oldest first. -/
def madeFor (s : SessionId) (l : List (SessionId × Adapter)) : List Adapter :=
  (l.filter (·.1 = s)).map (·.2)

section madeFor

variable {s t : SessionId} {i k : Nat} {a b : Adapter} {l l' : List (SessionId × Adapter)}

theorem madeFor_append : madeFor s (l ++ l') = madeFor s l ++ madeFor s l' := by
  rw [madeFor, List.filter_append, List.map_append]
  rfl

@[simp] theorem madeFor_cons_self : madeFor s ((s, a) :: l) = a :: madeFor s l := by
  simp [madeFor]

@[simp] theorem madeFor_cons_ne (h : t ≠ s) : madeFor s ((t, a) :: l) = madeFor s l := by
  simp [madeFor, h]

theorem exists_append_of_getElem? (h : l[i]? = some (t, b)) :
    ∃ before after, l = before ++ (t, b) :: after ∧ before.length = i := by
  obtain ⟨hi, hb⟩ := List.getElem?_eq_some_iff.1 h
  refine ⟨l.take i, l.drop (i + 1), ?_, List.length_take_of_le hi.le⟩
  rw [← hb, List.getElem_cons_drop, List.take_append_drop]

/-- An adapter of the session stands behind those that were made before it. -/
theorem getElem?_madeFor (h : l[i]? = some (s, b)) :
    (madeFor s l)[(madeFor s (l.take i)).length]? = some b := by
  obtain ⟨before, after, rfl, rfl⟩ := exists_append_of_getElem? h
  simp [madeFor_append]

theorem madeFor_set_self (h : l[i]? = some (s, b)) (a : Adapter) :
    madeFor s (l.set i (s, a)) = (madeFor s l).set (madeFor s (l.take i)).length a := by
  obtain ⟨before, after, rfl, rfl⟩ := exists_append_of_getElem? h
  simp [madeFor_append]

theorem madeFor_set_ne (h : l[i]? = some (t, b)) (hne : t ≠ s) (a : Adapter) :
    madeFor s (l.set i (t, a)) = madeFor s l := by
  obtain ⟨before, after, rfl, rfl⟩ := exists_append_of_getElem? h
  simp [madeFor_append, hne]

/-- Each adapter of the session was made for it. -/
theorem exists_of_getElem?_madeFor (h : (madeFor s l)[k]? = some a) :
    ∃ i, l[i]? = some (s, a) ∧ (madeFor s (l.take i)).length = k := by
  induction l generalizing k with
  | nil => simp [madeFor] at h
  | cons x l ih =>
    obtain ⟨t, b⟩ := x
    rcases eq_or_ne t s with rfl | hne
    · cases k with
      | zero =>
        rw [madeFor_cons_self] at h
        cases h
        exact ⟨0, rfl, rfl⟩
      | succ k =>
        obtain ⟨i, hi, hk⟩ := ih (by simpa using h)
        exact ⟨i + 1, hi, by simp [hk]⟩
    · obtain ⟨i, hi, hk⟩ := ih (by simpa [hne] using h)
      exact ⟨i + 1, hi, by simp [hne, hk]⟩

end madeFor

/-! ## Lanes -/

/-- The adapters of one session number, and what they have handed out, each effect with the place of
its adapter among them. -/
structure Lane where
  adapters : List Adapter
  effects : List (Nat × Effect)
deriving DecidableEq

namespace Roster

open Registry

/-- What can be done to a registry and the adapters that it has made, the `k`-th of a session. -/
inductive Request where
  /-- a session is accepted or connected, as the role says -/
  | openSession (role : Role) (now : Instant) (s : SessionId)
  /-- something is done to an adapter, for its own session -/
  | call (s : SessionId) (k : Nat) (c : Call)
  /-- the transport closes the session of an adapter -/
  | close (s : SessionId) (k : Nat)
  /-- the registry has its live adapters look at the clock -/
  | tick (now : Instant)

/-- The session that a request is about, unless it is about all. -/
def Request.session? : Request → Option SessionId
  | .openSession _ _ s | .call s _ _ | .close s _ => some s
  | .tick _ => none

/-- Whether the request is about the session. -/
def Request.concerns (s : SessionId) (q : Request) : Bool := q.session?.all (· = s)

end Roster

namespace Lane

open Roster

/-- No adapter has been made for the session. -/
def empty : Lane := ⟨[], []⟩

/-- Lets an adapter do something. -/
def handle (l : Lane) (k : Nat) (f : Adapter → Reaction) : Lane :=
  match l.adapters[k]? with
  | none => l
  | some a => ⟨l.adapters.set k (f a).adapter, l.effects ++ (f a).effects.map fun e => (k, e)⟩

/-- The place of the adapter that is not closed. -/
def open? (l : Lane) : Option Nat := l.adapters.findIdx? fun a => !a.view.isClosed

/-- Lets the adapter do something that is not closed, if there is one. -/
def handleOpen (l : Lane) (f : Adapter → Reaction) : Lane :=
  match l.open? with
  | none => l
  | some k => l.handle k f

/-- A new adapter does its first thing. -/
def concat (l : Lane) (x : Reaction) : Lane :=
  ⟨l.adapters ++ [x.adapter], l.effects ++ x.effects.map fun e => (l.adapters.length, e)⟩

/-- What a request does to the lane of its session. -/
def step (c : Config) (s : SessionId) (l : Lane) : Request → Lane
  | .openSession role now _ =>
    (l.handleOpen (·.closed s)).concat ((Adapter.ofConfig (c.asRole role)).opened now s)
  | .call _ k call => l.handle k fun a => reactionOf (a.perform s call)
  | .close _ k => l.handle k (·.closed s)
  | .tick now => l.handleOpen (·.tick now)

end Lane

namespace Roster

open Registry

/-! ## Requests -/

/-- The place of the `i`-th adapter among those of a session: how many of them came before it. -/
def place (ss : List SessionId) (s : SessionId) (i : Nat) : Nat := (ss.take i).count s

/-- The number of the `k`-th adapter of a session. -/
def locate (ss : List SessionId) (s : SessionId) (k : Nat) : Option Nat :=
  (List.range ss.length).find? fun i => ss[i]? = some s ∧ place ss s i = k

/-- The effects of the adapters of a session, each with the place of its adapter. -/
def effectsFor (ss : List SessionId) (s : SessionId) (es : List (Nat × Effect)) :
    List (Nat × Effect) :=
  es.filterMap fun x => if ss[x.1]? = some s then some (place ss s x.1, x.2) else none

/-- The sessions with their adapters. -/
def rows (r : Roster) : List (SessionId × Adapter) := r.sessions.zip r.registry.adapters

/-- The numbers of the live adapters. -/
def liveNumbers (r : Roster) : List Nat := r.registry.live.map (·.2)

/-- The place of the adapter of a session that the registry finds. -/
def registered (r : Roster) (s : SessionId) : Option Nat :=
  (r.registry.get? s).map (place r.sessions s)

namespace Outcome

/-- Does one thing after another. -/
def andThen (x : Outcome) (f : Roster → Outcome) : Outcome :=
  ⟨(f x.after).after, x.effects ++ (f x.after).effects⟩

/-- Adapters look at the clock, one after another. -/
def visit (x : Outcome) (now : Instant) (order : List Nat) : Outcome :=
  order.foldl (fun x i => x.andThen (·.perform (.call i (.tick now)))) x

/-- A new adapter comes last and opens a session. -/
def seat (x : Outcome) (role : Role) (now : Instant) (s : SessionId) : Outcome :=
  ⟨⟨(x.after.registry.seat role now s).1, x.after.sessions ++ [s]⟩,
    x.effects ++ ((Adapter.ofConfig (x.after.registry.config.asRole role)).opened now s).effects.map
      fun e => (x.after.registry.adapters.length, e)⟩

/-- Does something with the `k`-th adapter of a session, if there is one. -/
def performAt (x : Outcome) (s : SessionId) (k : Nat) (operation : Nat → Operation) : Outcome :=
  match locate x.after.sessions s k with
  | none => x
  | some i => x.andThen (·.perform (operation i))

/-- Does what a request says. -/
def request (x : Outcome) : Request → Outcome
  | .openSession role now s => x.andThen (·.perform (.openSession role now s))
  | .call s k call => x.performAt s k (.call · call)
  | .close s k => x.performAt s k .close
  | .tick now => x.visit now x.after.liveNumbers

/-- The lane of a session. -/
def lane (x : Outcome) (s : SessionId) : Lane :=
  ⟨madeFor s x.after.rows, effectsFor x.after.sessions s x.effects⟩

end Outcome

/-- What requests to a new registry come to. -/
def course (c : Config) (capacity : Nat) (qs : List Request) : Outcome :=
  qs.foldl Outcome.request ⟨.ofConfig c capacity, []⟩

/-! ## Places -/

variable {c : Config} {x : Outcome} {r : Roster} {s t : SessionId} {i k : Nat} {a : Adapter}
  {ss : List SessionId}

theorem length_madeFor_zip {as : List Adapter} (h : ss.length = as.length) (s : SessionId) :
    (madeFor s (ss.zip as)).length = ss.count s := by
  conv_rhs => rw [← List.map_fst_zip h.le]
  rw [madeFor, List.length_map, ← List.countP_eq_length_filter, List.count, List.countP_map]
  exact List.countP_congr fun x _ => by simp

theorem place_eq (h : Sound r) (s : SessionId) (i : Nat) :
    place r.sessions s i = (madeFor s (r.rows.take i)).length := by
  have htake : r.rows.take i = (r.sessions.take i).zip (r.registry.adapters.take i) :=
    List.take_zipWith
  rw [htake, length_madeFor_zip (by simp [h.length]), place]

theorem rows_eq_some : r.rows[i]? = some (s, a) ↔
    r.sessions[i]? = some s ∧ r.registry.adapters[i]? = some a :=
  List.getElem?_zip_eq_some

/-- A located adapter is one of the session, and stands at the place. -/
theorem of_locate (h : Sound r) (hk : locate r.sessions s k = some i) :
    ∃ a, r.rows[i]? = some (s, a) ∧ place r.sessions s i = k := by
  obtain ⟨hs, hp⟩ : r.sessions[i]? = some s ∧ place r.sessions s i = k := by
    simpa using List.find?_some hk
  obtain ⟨hi, -⟩ := List.getElem?_eq_some_iff.1 hs
  have ha := List.getElem?_eq_getElem (h.length ▸ hi : i < r.registry.adapters.length)
  exact ⟨_, rows_eq_some.2 ⟨hs, ha⟩, hp⟩

/-- Where no adapter is located, there is none. -/
theorem of_locate_eq_none (h : Sound r) (hk : locate r.sessions s k = none) :
    (madeFor s r.rows)[k]? = none := by
  rw [Option.eq_none_iff_forall_ne_some]
  intro a ha
  obtain ⟨i, hi, hp⟩ := exists_of_getElem?_madeFor ha
  obtain ⟨hs, -⟩ := rows_eq_some.1 hi
  obtain ⟨hlt, -⟩ := List.getElem?_eq_some_iff.1 hs
  refine List.find?_eq_none.1 hk i (List.mem_range.2 hlt) ?_
  simpa using ⟨hs, (place_eq h s i).trans hp⟩

/-! ## Effects by session -/

theorem effectsFor_append (ss : List SessionId) (s : SessionId) (es fs : List (Nat × Effect)) :
    effectsFor ss s (es ++ fs) = effectsFor ss s es ++ effectsFor ss s fs := List.filterMap_append

theorem effectsFor_self (hs : ss[i]? = some s) (es : List Effect) :
    effectsFor ss s (es.map fun e => (i, e)) = es.map fun e => (place ss s i, e) := by
  simp [effectsFor, List.filterMap_map, hs]

theorem effectsFor_ne (hs : ss[i]? ≠ some s) (es : List Effect) :
    effectsFor ss s (es.map fun e => (i, e)) = [] := by
  simp [effectsFor, hs]

/-- A new adapter does not change what the effects of the earlier ones are. -/
theorem effectsFor_concat {es : List (Nat × Effect)} (h : ∀ p ∈ es, p.1 < ss.length)
    (t : SessionId) : effectsFor (ss ++ [t]) s es = effectsFor ss s es := by
  refine List.filterMap_congr fun p hp => ?_
  have hlt := h p hp
  rw [List.getElem?_append_left hlt, place, List.take_append_of_le_length hlt.le, place]

/-! ## The invariant -/

/-- The roster is sound, has its configuration, and the effects come from its adapters. -/
structure Outcome.Fine (c : Config) (x : Outcome) : Prop where
  sound : Sound x.after
  config : x.after.registry.config = c
  bounded : ∀ p ∈ x.effects, p.1 < x.after.sessions.length

theorem config_apply (q : Registry) (i : Nat) (x : Reaction) :
    (q.apply i x).config = q.config := by
  obtain ⟨ch, l, hq⟩ := foldl_absorb_same x.effects { q with
    adapters := q.adapters.set i x.adapter }
  rw [Registry.apply, hq]

theorem perform_call (r : Roster) (i : Nat) (k : Call) :
    r.perform (.call i k) = r.handle i fun s a => reactionOf (a.perform s k) := rfl

theorem perform_close (r : Roster) (i : Nat) :
    r.perform (.close i) = r.handle i fun s a => a.closed s := rfl

/-- No adapter is new, the configuration is the same, and the effects come from the adapters. -/
structure Outcome.Stays (r : Roster) (x : Outcome) : Prop where
  sessions : x.after.sessions = r.sessions
  config : x.after.registry.config = r.registry.config
  bounded : ∀ p ∈ x.effects, p.1 < r.sessions.length

theorem stays_handle (r : Roster) (i : Nat) (f : SessionId → Adapter → Reaction) :
    (r.handle i f).Stays r := by
  unfold handle
  split
  next s a hs ha =>
    refine ⟨rfl, config_apply r.registry i (f s a), fun p hp => ?_⟩
    obtain ⟨e, -, rfl⟩ := List.mem_map.1 hp
    exact (List.getElem?_eq_some_iff.1 hs).1
  next => exact ⟨rfl, rfl, fun p hp => by cases hp⟩

theorem stays_vacate (r : Roster) (s : SessionId) : (r.vacate s).Stays r := by
  unfold vacate
  split
  next => exact ⟨rfl, rfl, fun p hp => by cases hp⟩
  next i _ => exact stays_handle r i _

namespace Outcome.Fine

theorem andThen (hx : x.Fine c) {f : Roster → Outcome} (hstays : (f x.after).Stays x.after)
    (hsound : Sound (f x.after).after) : (x.andThen f).Fine c := by
  refine ⟨hsound, hstays.config.trans hx.config, fun p hp => ?_⟩
  show p.1 < (f x.after).after.sessions.length
  rw [hstays.sessions]
  exact (List.mem_append.1 hp).elim (hx.bounded p) (hstays.bounded p)

theorem vacate (hx : x.Fine c) (s : SessionId) : (x.andThen (·.vacate s)).Fine c :=
  hx.andThen (stays_vacate x.after s) (hx.sound.vacate s).1

theorem seat (hx : x.Fine c) (hfree : ∀ i, ¬ x.after.registry.IsLive i s) (role : Role)
    (now : Instant) : (x.seat role now s).Fine c := by
  obtain ⟨ch, hr⟩ := seat_eq x.after.registry role now s
  refine ⟨(hx.sound.seat hfree role now).1, ?_, fun p hp => ?_⟩
  · show (x.after.registry.seat role now s).1.config = c
    rw [hr]
    exact hx.config
  · show p.1 < (x.after.sessions ++ [s]).length
    rw [List.length_append, List.length_singleton]
    rcases List.mem_append.1 hp with hp | hp
    · exact Nat.lt_succ_of_lt (hx.bounded p hp)
    · obtain ⟨e, -, rfl⟩ := List.mem_map.1 hp
      exact Nat.lt_succ_of_le hx.sound.length.ge

/-- Opening a session is freeing its number and seating a new adapter. -/
theorem openSession_eq (hx : x.Fine c) (role : Role) (now : Instant) (s : SessionId) :
    x.andThen (·.perform (.openSession role now s)) =
      (x.andThen (·.vacate s)).seat role now s := by
  have hafter := hx.sound.openSession_eq role now s
  have hlength : (x.after.vacate s).after.registry.adapters.length =
      x.after.registry.adapters.length := by
    rw [hx.sound.vacate_eq]
    exact length_freed _ s
  have hconfig : (x.after.vacate s).after.registry.config = x.after.registry.config :=
    (stays_vacate x.after s).config
  have heffects : (x.after.perform (.openSession role now s)).effects =
      (x.after.vacate s).effects ++
        ((Adapter.ofConfig (x.after.registry.config.asRole role)).opened now s).effects.map
          fun e => (x.after.registry.adapters.length, e) := by
    rw [Roster.perform, openSession_number]
  simp only [Outcome.andThen, hafter, heffects, Outcome.seat, hconfig, hlength, List.append_assoc]

theorem openSession (hx : x.Fine c) (role : Role) (now : Instant) (s : SessionId) :
    (x.andThen (·.perform (.openSession role now s))).Fine c := by
  rw [hx.openSession_eq]
  exact (hx.vacate s).seat (hx.sound.vacate s).2 role now

theorem visit (hx : x.Fine c) (now : Instant) (order : List Nat) : (x.visit now order).Fine c := by
  induction order generalizing x with
  | nil => exact hx
  | cons i order ih => exact ih (hx.andThen (stays_handle _ i _) (hx.sound.call i (.tick now)))

/-- **Every request keeps the invariant.** -/
theorem request (hx : x.Fine c) (q : Request) : (x.request q).Fine c := by
  cases q with
  | openSession role now s => exact hx.openSession role now s
  | call s k call =>
    rw [Outcome.request, Outcome.performAt]
    split
    next => exact hx
    next i _ => exact hx.andThen (stays_handle _ i _) (hx.sound.call i call)
  | close s k =>
    rw [Outcome.request, Outcome.performAt]
    split
    next => exact hx
    next i _ => exact hx.andThen (stays_handle _ i _) (hx.sound.close i)
  | tick now => exact hx.visit now _

end Outcome.Fine

theorem fine_course (c : Config) (capacity : Nat) (qs : List Request) :
    (course c capacity qs).Fine c := by
  have hrun : ∀ {x : Outcome}, x.Fine c → (qs.foldl Outcome.request x).Fine c := by
    induction qs with
    | nil => exact fun hx => hx
    | cons q qs ih => exact fun hx => ih (hx.request q)
  exact hrun ⟨sound_ofConfig c capacity, rfl, fun p hp => by cases hp⟩

/-! ## Where the live adapter of a session stands -/

/-- An adapter that was made for a session and is not closed is found under its number. -/
theorem Sound.get?_of_open (h : Sound r) (hi : r.rows[i]? = some (s, a))
    (ha : a.view.isClosed = false) : r.registry.get? s = some i := by
  obtain ⟨hs, hadapter⟩ := rows_eq_some.1 hi
  refine h.get?_eq_some.2 ⟨a, hadapter, ?_⟩
  cases h.holds i s a hs hadapter with
  | live m hm => exact hm.isLiveFor
  | shut hshut =>
    rw [hshut.view] at ha
    cases ha

/-- **The adapter that the registry finds is the one of the session that is not closed.** -/
theorem Sound.registered_eq (h : Sound r) (s : SessionId) :
    r.registered s = (madeFor s r.rows).findIdx? fun a => !a.view.isClosed := by
  have hopen : ∀ {k : Nat} {a : Adapter}, (madeFor s r.rows)[k]? = some a →
      a.view.isClosed = false → r.registered s = some k := by
    intro k a ha hv
    obtain ⟨i, hi, hp⟩ := exists_of_getElem?_madeFor ha
    rw [registered, h.get?_of_open hi hv, Option.map_some, place_eq h, hp]
  cases hk : (madeFor s r.rows).findIdx? fun a => !a.view.isClosed with
  | some k =>
    obtain ⟨hlt, hv, -⟩ := List.findIdx?_eq_some_iff_getElem.1 hk
    exact hopen (List.getElem?_eq_getElem hlt) (by simpa using hv)
  | none =>
    rw [registered, Option.map_eq_none_iff, Option.eq_none_iff_forall_ne_some]
    intro i hi
    obtain ⟨a, ha, hs⟩ := h.session_of_get? hi
    obtain ⟨b, hb, hl⟩ := h.get?_eq_some.1 hi
    cases ha.symm.trans hb
    have hmem := List.mem_of_getElem? (getElem?_madeFor (rows_eq_some.2 ⟨hs, ha⟩))
    simpa [hl.2] using List.findIdx?_eq_none_iff.1 hk a hmem

/-! ## What happens to a lane -/

theorem zip_set {as : List Adapter} (hi : (ss.zip as)[i]? = some (s, a)) (b : Adapter) :
    ss.zip (as.set i b) = (ss.zip as).set i (s, b) := by
  obtain ⟨hs, ha⟩ := List.getElem?_zip_eq_some.1 hi
  obtain ⟨hlt, -⟩ := List.getElem?_eq_some_iff.1 hi
  obtain ⟨hlt', -⟩ := List.getElem?_eq_some_iff.1 ha
  refine List.ext_getElem? fun j => Option.ext fun p => ?_
  rw [List.getElem?_zip_eq_some]
  rcases eq_or_ne i j with rfl | hne
  · rw [List.getElem?_set_self hlt, List.getElem?_set_self hlt', hs]
    simp [Prod.ext_iff]
  · rw [List.getElem?_set_ne hne, List.getElem?_set_ne hne, List.getElem?_zip_eq_some]

/-- What an adapter does changes its own row. -/
theorem rows_handle (hi : r.rows[i]? = some (t, a)) (f : SessionId → Adapter → Reaction) :
    (r.handle i f).after.rows = r.rows.set i (t, (f t a).adapter) := by
  obtain ⟨ht, ha⟩ := rows_eq_some.1 hi
  rw [handle_eq ht ha, rows, Registry.apply, foldl_absorb_adapters]
  exact zip_set hi _

theorem effects_handle (hi : r.rows[i]? = some (t, a)) (f : SessionId → Adapter → Reaction) :
    (r.handle i f).effects = (f t a).effects.map fun e => (i, e) := by
  obtain ⟨ht, ha⟩ := rows_eq_some.1 hi
  rw [handle_eq ht ha]

theorem handle_of_rows_eq_none (hi : r.rows[i]? = none) (f : SessionId → Adapter → Reaction) :
    r.handle i f = ⟨r, []⟩ := by
  unfold handle
  split
  next s a hs ha => cases hi.symm.trans (rows_eq_some.2 ⟨hs, ha⟩)
  next => rfl

/-- What an adapter does is done in the lane of its session. -/
theorem Outcome.lane_handle_self (h : Sound x.after) (hi : x.after.rows[i]? = some (s, a))
    (f : SessionId → Adapter → Reaction) :
    (x.andThen (·.handle i f)).lane s =
      (x.lane s).handle (place x.after.sessions s i) (f s) := by
  obtain ⟨hs, -⟩ := rows_eq_some.1 hi
  have hplace := place_eq h s i
  have hget : (madeFor s x.after.rows)[place x.after.sessions s i]? = some a := by
    rw [hplace]
    exact getElem?_madeFor hi
  have hrows : madeFor s (x.after.handle i f).after.rows =
      (madeFor s x.after.rows).set (place x.after.sessions s i) (f s a).adapter := by
    rw [rows_handle hi, madeFor_set_self hi, hplace]
  have heffects : effectsFor x.after.sessions s (x.after.handle i f).effects =
      (f s a).effects.map fun e => (place x.after.sessions s i, e) := by
    rw [effects_handle hi, effectsFor_self hs]
  simp only [Lane.handle, hget, Outcome.lane, Outcome.andThen, (stays_handle _ _ _).sessions, hrows,
    effectsFor_append, heffects]

/-- What an adapter does is not noticed in the lanes of other sessions. -/
theorem Outcome.lane_handle_ne (x : Outcome) (hs : x.after.sessions[i]? ≠ some s)
    (f : SessionId → Adapter → Reaction) : (x.andThen (·.handle i f)).lane s = x.lane s := by
  cases hi : x.after.rows[i]? with
  | none => simp only [Outcome.andThen, handle_of_rows_eq_none hi, List.append_nil]
  | some p =>
    obtain ⟨t, a⟩ := p
    obtain ⟨ht, -⟩ := rows_eq_some.1 hi
    have hne : t ≠ s := by
      rintro rfl
      exact hs ht
    simp only [Outcome.lane, Outcome.andThen, (stays_handle _ _ _).sessions, rows_handle hi,
      madeFor_set_ne hi hne, effects_handle hi, effectsFor_append, effectsFor_ne hs,
      List.append_nil]

namespace Outcome.Fine

/-- The place that the registry finds is that of the lane. -/
theorem open_lane (hx : x.Fine c) (s : SessionId) : (x.lane s).open? = x.after.registered s :=
  (hx.sound.registered_eq s).symm

/-- What the registered adapter of a session does is done by the one in the lane that is not closed.
-/
theorem lane_handleOpen (hx : x.Fine c) (hi : x.after.registry.get? s = some i)
    (f : SessionId → Adapter → Reaction) :
    (x.andThen (·.handle i f)).lane s = (x.lane s).handleOpen (f s) := by
  obtain ⟨a, ha, hs⟩ := hx.sound.session_of_get? hi
  have hopen : (x.lane s).open? = some (place x.after.sessions s i) := by
    rw [hx.open_lane, registered, hi]
    rfl
  rw [lane_handle_self hx.sound (rows_eq_some.2 ⟨hs, ha⟩), Lane.handleOpen, hopen]

theorem handleOpen_of_get?_eq_none (hx : x.Fine c) (hi : x.after.registry.get? s = none)
    (f : Adapter → Reaction) : (x.lane s).handleOpen f = x.lane s := by
  have hopen : (x.lane s).open? = none := by
    rw [hx.open_lane, registered, hi]
    rfl
  rw [Lane.handleOpen, hopen]

theorem lane_vacate_self (hx : x.Fine c) (s : SessionId) :
    (x.andThen (·.vacate s)).lane s = (x.lane s).handleOpen (·.closed s) := by
  cases hi : x.after.registry.get? s with
  | none =>
    rw [hx.handleOpen_of_get?_eq_none hi]
    simp only [Outcome.andThen, Roster.vacate, hi, List.append_nil]
  | some i =>
    simp only [Outcome.andThen, Roster.vacate, hi]
    exact hx.lane_handleOpen hi fun s a => a.closed s

theorem lane_vacate_ne (hx : x.Fine c) (hne : t ≠ s) :
    (x.andThen (·.vacate t)).lane s = x.lane s := by
  cases hi : x.after.registry.get? t with
  | none => simp only [Outcome.andThen, Roster.vacate, hi, List.append_nil]
  | some i =>
    obtain ⟨a, -, ht⟩ := hx.sound.session_of_get? hi
    simp only [Outcome.andThen, Roster.vacate, hi]
    exact x.lane_handle_ne (by simpa [ht] using hne) fun s a => a.closed s

theorem rows_seat (hx : x.Fine c) (role : Role) (now : Instant) (s : SessionId) :
    (x.seat role now s).after.rows =
      x.after.rows ++ [(s, ((Adapter.ofConfig (c.asRole role)).opened now s).adapter)] := by
  obtain ⟨ch, hr⟩ := seat_eq x.after.registry role now s
  rw [rows, Outcome.seat, hr, hx.config]
  exact List.zip_append hx.sound.length

/-- A new adapter comes last in the lane of its session. -/
theorem lane_seat_self (hx : x.Fine c) (role : Role) (now : Instant) (s : SessionId) :
    (x.seat role now s).lane s =
      (x.lane s).concat ((Adapter.ofConfig (c.asRole role)).opened now s) := by
  have hself : (x.after.sessions ++ [s])[x.after.registry.adapters.length]? = some s := by
    rw [← hx.sound.length]
    exact List.getElem?_concat_length
  have hplace : place (x.after.sessions ++ [s]) s x.after.registry.adapters.length =
      (madeFor s x.after.rows).length := by
    rw [place, ← hx.sound.length, List.take_left, rows, length_madeFor_zip hx.sound.length]
  have heffects : effectsFor (x.after.sessions ++ [s]) s (x.seat role now s).effects =
      effectsFor x.after.sessions s x.effects ++
        ((Adapter.ofConfig (c.asRole role)).opened now s).effects.map
          fun e => ((madeFor s x.after.rows).length, e) := by
    rw [Outcome.seat, hx.config, effectsFor_append, effectsFor_concat hx.bounded,
      effectsFor_self hself, hplace]
  simp only [Outcome.lane, hx.rows_seat, madeFor_append, madeFor_cons_self, Lane.concat]
  exact congrArg (Lane.mk _) heffects

/-- A new adapter is not noticed in the lanes of other sessions. -/
theorem lane_seat_ne (hx : x.Fine c) (hne : t ≠ s) (role : Role) (now : Instant) :
    (x.seat role now t).lane s = x.lane s := by
  have hother : (x.after.sessions ++ [t])[x.after.registry.adapters.length]? ≠ some s := by
    rw [← hx.sound.length, List.getElem?_concat_length]
    simpa using hne
  have heffects : effectsFor (x.after.sessions ++ [t]) s (x.seat role now t).effects =
      effectsFor x.after.sessions s x.effects := by
    rw [Outcome.seat, effectsFor_append, effectsFor_concat hx.bounded, effectsFor_ne hother,
      List.append_nil]
  simp only [Outcome.lane, hx.rows_seat, madeFor_append, madeFor_cons_ne hne]
  exact congrArg₂ Lane.mk (List.append_nil _) heffects

/-- What is done to an adapter is done to the one at its place in the lane. -/
theorem lane_performAt_self (hx : x.Fine c) (s : SessionId) (k : Nat) {operation : Nat → Operation}
    {f : SessionId → Adapter → Reaction}
    (hf : ∀ (r : Roster) i, r.perform (operation i) = r.handle i f) :
    (x.performAt s k operation).lane s = (x.lane s).handle k (f s) := by
  unfold Outcome.performAt
  simp only [hf]
  split
  next hk =>
    have hnone : (x.lane s).adapters[k]? = none := of_locate_eq_none hx.sound hk
    rw [Lane.handle, hnone]
  next i hk =>
    obtain ⟨a, hi, hp⟩ := of_locate hx.sound hk
    rw [← hp]
    exact lane_handle_self hx.sound hi f

theorem lane_performAt_ne (hx : x.Fine c) (hne : t ≠ s) (k : Nat) {operation : Nat → Operation}
    {f : SessionId → Adapter → Reaction}
    (hf : ∀ (r : Roster) i, r.perform (operation i) = r.handle i f) :
    (x.performAt t k operation).lane s = x.lane s := by
  unfold Outcome.performAt
  simp only [hf]
  split
  next => rfl
  next i hk =>
    obtain ⟨a, hi, -⟩ := of_locate hx.sound hk
    exact x.lane_handle_ne (by simpa [(rows_eq_some.1 hi).1] using hne) f

end Outcome.Fine

end Roster

end AttestedChannel
