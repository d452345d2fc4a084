import AttestedChannel.Session.Registry
import AttestedChannel.Proofs.Session.Refinement

/-!
# Adapters that are live, and the list of them

An adapter follows a machine from the opening of its session until it is closed; then it has none
and nothing happens to it any more (`Adapter.Holds`). A registry finds the live ones in a list by
ascending session number. This is what the operations of a registry do to that list: an effect of an
adapter leaves it alone unless it releases a session, and a release forgets a number only if the
adapter that has it *now* is closed (`Registry.release_eq`).
-/

namespace AttestedChannel

/-! ## Adapters that are open, and adapters that are closed -/

namespace Adapter

/-- The adapter is bound to the session and not closed. -/
def IsLiveFor (a : Adapter) (s : SessionId) : Prop :=
  (∃ m, a.bound = some ⟨s, m⟩) ∧ a.view.isClosed = false

/-- The adapter has been closed: it has no machine any more. -/
structure IsShut (a : Adapter) : Prop where
  bound : a.bound = none
  view : a.view = .closed

/-- An adapter that was made for a session follows a machine until it is closed. -/
inductive Holds (s : SessionId) (a : Adapter) : Prop where
  | live (m : Machine) (follows : Follows s a m)
  | shut (shut : a.IsShut)

variable {a : Adapter} {s t : SessionId} {m : Machine}

theorem Follows.isLiveFor (h : Follows s a m) : a.IsLiveFor s := by
  obtain ⟨⟨m', hb, -⟩, hv⟩ := h
  refine ⟨⟨m', hb⟩, ?_⟩
  rw [hv]
  rfl

theorem IsLiveFor.unique (hs : a.IsLiveFor s) (ht : a.IsLiveFor t) : s = t := by
  obtain ⟨⟨m, hm⟩, -⟩ := hs
  obtain ⟨⟨m', hm'⟩, -⟩ := ht
  cases hm.symm.trans hm'
  rfl

theorem IsShut.not_isLiveFor (h : a.IsShut) (s : SessionId) : ¬ a.IsLiveFor s := by
  rintro ⟨⟨m, hm⟩, -⟩
  cases h.bound.symm.trans hm

theorem Holds.eq_of_isLiveFor (h : Holds s a) (ht : a.IsLiveFor t) : t = s := by
  cases h with
  | live m h => exact ht.unique h.isLiveFor
  | shut h => exact absurd ht (h.not_isLiveFor t)

theorem Holds.isShut_of_isClosed (h : Holds s a) (hc : a.view.isClosed = true) : a.IsShut := by
  cases h with
  | live m h => cases hc.symm.trans h.isLiveFor.2
  | shut h => exact h

theorem isShut_closed (a : Adapter) (s : SessionId) : (a.closed s).adapter.IsShut := ⟨rfl, rfl⟩

/-- Closing an adapter once more leaves it as it is. -/
theorem IsShut.closed_adapter (h : a.IsShut) (s : SessionId) : (a.closed s).adapter = a := by
  cases a
  cases h.bound
  cases h.view
  rfl

/-- Nothing happens to a closed adapter. -/
theorem IsShut.perform (h : a.IsShut) (s : SessionId) (k : Call) :
    a.perform s k = ⟨a, [], none, false⟩ := by
  cases k with
  | message now nonce service b =>
    simp [Adapter.perform, message, h.bound, Entry.ofReaction, Exchange.run, Exchange.request?,
      ignore]
  | abandon now => simp [Adapter.perform, abandon, h.bound]
  | tick now => simp [Adapter.perform, Adapter.tick, h.bound, Entry.ofReaction, ignore]
  | failed => simp [Adapter.perform, failed, h.bound, Entry.ofReaction, ignore]

/-- A call leaves an adapter open or closed, as it was, and releases no session. -/
theorem Holds.perform (h : Holds s a) (k : Call) :
    Holds s (a.perform s k).after ∧
      (∀ t, (a.perform s k).after.IsLiveFor t ↔ a.IsLiveFor t) ∧
      ∀ t, .released t ∉ (a.perform s k).effects := by
  cases h with
  | live m h =>
    obtain ⟨hmirrors, hfollows⟩ := h.perform k
    refine ⟨.live _ hfollows, fun t => ?_, hmirrors.kept⟩
    constructor
    · intro ht
      rw [ht.unique hfollows.isLiveFor]
      exact h.isLiveFor
    · intro ht
      rw [ht.unique h.isLiveFor]
      exact hfollows.isLiveFor
  | shut h =>
    rw [h.perform]
    exact ⟨.shut h, fun t => Iff.rfl, fun t ht => by cases ht⟩

end Adapter

/-! ## The list of the live sessions -/

namespace Registry

variable {l : List (SessionId × Nat)} {s t : SessionId} {i j : Nat}

/-- The session numbers rise strictly. -/
def Ascending (l : List (SessionId × Nat)) : Prop := l.Pairwise fun x y => x.1.value < y.1.value

theorem Ascending.unique (h : Ascending l) (hi : (s, i) ∈ l) (hj : (s, j) ∈ l) : i = j := by
  induction l with
  | nil => cases hi
  | cons x l ih =>
    obtain ⟨hx, hl⟩ := List.pairwise_cons.1 h
    rcases List.mem_cons.1 hi with rfl | hi
    · rcases List.mem_cons.1 hj with hj | hj
      · cases hj
        rfl
      · exact absurd (hx _ hj) (UInt64.lt_irrefl _)
    · rcases List.mem_cons.1 hj with hj | hj
      · exact absurd (hx _ hi) (hj ▸ UInt64.lt_irrefl _)
      · exact ih hl hi hj

/-- In an ascending list, what is found under a number is what stands there. -/
theorem Ascending.lookup_eq_some (h : Ascending l) : l.lookup s = some i ↔ (s, i) ∈ l := by
  constructor
  · intro hs
    obtain ⟨l₁, l₂, rfl, -⟩ := List.lookup_eq_some_iff.1 hs
    simp
  · intro hi
    cases hs : l.lookup s with
    | none =>
      have hne := List.lookup_eq_none_iff.1 hs _ hi
      simp at hne
    | some j =>
      obtain ⟨l₁, l₂, rfl, -⟩ := List.lookup_eq_some_iff.1 hs
      rw [h.unique hi (j := j) (by simp)]

theorem mem_insertLive (h : Ascending l) :
    (t, j) ∈ insertLive s i l ↔ t = s ∧ j = i ∨ t ≠ s ∧ (t, j) ∈ l := by
  induction l with
  | nil => simp [insertLive]
  | cons x l ih =>
    obtain ⟨u, k⟩ := x
    obtain ⟨hx, hl⟩ := List.pairwise_cons.1 h
    -- no later number equals one that is at most the first
    have hlater : ∀ v : SessionId, v.value ≤ u.value → (v, j) ∉ l := fun v hv hm =>
      absurd (hx _ hm) (UInt64.not_lt.2 hv)
    rw [insertLive]
    split
    next hlt =>
      have hne : s ≠ u := by
        rintro rfl
        exact UInt64.lt_irrefl _ hlt
      have hs := hlater s (UInt64.le_of_lt hlt)
      simp only [List.mem_cons, Prod.mk.injEq]
      grind
    next hlt =>
      split
      next he =>
        subst he
        have hs := hlater s (UInt64.le_refl _)
        simp only [List.mem_cons, Prod.mk.injEq]
        grind
      next hne =>
        simp only [List.mem_cons, ih hl, Prod.mk.injEq]
        grind

theorem ascending_insertLive (h : Ascending l) (s : SessionId) (i : Nat) :
    Ascending (insertLive s i l) := by
  induction l with
  | nil => simp [insertLive, Ascending]
  | cons x l ih =>
    obtain ⟨u, k⟩ := x
    obtain ⟨hx, hl⟩ := List.pairwise_cons.1 h
    rw [insertLive]
    split
    next hlt =>
      refine List.pairwise_cons.2 ⟨fun y hy => ?_, h⟩
      rcases List.mem_cons.1 hy with rfl | hy
      · exact hlt
      · exact UInt64.lt_trans hlt (hx y hy)
    next hlt =>
      split
      next he =>
        subst he
        exact List.pairwise_cons.2 ⟨hx, hl⟩
      next hne =>
        refine List.pairwise_cons.2 ⟨fun y hy => ?_, ih hl⟩
        rcases (mem_insertLive hl).1 hy with ⟨hy, -⟩ | ⟨-, hy⟩
        · rw [hy]
          refine UInt64.lt_of_le_of_ne (UInt64.not_lt.1 hlt) fun hv => hne ?_
          exact congrArg SessionId.mk hv.symm
        · exact hx y hy

/-! ## Effects of the adapters on the list -/

variable {r : Registry}

/-- The adapter with this number is bound to the session and not closed. -/
def IsLive (r : Registry) (i : Nat) (s : SessionId) : Prop :=
  ∃ a, r.adapters[i]? = some a ∧ a.IsLiveFor s

theorem isClosed_eq_true : r.isClosed i = true ↔
    ∃ a, r.adapters[i]? = some a ∧ a.view.isClosed = true := by
  unfold isClosed
  cases r.adapters[i]? <;> simp

theorem IsLive.isClosed (h : r.IsLive i s) : r.isClosed i = false := by
  obtain ⟨a, ha, hl⟩ := h
  simp [Registry.isClosed, ha, hl.2]

theorem passOn_eq (r : Registry) (m : ApplicationMessage) :
    ∃ ch, r.passOn m = { r with channel := ch } := by
  unfold passOn
  split
  · exact ⟨_, rfl⟩
  · exact ⟨_, rfl⟩

theorem release_same (r : Registry) (s : SessionId) :
    ∃ l, r.release s = { r with live := l } := by
  unfold release
  split
  · split
    · exact ⟨_, rfl⟩
    · exact ⟨_, rfl⟩
  · exact ⟨_, rfl⟩

/-- Effects change nothing but the channel and the list of the live sessions. -/
theorem foldl_absorb_same (es : List Effect) (r : Registry) :
    ∃ ch l, es.foldl absorb r = { r with channel := ch, live := l } := by
  induction es generalizing r with
  | nil => exact ⟨r.channel, r.live, rfl⟩
  | cons e es ih =>
    obtain ⟨ch, l, hes⟩ := ih (r.absorb e)
    refine ⟨ch, l, ?_⟩
    rw [List.foldl_cons, hes]
    cases e with
    | sent b => rfl
    | passedThrough s b =>
      obtain ⟨ch', hr⟩ := passOn_eq r ⟨s, b⟩
      rw [absorb, hr]
    | released s =>
      obtain ⟨l', hr⟩ := release_same r s
      rw [absorb, hr]

/-- No effect changes the adapters. -/
theorem foldl_absorb_adapters (es : List Effect) (r : Registry) :
    (es.foldl absorb r).adapters = r.adapters := by
  obtain ⟨ch, l, hes⟩ := foldl_absorb_same es r
  rw [hes]

/-- Effects that release no session change nothing but the channel. -/
theorem foldl_absorb_eq {es : List Effect} (h : ∀ t, .released t ∉ es) (r : Registry) :
    ∃ ch, es.foldl absorb r = { r with channel := ch } := by
  induction es generalizing r with
  | nil => exact ⟨_, rfl⟩
  | cons e es ih =>
    have hes : ∀ t, .released t ∉ es := fun t ht => h t (List.mem_cons_of_mem _ ht)
    cases e with
    | sent b => exact ih hes r
    | passedThrough s b =>
      obtain ⟨ch, hr⟩ := passOn_eq r ⟨s, b⟩
      obtain ⟨ch', hr'⟩ := ih hes { r with channel := ch }
      exact ⟨ch', by rw [List.foldl_cons, absorb, hr, hr']⟩
    | released t => exact absurd List.mem_cons_self (h t)

theorem mem_release (h : Ascending r.live) :
    (t, j) ∈ (r.release s).live ↔ (t, j) ∈ r.live ∧ ¬ (t = s ∧ r.isClosed j = true) := by
  unfold release get?
  split
  next k hk =>
    replace hk := h.lookup_eq_some.1 hk
    split
    next hc =>
      rw [List.mem_filter, decide_eq_true_iff]
      refine and_congr_right fun hm => not_congr ⟨?_, And.left⟩
      rintro rfl
      exact ⟨rfl, by rwa [h.unique hm hk]⟩
    next hc =>
      refine (and_iff_left_of_imp fun hm => ?_).symm
      rintro ⟨rfl, hj⟩
      rw [h.unique hm hk] at hj
      exact hc hj
  next hk =>
    refine (and_iff_left_of_imp fun hm => ?_).symm
    rintro ⟨rfl, -⟩
    cases hk.symm.trans (h.lookup_eq_some.2 hm)

/-- **A number is forgotten only if the adapter that has it is closed**, and nothing else changes. -/
theorem release_eq (h : Ascending r.live) (s : SessionId) :
    ∃ l, r.release s = { r with live := l } ∧ Ascending l ∧
      ∀ t j, (t, j) ∈ l ↔ (t, j) ∈ r.live ∧ ¬ (t = s ∧ r.isClosed j = true) := by
  refine ⟨(r.release s).live, ?_, ?_, fun t j => mem_release h⟩
  · obtain ⟨l, hl⟩ := release_same r s
    rw [hl]
  · unfold release
    split
    · split
      · exact List.Pairwise.filter _ h
      · exact h
    · exact h

/-! ## Opening in two parts -/

/-- The registry after the adapter that has a session number, if there is one, has been closed. -/
def freed (r : Registry) (s : SessionId) : Registry :=
  match r.get? s with
  | none => r
  | some i =>
    match r.adapters[i]? with
    | none => r
    | some a => r.apply i (a.closed s)

/-- A new adapter comes last and opens a session. -/
def seat (r : Registry) (role : Role) (now : Instant) (s : SessionId) :
    Registry × Nat × List Bytes :=
  let i := r.adapters.length
  let x := (Adapter.ofConfig (r.config.asRole role)).opened now s
  let r := { r with adapters := r.adapters ++ [x.adapter] }.apply i x
  ({ r with live := insertLive s i r.live }, i, sentOf x.effects)

theorem openSession_eq (r : Registry) (role : Role) (now : Instant) (s : SessionId) :
    r.openSession role now s = (r.freed s).seat role now s := rfl

theorem length_freed (r : Registry) (s : SessionId) :
    (r.freed s).adapters.length = r.adapters.length := by
  unfold freed
  split
  · rfl
  · split
    · rfl
    · rw [Registry.apply, foldl_absorb_adapters, List.length_set]

/-- The number of a new adapter is how many there were. -/
theorem openSession_number (r : Registry) (role : Role) (now : Instant) (s : SessionId) :
    (r.openSession role now s).2.1 = r.adapters.length := length_freed r s

/-- Opening a session releases none. -/
theorem seat_eq (r : Registry) (role : Role) (now : Instant) (s : SessionId) :
    ∃ ch, (r.seat role now s).1 =
      { r with
        adapters := r.adapters ++
          [((Adapter.ofConfig (r.config.asRole role)).opened now s).adapter]
        live := insertLive s r.adapters.length r.live
        channel := ch } := by
  obtain ⟨hmirrors, -⟩ := Adapter.mirrors_opened (.ofConfig (r.config.asRole role)) now s
  obtain ⟨ch, hr⟩ := foldl_absorb_eq hmirrors.kept { r with
    adapters := r.adapters ++
      [((Adapter.ofConfig (r.config.asRole role)).opened now s).adapter] }
  have hset : (r.adapters ++ [((Adapter.ofConfig (r.config.asRole role)).opened now s).adapter]).set
      r.adapters.length ((Adapter.ofConfig (r.config.asRole role)).opened now s).adapter =
        r.adapters ++ [((Adapter.ofConfig (r.config.asRole role)).opened now s).adapter] := by
    rw [List.set_append_right _ _ le_rfl, Nat.sub_self]
    rfl
  refine ⟨ch, ?_⟩
  simp only [seat, Registry.apply, hset]
  exact congrArg (fun q : Registry =>
    { q with live := insertLive s r.adapters.length q.live }) hr

end Registry

end AttestedChannel
