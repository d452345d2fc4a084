import AttestedChannel.Simulation.Bench
import AttestedChannel.Proofs.Session.Delivery
import AttestedChannel.Proofs.Session.Lanes

/-!
# Looks at the clock

An adapter that looks at the clock only sends, if it does anything, so nothing but that adapter
changes (`Roster.perform_tick`). Adapters may therefore look at the clock in any order
(`Roster.after_visit_perm`), and that is what they do at a bench where none of them is busy
(`Simulation.Bench.IsIdle.registry_tickAll`).
-/

namespace AttestedChannel

open Adapter

namespace Roster

open Registry

variable {x : Outcome} {r : Roster} {s : SessionId} {i : Nat}

/-! ## One adapter -/

theorem not_released_mem_tick (a : Adapter) (now : Instant) (s : SessionId) :
    .released s ∉ (a.tick now).effects := by
  unfold Adapter.tick
  split
  next => exact List.not_mem_nil
  next x _ =>
    split
    next => exact List.not_mem_nil
    next m actions _ _ => exact not_released_mem_effectsOf x.session s actions

/-- What an adapter does when it looks at the clock matters to nobody but its session. -/
theorem apply_tick (q : Registry) (i : Nat) (a : Adapter) (now : Instant) :
    q.apply i (a.tick now) = { q with adapters := q.adapters.set i (a.tick now).adapter } := by
  rw [Registry.apply]
  generalize { q with adapters := q.adapters.set i (a.tick now).adapter } = q
  obtain ⟨ch, hch⟩ := foldl_absorb_eq (not_released_mem_tick a now) q
  obtain ⟨l, hl⟩ := foldl_absorb_of_passedBy_eq_nil (a.passedBy_tick now) q
  have hsame : ch = q.channel := congrArg Registry.channel (hch.symm.trans hl)
  rw [hch, hsame]

/-- The roster after one adapter has looked at the clock. -/
def ticked (now : Instant) (r : Roster) (i : Nat) : Roster :=
  { r with registry := { r.registry with
      adapters := r.registry.adapters.modify i fun a => (a.tick now).adapter } }

theorem perform_tick (h : r.sessions.length = r.registry.adapters.length) (now : Instant)
    (i : Nat) : (r.perform (.call i (.tick now))).after = ticked now r i := by
  cases ha : r.registry.adapters[i]? with
  | none =>
    rw [Roster.perform, handle_eq_of_none ha, ticked,
      List.modify_eq_self (List.getElem?_eq_none_iff.1 ha)]
  | some a =>
    obtain ⟨hi, -⟩ := List.getElem?_eq_some_iff.1 ha
    have hs := List.getElem?_eq_getElem (h ▸ hi : i < r.sessions.length)
    rw [Roster.perform, handle_eq hs ha, ticked, List.modify_eq_set_getElem?, ha]
    exact congrArg (Roster.mk · r.sessions) (apply_tick r.registry i a now)

/-! ## One after another -/

theorem after_visit (x : Outcome) (h : x.after.sessions.length = x.after.registry.adapters.length)
    (now : Instant) (order : List Nat) :
    (x.visit now order).after = order.foldl (ticked now) x.after := by
  induction order generalizing x with
  | nil => rfl
  | cons i order ih =>
    have hstep : (x.andThen (·.perform (.call i (.tick now)))).after = ticked now x.after i :=
      perform_tick h now i
    rw [Outcome.visit, List.foldl_cons, List.foldl_cons, ← hstep]
    exact ih _ (by rw [hstep]; simpa [ticked] using h)

/-- Looks at the clock change nothing but the adapters. -/
theorem visit_same (h : Sound x.after) (now : Instant) (order : List Nat) :
    (x.visit now order).after.sessions = x.after.sessions ∧
      ∀ s, (x.visit now order).after.registry.get? s = x.after.registry.get? s := by
  rw [after_visit x h.length]
  generalize x.after = r
  induction order generalizing r with
  | nil => exact ⟨rfl, fun _ => rfl⟩
  | cons i order ih => exact ih (ticked now r i)

theorem Sound.mem_liveNumbers (h : Sound r) :
    i ∈ r.liveNumbers ↔ ∃ s, r.registry.get? s = some i := by
  rw [liveNumbers, List.mem_map]
  constructor
  · rintro ⟨⟨s, i⟩, hm, rfl⟩
    exact ⟨s, h.ascending.lookup_eq_some.2 hm⟩
  · rintro ⟨s, hs⟩
    exact ⟨(s, i), h.ascending.lookup_eq_some.1 hs, rfl⟩

/-- A live adapter is found under the number of its own session. -/
theorem Sound.get?_of_mem_liveNumbers (h : Sound r) (hi : i ∈ r.liveNumbers)
    (hs : r.sessions[i]? = some s) : r.registry.get? s = some i := by
  obtain ⟨t, ht⟩ := h.mem_liveNumbers.1 hi
  obtain ⟨-, -, ht'⟩ := h.session_of_get? ht
  cases hs.symm.trans ht'
  exact ht

theorem Sound.nodup_liveNumbers (h : Sound r) : r.liveNumbers.Nodup := by
  refine List.pairwise_map.2 (h.ascending.imp_of_mem fun {p q} hp hq hlt heq => ?_)
  obtain ⟨-, -, hs⟩ := h.session_of_get? (h.ascending.lookup_eq_some.2 hp)
  obtain ⟨-, -, ht⟩ := h.session_of_get? (h.ascending.lookup_eq_some.2 hq)
  rw [heq] at hs
  rw [Option.some.inj (hs.symm.trans ht)] at hlt
  exact UInt64.lt_irrefl _ hlt

/-- **It does not matter in which order adapters look at the clock.** -/
theorem after_visit_perm (h : Sound x.after) (now : Instant) {order order' : List Nat}
    (horder : order.Perm order') : (x.visit now order).after = (x.visit now order').after := by
  rw [after_visit x h.length, after_visit x h.length]
  refine horder.foldl_eq' (fun i _ j _ r => ?_) _
  rcases eq_or_ne i j with rfl | hne
  · rfl
  · simp only [ticked, List.modify_modify_ne _ _ _ hne]

end Roster

/-! ## The registry of a bench -/

namespace Simulation.Bench

variable {b : Bench} {i h : Nat}

/-- No adapter handles an operation. -/
def IsIdle (b : Bench) : Prop := ∀ s ∈ b.seats, s.flight = none ∧ s.queue = []

theorem IsIdle.isBusy (hb : b.IsIdle) (h : Nat) : b.isBusy h = false := by
  unfold Bench.isBusy
  split
  next s hs =>
    obtain ⟨hflight, hqueue⟩ := hb s (List.mem_of_getElem? hs)
    simp [hflight, hqueue]
  next => rfl

/-- At an idle bench, nobody waits for a turn. -/
theorem IsIdle.inTurn (hb : b.IsIdle) (h : Nat) (f : Adapter → Reaction) :
    b.inTurn h f = b.operate h f := by
  have hturn : b.awaitTurn h none = b := by
    unfold awaitTurn
    cases b.work with
    | zero => rfl
    | succ n => simp [passWhile, hb.isBusy h]
  rw [Bench.inTurn, hturn]

/-- What the adapter of a seat does changes the adapter in the registry and what is on the seat. -/
theorem operate_of_seatOf (hseat : b.seatOf i = some h) {a : Adapter}
    (ha : b.registry.adapters[i]? = some a) (f : Adapter → Reaction) :
    ∃ e sent, b.operate h f =
      { b with
        registry := b.registry.apply i (f a)
        entropy := e
        seats := b.seats.modify h fun s => { s with sent := sent } } := by
  obtain ⟨hlt, hplace, -⟩ := List.findIdx?_eq_some_iff_getElem.1 hseat
  have hs := List.getElem?_eq_getElem hlt
  generalize b.seats[h] = s at hplace hs
  have hregistered : s.place = .registered i := by
    cases hp : s.place with
    | registered j =>
      have hj : i = j := by simpa [hp] using hplace
      rw [hj]
    | standAlone a => simp [hp] at hplace
  simp only [operate, hs, adapterOf, hregistered, ha, absorb]
  exact ⟨_, _, rfl⟩

theorem findIdx?_modify {α : Type} (p : α → Bool) {f : α → α} (hf : ∀ x, p (f x) = p x)
    (l : List α) (i : Nat) : (l.modify i f).findIdx? p = l.findIdx? p := by
  induction l generalizing i with
  | nil => simp
  | cons x l ih =>
    cases i with
    | zero => simp [List.findIdx?_cons, hf]
    | succ i => simp [List.findIdx?_cons, ih]

/-- A look at the clock at an idle bench leaves it idle and changes one adapter. -/
theorem IsIdle.inTurn_tick (hb : b.IsIdle) (hseat : b.seatOf i = some h)
    (hi : i < b.registry.adapters.length) :
    let after := b.inTurn h fun a => a.tick b.clock
    after.IsIdle ∧ after.clock = b.clock ∧ (∀ j, after.seatOf j = b.seatOf j) ∧
      after.registry = { b.registry with
        adapters := b.registry.adapters.modify i fun a => (a.tick b.clock).adapter } := by
  intro after
  have ha := List.getElem?_eq_getElem hi
  obtain ⟨e, sent, hafter⟩ := operate_of_seatOf hseat ha fun a => a.tick b.clock
  have heq : after = _ := (hb.inTurn h _).trans hafter
  rw [heq]
  refine ⟨fun s hs => ?_, rfl, fun j => ?_, ?_⟩
  · obtain ⟨k, hk⟩ := List.mem_iff_getElem?.1 hs
    rw [List.getElem?_modify] at hk
    obtain ⟨s', hs', rfl⟩ := Option.map_eq_some_iff.1 hk
    have hfree := hb s' (List.mem_of_getElem? hs')
    split
    · exact hfree
    · exact hfree
  · exact findIdx?_modify _ (f := fun s : Seat => { s with sent := sent }) (fun _ => rfl) _ _
  · show b.registry.apply i _ = _
    rw [Roster.apply_tick, List.modify_eq_set_getElem?, ha]
    rfl

theorem IsIdle.registry_foldl_tick (hb : b.IsIdle) {r : Roster}
    (hregistry : r.registry = b.registry) (live : List (SessionId × Nat))
    (hlive : ∀ e ∈ live, (b.seatOf e.2).isSome = true ∧ e.2 < r.registry.adapters.length) :
    (live.foldl (fun b e =>
      match b.seatOf e.2 with
      | none => b
      | some h => b.inTurn h fun a => a.tick b.clock) b).registry =
      ((live.map (·.2)).foldl (Roster.ticked b.clock) r).registry := by
  induction live generalizing b r with
  | nil => exact hregistry.symm
  | cons e live ih =>
    obtain ⟨⟨hseat, hbound⟩, hrest⟩ := List.forall_mem_cons.1 hlive
    obtain ⟨h, hh⟩ := Option.isSome_iff_exists.1 hseat
    obtain ⟨hidle, hclock, hseatOf, hafter⟩ := hb.inTurn_tick hh (hregistry ▸ hbound)
    simp only [List.foldl_cons, List.map_cons, hh]
    generalize (b.inTurn h fun a => a.tick b.clock) = b' at hidle hclock hseatOf hafter ⊢
    rw [← hclock] at hafter ⊢
    refine ih (r := Roster.ticked b'.clock r e.2) hidle ?_ fun e' he => ?_
    · rw [hafter, ← hregistry]
      rfl
    · rw [hseatOf]
      simpa [Roster.ticked] using hrest e' he

/-- **When an idle bench looks at the clock**, its registry becomes what it becomes when the live
adapters look at it, in any order. -/
theorem IsIdle.registry_tickAll (hb : b.IsIdle) {r : Roster} (hr : r.Sound)
    (hregistry : r.registry = b.registry)
    (hseats : ∀ i ∈ r.liveNumbers, (b.seatOf i).isSome = true) {order : List Nat}
    (horder : order.Perm r.liveNumbers) :
    b.tickAll.registry = (Roster.Outcome.visit ⟨r, []⟩ b.clock order).after.registry := by
  rw [Roster.after_visit_perm hr b.clock horder, Roster.after_visit _ hr.length, tickAll,
    ← hregistry]
  refine hb.registry_foldl_tick hregistry _ fun e he => ?_
  have hi := List.mem_map_of_mem (f := fun e : SessionId × Nat => e.2) he
  obtain ⟨s, hs⟩ := hr.mem_liveNumbers.1 hi
  obtain ⟨a, ha, -⟩ := hr.session_of_get? hs
  exact ⟨hseats _ hi, (List.getElem?_eq_some_iff.1 ha).1⟩

end Simulation.Bench

end AttestedChannel
