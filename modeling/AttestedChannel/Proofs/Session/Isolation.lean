import AttestedChannel.Simulation.Defaults
import AttestedChannel.Proofs.Session.Ticking

/-!
# Sessions do not notice each other

The sessions of a registry share one list, one clock and one measurement service, and when a number
is used again another adapter is closed. Still, what becomes of a session depends on what is done to
it alone: requests about other sessions can be left out, or be moved past each other, and the
adapters may look at the clock in any order (`sessions_are_isolated`).

`Lane.step` says what a request does to the lane of its session, without a registry. This is what
happens to that lane in the registry (`lane_request_self`), and nothing happens to any other
(`lane_request_ne`); so the lane of a session after a run is told by the requests that concern it
(`lane_course`). The nonces and the answers of the measurement service are part of a request: a
session draws the same nonces and is answered alike in every run.
-/

namespace AttestedChannel

open Adapter

namespace Roster

open Registry

variable {c : Config} {x : Outcome} {r : Roster} {s t : SessionId} {i : Nat}

/-! ## Requests and lanes -/

namespace Outcome.Fine

/-- Visits to the adapters of other sessions are not noticed. -/
theorem lane_visit_ne (hx : x.Fine c) (now : Instant) {order : List Nat}
    (h : ∀ i ∈ order, x.after.sessions[i]? ≠ some s) : (x.visit now order).lane s = x.lane s := by
  induction order generalizing x with
  | nil => rfl
  | cons i order ih =>
    obtain ⟨hi, hrest⟩ := List.forall_mem_cons.1 h
    refine (ih (hx.visit now [i]) fun j hj => ?_).trans (x.lane_handle_ne hi _)
    rw [(visit_same hx.sound now [i]).1]
    exact hrest j hj

/-- A look at the clock is taken by the adapter in the lane that is not closed, whatever the order
of the visits is. -/
theorem lane_visit (hx : x.Fine c) (now : Instant) {order : List Nat}
    (horder : order.Perm x.after.liveNumbers) (s : SessionId) :
    (x.visit now order).lane s = (x.lane s).handleOpen (·.tick now) := by
  have hfound : ∀ {j}, j ∈ order → x.after.sessions[j]? = some s →
      x.after.registry.get? s = some j := fun hj hs =>
    hx.sound.get?_of_mem_liveNumbers (horder.mem_iff.1 hj) hs
  cases hi : x.after.registry.get? s with
  | none =>
    rw [hx.handleOpen_of_get?_eq_none hi]
    refine hx.lane_visit_ne now fun j hj hs => ?_
    cases hi.symm.trans (hfound hj hs)
  | some i =>
    -- the session has one adapter among those that are visited
    have hmem : i ∈ order := horder.mem_iff.2 (hx.sound.mem_liveNumbers.2 ⟨s, hi⟩)
    obtain ⟨before, after, rfl⟩ := List.append_of_mem hmem
    have hnodup := List.perm_middle.nodup_iff.1 (horder.nodup_iff.2 hx.sound.nodup_liveNumbers)
    have hother : ∀ j ∈ before ++ after, x.after.sessions[j]? ≠ some s := by
      intro j hj hs
      have hj' := hfound (List.perm_middle.mem_iff.2 (List.mem_cons_of_mem _ hj)) hs
      cases hi.symm.trans hj'
      exact (List.nodup_cons.1 hnodup).1 hj
    have hy := hx.visit now before
    obtain ⟨hsessions, hget⟩ := visit_same hx.sound now before
    have hlane := hx.lane_visit_ne now fun j hj => hother j (List.mem_append_left _ hj)
    have hsplit : x.visit now (before ++ i :: after) =
        ((x.visit now before).visit now [i]).visit now after := List.foldl_append
    rw [hsplit]
    generalize x.visit now before = y at hy hsessions hget hlane
    have hz := hy.visit now [i]
    rw [hz.lane_visit_ne now fun j hj => ?_, ← hlane]
    · exact hy.lane_handleOpen ((hget s).trans hi) fun _ a => a.tick now
    · rw [(visit_same hy.sound now [i]).1, hsessions]
      exact hother j (List.mem_append_right _ hj)

/-- **What a request does to the lane of its session.** -/
theorem lane_request_self (hx : x.Fine c) {q : Request} (hq : q.concerns s = true) :
    (x.request q).lane s = (x.lane s).step c s q := by
  cases q with
  | openSession role now t =>
    obtain rfl : t = s := by simpa [Request.concerns, Request.session?] using hq
    rw [Outcome.request, hx.openSession_eq, (hx.vacate t).lane_seat_self, hx.lane_vacate_self]
    rfl
  | call t k call =>
    obtain rfl : t = s := by simpa [Request.concerns, Request.session?] using hq
    exact hx.lane_performAt_self t k (perform_call · · call)
  | close t k =>
    obtain rfl : t = s := by simpa [Request.concerns, Request.session?] using hq
    exact hx.lane_performAt_self t k perform_close
  | tick now => exact hx.lane_visit now (List.Perm.refl _) s

/-- **A request is not noticed by other sessions.** -/
theorem lane_request_ne (hx : x.Fine c) {q : Request} (hq : q.concerns s = false) :
    (x.request q).lane s = x.lane s := by
  cases q with
  | openSession role now t =>
    have hne : t ≠ s := by simpa [Request.concerns, Request.session?] using hq
    rw [Outcome.request, hx.openSession_eq, (hx.vacate t).lane_seat_ne hne, hx.lane_vacate_ne hne]
  | call t k call =>
    have hne : t ≠ s := by simpa [Request.concerns, Request.session?] using hq
    exact hx.lane_performAt_ne hne k (perform_call · · call)
  | close t k =>
    have hne : t ≠ s := by simpa [Request.concerns, Request.session?] using hq
    exact hx.lane_performAt_ne hne k perform_close
  | tick now => cases hq

end Outcome.Fine

/-- **What becomes of a session is told by what is done to it.** -/
theorem lane_course (c : Config) (capacity : Nat) (qs : List Request) (s : SessionId) :
    (course c capacity qs).lane s =
      (qs.filter (·.concerns s)).foldl (Lane.step c s) .empty := by
  have hrun : ∀ {x : Outcome}, x.Fine c → (qs.foldl Outcome.request x).lane s =
      (qs.filter (·.concerns s)).foldl (Lane.step c s) (x.lane s) := by
    induction qs with
    | nil => exact fun _ => rfl
    | cons q qs ih =>
      intro x hx
      rw [List.foldl_cons, ih (hx.request q)]
      cases hq : q.concerns s with
      | true => rw [List.filter_cons_of_pos hq, List.foldl_cons, hx.lane_request_self hq]
      | false => rw [List.filter_cons_of_neg (by simp [hq]), hx.lane_request_ne hq]
  exact hrun (fine_course c capacity [])

/-- Runs in which the same is done to a session are the same for it. -/
theorem course_congr {qs qs' : List Request}
    (h : qs.filter (·.concerns s) = qs'.filter (·.concerns s)) (c : Config) (capacity : Nat) :
    (course c capacity qs).lane s = (course c capacity qs').lane s ∧
      (course c capacity qs).after.registered s = (course c capacity qs').after.registered s := by
  have hlane : (course c capacity qs).lane s = (course c capacity qs').lane s := by
    rw [lane_course, lane_course, h]
  refine ⟨hlane, ?_⟩
  rw [← (fine_course c capacity qs).open_lane, ← (fine_course c capacity qs').open_lane, hlane]

/-- Requests about different sessions do not both concern the same one. -/
theorem filter_swap {p q : Request} (hp : p.session? = some s) (hq : q.session? = some t)
    (hne : s ≠ t) (u : SessionId) (before after : List Request) :
    (before ++ p :: q :: after).filter (·.concerns u) =
      (before ++ q :: p :: after).filter (·.concerns u) := by
  have hp' : p.concerns u = decide (s = u) := by simp [Request.concerns, hp]
  have hq' : q.concerns u = decide (t = u) := by simp [Request.concerns, hq]
  rcases eq_or_ne s u with rfl | hsu
  · simp [hp', hq', hne.symm]
  · simp [List.filter_cons, hp', hq', hsu]

/-- **Sessions are isolated.** After any requests to a registry, and so at every point of a run,
also when session numbers are used again and when adapters are called that have been closed or
replaced:

* the adapters of a session, with their states, appraisals and metadata, all that they have handed
  out, and which of them is registered, are the same as when only the requests have been made that
  concern the session;
* two requests about different sessions that follow on each other may change places: no session can
  tell, whatever has been before and comes after that;
* it does not matter in which order the registry has its live adapters look at the clock. -/
theorem sessions_are_isolated (c : Config) (capacity : Nat) (qs : List Request) :
    (∀ s,
      let alone := course c capacity (qs.filter (·.concerns s))
      alone.lane s = (course c capacity qs).lane s ∧
        alone.after.registered s = (course c capacity qs).after.registered s) ∧
    (∀ p q s t, p.session? = some s → q.session? = some t → s ≠ t → ∀ after u,
      let there := course c capacity (qs ++ p :: q :: after)
      let back := course c capacity (qs ++ q :: p :: after)
      there.lane u = back.lane u ∧ there.after.registered u = back.after.registered u) ∧
    ∀ now order, order.Perm (course c capacity qs).after.liveNumbers →
      let visited := (course c capacity qs).visit now order
      let ticked := (course c capacity qs).request (.tick now)
      visited.after = ticked.after ∧ ∀ s, visited.lane s = ticked.lane s := by
  have hx := fine_course c capacity qs
  refine ⟨fun s => course_congr (by simp) c capacity, fun p q s t hp hq hne after u =>
    course_congr (filter_swap hp hq hne u qs after) c capacity, fun now order horder => ⟨?_, ?_⟩⟩
  · exact after_visit_perm hx.sound now horder
  · intro s
    exact (hx.lane_visit now horder s).trans (hx.lane_visit now (List.Perm.refl _) s).symm

/-- A message that fails one session and the close of another one, whose number is used again
afterwards, may change places; and the adapters may look at the clock in descending order, when one
of them has waited for too long. -/
theorem interleaved_sessions_isolated :
    let c := Simulation.simulatedConfig .acceptor
    let qs : List Request := [.openSession .acceptor 0 ⟨7⟩, .openSession .initiator 0 ⟨8⟩]
    let p : Request := .call ⟨7⟩ 0 (.message 1 [] (fun _ => .timeOut) [1, 2])
    let q : Request := .close ⟨8⟩ 0
    let there := course c 4 (qs ++ [p, q, .openSession .acceptor 2 ⟨8⟩])
    let back := course c 4 (qs ++ [q, p, .openSession .acceptor 2 ⟨8⟩])
    (there.lane ⟨8⟩).adapters.map (·.view.state) = [.hello, .hello] ∧
      (there.lane ⟨7⟩).adapters.map (·.view.state) = [.failed] ∧
      there.lane ⟨7⟩ = back.lane ⟨7⟩ ∧ there.lane ⟨8⟩ = back.lane ⟨8⟩ ∧
      (course c 4 qs).after.liveNumbers = [0, 1] ∧
      ((course c 4 qs).visit (10 ^ 12) [1, 0]).after =
        ((course c 4 qs).request (.tick (10 ^ 12))).after := by
  intro c qs p q there back
  obtain ⟨-, hcommute, hvisit⟩ := sessions_are_isolated c 4 qs
  have hstates : (there.lane ⟨8⟩).adapters.map (·.view.state) = [.hello, .hello] ∧
      (there.lane ⟨7⟩).adapters.map (·.view.state) = [.failed] := by
    decide +kernel
  have hlive : (course c 4 qs).after.liveNumbers = [0, 1] := by
    decide +kernel
  have hswap := hcommute p q ⟨7⟩ ⟨8⟩ rfl rfl (by decide) [.openSession .acceptor 2 ⟨8⟩]
  refine ⟨hstates.1, hstates.2, (hswap ⟨7⟩).1, (hswap ⟨8⟩).1, hlive, ?_⟩
  exact (hvisit _ [1, 0] (by rw [hlive]; exact List.Perm.swap 0 1 [])).1

end Roster

end AttestedChannel
