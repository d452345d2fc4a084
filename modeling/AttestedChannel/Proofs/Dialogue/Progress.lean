import AttestedChannel.Proofs.Dialogue.Moves

/-!
# Dialogues come to an end

Every message that a running machine hears brings it further, and it says two things at most at a
time. So `Dialogue.measure`, which counts the messages on their way and twice the way that the
machines still have to go, falls with every start and every delivery, and no tick makes it rise: a
dialogue is over after at most twenty of them (`count_add_measure_le`).
-/

namespace AttestedChannel

namespace Dialogue

open Simulation.Link (framesOf)

variable {c : Role → Config} {d d' : Dialogue}

/-- The messages on their way and twice the way that the machines still have to go. -/
def measure (d : Dialogue) : Nat :=
  2 * ((d.machine .initiator).rank + (d.machine .acceptor).rank) +
    ((d.inbox .initiator).length + (d.inbox .acceptor).length)

theorem measure_eq (d : Dialogue) (r : Role) :
    d.measure = 2 * ((d.machine r).rank + (d.machine r.peer).rank) +
      ((d.inbox r).length + (d.inbox r.peer).length) := by
  cases r with
  | acceptor =>
    rw [measure, Nat.add_comm (d.machine .initiator).rank, Nat.add_comm (d.inbox .initiator).length]
    rfl
  | initiator => rfl

theorem measure_acted (d : Dialogue) (r : Role) (m : Machine) (actions : List Action) :
    (d.acted r m actions).measure + 2 * (d.machine r).rank =
      d.measure + 2 * m.rank + (framesOf actions).length := by
  rw [measure_eq _ r, measure_eq d r]
  simp only [acted, Function.update_self, Function.update_of_ne (Role.peer_ne r),
    Function.update_of_ne (Role.ne_peer r), List.length_append]
  omega

theorem measure_leaving {r : Role} {b : Bytes} {rest : List Bytes} (hq : d.inbox r = b :: rest) :
    (d.leaving r rest).measure + 1 = d.measure := by
  rw [measure_eq _ r, measure_eq d r]
  simp only [leaving, Function.update_self, Function.update_of_ne (Role.peer_ne r), hq,
    List.length_cons]
  omega

theorem length_framesOf_le {actions : List Action} {ps : List Payload} (h : Says actions ps) :
    (framesOf actions).length ≤ ps.length := by
  rw [← h.length_eq]
  exact List.length_filterMap_le _ _

/-- **Every start and every delivery makes the measure fall**, and no tick makes it rise. -/
theorem Step.measure_le (hd : Sound c d) {mv : Move} (h : Step d mv d') :
    d'.measure ≤ d.measure ∧ (mv.isTick = false → d.Admits mv → d'.measure < d.measure) := by
  cases h with
  | idle h =>
    refine ⟨Nat.le_refl _, fun hmv hadm => ?_⟩
    rcases h with h | h
    · rw [h] at hmv
      cases hmv
    · exact absurd hadm h
  | @opened now m actions hs ho hb hspoken =>
    have hr : (d.machine .initiator).config.role = .initiator := by rw [hd.config]; rfl
    have hm := measure_acted d .initiator m actions
    have hl := length_framesOf_le hspoken
    have h₁ : (d.machine .initiator).rank = 5 := by simp [Machine.rank, hs, ho]
    have h₂ : m.rank = 4 := by simp [Machine.rank, hb.state, hb.config, hb.hasOpened, hr]
    rw [List.length_singleton] at hl
    omega
  | @heard r now nonce service b rest m p ps actions hq hm hp hh hspoken =>
    have hl := length_framesOf_le hspoken
    have hlen := hh.length_le
    have hrank := hh.rank_lt hm
    have h₁ := measure_leaving hq
    have h₂ := measure_acted (d.leaving r rest) r m actions
    change _ + 2 * (d.machine r).rank = _ at h₂
    -- one message less, two more at most, and a rank that has fallen
    omega
  | @passedOn r now nonce service b rest m hq hm hb =>
    have hrank : m.rank = 0 := Machine.rank_of_terminal (by rw [hb.state]; exact hm)
    have h₁ := measure_leaving hq
    have h₂ := measure_acted (d.leaving r rest) r m [.passThrough b]
    change _ = _ + 0 at h₂
    omega
  | @timedOut r now m q actions hm hb hq hspoken =>
    have hpos := Machine.rank_pos hm
    have hrank : m.rank = 0 := Machine.Becomes.rank_failed hb
    have hl := length_framesOf_le hspoken
    have h₂ := measure_acted d r m actions
    rw [List.length_singleton] at hl
    refine ⟨by omega, fun h => by cases h⟩

/-- The starts and deliveries of a run use up the measure. -/
theorem count_add_measure_le {moves : List Move} (hd : Sound c d) (h : d.AdmitsAll moves) :
    moves.countP (fun mv => !mv.isTick) + (d.run moves).measure ≤ d.measure := by
  induction moves generalizing d with
  | nil => exact Nat.le_of_eq (Nat.zero_add _)
  | cons mv moves ih =>
    obtain ⟨hadm, hrest⟩ := h
    have hs := step_cases hd mv
    have hi := ih (hd.step hs) hrest
    obtain ⟨hle, hlt⟩ := hs.measure_le hd
    rw [List.countP_cons]
    show _ + ((d.step mv).run moves).measure ≤ _
    cases hmv : mv.isTick with
    | true =>
      simp only [Bool.not_true, Bool.false_eq_true, if_false]
      omega
    | false =>
      have := hlt hmv hadm
      simp only [Bool.not_false, if_true]
      omega

end Dialogue

end AttestedChannel
