import AttestedChannel.Proofs.Dialogue.Moves

/-!
# Failures are noticed

A machine that fails tells the other, and the other understands it in whatever state it is, because
a fatal payload makes every running machine fail. `Noticed` is the invariant: whoever has failed,
the other is over, too, or is going to be told; and nobody is told of a failure that has not
happened. It holds in every run in which every frame can be written, whenever a clock runs out.
-/

namespace AttestedChannel

namespace Machine

variable {m m' : Machine} {p q : Payload} {ps : List Payload}

/-- A fatal payload makes every running machine fail. -/
theorem Hears.failed_of_fatal (h : m.Hears m' p ps) (hp : p.IsFatal) :
    m'.state = .failed := by
  cases h with
  | refused _ _ hb | unsupported _ _ hb | unquoted _ _ hb | appraisalFailed _ _ hb => exact hb.state
  | told _ hb => exact hb.state
  | acceptedAcceptor hv | acceptedMutually hv | acceptedOneWay hv => exact absurd hv hp
  | _ => exact hp.elim

/-- A machine that fails was told by its peer or tells it. -/
theorem Hears.told_or_tells (h : m.Hears m' p ps) (hm : m'.state = .failed) :
    p.IsFatal ∨ ∃ q ∈ ps, q.IsFatal := by
  cases h with
  | refused _ hq | unsupported _ hq | unquoted _ hq | appraisalFailed _ hq =>
    exact .inr ⟨_, List.mem_singleton_self _, hq⟩
  | told hp => exact .inl hp
  | passedToAcceptor _ _ hb =>
    have hs := hb.state.symm.trans hm
    split at hs <;> cases hs
  | quoted _ hb => cases hb.state.symm.trans hm
  | challenged _ _ hb | passedToInitiator _ _ hb | describedToAcceptor _ _ hb
  | describedToInitiator _ _ hb => cases hb.state.symm.trans hm
  | acceptedAcceptor _ _ _ hb => cases hb.state.symm.trans hm
  | acceptedMutually _ _ _ _ hb | acceptedOneWay _ _ _ _ hb => cases hb.state.symm.trans hm

/-- Only a machine that fails says so. -/
theorem Hears.failed_of_said (h : m.Hears m' p ps) (hq : q ∈ ps) (hf : q.IsFatal) :
    m'.state = .failed := by
  cases h with
  | refused _ _ hb | unsupported _ _ hb | unquoted _ _ hb | appraisalFailed _ _ hb => exact hb.state
  | told | acceptedAcceptor | describedToInitiator => cases hq
  | passedToInitiator =>
    rcases List.mem_pair.1 hq with rfl | rfl
    · exact absurd rfl hf
    · exact hf.elim
  | passedToAcceptor =>
    cases List.mem_singleton.1 hq
    exact absurd rfl hf
  | _ =>
    cases List.mem_singleton.1 hq
    exact hf.elim

end Machine

namespace Dialogue

open Simulation.Link (framesOf)

variable {c : Role → Config} {d d' : Dialogue}

theorem fits_append {fs gs : List Frame} : Fits (fs ++ gs) ↔ Fits fs ∧ Fits gs := by
  simp only [Fits, List.mem_append, or_imp, forall_and]

/-! ## Failures are noticed -/

/-- A machine is going to be told that the other has failed. -/
def IsWarned (d : Dialogue) (r : Role) : Prop := ∃ b ∈ d.inbox r, ∃ p, Bears b p ∧ p.IsFatal

/-- Whoever has failed tells the other, unless it is over for that one, too. -/
structure Noticed (d : Dialogue) : Prop where
  failed : ∀ r, d.IsWarned r.peer → (d.machine r).state = .failed
  noticed : ∀ r, (d.machine r).state = .failed →
    (d.machine r.peer).state.isTerminal = true ∨ d.IsWarned r.peer

/-- What the other machine is told it is still told when a machine has acted. -/
theorem IsWarned.acted {r s : Role} (h : d.IsWarned s) (m : Machine) (actions : List Action) :
    (d.acted r m actions).IsWarned s := by
  obtain ⟨b, hb, hw⟩ := h
  refine ⟨b, ?_, hw⟩
  by_cases hs : s = r.peer
  · subst hs
    simp only [Dialogue.acted, Function.update_self]
    exact List.mem_append_left _ hb
  · simpa only [Dialogue.acted, Function.update_of_ne hs] using hb

/-- Who is told has been told before, or is told now. -/
theorem isWarned_of_acted {r s : Role} {m : Machine} {actions : List Action} {ps : List Payload}
    (hspoken : ∀ b ∈ framesOf actions, ∃ p ∈ ps, Bears b p)
    (h : (d.acted r m actions).IsWarned s) :
    d.IsWarned s ∨ s = r.peer ∧ ∃ q ∈ ps, q.IsFatal := by
  obtain ⟨b, hb, p, hp, hf⟩ := h
  rcases mem_inbox_acted hb with hold | ⟨rfl, hnew⟩
  · exact .inl ⟨b, hold, p, hp, hf⟩
  · obtain ⟨q, hq, hbq⟩ := hspoken b hnew
    cases hp.unique hbq
    exact .inr ⟨rfl, p, hq, hf⟩

/-- What a machine says warns the other if it is fatal and can be written. -/
theorem isWarned_of_said {r : Role} {m : Machine} {actions : List Action} {ps : List Payload}
    {q : Payload} (hspoken : Says actions ps) (hfits : Fits (sentBy actions)) (hq : q ∈ ps)
    (hf : q.IsFatal) : (d.acted r m actions).IsWarned r.peer := by
  obtain ⟨b, hb, hbq⟩ := exists_of_mem_forall₂ (forall₂_bears_framesOf hspoken hfits).flip hq
  refine ⟨b, ?_, q, hbq, hf⟩
  simp only [Dialogue.acted, Function.update_self]
  exact List.mem_append_right _ hb

/-- What has to be known of a machine that acts for the failures to be noticed afterwards. -/
theorem noticed_acted {r : Role} {m : Machine} {actions : List Action} {ps : List Payload}
    (hfailed : ∀ s, d.IsWarned s.peer → (d.machine s).state = .failed)
    (hpeer : (d.machine r.peer).state = .failed → m.state.isTerminal = true ∨ d.IsWarned r)
    (hstays : (d.machine r).state = .failed → m.state = .failed)
    (hfails : m.state = .failed → (d.machine r.peer).state.isTerminal = true ∨
      d.IsWarned r.peer ∨ ∃ q ∈ ps, q.IsFatal)
    (hsaid : ∀ q ∈ ps, q.IsFatal → m.state = .failed) (hspoken : Says actions ps)
    (hfits : Fits (sentBy actions)) : Noticed (d.acted r m actions) where
  failed s hw := by
    rw [machine_acted]
    rcases isWarned_of_acted (bears_of_framesOf hspoken) hw with hold | ⟨hs, q, hq, hf⟩
    · split
      · next hs =>
        subst hs
        exact hstays (hfailed s hold)
      · exact hfailed s hold
    · rw [if_pos (Role.peer_inj hs)]
      exact hsaid q hq hf
  noticed s hs := by
    by_cases hsr : s = r
    · -- the machine that has acted has failed: it was told before, or it tells
      subst hsr
      rw [machine_acted, if_pos rfl] at hs
      rw [machine_acted, if_neg (Role.peer_ne s)]
      rcases hfails hs with ht | hw | ⟨q, hq, hf⟩
      · exact .inl ht
      · exact .inr (hw.acted m actions)
      · exact .inr (isWarned_of_said hspoken hfits hq hf)
    · obtain rfl := Role.eq_peer hsr
      rw [machine_acted, if_neg (Role.peer_ne r)] at hs
      rw [machine_acted, Role.peer_peer, if_pos rfl]
      exact (hpeer hs).imp_right fun hw => hw.acted m actions

/-- Taking octets out of an inbox warns nobody. -/
theorem isWarned_of_leaving {r s : Role} {b : Bytes} {rest : List Bytes}
    (hq : d.inbox r = b :: rest) (h : (d.leaving r rest).IsWarned s) : d.IsWarned s := by
  obtain ⟨x, hx, hw⟩ := h
  exact ⟨x, mem_inbox_leaving hq hx, hw⟩

/-- Nor does it keep the other machine from being warned. -/
theorem IsWarned.leaving {r s : Role} {rest : List Bytes} (h : d.IsWarned s) (hs : s ≠ r) :
    (d.leaving r rest).IsWarned s := by
  obtain ⟨x, hx, hw⟩ := h
  exact ⟨x, by simpa only [Dialogue.leaving, Function.update_of_ne hs] using hx, hw⟩

/-- Who was warned and has taken a message was warned by that message or is warned still. -/
theorem IsWarned.of_cons {r : Role} {b : Bytes} {rest : List Bytes} {p : Payload}
    (h : d.IsWarned r) (hq : d.inbox r = b :: rest) (hp : Bears b p) :
    p.IsFatal ∨ (d.leaving r rest).IsWarned r := by
  obtain ⟨x, hx, q, hbq, hf⟩ := h
  rw [hq] at hx
  rcases List.mem_cons.1 hx with rfl | hx
  · exact .inl (hp.unique hbq ▸ hf)
  · exact .inr ⟨x, by simpa only [Dialogue.leaving, Function.update_self] using hx, q, hbq, hf⟩

theorem noticed_ofConfigs (c : Role → Config) : Noticed (ofConfigs c) where
  failed _ h := by
    obtain ⟨_, hb, _⟩ := h
    cases hb
  noticed _ h := by cases h

/-- **A move keeps failures noticed**, the looks at the clock included. -/
theorem Noticed.step (hi : Noticed d) {mv : Move} (h : Step d mv d') (hfits : Fits d'.sent) :
    Noticed d' := by
  cases h with
  | idle => exact hi
  | opened hs _ hb hspoken =>
    refine noticed_acted hi.failed (fun h => ?_) (fun h => ?_) (fun h => ?_) ?_ hspoken
      (fits_append.1 hfits).2
    · refine (hi.noticed _ h).imp_left fun ht => ?_
      rw [Role.peer_peer, hs] at ht
      cases ht
    · rw [hs] at h
      cases h
    · rw [hb.state] at h
      cases h
    · intro q hq hf
      cases List.mem_singleton.1 hq
      exact hf.elim
  | @heard r now nonce service b rest m p ps actions hq hm hp hh hspoken =>
    refine noticed_acted (fun s hw => hi.failed s (isWarned_of_leaving hq hw)) (fun h => ?_)
      (fun h => ?_) (fun h => ?_) (fun q hq hf => hh.failed_of_said hq hf) hspoken
      (fits_append.1 hfits).2
    · rcases hi.noticed _ h with ht | hw
      · rw [Role.peer_peer, hm] at ht
        cases ht
      · -- if the warning is what the machine has heard, it has failed, too
        rw [Role.peer_peer] at hw
        refine (hw.of_cons hq hp).imp_left fun hf => ?_
        rw [hh.failed_of_fatal hf]
        rfl
    · change (d.machine r).state = _ at h
      rw [h] at hm
      cases hm
    · rcases hh.told_or_tells h with hf | hf
      · -- nobody is told of a failure that has not happened
        have hw : d.IsWarned r.peer.peer := by
          rw [Role.peer_peer]
          exact ⟨b, by rw [hq]; exact List.mem_cons_self, p, hp, hf⟩
        have hpeer : (d.machine r.peer).state = .failed := hi.failed _ hw
        exact .inl (by rw [show ((d.leaving r rest).machine r.peer).state = _ from hpeer]; rfl)
      · exact .inr (.inr hf)
  | @passedOn r now nonce service b rest m hq hm hb =>
    show Noticed ((d.leaving r rest).acted r m [])
    refine noticed_acted (fun s hw => hi.failed s (isWarned_of_leaving hq hw))
      (fun _ => .inl (by rw [hb.state]; exact hm)) (fun h => hb.state.trans h) (fun h => ?_)
      (fun q hq => by cases hq) .nil fun _ hf => by cases hf
    rcases hi.noticed r (hb.state.symm.trans h) with ht | hw
    · exact .inl ht
    · exact .inr (.inl (hw.leaving (Role.peer_ne r)))
  | @timedOut r now m q actions hm hb hq hspoken =>
    refine noticed_acted hi.failed (fun _ => .inl (by rw [hb.state]; rfl)) (fun _ => hb.state)
      (fun _ => .inr (.inr ⟨q, List.mem_singleton_self q, hq⟩)) (fun _ _ _ => hb.state) hspoken
      (fits_append.1 hfits).2

/-- When nothing is on its way, one failure means that both machines are over. -/
theorem Noticed.terminal (hi : Noticed d) (hq : ∀ r, d.inbox r = []) {r : Role}
    (h : (d.machine r).state = .failed) (s : Role) : (d.machine s).state.isTerminal = true := by
  by_cases hs : s = r
  · rw [hs, h]
    rfl
  · obtain rfl := Role.eq_peer hs
    refine (hi.noticed r h).resolve_right fun hw => ?_
    obtain ⟨b, hb, -⟩ := hw
    rw [hq] at hb
    cases hb

end Dialogue

end AttestedChannel
