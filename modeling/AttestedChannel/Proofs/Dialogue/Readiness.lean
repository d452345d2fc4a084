import AttestedChannel.Proofs.Dialogue.Convergence
import AttestedChannel.Proofs.Payload.Size

/-!
# Nothing unexpected comes

In a dialogue every message is one that its receiver waits for at that moment, also if clocks run
out and if frames that cannot be written are left out. A machine is *ready* for messages if it takes
them one after the other, whatever it makes of each, until it is over (`Machine.IsReadyFor`). While
nothing has failed what waits for a machine is a beginning of what the script has for it, and it is
ready for that and an error report behind it (`Script.At.isReadyFor`). `Stage` is the invariant: the
dialogue is on the script, or one machine has failed and the other is ready for all that waits for
it. If no clock runs out nothing but news of the failure waits for it.
-/

namespace AttestedChannel

open Simulation.Link (framesOf)

/-! ## Machines that are ready -/

namespace Machine

/-- The machine takes the payload, which is no hello of another version. -/
def Expects (m : Machine) (p : Payload) : Prop :=
  m.Takes p ∧ ∀ h, p = .hello h → h.version = Hello.currentVersion

/-- The machine takes these payloads one after the other, whatever it makes of each, until it is
over. -/
def IsReadyFor : Machine → List Payload → Prop
  | _, [] => True
  | m, p :: ps => m.Expects p ∧
      ∀ m' said, m.Hears m' p said → m'.state.isTerminal = true ∨ m'.IsReadyFor ps

variable {m m' : Machine} {p q : Payload} {ps qs : List Payload}

/-- After a fatal payload a machine is over. -/
theorem isReadyFor_fatal (hq : q.IsFatal) (ht : m.Takes q) : m.IsReadyFor (q :: qs) := by
  refine ⟨⟨ht, ?_⟩, fun m' said hh => .inl ?_⟩
  · rintro h rfl
    exact hq.elim
  · rw [hh.failed_of_fatal hq]
    rfl

theorem isReadyFor_error (m : Machine) (e : ErrorReport) (qs : List Payload) :
    m.IsReadyFor (.error e :: qs) :=
  isReadyFor_fatal trivial trivial

/-- A machine that is ready for payloads is ready for a beginning of them. -/
theorem IsReadyFor.mono (h : m.IsReadyFor qs) (hp : ps <+: qs) : m.IsReadyFor ps := by
  induction ps generalizing m qs with
  | nil => exact trivial
  | cons p ps ih =>
    obtain ⟨t, rfl⟩ := hp
    refine ⟨h.1, fun m' said hh => (h.2 m' said hh).imp_right fun h => ?_⟩
    exact ih h (List.prefix_append ps t)

/-- Before it has opened the handshake an initiator is ready for error reports only, and stays
so. -/
theorem IsReadyFor.opened (h : m.IsReadyFor ps) (hr : m.config.role = .initiator)
    (hs : m.state = .hello) (ho : m.hasOpened = false) (m' : Machine) : m'.IsReadyFor ps := by
  cases ps with
  | nil => exact trivial
  | cons p ps =>
    have ht := h.1.1
    cases p with
    | error e => exact isReadyFor_error m' e ps
    | _ => simp [Takes, TakesChallenge, hr, hs, ho] at ht

/-- All but the last of the things that a machine says at a time fit. -/
theorem Hears.fits_dropLast (h : m.Hears m' p ps) : ∀ q ∈ ps.dropLast, q.Fits := by
  cases h with
  | passedToInitiator =>
    intro q hq
    cases List.mem_singleton.1 hq
    decide
  | _ => exact fun q hq => by cases hq

/-- News of a failure that a machine takes is not answered. -/
theorem Hears.eq_nil_of_fatal (h : m.Hears m' p ps) (hp : p.IsFatal) (ht : m.Takes p) :
    ps = [] := by
  cases h with
  | refused hn => exact absurd ht hn
  | told => rfl
  | acceptedAcceptor hv | acceptedMutually hv | acceptedOneWay hv => exact absurd hv hp
  | _ => exact hp.elim

end Machine

/-- What is said arrives up to the first thing that cannot be written, if at most the last one
cannot. -/
theorem exists_prefix_bears {actions : List Action} {ps : List Payload} (h : Says actions ps)
    (hf : ∀ p ∈ ps.dropLast, p.Fits) :
    ∃ qs, qs <+: ps ∧ List.Forall₂ Bears (framesOf actions) qs := by
  induction h with
  | nil => exact ⟨[], List.nil_prefix, .nil⟩
  | @cons a p actions ps ha hs ih =>
    obtain ⟨k, rfl⟩ := ha
    cases he : (p.toFrame k).encode with
    | ok b =>
      have hframes : framesOf (.send (p.toFrame k) :: actions) = b :: framesOf actions := by
        simp only [framesOf, List.filterMap_cons, he, Except.toOption]
      have hrest : ∀ q ∈ ps.dropLast, q.Fits := by
        intro q hq
        cases ps with
        | nil => cases hq
        | cons q' ps => exact hf q (List.mem_cons_of_mem p hq)
      obtain ⟨qs, hqs, hb⟩ := ih hrest
      rw [hframes]
      exact ⟨p :: qs, List.cons_prefix_cons.2 ⟨rfl, hqs⟩, .cons (Event.ofBytes_of_encode he) hb⟩
    | error e =>
      -- it is the last thing that is said
      have hnil : ps = [] := by
        by_contra hne
        have hfit := hf p (by rw [List.dropLast_cons_of_ne_nil hne]; exact List.mem_cons_self)
        rw [p.encode_toFrame, if_pos hfit] at he
        cases he
      subst hnil
      cases hs
      refine ⟨[], List.nil_prefix, ?_⟩
      simp [framesOf, he, Except.toOption]

/-! ## The script as one of the machines sees it -/

namespace Script

variable {mutually : Bool} {r : Role} {s t : HandshakeState} {m m' : Machine} {p : Payload}
  {ps qs mine theirs : List Payload}

/-- The script as one of the machines sees it: its state and that of the other, what waits for it
and what waits for the other. -/
def At (mutually : Bool) : Role → HandshakeState → HandshakeState → List Payload → List Payload →
    Prop
  | .initiator, s, t, mine, theirs => Script mutually s t mine theirs
  | .acceptor, s, t, mine, theirs => Script mutually t s theirs mine

theorem At.swap (h : At mutually r s t mine theirs) : At mutually r.peer t s theirs mine := by
  cases r <;> exact h

/-- Only one of the machines is waited for. -/
theorem At.eq_nil (h : At mutually r s t (p :: qs) theirs) : theirs = [] := by
  cases r <;> cases h <;> rfl

theorem At.ne_failed (h : At mutually r s t mine theirs) : s ≠ .failed := by
  cases r <;> cases h <;> decide

theorem At.eq_nil_of_terminal (h : At mutually r s t mine theirs) (hs : s.isTerminal = true) :
    mine = [] := by
  cases r with
  | acceptor => exact (silent_of_terminal h).2 hs
  | initiator => exact (silent_of_terminal h).1 hs

/-- The only hello in the script is that of the initiator. -/
theorem At.hello {h : Hello} (hs : At mutually r s t (.hello h :: qs) theirs) :
    h = ⟨Hello.currentVersion, mutually⟩ := by
  cases r <;> cases hs
  rfl

/-- A machine expects what comes next in the script. -/
theorem At.expects (hs : At mutually r m.state t (p :: qs) theirs) (hr : m.config.role = r)
    (ho : r = .initiator → m.hasOpened = true) : m.Expects p := by
  refine ⟨?_, ?_⟩
  · generalize hst : m.state = s at hs
    cases r <;> cases hs <;>
      simp_all [Machine.Takes, Machine.TakesChallenge]
  · rintro h rfl
    rw [hs.hello]

/-- What a machine does with what comes next follows the script, or it fails and says so. -/
theorem At.hears (hs : At mutually r m.state t (p :: qs) theirs) (hr : m.config.role = r)
    (ho : r = .initiator → m.hasOpened = true) (hw : m.MutualFits mutually)
    (hh : m.Hears m' p ps) :
    At mutually r m'.state t qs (theirs ++ ps) ∨ Breaks m' t theirs ps := by
  cases r with
  | acceptor => exact acceptor_hears hs hr hw hh
  | initiator => exact initiator_hears hs hr (ho rfl) hw hh

/-- A machine that hears what comes next still knows whether both sides attest. -/
theorem At.mutualFits (hs : At mutually r m.state t (p :: qs) theirs) (hr : m.config.role = r)
    (hc : r = .initiator → m.config.mutualAttestation = mutually) (hw : m.MutualFits mutually)
    (hh : m.Hears m' p ps) : m'.MutualFits mutually := by
  have hm : m.state.isTerminal = false := by
    by_contra h
    cases hs.eq_nil_of_terminal (by simpa using h)
  refine (hh.advances hm).mutualFits mutually ?_ (fun h => hc (hr.symm.trans h)) hw
  intro _ h heq
  cases heq
  rw [hs.hello]

/-- **A machine is ready for a beginning of what the script has for it, and an error report behind
that.** -/
theorem At.isReadyFor (hs : At mutually r m.state t qs theirs) (hr : m.config.role = r)
    (ho : r = .initiator → m.hasOpened = true)
    (hc : r = .initiator → m.config.mutualAttestation = mutually) (hw : m.MutualFits mutually)
    (hps : ps <+: qs) (e : ErrorReport) : m.IsReadyFor (ps ++ [.error e]) := by
  induction ps generalizing m qs theirs with
  | nil => exact Machine.isReadyFor_error m e []
  | cons p ps ih =>
    obtain ⟨tail, rfl⟩ := hps
    refine ⟨hs.expects hr ho, fun m' said hh => ?_⟩
    rcases hs.hears hr ho hw hh with hs' | hb
    · obtain ⟨hconfig, hopened⟩ := hh.same
      have hw' := hs.mutualFits hr hc hw hh
      exact .inr (ih hs' (hconfig ▸ hr) (hopened ▸ ho) (hconfig ▸ hc) hw'
        (List.prefix_append ps tail))
    · exact .inl (by rw [hb.failed]; rfl)

end Script

namespace Dialogue

variable {c : Role → Config} {d d' : Dialogue} {mutually inTime : Bool} {r s : Role} {b : Bytes}
  {rest : List Bytes} {m : Machine} {p q : Payload} {ps qs mine theirs : List Payload}
  {actions : List Action}

/-! ## On the script -/

/-- What waits for a machine is a beginning of these payloads. -/
def Begins (d : Dialogue) (r : Role) (qs : List Payload) : Prop :=
  ∃ ps, ps <+: qs ∧ List.Forall₂ Bears (d.inbox r) ps

theorem Begins.eq_nil (h : d.Begins r []) : d.inbox r = [] := by
  obtain ⟨ps, hps, hb⟩ := h
  rw [List.prefix_nil.1 hps, List.forall₂_nil_right_iff] at hb
  exact hb

theorem Begins.of_cons (h : d.Begins r qs) (hq : d.inbox r = b :: rest) (hb : Bears b p) :
    ∃ tail, qs = p :: tail ∧ ∃ ps, ps <+: tail ∧ List.Forall₂ Bears rest ps := by
  obtain ⟨ps, ⟨tail, rfl⟩, hbears⟩ := h
  rw [hq] at hbears
  obtain ⟨p', ps', hb', hrest, rfl⟩ := List.forall₂_cons_left_iff.1 hbears
  cases hb.unique hb'
  exact ⟨_, rfl, ps', List.prefix_append ps' tail, hrest⟩

/-- Nothing has failed, and what waits for the machines is what the script has for them, as far as
it could be written. -/
structure OnScript (mutually : Bool) (d : Dialogue) (r : Role) (mine theirs : List Payload) :
    Prop where
  opened : (d.machine .initiator).hasOpened = true
  script : Script.At mutually r (d.machine r).state (d.machine r.peer).state mine theirs
  mine : d.Begins r mine
  theirs : d.Begins r.peer theirs

theorem OnScript.swap (h : OnScript mutually d r mine theirs) :
    OnScript mutually d r.peer theirs mine := by
  refine ⟨h.opened, ?_, h.theirs, ?_⟩
  · rw [Role.peer_peer]
    exact h.script.swap
  · rw [Role.peer_peer]
    exact h.mine

/-- Each machine sees the script. -/
theorem OnScript.view (h : OnScript mutually d s mine theirs) (r : Role) :
    ∃ mine theirs, OnScript mutually d r mine theirs := by
  by_cases hs : r = s
  · subst hs
    exact ⟨_, _, h⟩
  · rw [Role.eq_peer hs]
    exact ⟨_, _, h.swap⟩

theorem OnScript.hasOpened (h : OnScript mutually d r mine theirs) :
    r = .initiator → (d.machine r).hasOpened = true := by
  rintro rfl
  exact h.opened

theorem OnScript.ne_failed (h : OnScript mutually d r mine theirs) (s : Role) :
    (d.machine s).state ≠ .failed := by
  obtain ⟨_, _, h⟩ := h.view s
  exact h.script.ne_failed

/-! ## Ready for all that waits -/

/-- The machine is over or ready for all that waits for it; if no clock runs out, that is news of a
failure. -/
def IsReady (inTime : Bool) (d : Dialogue) (r : Role) : Prop :=
  (d.machine r).state.isTerminal = true ∨
    ∃ ps, List.Forall₂ Bears (d.inbox r) ps ∧ (d.machine r).IsReadyFor ps ∧
      (inTime = true → ∀ p ∈ ps, p.IsFatal)

/-- What a machine that is ready hears it expects, and it is ready for the rest. -/
theorem IsReady.of_cons (h : d.IsReady inTime r) (hm : (d.machine r).state.isTerminal = false)
    (hq : d.inbox r = b :: rest) (hb : Bears b p) :
    (d.machine r).Expects p ∧ (inTime = true → p.IsFatal) ∧
      ∀ m said, (d.machine r).Hears m p said → m.state.isTerminal = true ∨
        ∃ ps, List.Forall₂ Bears rest ps ∧ m.IsReadyFor ps ∧
          (inTime = true → ∀ p ∈ ps, p.IsFatal) := by
  rcases h with h | ⟨ps, hps, hready, hfatal⟩
  · rw [hm] at h
    cases h
  · rw [hq] at hps
    obtain ⟨p', ps', hb', hrest, rfl⟩ := List.forall₂_cons_left_iff.1 hps
    cases hb.unique hb'
    refine ⟨hready.1, fun ht => hfatal ht p List.mem_cons_self, fun m said hh => ?_⟩
    refine (hready.2 m said hh).imp_right fun h => ⟨ps', hrest, h, fun ht q hq => ?_⟩
    exact hfatal ht q (List.mem_cons_of_mem p hq)

/-- Where a dialogue can be: it has not begun, is on the script, or one machine has failed and the
other is ready for all that waits for it. -/
inductive Stage (mutually inTime : Bool) (d : Dialogue) : Prop
  | silent (ho : (d.machine .initiator).hasOpened = false) (hs : ∀ r, (d.machine r).state = .hello)
      (hq : ∀ r, d.inbox r = [])
  | following (r : Role) {mine theirs : List Payload} (h : OnScript mutually d r mine theirs)
  | broken (r : Role) (hf : (d.machine r).state = .failed) (hr : d.IsReady inTime r.peer)

theorem stage_ofConfigs (c : Role → Config) (mutually inTime : Bool) :
    Stage mutually inTime (ofConfigs c) :=
  .silent rfl (fun _ => rfl) fun _ => rfl

/-- **What a running machine hears it expects.** If no clock runs out and one of the machines has
failed, it is news of that. -/
theorem Stage.expects (hd : Sound c d) (hp : Stage mutually inTime d) (hq : d.inbox r = b :: rest)
    (hm : (d.machine r).state.isTerminal = false) (hb : Bears b p) :
    (d.machine r).Expects p ∧
      (inTime = true → (∃ s, (d.machine s).state = .failed) → p.IsFatal) := by
  have hr : (d.machine r).config.role = r := by rw [hd.config]; rfl
  cases hp with
  | silent _ _ hnil =>
    rw [hnil] at hq
    cases hq
  | following s h =>
    obtain ⟨mine, theirs, h⟩ := h.view r
    obtain ⟨tail, rfl, -⟩ := h.mine.of_cons hq hb
    exact ⟨h.script.expects hr h.hasOpened, fun _ ⟨s, hs⟩ => absurd hs (h.ne_failed s)⟩
  | broken s hf hready =>
    have hrs : r ≠ s := by
      rintro rfl
      exact (Machine.ne_of_running hm).2 hf
    obtain rfl := Role.eq_peer hrs
    obtain ⟨hexp, hfatal, -⟩ := hready.of_cons hm hq hb
    exact ⟨hexp, fun ht _ => hfatal ht⟩

/-! ## Moves -/

/-- Hearing what comes next in the script stays on it, or it breaks it off. -/
theorem OnScript.heard (hd : Sound c d) (hw : (d.machine r).MutualFits mutually)
    (h : OnScript mutually d r mine theirs) (hq : d.inbox r = b :: rest) (hb : Bears b p)
    (hh : (d.machine r).Hears m p ps) (hs : Says actions ps) :
    Stage mutually inTime ((d.leaving r rest).acted r m actions) := by
  obtain ⟨tail, rfl, qs, hqs, hrest⟩ := h.mine.of_cons hq hb
  obtain rfl := h.script.eq_nil
  obtain ⟨said, hsaid, hin⟩ := exists_prefix_bears hs hh.fits_dropLast
  have hr : (d.machine r).config.role = r := by rw [hd.config]; rfl
  have hself : ((d.leaving r rest).acted r m actions).inbox r = rest := by
    rw [inbox_acted_self, inbox_leaving_self]
  have hpeer : ((d.leaving r rest).acted r m actions).inbox r.peer = framesOf actions := by
    rw [inbox_acted_peer, inbox_leaving_peer, h.theirs.eq_nil, List.nil_append]
  have hm : ((d.leaving r rest).acted r m actions).machine r = m := by
    rw [machine_acted, if_pos rfl]
  have hother : ((d.leaving r rest).acted r m actions).machine r.peer = d.machine r.peer := by
    rw [machine_acted, if_neg (Role.peer_ne r)]
    rfl
  rcases h.script.hears hr h.hasOpened hw hh with hscript | hbreaks
  · refine .following r ⟨hasOpened_acted (d := d.leaving r rest) h.opened hh.same.2, ?_,
      ⟨qs, hqs, ?_⟩, ⟨said, hsaid, ?_⟩⟩
    · rw [hm, hother]
      exact hscript
    · rwa [hself]
    · rwa [hpeer]
  · obtain ⟨hf, -, -, ⟨q, hfatal, rfl⟩, htaken⟩ := hbreaks
    have htakes : (d.machine r.peer).Takes q := by
      rcases htaken q List.mem_cons_self with ⟨e, rfl⟩ | hv
      · exact trivial
      · cases q with
        | result => exact hv
        | error => exact trivial
        | _ => exact hfatal.elim
    refine .broken r (by rw [hm, hf]) (.inr ⟨said, ?_, ?_, fun _ x hx => ?_⟩)
    · rwa [hpeer]
    · rw [hother]
      exact (Machine.isReadyFor_fatal hfatal htakes).mono hsaid
    · cases List.mem_singleton.1 (hsaid.subset hx)
      exact hfatal

/-- Hearing a message leads from one stage to another. -/
theorem Stage.heard (hd : Sound c d) (hw : ∀ r, (d.machine r).MutualFits mutually)
    (hp : Stage mutually inTime d) (hq : d.inbox r = b :: rest)
    (hm : (d.machine r).state.isTerminal = false) (hb : Bears b p)
    (hh : (d.machine r).Hears m p ps) (hs : Says actions ps) :
    Stage mutually inTime ((d.leaving r rest).acted r m actions) := by
  cases hp with
  | silent _ _ hnil =>
    rw [hnil] at hq
    cases hq
  | following s h =>
    obtain ⟨mine, theirs, h⟩ := h.view r
    exact h.heard hd (hw r) hq hb hh hs
  | broken s hf hready =>
    have hrs : r ≠ s := by
      rintro rfl
      exact (Machine.ne_of_running hm).2 hf
    obtain rfl := Role.eq_peer hrs
    -- it is the other machine that hears, and it is ready for the rest
    refine .broken s ?_ ?_
    · rw [machine_acted, if_neg (Role.ne_peer s)]
      exact hf
    · unfold IsReady
      rw [machine_acted, if_pos rfl, inbox_acted_self, inbox_leaving_self]
      exact (hready.of_cons hm hq hb).2.2 m ps hh

/-- Handing a message on does not change the stage. -/
theorem Stage.passedOn (hp : Stage mutually inTime d) (hq : d.inbox r = b :: rest)
    (hm : (d.machine r).state.isTerminal = true)
    (hb : (d.machine r).Becomes m (d.machine r).state) :
    Stage mutually inTime ((d.leaving r rest).acted r m [.passThrough b]) := by
  cases hp with
  | silent _ _ hnil =>
    rw [hnil] at hq
    cases hq
  | following s h =>
    -- in the script nothing waits for a machine that is over
    obtain ⟨mine, theirs, h⟩ := h.view r
    obtain rfl := h.script.eq_nil_of_terminal hm
    rw [h.mine.eq_nil] at hq
    cases hq
  | broken s hf hready =>
    by_cases hrs : r = s
    · subst hrs
      refine .broken r (by rw [machine_acted, if_pos rfl, hb.state, hf]) ?_
      have hin : ((d.leaving r rest).acted r m [.passThrough b]).inbox r.peer = d.inbox r.peer := by
        rw [inbox_acted_peer, inbox_leaving_peer]
        exact List.append_nil _
      unfold IsReady
      rw [hin, machine_acted, if_neg (Role.peer_ne r)]
      exact hready
    · obtain rfl := Role.eq_peer hrs
      refine .broken s ?_ (.inl ?_)
      · rw [machine_acted, if_neg (Role.ne_peer s)]
        exact hf
      · rw [machine_acted, if_pos rfl, hb.state, hm]

/-- Opening the handshake leads onto the script, if nothing has failed. -/
theorem Stage.opened (hd : Sound c d)
    (hp : Stage (c .initiator).mutualAttestation inTime d)
    (hs : (d.machine .initiator).state = .hello) (ho : (d.machine .initiator).hasOpened = false)
    (hb : { d.machine .initiator with
      isMutual := (d.machine .initiator).config.mutualAttestation
      hasOpened := true }.Becomes m .hello)
    (hspoken : Says actions [.hello ⟨Hello.currentVersion, m.isMutual⟩]) :
    Stage (c .initiator).mutualAttestation inTime (d.acted .initiator m actions) := by
  cases hp with
  | silent _ hst hnil =>
    have hmut : m.isMutual = (c .initiator).mutualAttestation := by
      rw [hb.isMutual]
      dsimp only
      rw [hd.config]
      rfl
    rw [hmut] at hspoken
    obtain ⟨said, hsaid, hin⟩ := exists_prefix_bears hspoken fun q hq => by cases hq
    refine .following .initiator ⟨hb.hasOpened, ?_, ⟨[], List.prefix_rfl, ?_⟩, ⟨said, hsaid, ?_⟩⟩
    · rw [machine_acted, if_pos rfl, machine_acted, if_neg (Role.peer_ne _), hb.state, hst]
      exact .opened
    · rw [inbox_acted_self, hnil]
      exact .nil
    · rw [inbox_acted_peer, hnil]
      exact hin
  | following r h => cases ho.symm.trans h.opened
  | broken r hf hready =>
    cases r with
    | initiator => cases hs.symm.trans hf
    | acceptor =>
      have hr : (d.machine .initiator).config.role = .initiator := by rw [hd.config]; rfl
      refine .broken .acceptor hf ?_
      rcases hready with h | ⟨ps, hps, hready, hfatal⟩
      · rw [show (d.machine Role.acceptor.peer).state = _ from hs] at h
        cases h
      · refine .inr ⟨ps, ?_, hready.opened hr hs ho _, hfatal⟩
        exact (inbox_acted_self d .initiator m actions).symm ▸ hps

/-- A time-out breaks off the script. -/
theorem Stage.timedOut (hd : Sound c d)
    (hw : ∀ r, (d.machine r).MutualFits (c .initiator).mutualAttestation)
    (hp : Stage (c .initiator).mutualAttestation false d)
    (hm : (d.machine r).state.isTerminal = false) (hf : m.state = .failed) {e : ErrorReport}
    (hs : Says actions [.error e]) :
    Stage (c .initiator).mutualAttestation false (d.acted r m actions) := by
  obtain ⟨said, hsaid, hin⟩ := exists_prefix_bears hs fun q hq => by cases hq
  have hfailed : ((d.acted r m actions).machine r).state = .failed := by
    rw [machine_acted, if_pos rfl, hf]
  have hother : (d.acted r m actions).machine r.peer = d.machine r.peer := by
    rw [machine_acted, if_neg (Role.peer_ne r)]
  cases hp with
  | silent _ _ hnil =>
    refine .broken r hfailed (.inr ⟨said, ?_, ?_, fun h => by cases h⟩)
    · rw [inbox_acted_peer, hnil]
      exact hin
    · rw [hother]
      exact (Machine.isReadyFor_error _ e []).mono hsaid
  | following s h =>
    -- the report arrives behind what has been on its way before
    obtain ⟨mine, theirs, h⟩ := h.view r.peer
    have hr : (d.machine r.peer).config.role = r.peer := by rw [hd.config]; rfl
    have hc : r.peer = .initiator →
        (d.machine r.peer).config.mutualAttestation = (c .initiator).mutualAttestation := by
      intro h
      rw [h, hd.config]
      rfl
    obtain ⟨ps, hps, hbears⟩ := h.mine
    refine .broken r hfailed (.inr ⟨ps ++ said, ?_, ?_, fun h => by cases h⟩)
    · rw [inbox_acted_peer]
      exact List.rel_append hbears hin
    · rw [hother]
      refine (h.script.isReadyFor hr h.hasOpened hc (hw _) hps e).mono ?_
      exact (List.prefix_append_right_inj ps).2 hsaid
  | broken s hfs hready =>
    have hrs : r ≠ s := by
      rintro rfl
      exact (Machine.ne_of_running hm).2 hfs
    obtain rfl := Role.eq_peer hrs
    refine .broken s ?_ (.inl (by rw [hfailed]; rfl))
    rw [machine_acted, if_neg (Role.ne_peer s)]
    exact hfs

/-- **A move leads from one stage to another**; if no clock is to run out, a look at the clock
changes nothing. -/
theorem Stage.step (hd : Sound c d)
    (hw : ∀ r, (d.machine r).MutualFits (c .initiator).mutualAttestation)
    (hp : Stage (c .initiator).mutualAttestation inTime d) {mv : Move}
    (hmv : inTime = true → mv.isTick = true → d' = d) (h : Step d mv d') :
    Stage (c .initiator).mutualAttestation inTime d' := by
  cases h with
  | idle => exact hp
  | opened hs ho hb hspoken => exact hp.opened hd hs ho hb hspoken
  | heard hq hm hb hh hspoken => exact hp.heard hd hw hq hm hb hh hspoken
  | passedOn hq hm hb => exact hp.passedOn hq hm hb
  | timedOut hm hb _ hspoken he =>
    cases inTime with
    | true =>
      rw [hmv rfl rfl]
      exact hp
    | false =>
      obtain ⟨_, _, -, rfl⟩ := he
      exact hp.timedOut hd hw hm hb.state hspoken

end Dialogue

end AttestedChannel
