import AttestedChannel.Proofs.Handshake.Disclosure
import AttestedChannel.Proofs.Payload.RoundTrip

/-!
# The frames of a handshake

A machine frames whatever it sends under the number that comes next, so the frames of a run are
numbered from zero on (`numbered_run`). There are few of them: `framesLeft` is how many a machine can
still send, and what is sent is taken off that (`length_add_framesLeft_le`). An acceptor starts with
four, its challenge, its verdict, its evidence and its description. An initiator starts with six,
since it may send all of its messages and find after the last one that the handshake fails.
-/

namespace AttestedChannel

/-- The frames that were sent during these moments, in the order in which they were sent. -/
def sentDuring (h : List Moment) : List Frame := h.flatMap fun x => sentBy x.actions

theorem sentDuring_concat (h : List Moment) (x : Moment) :
    sentDuring (h ++ [x]) = sentDuring h ++ sentBy x.actions := by
  rw [sentDuring, List.flatMap_append, List.flatMap_singleton, sentDuring]

/-- The frames carry payloads, under the numbers from `n` on, and `n'` is the number that comes next.
-/
inductive Numbered : UInt32 → UInt32 → List Frame → Prop
  | nil {n : UInt32} : Numbered n n []
  | cons {n n' : UInt32} {fs : List Frame} (p : Payload) (h : Numbered (n + 1) n' fs) :
    Numbered n n' (p.toFrame (.ofType p.messageType n) :: fs)

namespace Numbered

variable {n n' n'' : UInt32} {fs gs : List Frame}

/-- One list of frames goes on where another has stopped. -/
theorem append (h : Numbered n n' fs) (h' : Numbered n' n'' gs) : Numbered n n'' (fs ++ gs) := by
  induction h with
  | nil => exact h'
  | cons p _ ih => exact .cons p (ih h')

/-- As long as the numbers do not wrap around, there are no gaps between them. -/
theorem map_sequence (h : Numbered n n' fs) (hl : n.toNat + fs.length ≤ 2 ^ 32) :
    fs.map (fun f => f.header.sequence.toNat) = List.range' n.toNat fs.length := by
  induction h with
  | nil => rfl
  | @cons n n' fs p _ ih =>
    rw [List.length_cons] at hl
    rw [List.map_cons, List.length_cons, List.range'_succ]
    refine congrArg (n.toNat :: ·) ?_
    cases fs with
    | nil => rfl
    | cons f fs =>
      -- a frame follows, so the next number is not yet zero again
      have hnext : (n + 1).toNat = n.toNat + 1 := by
        rw [List.length_cons] at hl
        rw [UInt32.toNat_add, Nat.mod_eq_of_lt]
        · rfl
        · exact Nat.lt_of_lt_of_le (by simp) hl
      rw [ih (by rw [hnext]; omega), hnext]

/-- Each frame carries a payload. -/
theorem exists_payload (h : Numbered n n' fs) {f : Frame} (hf : f ∈ fs) :
    ∃ p header, f = Payload.toFrame p header := by
  induction h with
  | nil => cases hf
  | cons p _ ih =>
    rcases List.mem_cons.1 hf with rfl | hf
    · exact ⟨p, _, rfl⟩
    · exact ih hf

end Numbered

/-- A frame of a payload below `2 ^ 32` octets says of itself what it is: its type and its size are
those of the payload, and it is read as that. -/
theorem Payload.toFrame_describes (p : Payload) (header : FrameHeader)
    (hl : (p.toFrame header).payload.length < 2 ^ 32) :
    (p.toFrame header).header.known? = some p.messageType ∧
      (p.toFrame header).header.payloadSize.toNat = (p.toFrame header).payload.length ∧
      Payload.decode p.messageType (p.toFrame header).payload = .ok p := by
  have hrange : p.encode.length < Cbor.headRange := Nat.lt_trans hl (by decide)
  refine ⟨p.known?_toFrame header, ?_, decode_encode hrange⟩
  exact UInt32.toNat_ofNat_of_lt' hl

namespace Machine

variable {m m' : Machine} {nonce : Bytes} {service : ServiceRequest → Answer} {e : Event}
  {k : Command}

/-! ## Numbers -/

/-- A failure is reported under the next number, if at all. -/
theorem numbered_fail (m : Machine) (err : HandshakeError) :
    Numbered m.nextSequence (m.fail err).1.nextSequence (sentBy (m.fail err).2) := by
  unfold fail
  dsimp only
  split
  · exact .nil
  · exact .cons _ .nil

theorem numbered_settle_refuse (m : Machine) (e : Event) (err : HandshakeError) :
    Numbered m.nextSequence (settle e (m.refuse err)).machine.nextSequence
      (sentBy (settle e (m.refuse err)).actions) :=
  numbered_fail { m with lastEvent := some e } err

/-- **A transition numbers what it sends**, also if it fails after that. -/
theorem Transition.numbered {req : Option ServiceRequest} {pr : Progress}
    (tr : Transition service nonce m e req pr) :
    Numbered m.nextSequence (settle e pr).machine.nextSequence (sentBy (settle e pr).actions) := by
  cases tr with
  | malformed | peerError | unexpected | unsupported | quoteFailed | rejected =>
    exact numbered_settle_refuse m e _
  | appraisalFailed => exact numbered_settle_refuse (m.appraised _) e _
  | challenged | passedToAcceptor | quoted | acceptedMutually | acceptedOneWay
  | describedToAcceptor => exact .cons _ .nil
  | passedToInitiator => exact .cons _ (.cons _ .nil)
  | acceptedAcceptor | describedToInitiator => exact .nil

/-- **A command numbers what it sends.** -/
theorem numbered_perform (m : Machine) (hk : k.isReset = false) :
    Numbered m.nextSequence (m.perform k).after.nextSequence (sentBy (m.perform k).actions) := by
  cases k with
  | start now =>
    rcases m.start_cases now with ⟨err, h⟩ | ⟨-, h⟩ | ⟨-, -, -, h⟩
    · rw [perform_start_error h]
      exact .nil
    · rw [perform_start_ok h]
      exact .nil
    · rw [perform_start_ok h]
      exact .cons _ .nil
  | feed now nonce service e =>
    show Numbered m.nextSequence ((m.feed now nonce e).run service).machine.nextSequence
      (sentBy ((m.feed now nonce e).run service).actions)
    cases hm : m.state.isTerminal with
    | true =>
      rw [feed_of_terminal hm]
      exact .nil
    | false =>
      obtain ⟨req, pr, tr, hrun⟩ := feed_transition hm now nonce e service
      rw [hrun]
      exact tr.numbered
  | abandon now =>
    show Numbered m.nextSequence (m.abandon now).nextSequence []
    unfold abandon
    split <;> exact .nil
  | tick now =>
    show Numbered m.nextSequence (m.tick now).1.nextSequence (sentBy (m.tick now).2)
    rcases m.tick_cases now with h | ⟨-, elapsed, h⟩
    · rw [h]
      exact .nil
    · rw [h]
      exact m.numbered_fail _
  | reset => cases hk

/-- **The frames of a run are numbered from zero on.** -/
theorem numbered_run (c : Config) (cs : List Command) :
    Numbered 0 ((ofConfig c).run cs).nextSequence
      (sentDuring (sinceReset ((ofConfig c).log cs))) := by
  refine run_induction (motive := fun h m => Numbered 0 m.nextSequence (sentDuring h)) c .nil
    (fun _ _ _ => .nil) (fun h m k hk hi => ?_) cs
  rw [sentDuring_concat]
  exact hi.append (m.numbered_perform hk)

/-! ## How many there are -/

/-- How many frames a machine sends in a handshake at most. -/
def frameLimit : Role → Nat
  | .acceptor => 4
  | .initiator => 6

/-- How many frames the machine can still send, the report of a failure among them. -/
def framesLeft (m : Machine) : Nat :=
  match m.config.role, m.state with
  | .acceptor, .hello => 4
  | .acceptor, .challengeIssued => 3
  | .acceptor, .responseReceived => 2
  | .acceptor, .verdictPending => 1
  | .initiator, .hello => if m.hasOpened then 5 else 6
  | .initiator, .verdictPending => 4
  | .initiator, .challengeIssued => 3
  | .initiator, .responseReceived => 1
  | _, .metadata => 1
  | _, .complete | _, .failed => 0

theorem framesLeft_pos (hm : m.state.isTerminal = false) : 0 < m.framesLeft := by
  unfold framesLeft
  cases hr : m.config.role <;> cases hs : m.state <;> simp_all [HandshakeState.isTerminal]
  split <;> decide

theorem framesLeft_of_failed (hs : m.state = .failed) : m.framesLeft = 0 := by
  unfold framesLeft
  rw [hs]
  cases m.config.role <;> rfl

/-- **What a machine says is taken off what it can still send.** -/
theorem Hears.length_add_framesLeft_le {p : Payload} {ps : List Payload} (h : m.Hears m' p ps)
    (hm : m.state.isTerminal = false) : ps.length + m'.framesLeft ≤ m.framesLeft := by
  have hpos := framesLeft_pos hm
  cases h with
  | refused _ _ hb | unsupported _ _ hb | unquoted _ _ hb | appraisalFailed _ _ hb =>
    rw [framesLeft_of_failed hb.state]
    exact hpos
  | told _ hb =>
    rw [framesLeft_of_failed hb.state]
    exact Nat.zero_le _
  | challenged hr hs hb => simp [framesLeft, hs, hb.state, hb.config, hr]
  | quoted ht hb =>
    rcases ht with ⟨hr, hs⟩ | ⟨hr, hs, ho⟩
    · simp [framesLeft, hs, hb.state, hb.config, hr]
    · simp [framesLeft, hs, hb.state, hb.config, hr, ho]
  | passedToAcceptor hr hs hb =>
    cases hmut : m.isMutual <;> simp [framesLeft, hs, hb.state, hb.config, hr, hmut]
  | passedToInitiator hr hs hb => simp [framesLeft, hs, hb.state, hb.config, hr]
  | acceptedAcceptor _ hr hs hb => simp [framesLeft, hs, hb.state, hb.config, hr]
  | acceptedMutually _ hr hs _ hb => simp [framesLeft, hs, hb.state, hb.config, hr]
  | acceptedOneWay _ hr hs _ hb => simp [framesLeft, hs, hb.state, hb.config, hr]
  | describedToAcceptor hr hs hb => simp [framesLeft, hs, hb.state, hb.config, hr]
  | describedToInitiator hr hs hb => simp [framesLeft, hs, hb.state, hb.config, hr]

/-- **What a command sends is taken off what the machine can still send.** -/
theorem length_add_framesLeft_le (m : Machine) (hk : k.isReset = false) :
    (sentBy (m.perform k).actions).length + (m.perform k).after.framesLeft ≤ m.framesLeft := by
  have hlen : ∀ {actions ps}, Says actions ps → (sentBy actions).length = ps.length :=
    fun ha => (forall₂_sentBy ha).length_eq
  cases m.perform_does k hk with
  | idle hb ha =>
    rw [sentBy_eq_nil ha, List.length_nil, Nat.zero_add]
    refine Nat.le_of_eq ?_
    unfold framesLeft
    rw [hb.state, hb.config, hb.hasOpened]
  | opened hr hs ho hb ha =>
    rw [hlen ha]
    simp [framesLeft, hs, ho, hb.state, hb.hasOpened, hr]
  | heard hm _ hh ha =>
    rw [hlen ha]
    exact hh.length_add_framesLeft_le hm
  | broken hm _ hb ha =>
    rw [hlen ha, framesLeft_of_failed hb.state]
    exact framesLeft_pos hm

/-- **A run sends no more than the limit of its role.** -/
theorem length_sentDuring_run (c : Config) (cs : List Command) :
    (sentDuring (sinceReset ((ofConfig c).log cs))).length + ((ofConfig c).run cs).framesLeft ≤
      frameLimit c.role := by
  have hfresh : ∀ m : Machine, m.state = .hello → m.hasOpened = false →
      m.framesLeft = frameLimit m.config.role := by
    intro m hs ho
    unfold framesLeft
    rw [hs, ho]
    cases m.config.role <;> rfl
  refine (run_induction (motive := fun h m => m.config = c ∧
    (sentDuring h).length + m.framesLeft ≤ frameLimit c.role) c ⟨rfl, ?_⟩
    (fun h m hi => ⟨hi.1, ?_⟩) (fun h m k hk hi => ⟨?_, ?_⟩) cs).2
  · rw [hfresh _ rfl rfl]
    exact Nat.le_of_eq (Nat.zero_add _)
  · rw [hfresh _ rfl rfl, ← hi.1]
    exact Nat.le_of_eq (Nat.zero_add _)
  · rw [perform_config, hi.1]
  · have hstep := m.length_add_framesLeft_le hk
    rw [sentDuring_concat, List.length_append, Nat.add_assoc]
    exact Nat.le_trans (Nat.add_le_add_left hstep _) hi.2

theorem frameLimit_le (r : Role) : frameLimit r ≤ 6 := by cases r <;> decide

end Machine

open Machine

/-- **The frames of a handshake are few, and numbered without gaps.** Whatever is done to a machine,
the frames that it has sent since its last reset are numbered 0, 1, 2 and so on in the order in which
they were sent. They are four at most if it is an acceptor, and six if it is an initiator. Each frame
with less than `2 ^ 32` octets has a type and a size that fit its payload, and the payload is read as
one of that type. -/
theorem outbound_frames_are_numbered (c : Config) (cs : List Command) :
    let fs := sentDuring (sinceReset ((ofConfig c).log cs))
    fs.map (fun f => f.header.sequence.toNat) = List.range fs.length ∧
    fs.length ≤ frameLimit c.role ∧
    ∀ f ∈ fs, f.payload.length < 2 ^ 32 → ∃ p : Payload,
      f.header.known? = some p.messageType ∧
      f.header.payloadSize.toNat = f.payload.length ∧
      Payload.decode p.messageType f.payload = .ok p := by
  intro fs
  have hnum : Numbered 0 _ fs := numbered_run c cs
  have hlen : fs.length ≤ frameLimit c.role :=
    Nat.le_of_add_right_le (length_sentDuring_run c cs)
  refine ⟨?_, hlen, fun f hf hl => ?_⟩
  · rw [List.range_eq_range']
    refine hnum.map_sequence (Nat.le_trans ?_ (show 6 ≤ 2 ^ 32 by decide))
    rw [show (0 : UInt32).toNat = 0 from rfl, Nat.zero_add]
    exact Nat.le_trans hlen (frameLimit_le _)
  · obtain ⟨p, header, rfl⟩ := hnum.exists_payload hf
    exact ⟨p, p.toFrame_describes header hl⟩

/-- An initiator that has passed its peer is sent a second verdict, and then the clock goes on. -/
def plainOvertalk : List Command :=
  plainDisclosure ++ [.feed 4 [] plainService ⟨[], .result ⟨.pass, none⟩, none⟩, .tick 5]

/-- The initiator has sent all that it may send then, and its last frame reports its failure. -/
theorem plainOvertalk_numbered :
    let fs := sentDuring (sinceReset ((ofConfig plainMutual).log plainOvertalk))
    fs.map (fun f => f.header.sequence.toNat) = [0, 1, 2, 3, 4, 5] ∧
    fs.length = frameLimit plainMutual.role ∧
    fs.map (·.header.known?) = [MessageType.hello, .attestationResponse, .attestationChallenge,
      .attestationResult, .metadata, .error].map some ∧
    ∃ f p, fs.getLast? = some f ∧ Payload.decode .error f.payload = .ok p := by
  intro fs
  obtain ⟨hnum, -, hdecodes⟩ := outbound_frames_are_numbered plainMutual plainOvertalk
  have hlen : fs.length = 6 := by decide +kernel
  have htypes : fs.map (·.header.known?) = [MessageType.hello, .attestationResponse,
      .attestationChallenge, .attestationResult, .metadata, .error].map some := by decide +kernel
  have hshort : ∀ f ∈ fs, f.payload.length < 2 ^ 32 := by decide +kernel
  refine ⟨hnum.trans (by rw [hlen]; rfl), hlen, htypes, ?_⟩
  obtain ⟨f, hlast⟩ := Option.isSome_iff_exists.1
    (List.getLast?_isSome.2 (List.ne_nil_of_length_pos (Nat.lt_of_lt_of_eq (by decide) hlen.symm)))
  have herror : f.header.known? = some .error := by
    have h := congrArg List.getLast? htypes
    rw [List.getLast?_map, hlast] at h
    exact Option.some.inj h
  have hf := List.mem_of_getLast? hlast
  obtain ⟨p, htype, -, hread⟩ := hdecodes f hf (hshort f hf)
  rw [← Option.some.inj (herror.symm.trans htype)] at hread
  exact ⟨f, p, hlast, hread⟩

end AttestedChannel
