import AttestedChannel.Proofs.Frame.RoundTrip
import AttestedChannel.Proofs.Handshake.Hearing
import AttestedChannel.Proofs.Payload.Size

/-!
# Events of payloads and events of octets

An event is made of a payload, by framing it, or of inbound octets, by reading them. The first can
only fail for the size of the payload, and what it makes the second makes of the framed octets. The
second never fails. What it keeps of octets that carry a payload is that payload, which need not be
written as it was read: another writer may have chosen other octets for it, and more or fewer of
them. But from then on nothing changes any more. Of octets that carry none the event is marked, so a
machine takes it for a failure of its own and answers it, while it takes a report of a peer with the
very same text for the end of the handshake and keeps silent.
-/

namespace AttestedChannel

namespace Event

variable {b : Bytes} {p : Payload} {e : Event} {f : FrameFault}

/-! ## Events of payloads -/

/-- A payload that fits a frame is framed under the number zero. -/
theorem ofPayload_of_fits (h : p.Fits) :
    ofPayload p =
      .ok ⟨(p.toFrame (.ofType p.messageType 0)).header.encode ++ p.encode, p, none⟩ := by
  rw [ofPayload, Payload.encode_toFrame, if_pos h]

theorem ofPayload_of_not_fits (h : ¬ p.Fits) :
    ofPayload p = .error (.payloadTooLarge p.encode.length FrameHeader.maxPayload) := by
  rw [ofPayload, Payload.encode_toFrame, if_neg h]

/-- **An event that is made of a payload is the event of its octets.** -/
theorem ofBytes_of_ofPayload (h : ofPayload p = .ok e) :
    e.payload = p ∧ e.fault = none ∧ ofBytes e.raw = e := by
  unfold ofPayload at h
  split at h
  · next he =>
    cases h
    exact ⟨rfl, rfl, ofBytes_of_encode he⟩
  · cases h

/-! ## Events of octets -/

theorem raw_ofBytes (b : Bytes) : (ofBytes b).raw = b := by
  unfold ofBytes
  split
  · rfl
  · rfl

/-- The octets are read as a frame, and its payload as one of its type. -/
theorem payloadOf_eq_ok_iff :
    payloadOf b = .ok p ↔ ∃ f, Frame.decode b = .ok f ∧ Payload.ofFrame f = .ok p := by
  unfold payloadOf
  cases Frame.decode b <;> simp

/-- Either is at fault for octets that carry no payload. -/
theorem payloadOf_eq_error_iff :
    payloadOf b = .error f ↔ Frame.decode b = .error f ∨
      ∃ x, Frame.decode b = .ok x ∧ Payload.ofFrame x = .error f := by
  unfold payloadOf
  cases Frame.decode b <;> simp

theorem ofBytes_of_payloadOf (h : payloadOf b = .ok p) : ofBytes b = ⟨b, p, none⟩ := by
  rw [ofBytes, h]

theorem ofBytes_of_error (h : payloadOf b = .error f) :
    ofBytes b = ⟨b, .error ⟨.malformedFrame, f.message⟩, some f⟩ := by
  rw [ofBytes, h]

theorem fault_ofBytes_eq_none_iff : (ofBytes b).fault = none ↔ ∃ p, payloadOf b = .ok p := by
  cases h : payloadOf b with
  | ok p => simp [ofBytes_of_payloadOf h]
  | error f => simp [ofBytes_of_error h]

theorem fault_ofBytes_eq_some_iff : (ofBytes b).fault = some f ↔ payloadOf b = .error f := by
  cases h : payloadOf b with
  | ok p => simp [ofBytes_of_payloadOf h]
  | error f => simp [ofBytes_of_error h]

end Event

namespace Machine

variable {m : Machine} {e : Event} {f : FrameFault}

/-! ## What a machine makes of them -/

/-- Octets without a payload fail a running machine by a failure of its own, which it reports. -/
theorem feed_of_fault (hm : m.state.isTerminal = false) (hf : e.fault = some f) (now : Instant)
    (nonce : Bytes) :
    ∃ t, m.feed now nonce e = .finished t ∧ t.machine.state = .failed ∧ t.usedNonce = false ∧
      Says t.actions
        [.error ⟨.malformedFrame, (HandshakeError.malformedFrame f).message⟩] := by
  refine ⟨settle e ((m.noteStart now).refuse (.malformedFrame f)), ?_, state_settle_refuse _ e _,
    ?_, says_settle_refuse (reply_of_code rfl)⟩
  · simp only [feed, hm, Bool.false_eq_true, if_false, transition, hf]
    rfl
  · unfold settle refuse
    rfl

/-- A report of the peer fails a running machine, too, but is not answered. -/
theorem feed_of_report (hm : m.state.isTerminal = false) {r : ErrorReport}
    (he : e.Carries (.error r)) (now : Instant) (nonce : Bytes) :
    ∃ t, m.feed now nonce e = .finished t ∧ t.machine.state = .failed ∧ t.usedNonce = false ∧
      t.actions = [] := by
  refine ⟨settle e ((m.noteStart now).refuse (.peerError r.code r.message)), ?_,
    state_settle_refuse _ e _, ?_, ?_⟩
  · simp only [feed, hm, Bool.false_eq_true, if_false, transition, he.1, he.2]
    rfl
  · unfold settle refuse
    rfl
  · rw [actions_settle_refuse]
    rfl

end Machine

namespace Event

/-- A machine that is given the event fails by a fault of its octets: it reports that fault, asks
for nothing and draws no nonce. After the handshake the octets are handed on. -/
structure IsLocalFailure (e : Event) (f : FrameFault) : Prop where
  running : ∀ (m : Machine) (now : Instant) (nonce : Bytes), m.state.isTerminal = false →
    ∃ t, m.feed now nonce e = .finished t ∧ t.machine.state = .failed ∧ t.usedNonce = false ∧
      Says t.actions [.error ⟨.malformedFrame, (HandshakeError.malformedFrame f).message⟩]
  terminal : ∀ (m : Machine) (now : Instant) (nonce : Bytes), m.state.isTerminal = true →
    m.feed now nonce e =
      .finished ⟨{ m with lastEvent := some e }, [.passThrough e.raw], false⟩

/-- A machine that is given the event fails because its peer has, and keeps silent. -/
def IsPeerFailure (e : Event) : Prop :=
  ∀ (m : Machine) (now : Instant) (nonce : Bytes), m.state.isTerminal = false →
    ∃ t, m.feed now nonce e = .finished t ∧ t.machine.state = .failed ∧ t.usedNonce = false ∧
      t.actions = []

/-- **The two ways to make an event agree.** An event is made of a payload exactly if that fits a
frame, the fault being its size otherwise, and it is the event of its octets. The event of octets
keeps them. It has no fault exactly if the octets are read as a frame and that as a payload, which
is the event's; if the payload fits, its event has the same type and payload, and making an event
once more of what that one's octets carry gives the same octets. Otherwise the event shows the
malformed frame in the words of its fault, and a machine takes it for a failure of its own, not for
the same report of a peer. -/
theorem constructions_agree :
    (∀ p : Payload,
      ((∃ f, ofPayload p = .error f) ↔ FrameHeader.maxPayload < p.encode.length) ∧
      (∀ f, ofPayload p = .error f →
        f = .payloadTooLarge p.encode.length FrameHeader.maxPayload) ∧
      ∀ e, ofPayload p = .ok e →
        e.messageType = p.messageType ∧ e.payload = p ∧ e.fault = none ∧ ofBytes e.raw = e) ∧
    ∀ b : Bytes, (ofBytes b).raw = b ∧
      ((ofBytes b).fault = none ↔
        ∃ f p, Frame.decode b = .ok f ∧ Payload.ofFrame f = .ok p) ∧
      (∀ f p, Frame.decode b = .ok f → Payload.ofFrame f = .ok p →
        (ofBytes b).payload = p ∧ (ofBytes b).messageType = p.messageType ∧
        (p.Fits → ∃ e, ofPayload p = .ok e ∧ e.messageType = (ofBytes b).messageType ∧
          e.payload = (ofBytes b).payload ∧ ofPayload (ofBytes e.raw).payload = .ok e)) ∧
      ∀ f, (ofBytes b).fault = some f →
        (Frame.decode b = .error f ∨
          ∃ x, Frame.decode b = .ok x ∧ Payload.ofFrame x = .error f) ∧
        (ofBytes b).messageType = .error ∧
        (ofBytes b).payload = .error ⟨.malformedFrame, f.message⟩ ∧
        (ofBytes b).IsLocalFailure f ∧
        ∀ e : Event, e.Carries (.error ⟨.malformedFrame, f.message⟩) → e.IsPeerFailure := by
  refine ⟨fun p => ?_, fun b => ⟨raw_ofBytes b, ?_, fun f p hf hp => ?_, fun f hf => ?_⟩⟩
  · refine ⟨?_, fun f hf => ?_, fun e he => ?_⟩
    · by_cases hp : p.Fits
      · simp [ofPayload_of_fits hp, Nat.not_lt.2 hp]
      · simp [ofPayload_of_not_fits hp, Nat.lt_of_not_le hp]
    · by_cases hp : p.Fits
      · rw [ofPayload_of_fits hp] at hf
        cases hf
      · rw [ofPayload_of_not_fits hp] at hf
        cases hf
        rfl
    · obtain ⟨hpay, hfault, hbytes⟩ := ofBytes_of_ofPayload he
      exact ⟨by rw [messageType, hpay], hpay, hfault, hbytes⟩
  · rw [fault_ofBytes_eq_none_iff]
    simp only [payloadOf_eq_ok_iff]
    exact exists_comm
  · have hb := ofBytes_of_payloadOf (payloadOf_eq_ok_iff.2 ⟨f, hf, hp⟩)
    rw [hb]
    refine ⟨rfl, rfl, fun hfits => ⟨_, ofPayload_of_fits hfits, rfl, rfl, ?_⟩⟩
    -- what has been framed is read back as it was framed
    obtain ⟨-, -, hread⟩ := ofBytes_of_ofPayload (ofPayload_of_fits hfits)
    rw [hread]
    exact ofPayload_of_fits hfits
  · have hb := fault_ofBytes_eq_some_iff.1 hf
    refine ⟨payloadOf_eq_error_iff.1 hb, ?_, ?_, ?_, fun e he m now nonce hm =>
      Machine.feed_of_report hm he now nonce⟩
    · rw [ofBytes_of_error hb]
      rfl
    · rw [ofBytes_of_error hb]
    · exact ⟨fun m now nonce hm => Machine.feed_of_fault hm hf now nonce,
        fun m now nonce hm => Machine.feed_of_terminal hm now nonce _⟩

/-- The frame of a Hello whose fields are in the other order, in a map without a length. -/
def unusualHello : Bytes :=
  FrameHeader.encode ⟨7, 1, 9, 32⟩ ++
    [0xbf, 0x72] ++ Text.Utf8.encode "mutual_attestation" ++ [0xf5] ++
    [0x67] ++ Text.Utf8.encode "version" ++ [0x18, 0x01, 0xff]

/-- It is read as a Hello, which is written in other octets, and those are read as the same Hello;
no octets at all are a failure of whoever gets them. -/
theorem unusualHello_rebuilt :
    let p := Payload.hello ⟨1, true⟩
    (∃ f, Frame.decode unusualHello = .ok f ∧ Payload.ofFrame f = .ok p) ∧ p.Fits ∧
      (∃ e, ofPayload p = .ok e ∧ e.payload = (ofBytes unusualHello).payload ∧
        e.raw ≠ unusualHello ∧ ofPayload (ofBytes e.raw).payload = .ok e) ∧
      (ofBytes []).fault = some (.frameTooShort 16 0) ∧
      (ofBytes []).IsLocalFailure (.frameTooShort 16 0) := by
  intro p
  obtain ⟨f, hf, hp⟩ : ∃ f, Frame.decode unusualHello = .ok f ∧ Payload.ofFrame f = .ok p :=
    ⟨⟨⟨7, 1, 9, 32⟩, unusualHello.drop 16⟩, by decide +kernel, by decide +kernel⟩
  have hfits : p.Fits := by decide +kernel
  have hshort : (ofBytes []).fault = some (.frameTooShort 16 0) := by decide +kernel
  obtain ⟨-, hbytes⟩ := constructions_agree
  obtain ⟨-, -, hread, -⟩ := hbytes unusualHello
  obtain ⟨-, -, -, hfault⟩ := hbytes []
  obtain ⟨e, he, -, hpay, hagain⟩ := (hread f p hf hp).2.2 hfits
  refine ⟨⟨f, hf, hp⟩, hfits, ⟨e, he, hpay, ?_, hagain⟩, hshort, (hfault _ hshort).2.2.2.1⟩
  -- the writer uses a map of two entries and thirty octets
  rw [ofPayload_of_fits hfits] at he
  cases he
  decide +kernel

end Event
end AttestedChannel
