import AttestedChannel.Event
import AttestedChannel.Proofs.Cbor.Brevity
import AttestedChannel.Proofs.Frame.Format

/-!
# Faults take few words

Every reader of a message is tidy, so whatever octets a peer sends, the fault that is found in them
takes few words (`FrameFault.isShort_of_payloadOf`).
-/

namespace AttestedChannel

open Cbor
open FrameHeader (announced announced_lt size)

/-! ## Readers -/

theorem AttestationType.reader_isTidy (depth : Nat) : Reader.IsTidy (reader depth) :=
  variant_isTidy (by decide) depth

theorem Verdict.reader_isTidy (depth : Nat) : Reader.IsTidy (reader depth) :=
  variant_isTidy (by decide) depth

theorem PropertyMask.reader_isTidy : Reader.IsTidy reader := uint32_isTidy.map _

theorem ErrorCode.reader_isTidy : Reader.IsTidy reader := code_isTidy (by decide)

theorem Hello.reader_isTidy (depth : Nat) : Reader.IsTidy (reader depth) := by
  refine record_isTidy ?_ _ ?_ depth
  · simp only [fields, List.forall_mem_cons]
    exact ⟨field_isTidy (by decide) fun _ => uint8_isTidy,
      field_isTidy (by decide) fun _ => boolean_isTidy, by simp⟩
  · intro d f h
    refine isShort_of_bind h (isShort_of_required (by decide)) fun _ h => ?_
    refine isShort_of_bind h (isShort_of_required (by decide)) fun _ h => ?_
    cases h

theorem Challenge.reader_isTidy (depth : Nat) : Reader.IsTidy (reader depth) := by
  refine record_isTidy ?_ _ ?_ depth
  · simp only [fields, List.forall_mem_cons]
    exact ⟨field_isTidy (by decide) octets_isTidy,
      field_isTidy (by decide) AttestationType.reader_isTidy,
      field_isTidy (by decide) fun _ => PropertyMask.reader_isTidy, by simp⟩
  · intro d f h
    refine isShort_of_bind h (isShort_of_required (by decide)) fun _ h => ?_
    refine isShort_of_bind h (isShort_of_required (by decide)) fun _ h => ?_
    refine isShort_of_bind h (isShort_of_required (by decide)) fun _ h => ?_
    cases h

theorem Response.reader_isTidy (depth : Nat) : Reader.IsTidy (reader depth) := by
  refine record_isTidy ?_ _ ?_ depth
  · simp only [fields, List.forall_mem_cons]
    exact ⟨field_isTidy (by decide) octets_isTidy, field_isTidy (by decide) octets_isTidy, by simp⟩
  · intro d f h
    refine isShort_of_bind h (isShort_of_required (by decide)) fun _ h => ?_
    refine isShort_of_bind h (isShort_of_required (by decide)) fun _ h => ?_
    cases h

theorem ResultReport.reader_isTidy (depth : Nat) : Reader.IsTidy (reader depth) := by
  refine record_isTidy ?_ _ ?_ depth
  · simp only [fields, List.forall_mem_cons]
    exact ⟨field_isTidy (by decide) Verdict.reader_isTidy,
      field_isTidy (by decide) fun _ => optional_isTidy text_isTidy, by simp⟩
  · intro d f h
    refine isShort_of_bind h (isShort_of_required (by decide)) fun _ h => ?_
    cases h

theorem SelfDescription.reader_isTidy (depth : Nat) : Reader.IsTidy (reader depth) := by
  refine record_isTidy ?_ _ ?_ depth
  · simp only [fields, List.forall_mem_cons]
    exact ⟨field_isTidy (by decide) fun _ => text_isTidy, by simp⟩
  · intro d f h
    refine isShort_of_bind h (isShort_of_required (by decide)) fun _ h => ?_
    cases h

theorem ErrorReport.reader_isTidy (depth : Nat) : Reader.IsTidy (reader depth) := by
  refine record_isTidy ?_ _ ?_ depth
  · simp only [fields, List.forall_mem_cons]
    exact ⟨field_isTidy (by decide) fun _ => ErrorCode.reader_isTidy,
      field_isTidy (by decide) fun _ => text_isTidy, by simp⟩
  · intro d f h
    refine isShort_of_bind h (isShort_of_required (by decide)) fun _ h => ?_
    refine isShort_of_bind h (isShort_of_required (by decide)) fun _ h => ?_
    cases h

/-! ## Faults -/

/-- The fault takes few words. -/
def FrameFault.IsShort (f : FrameFault) : Prop := f.message.length ≤ 51100

namespace FrameFault

theorem numbers_isShort {a b : Nat} (ha : a < headRange) (hb : b < headRange) :
    (frameTooShort a b).IsShort ∧ (payloadTooLarge a b).IsShort ∧ (frameTruncated a b).IsShort := by
  have h₁ := length_toString_le_of_lt ha
  have h₂ := length_toString_le_of_lt hb
  refine ⟨?_, ?_, ?_⟩
  all_goals
    unfold IsShort message
    simp only [String.length_append, show "frame too short: expected at least ".length = 35 by decide,
      show " bytes, got ".length = 12 by decide, show "payload too large: ".length = 19 by decide,
      show " bytes exceeds maximum ".length = 23 by decide,
      show "frame truncated: header claims ".length = 31 by decide,
      show " payload bytes, but only ".length = 25 by decide,
      show " available".length = 10 by decide]
    omega

theorem invalidMagic_isShort : invalidMagic.IsShort := by
  unfold IsShort
  decide

theorem unsupportedVersion_isShort (v : UInt8) : (unsupportedVersion v).IsShort := by
  have h := length_toString_le_of_lt (Nat.lt_trans v.toNat_lt (by decide))
  unfold IsShort message
  simp only [String.length_append, show "unsupported wire version: ".length = 26 by decide]
  omega

theorem invalidMessageType_isShort (code : UInt16) : (invalidMessageType code).IsShort := by
  have h := Text.Hex.length_padded 4 code.toNat
  have hw := Text.Hex.width_le (k := 3) (n := code.toNat) (by exact code.toNat_lt)
  unfold IsShort message
  simp only [String.length_append, show "invalid message type: 0x".length = 24 by decide]
  omega

theorem decode_isShort {f : Failure} (h : f.IsShort) : (decode f.text).IsShort := by
  unfold Failure.IsShort at h
  unfold IsShort message
  simp only [String.length_append, show "failed to decode CBOR: ".length = 23 by decide]
  omega

/-- What is wrong with a frame is told in numbers. -/
theorem isShort_of_fails {b : Bytes} {f : FrameFault} (h : Frame.Fails b f) : f.IsShort := by
  have hn : size ≤ b.length → announced b < headRange := fun hl =>
    Nat.lt_trans (announced_lt hl) (by decide)
  cases h with
  | short hl => exact (numbers_isShort (by decide) (Nat.lt_trans hl (by decide))).1
  | magic => exact invalidMagic_isShort
  | version => exact unsupportedVersion_isShort _
  | large hl => exact (numbers_isShort (hn hl) (by decide)).2.1
  | truncated hl _ _ _ hp =>
    have hb : b.length - size < headRange := Nat.lt_trans (by omega) (hn hl)
    exact (numbers_isShort (hn hl) hb).2.2

theorem isShort_of_decodeAs {α : Type} {r : Nat → Reader α} (hr : (r maxDepth).IsTidy)
    {wrap : α → Payload} {b : Bytes} (hb : b.length < headRange) {f : FrameFault}
    (h : Payload.decodeAs r wrap b = .error f) : f.IsShort := by
  unfold Payload.decodeAs at h
  split at h
  · next e he =>
    cases h
    exact decode_isShort (isShort_of_decode hr hb he)
  · cases h

theorem isShort_of_decode {t : MessageType} {b : Bytes} (hb : b.length < headRange) {f : FrameFault}
    (h : Payload.decode t b = .error f) : f.IsShort := by
  cases t with
  | hello => exact isShort_of_decodeAs (Hello.reader_isTidy _) hb h
  | attestationChallenge => exact isShort_of_decodeAs (Challenge.reader_isTidy _) hb h
  | attestationResponse => exact isShort_of_decodeAs (Response.reader_isTidy _) hb h
  | attestationResult => exact isShort_of_decodeAs (ResultReport.reader_isTidy _) hb h
  | metadata => exact isShort_of_decodeAs (SelfDescription.reader_isTidy _) hb h
  | raw => cases h
  | error => exact isShort_of_decodeAs (ErrorReport.reader_isTidy _) hb h

/-- The payload of a frame is no longer than a header can say. -/
theorem length_of_decode {b : Bytes} {f : Frame} (h : Frame.decode b = .ok f) :
    f.payload.length < headRange := by
  rcases Frame.decode_cases b with ⟨e, he, -⟩ | ⟨g, hg, -, hsize, -⟩
  · cases h.symm.trans he
  · cases h.symm.trans hg
    rw [← hsize]
    exact Nat.lt_trans f.header.payloadSize.toNat_lt (by decide)

/-- **Whatever octets come in, their fault takes few words.** -/
theorem isShort_of_payloadOf {b : Bytes} {f : FrameFault} (h : Event.payloadOf b = .error f) :
    f.IsShort := by
  unfold Event.payloadOf at h
  split at h
  · next e he =>
    cases h
    rcases Frame.decode_cases b with ⟨e', he', hfails⟩ | ⟨g, hg, -⟩
    · cases he.symm.trans he'
      exact isShort_of_fails hfails
    · cases he.symm.trans hg
  · next frame hframe =>
    unfold Payload.ofFrame at h
    split at h
    · cases h
      exact invalidMessageType_isShort _
    · exact isShort_of_decode (length_of_decode hframe) h

end FrameFault

end AttestedChannel
