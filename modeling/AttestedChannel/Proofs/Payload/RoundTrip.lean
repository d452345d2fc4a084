import AttestedChannel.Payload
import AttestedChannel.Proofs.Cbor.Records
import AttestedChannel.Proofs.Payload.Size

/-!
# Reading back payloads

Every message is read back by the reader of its type and by no proper front of its octets, and so is
the frame of a payload. A payload has to be shorter than `2 ^ 32` octets: the size field of a header
holds no more.
-/

namespace AttestedChannel

open Cbor

/-! ## Terms -/

theorem AttestationType.reads_write (depth : Nat) (t : AttestationType) :
    Reads (AttestationType.reader (depth + 1)) t.write t := by
  have hv : variants.find? (fun w => Text.Utf8.encode w.1 == Text.Utf8.encode t.name) =
      some (t.name, t) := by cases t <;> rfl
  exact reads_variant (v := (t.name, t)) (by cases t <;> decide) hv

theorem Verdict.reads_write (depth : Nat) (v : Verdict) :
    Reads (Verdict.reader (depth + 1)) v.write v := by
  have hv : variants.find? (fun w => Text.Utf8.encode w.1 == Text.Utf8.encode v.name) =
      some (v.name, v) := by cases v <;> rfl
  exact reads_variant (v := (v.name, v)) (by cases v <;> decide) hv

theorem PropertyMask.reads_write (m : PropertyMask) : Reads reader m.write m :=
  (reads_uint32 m.bits).map PropertyMask.mk

theorem ErrorCode.reads_write (c : ErrorCode) : Reads reader c.write c :=
  reads_code (by cases c <;> decide) (ofCode?_code c)

/-! ## Messages -/

theorem Hello.reads_encode (depth : Nat) (m : Hello) :
    Reads (Hello.reader (depth + 1)) m.encode m :=
  reads_record ⟨some m.version, some m.mutualAttestation⟩ (by simp [headRange])
    (.cons (reads_field "version" rfl (by decide) rfl (reads_uint8 m.version))
      (.cons (reads_field "mutual_attestation" rfl (by decide) rfl
        (reads_boolean m.mutualAttestation)) (.nil _))) rfl

theorem Challenge.reads_encode (depth : Nat) {m : Challenge} (hm : m.encode.length < headRange) :
    Reads (Challenge.reader (depth + 2)) m.encode m := by
  have hn := length_of_octets_lt
    (length_of_record_lt "nonce" hm (w := Write.octets m.nonce) (by simp))
  exact reads_record ⟨some m.nonce, some m.attestationType, some m.propertyMask⟩
    (by simp [headRange])
    (.cons (reads_field "nonce" rfl (by decide) rfl (reads_octets hn))
      (.cons (reads_field "attestation_type" rfl (by decide) rfl
        (m.attestationType.reads_write depth))
        (.cons (reads_field "property_mask" rfl (by decide) rfl m.propertyMask.reads_write)
          (.nil _)))) rfl

theorem Response.reads_encode (depth : Nat) {m : Response} (hm : m.encode.length < headRange) :
    Reads (Response.reader (depth + 2)) m.encode m := by
  have hn := length_of_octets_lt
    (length_of_record_lt "nonce" hm (w := Write.octets m.nonce) (by simp))
  have he := length_of_octets_lt
    (length_of_record_lt "evidence" hm (w := Write.octets m.evidence) (by simp))
  exact reads_record ⟨some m.nonce, some m.evidence⟩ (by simp [headRange])
    (.cons (reads_field "nonce" rfl (by decide) rfl (reads_octets hn))
      (.cons (reads_field "evidence" rfl (by decide) rfl (reads_octets he)) (.nil _))) rfl

/-- The reason is left out where it is absent. -/
theorem ResultReport.reads_encode (depth : Nat) {m : ResultReport}
    (hm : m.encode.length < headRange) : Reads (ResultReport.reader (depth + 2)) m.encode m := by
  obtain ⟨v, reason⟩ := m
  have hs : ∀ s, reason = some s → Reads text (Write.text s) s := by
    rintro s rfl
    exact reads_text (length_of_text_lt (length_of_record_lt "reason" hm (w := Write.text s)
      (by simp [Write.entry?])))
  exact reads_record ⟨some v, reason.map some⟩ (by cases reason <;> simp [headRange, Write.entry?])
    (.cons (reads_field "verdict" rfl (by decide) rfl (v.reads_write depth))
      (fills_optional (r := fun _ => text) "reason" rfl (by decide) rfl (by cases reason <;> rfl) hs))
    (by cases reason <;> rfl)

theorem SelfDescription.reads_encode (depth : Nat) {m : SelfDescription}
    (hm : m.encode.length < headRange) :
    Reads (SelfDescription.reader (depth + 1)) m.encode m := by
  have hd := length_of_text_lt (length_of_record_lt "document" hm (w := Write.text m.document)
    (by simp))
  exact reads_record ⟨some m.document⟩ (by simp [headRange])
    (.cons (reads_field "document" rfl (by decide) rfl (reads_text hd)) (.nil _)) rfl

theorem ErrorReport.reads_encode (depth : Nat) {m : ErrorReport}
    (hm : m.encode.length < headRange) : Reads (ErrorReport.reader (depth + 1)) m.encode m := by
  have hs := length_of_text_lt (length_of_record_lt "message" hm (w := Write.text m.message)
    (by simp))
  exact reads_record ⟨some m.code, some m.message⟩ (by simp [headRange])
    (.cons (reads_field "code" rfl (by decide) rfl m.code.reads_write)
      (.cons (reads_field "message" rfl (by decide) rfl (reads_text hs)) (.nil _))) rfl

/-! ## Payloads -/

namespace Payload

variable {α : Type} {r : Nat → Reader α} {wrap : α → Payload} {w : Bytes} {a : α}

/-- A message is read back whatever follows it. -/
theorem decodeAs_append (hr : Reads (r maxDepth) w a) (x : Bytes) :
    decodeAs r wrap (w ++ x) = .ok (wrap a) := by
  simp only [decodeAs, hr.decode_append x]

/-- A message of which octets are missing is not read. -/
theorem decodeAs_of_prefix (hr : Reads (r maxDepth) w a) {q : Bytes} (hq : q <+: w) (hne : q ≠ w) :
    decodeAs r wrap q = .error (.decode Failure.endOfInput.text) := by
  have hl : q.length < w.length :=
    Nat.lt_of_le_of_ne hq.length_le fun h => hne (hq.eq_of_length h)
  have h := hr.run.cut q 0 hq hl
  simp only [decodeAs, Cbor.decode, Cursor.ofBytes, h]

/-- The octets of a structured message are read as that message and by no proper front. -/
theorem decode_structured {p : Payload} (hl : p.encode.length < headRange)
    (hp : p.messageType ≠ .raw) :
    (∀ x, decode p.messageType (p.encode ++ x) = .ok p) ∧
      ∀ q, q <+: p.encode → q ≠ p.encode →
        decode p.messageType q = .error (.decode Failure.endOfInput.text) := by
  cases p with
  | hello m =>
    have hr := m.reads_encode 255
    exact ⟨decodeAs_append hr, fun q => decodeAs_of_prefix hr⟩
  | challenge m =>
    have hr := Challenge.reads_encode 254 hl
    exact ⟨decodeAs_append hr, fun q => decodeAs_of_prefix hr⟩
  | response m =>
    have hr := Response.reads_encode 254 hl
    exact ⟨decodeAs_append hr, fun q => decodeAs_of_prefix hr⟩
  | result m =>
    have hr := ResultReport.reads_encode 254 hl
    exact ⟨decodeAs_append hr, fun q => decodeAs_of_prefix hr⟩
  | metadata m =>
    have hr := SelfDescription.reads_encode 255 hl
    exact ⟨decodeAs_append hr, fun q => decodeAs_of_prefix hr⟩
  | raw b => exact absurd rfl hp
  | error m =>
    have hr := ErrorReport.reads_encode 255 hl
    exact ⟨decodeAs_append hr, fun q => decodeAs_of_prefix hr⟩

/-- The octets of any payload are read back by its type. -/
theorem decode_encode {p : Payload} (hl : p.encode.length < headRange) :
    decode p.messageType p.encode = .ok p := by
  by_cases hp : p.messageType = .raw
  · cases p with
    | raw b => rfl
    | _ => cases hp
  · have h := (decode_structured hl hp).1 []
    rwa [List.append_nil] at h

/-- The frame of a payload is known by its type. -/
theorem known?_toFrame (p : Payload) (h : FrameHeader) :
    (p.toFrame h).header.known? = some p.messageType :=
  MessageType.ofCode?_code p.messageType

theorem ofFrame_toFrame {p : Payload} (hl : p.encode.length < headRange) (h : FrameHeader) :
    ofFrame (p.toFrame h) = .ok p := by
  simp only [ofFrame, known?_toFrame]
  exact decode_encode hl

/-- **Payloads are read back.** In a frame a payload below `2 ^ 32` octets has its type and its
length in the header, whose other fields are those given, and it is what the frame carries. A
structured message is read from its octets whatever follows them, and never from a proper front. The
length of octets in memory is below `2 ^ 64`. -/
theorem round_trip (p : Payload) (hl : p.encode.length < 0x10000000000000000) :
    (p.encode.length < 0x100000000 → ∀ h : FrameHeader,
      (p.toFrame h).header =
        { h with
          messageType := p.messageType.code
          payloadSize := UInt32.ofNat p.encode.length } ∧
      (p.toFrame h).header.payloadSize.toNat = p.encode.length ∧
      (p.toFrame h).payload = p.encode ∧
      ofFrame (p.toFrame h) = .ok p) ∧
    (p.messageType ≠ .raw →
      (∀ x, decode p.messageType (p.encode ++ x) = .ok p) ∧
      ∀ q, q <+: p.encode → q ≠ p.encode →
        decode p.messageType q = .error (.decode Failure.endOfInput.text)) := by
  refine ⟨fun h32 h => ⟨rfl, ?_, rfl, ofFrame_toFrame hl h⟩, fun hp => ?_⟩
  · exact Nat.mod_eq_of_lt h32
  · exact decode_structured hl hp

/-- A document of 4200 octets: its characters have three octets each, and one of them lies across
the end of the first chunk. -/
def longDocument : SelfDescription := ⟨String.ofList (List.replicate 1400 (Char.ofNat 0x20AC))⟩

/-- A text that does not fit one chunk is read back, too. -/
theorem longDocument_round_trip :
    longDocument.encode.length < 0x100000000 ∧
      ofFrame ((metadata longDocument).toFrame (.ofType .hello 7)) = .ok (.metadata longDocument) ∧
      decode .metadata (longDocument.encode ++ longDocument.encode) =
        .ok (.metadata longDocument) ∧
      decode .metadata longDocument.encode.dropLast =
        .error (.decode Failure.endOfInput.text) := by
  have hd : (Text.Utf8.encode longDocument.document).length = 4200 :=
    Text.Utf8.length_encode_replicate 1400 _
  have hl := longDocument.length_encode
  rw [hd, show Head.argumentWidth 4200 = 3 from rfl] at hl
  have h := round_trip (.metadata longDocument) (show longDocument.encode.length < _ by omega)
  obtain ⟨-, -, -, hframe⟩ := h.1 (show longDocument.encode.length < _ by omega) (.ofType .hello 7)
  obtain ⟨hwhole, hcut⟩ := h.2 (by decide)
  refine ⟨by omega, hframe, hwhole _, hcut _ (List.dropLast_prefix _) fun he => ?_⟩
  have hne := congrArg List.length he
  rw [List.length_dropLast, show encode (.metadata longDocument) = longDocument.encode from rfl]
    at hne
  omega

end Payload

end AttestedChannel
