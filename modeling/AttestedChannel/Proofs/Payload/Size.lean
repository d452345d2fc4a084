import AttestedChannel.Attestation.Appraisal
import AttestedChannel.Payload
import AttestedChannel.Proofs.Text.Length

/-!
# How large payloads get

A frame takes a payload of up to `FrameHeader.maxPayload` octets (`Payload.Fits`). The messages of
the handshake are small, apart from what they carry: the octets of a nonce and of evidence, and the
texts of a self-description and of an error.
-/

namespace AttestedChannel

open Cbor

/-! ## Items -/

theorem Cbor.Head.argumentWidth_le (n : Nat) : argumentWidth n ≤ 9 := by
  unfold argumentWidth
  repeat' split
  all_goals decide

namespace Cbor.Write

theorem length_unsigned_le (n : Nat) : (unsigned n).length ≤ 9 := by
  rw [unsigned, Head.length_write]
  exact Head.argumentWidth_le n

theorem length_text_le (s : String) : (text s).length ≤ 9 + 4 * s.length := by
  have hw := Head.argumentWidth_le (Text.Utf8.encode s).length
  have hs := Text.Utf8.length_encode_le s
  rw [text, List.length_append, Head.length_write]
  omega

/-- As an array of numbers no octet takes more than two. -/
theorem length_octets_le (b : Bytes) : (octets b).length ≤ 9 + 2 * b.length := by
  have hw := Head.argumentWidth_le b.length
  have hb : (b.flatMap fun x => unsigned x.toNat).length ≤ 2 * b.length := by
    induction b with
    | nil => simp
    | cons x b ih =>
      have hx : (unsigned x.toNat).length ≤ 2 := by
        have hlt := x.toNat_lt
        rw [unsigned, Head.length_write]
        unfold Head.argumentWidth
        repeat' split
        all_goals omega
      rw [List.flatMap_cons, List.length_append, List.length_cons]
      have := ih (Head.argumentWidth_le b.length)
      omega
  rw [octets, List.length_append, Head.length_write]
  omega

/-- The names of a record come on top of its values. -/
theorem length_record_le (entries : List (String × Bytes)) :
    (record entries).length ≤
      9 + (entries.map fun e => 9 + 4 * e.1.length + e.2.length).sum := by
  have hw := Head.argumentWidth_le entries.length
  have he : (entries.flatMap fun e => text e.1 ++ e.2).length ≤
      (entries.map fun e => 9 + 4 * e.1.length + e.2.length).sum := by
    induction entries with
    | nil => simp
    | cons e entries ih =>
      have ht := length_text_le e.1
      have := ih (Head.argumentWidth_le entries.length)
      simp only [List.flatMap_cons, List.length_append, List.map_cons, List.sum_cons]
      omega
  rw [record, List.length_append, Head.length_write]
  omega

end Cbor.Write

/-! ## Messages -/

theorem Hello.length_encode_le (m : Hello) : m.encode.length ≤ 200 := by
  have hv := Write.length_unsigned_le m.version.toNat
  refine Nat.le_trans (Write.length_record_le _) ?_
  simp only [List.map_cons, List.map_nil, List.sum_cons, List.sum_nil, Write.boolean,
    List.length_singleton, show "version".length = 7 by decide,
    show "mutual_attestation".length = 18 by decide]
  omega

theorem Challenge.length_encode_le (m : Challenge) :
    m.encode.length ≤ 300 + 2 * m.nonce.length := by
  have hn := Write.length_octets_le m.nonce
  have ht : m.attestationType.write.length ≤ 9 := by cases m.attestationType <;> decide
  have hm : m.propertyMask.write.length ≤ 9 := Write.length_unsigned_le _
  refine Nat.le_trans (Write.length_record_le _) ?_
  simp only [List.map_cons, List.map_nil, List.sum_cons, List.sum_nil,
    show "nonce".length = 5 by decide, show "attestation_type".length = 16 by decide,
    show "property_mask".length = 13 by decide]
  omega

theorem Response.length_encode_le (m : Response) :
    m.encode.length ≤ 100 + 2 * (m.nonce.length + m.evidence.length) := by
  have hn := Write.length_octets_le m.nonce
  have he := Write.length_octets_le m.evidence
  refine Nat.le_trans (Write.length_record_le _) ?_
  simp only [List.map_cons, List.map_nil, List.sum_cons, List.sum_nil,
    show "nonce".length = 5 by decide, show "evidence".length = 8 by decide]
  omega

/-- A reason of an appraisal is a short name. -/
theorem Appraisal.length_encode_report_le (a : Appraisal) : a.report.encode.length ≤ 300 := by
  obtain ⟨v, s, reason⟩ := a
  have hv : v.write.length ≤ 14 := by cases v <;> decide
  refine Nat.le_trans (Write.length_record_le _) ?_
  cases reason with
  | none =>
    simp only [report, Option.map_none, Write.entry?, List.map_cons, List.map_nil, List.sum_cons,
      List.sum_nil, show "verdict".length = 7 by decide]
    omega
  | some reason =>
    have hr : (Write.text reason.name).length ≤ 40 := by cases reason <;> decide
    simp only [report, Option.map_some, Write.entry?, List.map_cons, List.map_nil, List.sum_cons,
      List.sum_nil, show "verdict".length = 7 by decide, show "reason".length = 6 by decide]
    omega

theorem SelfDescription.length_encode (m : SelfDescription) :
    m.encode.length = 10 + Head.argumentWidth (Text.Utf8.encode m.document).length +
      (Text.Utf8.encode m.document).length := by
  have hn : (Write.text "document").length = 9 := by decide
  have h1 : Head.argumentWidth 1 = 1 := rfl
  rw [encode, Write.record, List.flatMap_singleton, List.length_append, List.length_append, hn,
    Write.text, List.length_append, Head.length_write, Head.length_write, List.length_singleton, h1]
  omega

theorem ErrorReport.length_encode_le (m : ErrorReport) :
    m.encode.length ≤ 100 + 4 * m.message.length := by
  have hc : m.code.write.length ≤ 9 := Write.length_unsigned_le _
  have ht := Write.length_text_le m.message
  refine Nat.le_trans (Write.length_record_le _) ?_
  simp only [List.map_cons, List.map_nil, List.sum_cons, List.sum_nil,
    show "code".length = 4 by decide, show "message".length = 7 by decide]
  omega

/-! ## Frames -/

namespace Payload

/-- The payload fits a frame. -/
def Fits (p : Payload) : Prop := p.encode.length ≤ FrameHeader.maxPayload

instance (p : Payload) : Decidable p.Fits :=
  inferInstanceAs (Decidable (p.encode.length ≤ FrameHeader.maxPayload))

/-- Exactly the payloads that fit can be sent. -/
theorem encode_toFrame (p : Payload) (h : FrameHeader) :
    (p.toFrame h).encode =
      if p.Fits then .ok ((p.toFrame h).header.encode ++ p.encode)
      else .error (.payloadTooLarge p.encode.length FrameHeader.maxPayload) := by
  have hl : (p.toFrame h).payload.length = p.encode.length := rfl
  unfold Frame.encode
  rw [hl]
  by_cases hp : p.Fits
  · rw [if_pos hp, if_neg (Nat.not_lt.2 hp)]
    rfl
  · rw [if_neg hp, if_pos (Nat.lt_of_not_le hp)]

end Payload

end AttestedChannel
