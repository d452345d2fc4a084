import AttestedChannel.Proofs.Cbor.Skipping
import AttestedChannel.Proofs.Payload.RoundTrip

/-!
# Messages of different types are kept apart

The octets of a message do not say of which type it is; the header of the frame does. Still no
message is read as one of another type: an unknown entry is skipped and not refused, but every type
needs a field that no other type writes, and its reader gets to the end of the record and finds it
missing (`read_as_own_type`).

Two types have the name of one field in common, the nonce of a challenge and of its response
(`eq_nonce_of_mem`), so these two are the case in which a reader takes something in before it
refuses.
-/

namespace AttestedChannel

open Cbor

/-! ## Names of the fields -/

namespace MessageType

/-- The names that the reader of a type knows. -/
def fieldNames : MessageType → List String
  | .hello => Hello.fields.map (·.name)
  | .attestationChallenge => Challenge.fields.map (·.name)
  | .attestationResponse => Response.fields.map (·.name)
  | .attestationResult => ResultReport.fields.map (·.name)
  | .metadata => SelfDescription.fields.map (·.name)
  | .raw => []
  | .error => ErrorReport.fields.map (·.name)

/-- The names of the fields without which a message of the type is not read. -/
def requiredFields : MessageType → List String
  | .hello => ["version", "mutual_attestation"]
  | .attestationChallenge => ["nonce", "attestation_type", "property_mask"]
  | .attestationResponse => ["nonce", "evidence"]
  | .attestationResult => ["verdict"]
  | .metadata => ["document"]
  | .raw => []
  | .error => ["code", "message"]

/-- Only challenges and responses have a field name in common, that of the nonce. -/
theorem eq_nonce_of_mem {t u : MessageType} (h : t ≠ u) {s : String} (ht : s ∈ t.fieldNames)
    (hu : s ∈ u.fieldNames) : s = "nonce" ∧
      (t = .attestationChallenge ∧ u = .attestationResponse ∨
        t = .attestationResponse ∧ u = .attestationChallenge) := by
  have hall : ∀ t ∈ all, ∀ u ∈ all, t ≠ u → ∀ s ∈ t.fieldNames, s ∈ u.fieldNames →
      s = "nonce" ∧ (t = .attestationChallenge ∧ u = .attestationResponse ∨
        t = .attestationResponse ∧ u = .attestationChallenge) := by decide +kernel
  exact hall t (by cases t <;> decide) u (by cases u <;> decide) h s ht hu

theorem requiredFields_subset (t : MessageType) : t.requiredFields ⊆ t.fieldNames := by
  cases t <;> decide +kernel

/-- Field names fit one chunk. -/
theorem length_of_mem_fieldNames {t : MessageType} {s : String} (hs : s ∈ t.fieldNames) :
    (Text.Utf8.encode s).length ≤ chunkSize := by
  have hall : ∀ t ∈ all, ∀ s ∈ t.fieldNames, (Text.Utf8.encode s).length ≤ chunkSize := by
    decide +kernel
  exact hall t (by cases t <;> decide) s hs

end MessageType

namespace Payload

/-! ## Entries of a message -/

/-- The entries of a structured message: the names of its fields and their octets. -/
def entries : Payload → List (String × Bytes)
  | .hello m => [("version", Write.unsigned m.version.toNat),
      ("mutual_attestation", Write.boolean m.mutualAttestation)]
  | .challenge m => [("nonce", Write.octets m.nonce), ("attestation_type", m.attestationType.write),
      ("property_mask", m.propertyMask.write)]
  | .response m => [("nonce", Write.octets m.nonce), ("evidence", Write.octets m.evidence)]
  | .result m => ("verdict", m.verdict.write) :: Write.entry? "reason" Write.text m.reason
  | .metadata m => [("document", Write.text m.document)]
  | .raw _ => []
  | .error m => [("code", m.code.write), ("message", Write.text m.message)]

variable {p : Payload} {t : MessageType} {e : String × Bytes}

theorem encode_eq_record (hp : p.messageType ≠ .raw) : p.encode = Write.record p.entries := by
  cases p with
  | raw b => exact absurd rfl hp
  | _ => rfl

/-- A message is written with the names of its own fields, in their order. -/
theorem names_entries (p : Payload) : p.entries.map (·.1) <+: p.messageType.fieldNames := by
  cases p with
  | result m =>
    obtain ⟨v, reason⟩ := m
    cases reason with
    | none => exact ⟨["reason"], rfl⟩
    | some s => exact List.prefix_refl _
  | _ => exact List.prefix_refl _

theorem mem_fieldNames (he : e ∈ p.entries) : e.1 ∈ p.messageType.fieldNames :=
  p.names_entries.subset (List.mem_map_of_mem he)

theorem length_entries_lt (p : Payload) : p.entries.length < headRange := by
  have h := p.names_entries.length_le
  rw [List.length_map] at h
  refine Nat.lt_of_le_of_lt h ?_
  generalize p.messageType = t
  cases t <;> decide

/-- Whatever a message holds is skipped where its name is unknown. -/
theorem skips_entry (depth : Nat) (hp : p.messageType ≠ .raw) (hl : p.encode.length < headRange)
    (he : e ∈ p.entries) : Reads (skip (depth + 1)) e.2 () := by
  rw [encode_eq_record hp] at hl
  have hv := length_of_record_lt e.1 hl he
  cases p with
  | hello m =>
    simp only [entries, List.mem_cons, List.not_mem_nil, or_false] at he
    rcases he with rfl | rfl
    · exact skips_unsigned _ (Nat.lt_trans m.version.toNat_lt (by decide))
    · exact skips_boolean _ _
  | challenge m =>
    simp only [entries, List.mem_cons, List.not_mem_nil, or_false] at he
    rcases he with rfl | rfl | rfl
    · exact skips_octets _ (length_of_octets_lt hv)
    · exact skips_text _ (length_of_text_lt hv)
    · exact skips_unsigned _ (Nat.lt_trans m.propertyMask.bits.toNat_lt (by decide))
  | response m =>
    simp only [entries, List.mem_cons, List.not_mem_nil, or_false] at he
    rcases he with rfl | rfl
    · exact skips_octets _ (length_of_octets_lt hv)
    · exact skips_octets _ (length_of_octets_lt hv)
  | result m =>
    obtain ⟨v, reason⟩ := m
    rcases List.mem_cons.1 he with rfl | he
    · exact skips_text _ (length_of_text_lt hv)
    · cases reason with
      | none => cases he
      | some s =>
        cases List.mem_singleton.1 he
        exact skips_text _ (length_of_text_lt hv)
  | metadata m =>
    cases List.mem_singleton.1 he
    exact skips_text _ (length_of_text_lt hv)
  | raw b => exact absurd rfl hp
  | error m =>
    simp only [entries, List.mem_cons, List.not_mem_nil, or_false] at he
    rcases he with rfl | rfl
    · exact skips_unsigned _ (by cases m.code <;> decide)
    · exact skips_text _ (length_of_text_lt hv)

/-! ## Readers of other types -/

/-- The fault of a message without a field that its type needs. -/
def lacking (s : String) : FrameFault := .decode (Failure.refused none (.missingField s)).text

theorem decodeAs_of_fills {α δ : Type} {fields : List (Cbor.Field δ)} {empty : δ}
    {finish : δ → Except Failure α} {wrap : α → Payload} {entries : List (String × Bytes)}
    {s : String} {x : Bytes} (draft : δ) (hn : entries.length < headRange)
    (hfill : Fills (readEntry fields skipUnknown 255) empty
      (entries.map fun e => Write.text e.1 ++ e.2) draft)
    (hs : finish draft = .error (.refused none (.missingField s))) :
    decodeAs (record fields skipUnknown empty finish) wrap (Write.record entries ++ x) =
      .error (lacking s) := by
  simp only [decodeAs, maxDepth, refuses_record draft hn hfill hs, lacking]

/-- The reader of the type goes through the entries, skips them all and then misses `s`. -/
def Lacks (t : MessageType) (p : Payload) (s : String) : Prop :=
  s ∈ t.requiredFields ∧ s ∉ p.entries.map (·.1) ∧
    ∀ x, decode t (p.encode ++ x) = .error (lacking s)

/-- Where no name is known to the reader, nothing is read and the first field is missing. -/
theorem lacks_of_unknown (hp : p.messageType ≠ .raw) (hl : p.encode.length < headRange)
    (h : ∀ e ∈ p.entries, e.1 ∉ t.fieldNames) (ht : t ≠ .raw) : ∃ s, Lacks t p s := by
  have habsent : ∀ s ∈ t.requiredFields, s ∉ p.entries.map (·.1) := by
    intro s hs hm
    obtain ⟨e, he, rfl⟩ := List.mem_map.1 hm
    exact h e he (t.requiredFields_subset hs)
  have hunknown {δ : Type} (fields : List (Cbor.Field δ)) (draft : δ)
      (hf : t.fieldNames = fields.map (·.name)) :
      Fills (readEntry fields skipUnknown 255) draft
        (p.entries.map fun e => Write.text e.1 ++ e.2) draft :=
    fills_unknown draft fun e he =>
      ⟨MessageType.length_of_mem_fieldNames (mem_fieldNames he),
        isUnknown_of_not_mem (hf ▸ h e he), skips_entry 254 hp hl he⟩
  have hn := p.length_entries_lt
  have lacks (s : String) (hs : s ∈ t.requiredFields)
      (hd : ∀ x, decode t (Write.record p.entries ++ x) = .error (lacking s)) :
      ∃ s, Lacks t p s :=
    ⟨s, hs, habsent s hs, fun x => by rw [encode_eq_record hp, hd]⟩
  cases t with
  | hello =>
    exact lacks "version" (by decide) fun x =>
      decodeAs_of_fills Hello.Draft.empty hn (hunknown Hello.fields _ rfl) rfl
  | attestationChallenge =>
    exact lacks "nonce" (by decide) fun x =>
      decodeAs_of_fills Challenge.Draft.empty hn (hunknown Challenge.fields _ rfl) rfl
  | attestationResponse =>
    exact lacks "nonce" (by decide) fun x =>
      decodeAs_of_fills Response.Draft.empty hn (hunknown Response.fields _ rfl) rfl
  | attestationResult =>
    exact lacks "verdict" (by decide) fun x =>
      decodeAs_of_fills ResultReport.Draft.empty hn (hunknown ResultReport.fields _ rfl) rfl
  | metadata =>
    exact lacks "document" (by decide) fun x =>
      decodeAs_of_fills SelfDescription.Draft.empty hn (hunknown SelfDescription.fields _ rfl) rfl
  | raw => exact absurd rfl ht
  | error =>
    exact lacks "code" (by decide) fun x =>
      decodeAs_of_fills ErrorReport.Draft.empty hn (hunknown ErrorReport.fields _ rfl) rfl

/-- The nonce of a response is read as that of a challenge; the type of attestation is missing. -/
theorem lacks_challenge {m : Response} (hl : m.encode.length < headRange) :
    Lacks .attestationChallenge (.response m) "attestation_type" := by
  have hn := length_of_octets_lt
    (length_of_record_lt "nonce" hl (w := Write.octets m.nonce) (by simp))
  have he := length_of_octets_lt
    (length_of_record_lt "evidence" hl (w := Write.octets m.evidence) (by simp))
  refine ⟨by decide, by simp [entries], fun x => ?_⟩
  exact decodeAs_of_fills (⟨some m.nonce, none, none⟩ : Challenge.Draft) (by simp [headRange])
    (.cons (reads_field "nonce" rfl (by decide) rfl (reads_octets hn))
      (.cons (reads_unknown "evidence" (by decide) rfl (skips_octets 254 he)) (.nil _))) rfl

/-- The nonce of a challenge is read as that of a response; the evidence is missing. -/
theorem lacks_response {m : Challenge} (hl : m.encode.length < headRange) :
    Lacks .attestationResponse (.challenge m) "evidence" := by
  have hn := length_of_octets_lt
    (length_of_record_lt "nonce" hl (w := Write.octets m.nonce) (by simp))
  have htype := length_of_text_lt
    (length_of_record_lt "attestation_type" hl (w := m.attestationType.write) (by simp))
  have hmask := Nat.lt_trans m.propertyMask.bits.toNat_lt (by decide : 2 ^ 32 < headRange)
  refine ⟨by decide, by simp [entries], fun x => ?_⟩
  exact decodeAs_of_fills (⟨some m.nonce, none⟩ : Response.Draft) (by simp [headRange])
    (.cons (reads_field "nonce" rfl (by decide) rfl (reads_octets hn))
      (.cons (reads_unknown "attestation_type" (by decide) rfl (skips_text 255 htype))
        (.cons (reads_unknown "property_mask" (by decide) rfl (skips_unsigned 255 hmask))
          (.nil _))))
    rfl

/-- Every other type lacks a field. -/
theorem exists_lacks (hp : p.messageType ≠ .raw) (ht : t ≠ .raw) (hne : t ≠ p.messageType)
    (hl : p.encode.length < headRange) : ∃ s, Lacks t p s := by
  by_cases h : ∀ e ∈ p.entries, e.1 ∉ t.fieldNames
  · exact lacks_of_unknown hp hl h ht
  · -- some name is known to both, so it is the nonce
    push Not at h
    obtain ⟨e, he, hk⟩ := h
    obtain ⟨-, ⟨rfl, hq⟩ | ⟨rfl, hq⟩⟩ := MessageType.eq_nonce_of_mem hne hk (mem_fieldNames he)
    · cases p with
      | response m => exact ⟨_, lacks_challenge hl⟩
      | _ => cases hq
    · cases p with
      | challenge m => exact ⟨_, lacks_response hl⟩
      | _ => cases hq

/-- **A message is read as one of its own type only.** The octets of a structured message, whatever
follows them, are read under a structured type exactly if it is that of the message. Under any other
type they are refused because a field is missing that the type needs and the message does not have;
so is a frame with such a header. In particular nothing but a result is read as a verdict, and
nothing but a hello as a hello. -/
theorem read_as_own_type (p : Payload) (t : MessageType) (hp : p.messageType ≠ .raw)
    (ht : t ≠ .raw) (hl : p.encode.length < 0x10000000000000000) (x : Bytes) :
    ((∃ q, decode t (p.encode ++ x) = .ok q) ↔ t = p.messageType) ∧
      (t ≠ p.messageType → ∃ s ∈ t.requiredFields, s ∉ p.entries.map (·.1) ∧
        decode t (p.encode ++ x) =
          .error (.decode (Failure.refused none (.missingField s)).text) ∧
        ∀ h : FrameHeader, h.known? = some t → ofFrame ⟨h, p.encode ++ x⟩ =
          .error (.decode (Failure.refused none (.missingField s)).text)) := by
  have hother (hne : t ≠ p.messageType) : ∃ s, Lacks t p s := exists_lacks hp ht hne hl
  refine ⟨⟨fun ⟨q, hq⟩ => ?_, ?_⟩, fun hne => ?_⟩
  · by_contra hne
    obtain ⟨s, -, -, hs⟩ := hother hne
    rw [hs] at hq
    cases hq
  · rintro rfl
    exact ⟨p, (decode_structured hl hp).1 x⟩
  · obtain ⟨s, hneeded, habsent, hs⟩ := hother hne
    refine ⟨s, hneeded, habsent, hs x, fun h hk => ?_⟩
    simp only [ofFrame, hk, hs, lacking]

/-- The evidence in this response reads like a passing result. It is no challenge, although its
reader takes the nonce in, and no result. -/
theorem response_as_own_type_only :
    let p := response ⟨[1, 2], ResultReport.encode ⟨.pass, none⟩⟩
    p.encode.length < 0x10000000000000000 ∧
      (¬ ∃ q, decode .attestationChallenge (p.encode ++ [0xFF]) = .ok q) ∧
      ¬ ∃ q, decode .attestationResult (p.encode ++ [0xFF]) = .ok q := by
  intro p
  have hl : p.encode.length < 0x10000000000000000 := by decide
  have hchallenge := read_as_own_type p .attestationChallenge (by decide) (by decide) hl [0xFF]
  have hresult := read_as_own_type p .attestationResult (by decide) (by decide) hl [0xFF]
  exact ⟨hl, fun h => absurd (hchallenge.1.1 h) (by decide),
    fun h => absurd (hresult.1.1 h) (by decide)⟩

end Payload

end AttestedChannel
