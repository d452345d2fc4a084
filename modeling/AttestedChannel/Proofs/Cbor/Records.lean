import AttestedChannel.Cbor.Record
import AttestedChannel.Proofs.Cbor.Items

/-!
# Reading back records

A record is read back when its entries fill the draft (`Fills`) and the draft has every field that
the record needs. Each entry is one field's: the field is found under its name, the draft does not
have it yet, and its value is read into the draft.
-/

namespace AttestedChannel.Cbor

variable {α δ : Type}

/-- An entry is read back by the field with its name. -/
theorem reads_entry {fields : List (Field δ)} {unknown : UnknownEntry} {depth : Nat} {f : Field δ}
    {s : String} {w : Bytes} {draft draft' : δ} (hs : (Text.Utf8.encode s).length ≤ chunkSize)
    (hf : fields.find? (fun g => Text.Utf8.encode g.name == Text.Utf8.encode s) = some f)
    (hnew : f.isSet draft = false) (hw : Reads (f.read depth draft) w draft') :
    Reads (readEntry fields unknown depth draft) (Write.text s ++ w) draft' := by
  obtain ⟨h, v, b, hv, hp, hh, hb⟩ := reads_name hs
  refine ⟨h, v, b ++ w, by rw [hv, List.append_assoc], hp, hh, fun start => ?_⟩
  refine (hb start).bind (g := fun _ => (f.read depth draft).run) (fun _ => hw.run)
    (fun c d hd => ?_) fun c e he => ?_
  · simp only [readEntry, hd, hf, hnew, Bool.false_eq_true, if_false]
  · simp only [readEntry, he]

/-- The entry of a field that is a reader and a place in the draft. -/
theorem reads_field {fields : List (Field δ)} {unknown : UnknownEntry} {depth : Nat}
    {get : δ → Option α} {set : δ → α → δ} {r : Nat → Reader α} {w : Bytes} {draft : δ} {a : α}
    (s : String)
    (hf : fields.find? (fun g => Text.Utf8.encode g.name == Text.Utf8.encode s) =
      some (.ofReader s get set r))
    (hs : (Text.Utf8.encode s).length ≤ chunkSize) (hnew : get draft = none)
    (hw : Reads (r depth) w a) :
    Reads (readEntry fields unknown depth draft) (Write.text s ++ w) (set draft a) :=
  reads_entry hs hf (by simp only [Field.ofReader, hnew, Option.isSome_none]) (hw.map (set draft))

/-- The entry of an optional field, which is only written when there is a value. -/
theorem fills_optional {fields : List (Field δ)} {unknown : UnknownEntry} {depth : Nat}
    {get : δ → Option (Option α)} {set : δ → Option α → δ} {r : Nat → Reader α}
    {write : α → Bytes} {value : Option α} {draft d : δ} (s : String)
    (hf : fields.find? (fun g => Text.Utf8.encode g.name == Text.Utf8.encode s) =
      some (.ofReader s get set fun depth => optional (r depth)))
    (hs : (Text.Utf8.encode s).length ≤ chunkSize) (hnew : get draft = none)
    (hd : d = value.elim draft fun a => set draft (some a))
    (hw : ∀ a, value = some a → Reads (r depth) (write a) a) :
    Fills (readEntry fields unknown depth) draft
      ((Write.entry? s write value).map fun e => Write.text e.1 ++ e.2) d := by
  rw [hd]
  cases value with
  | none => exact .nil draft
  | some a => exact .cons (reads_field s hf hs hnew (hw a rfl).optional) (.nil _)

/-- **A record is read back** when its entries fill a draft that makes it. -/
theorem reads_record {fields : List (Field δ)} {unknown : UnknownEntry} {empty : δ}
    {finish : δ → Except Failure α} {depth : Nat} {entries : List (String × Bytes)} {a : α}
    (draft : δ) (hn : entries.length < headRange)
    (hfill : Fills (readEntry fields unknown depth) empty
      (entries.map fun e => Write.text e.1 ++ e.2) draft) (ha : finish draft = .ok a) :
    Reads (record fields unknown empty finish (depth + 1)) (Write.record entries) a := by
  refine Reads.untagged (Reads.of_head 5 (by decide) hn fun start => ?_)
  have ht := hfill.takes
  rw [List.length_map, ← List.flatMap_def] at ht
  refine ht.map (fun c d hd => ?_) fun c e he => ?_
  · simp only [Head.ofArgument, readContainer, hd, ha]
  · simp only [Head.ofArgument, readContainer, he]

/-! ## Lengths -/

theorem length_of_text_lt {n : Nat} {s : String} (h : (Write.text s).length < n) :
    (Text.Utf8.encode s).length < n := by
  rw [Write.text, List.length_append] at h
  omega

theorem length_of_octets_lt {n : Nat} {b : Bytes} (h : (Write.octets b).length < n) :
    b.length < n := by
  have hb : b.length ≤ (b.flatMap fun x => Write.unsigned x.toNat).length := by
    clear h
    induction b with
    | nil => exact Nat.le_refl _
    | cons x b ih =>
      have hx : 1 ≤ (Write.unsigned x.toNat).length := by
        rw [Write.unsigned, Head.length_write, Head.argumentWidth]
        repeat' split
        all_goals decide
      rw [List.flatMap_cons, List.length_append, List.length_cons]
      omega
  rw [Write.octets, List.length_append] at h
  omega

/-- No value of a record is longer than the record. -/
theorem length_of_record_lt {n : Nat} {entries : List (String × Bytes)} (s : String) {w : Bytes}
    (h : (Write.record entries).length < n) (he : (s, w) ∈ entries) : w.length < n := by
  have hw : w.length ≤ (entries.flatMap fun e => Write.text e.1 ++ e.2).length := by
    clear h
    induction entries with
    | nil => cases he
    | cons x xs ih =>
      rw [List.flatMap_cons, List.length_append, List.length_append]
      rcases List.mem_cons.1 he with rfl | he
      · dsimp only
        omega
      · have := ih he
        omega
  rw [Write.record, List.length_append] at h
  omega

end AttestedChannel.Cbor
