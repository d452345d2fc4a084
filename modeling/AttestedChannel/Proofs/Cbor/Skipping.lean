import AttestedChannel.Proofs.Cbor.Records

/-!
# Entries that a record does not know

What the library writes is skipped where its name is not known: the skip takes exactly the octets of
the value (`skips_octets` and its like), so the entries after it are found. A record whose entries
leave a draft without one of the fields it needs is therefore refused for that field and for no
other reason (`refuses_record`).
-/

namespace AttestedChannel.Cbor

variable {α δ : Type}

/-! ## Skipping one value -/

/-- At any depth an item is skipped by looking at its head first. -/
theorem skip_eq (depth : Nat) : ∃ inner, skip depth = skipWith inner := by
  cases depth with
  | zero => exact ⟨none, rfl⟩
  | succ depth => exact ⟨some (skip depth), rfl⟩

theorem skips_unsigned (depth : Nat) {n : Nat} (hn : n < headRange) :
    Reads (skip depth) (Write.unsigned n) () := by
  obtain ⟨inner, hskip⟩ := skip_eq depth
  have hr : Takes (fun c => Except.ok ((), c)) [] () := .done fun _ => rfl
  have ht := Reads.of_head (r := skip depth) (b := []) 0 (by decide) hn
    fun start => hr.congr fun c => by rw [hskip]; rfl
  rwa [List.append_nil] at ht

theorem skips_boolean (depth : Nat) (x : Bool) : Reads (skip depth) (Write.boolean x) () := by
  obtain ⟨inner, hskip⟩ := skip_eq depth
  have hr : Takes (fun c => Except.ok ((), c)) [] () := .done fun _ => rfl
  cases x with
  | false =>
    exact ⟨.simple 20, [0xF4], [], rfl, ⟨by decide, by decide⟩,
      Head.takes_read_short 7 20 (by decide) (by decide),
      fun start => hr.congr fun c => by rw [hskip]; rfl⟩
  | true =>
    exact ⟨.simple 21, [0xF5], [], rfl, ⟨by decide, by decide⟩,
      Head.takes_read_short 7 21 (by decide) (by decide),
      fun start => hr.congr fun c => by rw [hskip]; rfl⟩

/-- A text is skipped by reading it. -/
theorem skips_text (depth : Nat) {s : String} (hs : (Text.Utf8.encode s).length < headRange) :
    Reads (skip depth) (Write.text s) () := by
  obtain ⟨inner, hskip⟩ := skip_eq depth
  refine Reads.of_head 3 (by decide) hs fun start => ?_
  have ht := Takes.located
    (fun c => c.startOf (.text (some (Text.Utf8.encode s).length))) fun n => takes_readText n s
  refine ht.map (fun c d hd => ?_) fun c e he => ?_
  · simp only [hskip, Head.ofArgument, skipWith, hd]
  · simp only [hskip, Head.ofArgument, skipWith, he]

/-- Items in a row are skipped one by one. -/
theorem fills_skip {depth : Nat} {ws : List Bytes} (h : ∀ w ∈ ws, Reads (skip depth) w ()) :
    Fills (fun _ => skip depth) () ws () := by
  induction ws with
  | nil => exact .nil ()
  | cons w ws ih =>
    exact .cons (h w List.mem_cons_self) (ih fun v hv => h v (List.mem_cons_of_mem _ hv))

/-- Octets are an array of numbers, which takes one more level. -/
theorem skips_octets (depth : Nat) {b : Bytes} (hb : b.length < headRange) :
    Reads (skip (depth + 1)) (Write.octets b) () := by
  refine Reads.of_head 4 (by decide) hb fun start => ?_
  have hnumbers : ∀ w ∈ b.map (fun x => Write.unsigned x.toNat), Reads (skip depth) w () := by
    intro w hw
    obtain ⟨x, -, rfl⟩ := List.mem_map.1 hw
    exact skips_unsigned depth (Nat.lt_trans x.toNat_lt (by decide))
  have ht := (fills_skip hnumbers).takes
  rw [List.length_map, ← List.flatMap_def] at ht
  exact ht.congr fun c => rfl

/-! ## Skipping entries -/

/-- Whether the record has no field of this name. -/
def IsUnknown (fields : List (Field δ)) (s : String) : Prop :=
  fields.find? (fun f => Text.Utf8.encode f.name == Text.Utf8.encode s) = none

/-- A name that no field has is unknown: texts with the same octets are the same. -/
theorem isUnknown_of_not_mem {fields : List (Field δ)} {s : String}
    (hs : s ∉ fields.map (·.name)) : IsUnknown fields s := by
  refine List.find?_eq_none.2 fun f hf heq => hs (List.mem_map.2 ⟨f, hf, ?_⟩)
  have h := congrArg Text.Utf8.decode? (eq_of_beq heq)
  rw [Text.Utf8.decode?_encode, Text.Utf8.decode?_encode] at h
  exact Option.some.inj h

/-- An entry with an unknown name leaves the draft as it is. -/
theorem reads_unknown {fields : List (Field δ)} {depth : Nat} {w : Bytes} {draft : δ} (s : String)
    (hs : (Text.Utf8.encode s).length ≤ chunkSize) (hf : IsUnknown fields s)
    (hw : Reads (skip depth) w ()) :
    Reads (readEntry fields skipUnknown depth draft) (Write.text s ++ w) draft := by
  obtain ⟨h, v, b, hv, hp, hh, hb⟩ := reads_name hs
  refine ⟨h, v, b ++ w, by rw [hv, List.append_assoc], hp, hh, fun start => ?_⟩
  have hskip :
      Takes (fun c => (skipUnknown depth (Text.Utf8.encode s) c).map (draft, ·)) w draft :=
    hw.run.map (fun c d hd => by simp only [skipUnknown, hd, Except.map]) fun c e he => by
      simp only [skipUnknown, he, Except.map]
  unfold IsUnknown at hf
  refine (hb start).bind (fun _ => hskip) (fun c d hd => ?_) fun c e he => ?_
  · simp only [readEntry, hd, hf]
    cases skipUnknown depth (Text.Utf8.encode s) d <;> rfl
  · simp only [readEntry, he]

/-- Entries with unknown names leave the draft as it is. -/
theorem fills_unknown {fields : List (Field δ)} {depth : Nat} (draft : δ)
    {entries : List (String × Bytes)}
    (h : ∀ e ∈ entries, (Text.Utf8.encode e.1).length ≤ chunkSize ∧ IsUnknown fields e.1 ∧
      Reads (skip depth) e.2 ()) :
    Fills (readEntry fields skipUnknown depth) draft
      (entries.map fun e => Write.text e.1 ++ e.2) draft := by
  induction entries with
  | nil => exact .nil draft
  | cons e entries ih =>
    obtain ⟨hs, hf, hw⟩ := h e List.mem_cons_self
    exact .cons (reads_unknown e.1 hs hf hw) (ih fun e he => h e (List.mem_cons_of_mem _ he))

/-! ## Refusing a record -/

/-- **A record is refused** when its entries fill a draft that makes none, whatever follows it. -/
theorem refuses_record {fields : List (Field δ)} {unknown : UnknownEntry} {empty : δ}
    {finish : δ → Except Failure α} {depth : Nat} {entries : List (String × Bytes)} {e : Failure}
    (draft : δ) (hn : entries.length < headRange)
    (hfill : Fills (readEntry fields unknown depth) empty
      (entries.map fun e => Write.text e.1 ++ e.2) draft) (he : finish draft = .error e)
    {x : Bytes} :
    decode (record fields unknown empty finish (depth + 1)) (Write.record entries ++ x) =
      .error e := by
  have hhead := (Head.takes_read_write (by decide : 5 < 7) hn).whole
    ((entries.flatMap fun e => Write.text e.1 ++ e.2) ++ x) 0
  have hitems := hfill.takes.whole x (0 + (Head.write 5 entries.length).length)
  rw [List.length_map, ← List.flatMap_def] at hitems
  rw [← List.append_assoc] at hhead
  simp only [decode, Reader.run, Cursor.ofBytes, Write.record, hhead, Head.ofArgument, record,
    untagged, readContainer, hitems, he]

end AttestedChannel.Cbor
