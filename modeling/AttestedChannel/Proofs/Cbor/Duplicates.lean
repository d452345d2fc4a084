import AttestedChannel.Proofs.Cbor.Records

/-!
# Fields that come twice

A record is refused at the second entry of a field, whatever that entry holds and whatever follows
it (`refuses_duplicate`). This says what happens to entries that are read back. It does not say much
about octets of which nobody knows where they came from: there an entry is what the reader takes for
one.

`noted` reads a record as `record` does and notes the name of every field it reads, in the order in
which they come. It makes of all octets what `record` makes of them (`noted_traces`), whether the
record has a length or ends with a stop, and whatever tags stand before it. So what is noted tells
about every record that is accepted: no name is noted twice, and exactly the fields whose names were
noted are set.

The second half needs that reading a field sets that field and no other one (`Separate`).
-/

namespace AttestedChannel.Cbor

variable {α δ σ : Type}

/-! ## The second entry -/

/-- Items that are read back leave the input to those after them. -/
theorem Fills.readItems_add {item : ItemReader σ} {s t : σ} {ws : List Bytes}
    (h : Fills item s ws t) (n : Nat) (rest : Bytes) (o : Nat) :
    ∃ o', readItems item (ws.length + n) s ⟨ws.flatten ++ rest, o⟩ =
      readItems item n t ⟨rest, o'⟩ := by
  induction h generalizing o with
  | nil s => exact ⟨o, by simp⟩
  | @cons s t u w ws hw _ ih =>
    obtain ⟨o', ho⟩ := ih (o + w.length)
    refine ⟨o', ?_⟩
    rw [List.length_cons, Nat.add_right_comm, List.flatten_cons, List.append_assoc, readItems,
      hw.run.whole]
    exact ho

/-- **The second entry of a field is refused**, after any entries that are read back and whatever
follows. -/
theorem refuses_duplicate {fields : List (Field δ)} {unknown : UnknownEntry} {empty draft : δ}
    {finish : δ → Except Failure α} {depth : Nat} {es₁ es₂ : List (String × Bytes)} {s : String}
    {w : Bytes} {f : Field δ} (hn : (es₁ ++ (s, w) :: es₂).length < headRange)
    (hfill : Fills (readEntry fields unknown depth) empty
      (es₁.map fun e => Write.text e.1 ++ e.2) draft)
    (hs : (Text.Utf8.encode s).length ≤ chunkSize)
    (hf : fields.find? (fun g => Text.Utf8.encode g.name == Text.Utf8.encode s) = some f)
    (hset : f.isSet draft = true) (x : Bytes) :
    decode (record fields unknown empty finish (depth + 1))
        (Write.record (es₁ ++ (s, w) :: es₂) ++ x) =
      .error (.refused none (.duplicateField f.name)) := by
  have hcount : (es₁ ++ (s, w) :: es₂).length = es₁.length + (es₂.length + 1) := by simp
  obtain ⟨tail, htail⟩ : ∃ tail, (es₁ ++ (s, w) :: es₂).flatMap (fun e => Write.text e.1 ++ e.2) ++
      x = (es₁.map fun e => Write.text e.1 ++ e.2).flatten ++ (Write.text s ++ tail) :=
    ⟨w ++ es₂.flatMap (fun e => Write.text e.1 ++ e.2) ++ x, by simp [List.flatMap_def]⟩
  have hhead := (Head.takes_read_write (by decide : 5 < 7) hn).whole
    ((es₁.map fun e => Write.text e.1 ++ e.2).flatten ++ (Write.text s ++ tail)) 0
  obtain ⟨o, hitems⟩ := hfill.readItems_add (es₂.length + 1) (Write.text s ++ tail)
    (0 + (Head.write 5 (es₁ ++ (s, w) :: es₂).length).length)
  rw [List.length_map, ← hcount] at hitems
  -- the name is all that is read of the second entry
  obtain ⟨h, v, b, hv, -, hh, hb⟩ := reads_name hs
  have hentry : (readEntry fields unknown depth draft).run ⟨Write.text s ++ tail, o⟩ =
      .error (.refused none (.duplicateField f.name)) := by
    rw [hv, List.append_assoc, Reader.run, hh.whole]
    simp only [readEntry, (hb _).whole, hf, hset, if_true]
  rw [Write.record, List.append_assoc, htail]
  simp only [decode, Reader.run, Cursor.ofBytes, hhead, Head.ofArgument, record, untagged,
    readContainer, hitems]
  rw [readItems, hentry]

/-! ## Notes -/

/-- The field, with its name noted behind those of the fields before it. -/
def Field.noting (f : Field δ) : Field (δ × List String) where
  name := f.name
  isSet d := f.isSet d.1
  read depth d := (f.read depth d.1).map fun d' => (d', d.2 ++ [f.name])

/-- Reads a record and the names of the fields that it was read from. -/
def noted (fields : List (Field δ)) (unknown : UnknownEntry) (empty : δ)
    (finish : δ → Except Failure α) (depth : Nat) : Reader (α × List String) :=
  record (fields.map Field.noting) unknown (empty, []) (fun d => (finish d.1).map (·, d.2)) depth

/-! ## Readings that note something -/

/-- The first reading comes to what the second comes to, and what it has noted with it has the
property. -/
inductive Traces (P : α × List String → Prop) :
    Except Failure ((α × List String) × Cursor) → Except Failure (α × Cursor) → Prop
  | ok {a : α} {names : List String} {c : Cursor} (h : P (a, names)) :
    Traces P (.ok ((a, names), c)) (.ok (a, c))
  | error (e : Failure) : Traces P (.error e) (.error e)

variable {P : δ × List String → Prop}

theorem Traces.run {r : Reader (δ × List String)} {r' : Reader δ}
    (h : ∀ start h c, Traces P (r start h c) (r' start h c)) (c : Cursor) :
    Traces P (r.run c) (r'.run c) := by
  unfold Reader.run
  cases Head.read c with
  | error e => exact .error e
  | ok x => exact h c.offset x.1 x.2

/-- Tags are skipped by both. -/
theorem Traces.untagged {r : Reader (δ × List String)} {r' : Reader δ}
    (h : ∀ start h c, Traces P (r start h c) (r' start h c)) (start : Nat) (hd : Head)
    (c : Cursor) : Traces P (untagged r start hd c) (untagged r' start hd c) := by
  induction start, hd, c using untagged.induct with
  | case1 start c t e he =>
    rw [untagged_tag, untagged_tag, Reader.run, Reader.run, he]
    exact .error e
  | case2 start c t hd d he ih =>
    rw [untagged_tag, untagged_tag, Reader.run, Reader.run, he]
    exact ih
  | case3 start c hd hn =>
    cases hd with
    | tag t => exact absurd rfl (hn t)
    | _ => simpa only [Cbor.untagged] using h start _ c

/-! ## Items in a row -/

variable {item : ItemReader (δ × List String)} {item' : ItemReader δ}

theorem Traces.readItems
    (h : ∀ p, P p → ∀ start h c, Traces P (item p start h c) (item' p.1 start h c)) (n : Nat)
    {p : δ × List String} (hp : P p) (c : Cursor) :
    Traces P (readItems item n p c) (readItems item' n p.1 c) := by
  induction n generalizing p c with
  | zero => exact .ok hp
  | succ n ih =>
    have hr := Traces.run (h p hp) c
    unfold Cbor.readItems
    generalize (item p).run c = x, (item' p.1).run c = y at hr
    cases hr with
    | ok ha => exact ih ha _
    | error e => exact .error e

theorem Traces.readUntilStop
    (h : ∀ p, P p → ∀ start h c, Traces P (item p start h c) (item' p.1 start h c)) (fuel : Nat)
    {p : δ × List String} (hp : P p) (c : Cursor) :
    Traces P (readUntilStop item fuel p c) (readUntilStop item' fuel p.1 c) := by
  induction fuel generalizing p c with
  | zero => exact .error _
  | succ fuel ih =>
    unfold Cbor.readUntilStop
    cases Head.read c with
    | error e => exact .error e
    | ok x =>
      obtain ⟨hd, d⟩ := x
      have hr := h p hp (d.startOf hd) hd d
      cases hd with
      | stop => exact .ok hp
      | _ =>
        dsimp only [Reader.again]
        generalize item p _ _ d = x, item' p.1 _ _ d = y at hr
        cases hr with
        | ok ha => exact ih ha _
        | error e => exact .error e

theorem Traces.readContainer
    (h : ∀ p, P p → ∀ start h c, Traces P (item p start h c) (item' p.1 start h c))
    (n : Option Nat) {p : δ × List String} (hp : P p) (c : Cursor) :
    Traces P (readContainer item n p c) (readContainer item' n p.1 c) := by
  cases n with
  | none => exact Traces.readUntilStop h _ hp c
  | some n => exact Traces.readItems h n hp c

/-! ## Records -/

/-- Reading a field sets it and no other one. -/
def Separate (fields : List (Field δ)) : Prop :=
  ∀ f ∈ fields, ∀ {depth d start h c d' c'}, f.read depth d start h c = .ok (d', c') →
    ∀ g ∈ fields, (g.isSet d' = true ↔ g.name = f.name ∨ g.isSet d = true)

/-- No name is noted twice, and the fields that are set are those whose names are noted. -/
structure IsNoted (fields : List (Field δ)) (p : δ × List String) : Prop where
  nodup : p.2.Nodup
  known : ∀ s ∈ p.2, s ∈ fields.map (·.name)
  isSet : ∀ f ∈ fields, (f.isSet p.1 = true ↔ f.name ∈ p.2)

variable {fields : List (Field δ)} {unknown : UnknownEntry} {depth : Nat}

/-- A field that is read is noted. -/
theorem IsNoted.read {p : δ × List String} (hp : IsNoted fields p) (hs : Separate fields)
    {f : Field δ} (hf : f ∈ fields) (hnew : f.isSet p.1 = false) {start : Nat} {h : Head}
    {c c' : Cursor} {d' : δ} (hr : f.read depth p.1 start h c = .ok (d', c')) :
    IsNoted fields (d', p.2 ++ [f.name]) where
  nodup := by
    have hn : f.name ∉ p.2 := by
      rw [← hp.isSet f hf, hnew]
      exact Bool.false_ne_true
    refine List.nodup_append.2 ⟨hp.nodup, List.pairwise_singleton .., fun s hs t ht => ?_⟩
    rw [List.mem_singleton.1 ht]
    rintro rfl
    exact hn hs
  known s h := by
    rcases List.mem_append.1 h with h | h
    · exact hp.known s h
    · rw [List.mem_singleton.1 h]
      exact List.mem_map_of_mem hf
  isSet g hg := by
    rw [hs f hf hr g hg, hp.isSet g hg, List.mem_append, List.mem_singleton, or_comm]

/-- An entry is read alike with and without notes. -/
theorem traces_readEntry (hs : Separate fields) {p : δ × List String} (hp : IsNoted fields p)
    (start : Nat) (h : Head) (c : Cursor) :
    Traces (IsNoted fields) (readEntry (fields.map Field.noting) unknown depth p start h c)
      (readEntry fields unknown depth p.1 start h c) := by
  unfold readEntry
  cases name start h c with
  | error e => exact .error e
  | ok x =>
    obtain ⟨b, c⟩ := x
    have hfind : (fields.map Field.noting).find? (fun f => Text.Utf8.encode f.name == b) =
        (fields.find? (fun f => Text.Utf8.encode f.name == b)).map Field.noting := List.find?_map ..
    dsimp only
    rw [hfind]
    cases hf : fields.find? (fun f => Text.Utf8.encode f.name == b) with
    | none =>
      dsimp only [Option.map_none]
      cases unknown depth b c with
      | error e => exact .error e
      | ok d => exact .ok hp
    | some f =>
      have hmem := List.mem_of_find?_eq_some hf
      dsimp only [Option.map_some, Field.noting]
      cases hnew : f.isSet p.1 with
      | true => exact .error _
      | false =>
        rw [if_neg Bool.false_ne_true, if_neg Bool.false_ne_true]
        unfold Reader.run
        cases Head.read c with
        | error e => exact .error e
        | ok x =>
          dsimp only [Reader.map]
          cases hr : f.read depth p.1 c.offset x.1 x.2 with
          | error e => exact .error e
          | ok y => exact .ok (hp.read hs hmem hnew hr)

/-- **Noting changes nothing.** Octets are accepted with notes or without, as the same record and up
to the same place, or refused for the same reason; and what is noted belongs to a draft that makes
the record. -/
theorem noted_traces (hs : Separate fields) {empty : δ} (he : ∀ f ∈ fields, f.isSet empty = false)
    (finish : δ → Except Failure α) (start : Nat) (h : Head) (c : Cursor) :
    Traces (fun p => ∃ d, finish d = .ok p.1 ∧ IsNoted fields (d, p.2))
      (noted fields unknown empty finish depth start h c)
      (record fields unknown empty finish depth start h c) := by
  have hempty : IsNoted fields (empty, []) :=
    ⟨List.nodup_nil, fun _ h => absurd h List.not_mem_nil, fun f hf => by simp [he f hf]⟩
  refine Traces.untagged (fun start h c => ?_) start h c
  cases h with
  | map n =>
    cases depth with
    | zero => exact .error _
    | succ depth =>
      have hr : Traces (IsNoted fields)
          (Cbor.readContainer (readEntry (fields.map Field.noting) unknown depth) n (empty, []) c)
          (Cbor.readContainer (readEntry fields unknown depth) n empty c) :=
        Traces.readContainer (fun p hp => traces_readEntry hs hp) n hempty c
      dsimp only
      generalize Cbor.readContainer (readEntry (fields.map Field.noting) unknown depth) n
        (empty, []) c = x, Cbor.readContainer (readEntry fields unknown depth) n empty c = y at hr
      cases hr with
      | error e => exact .error e
      | @ok d names c ha =>
        dsimp only
        cases hf : finish d with
        | error e => exact .error e
        | ok a => exact .ok ⟨d, hf, ha⟩
  | _ => exact .error _

/-- The record that octets begin with, and the names that were noted. -/
theorem decode_noted (hs : Separate fields) {empty : δ} (he : ∀ f ∈ fields, f.isSet empty = false)
    (finish : δ → Except Failure α) (b : Bytes) :
    decode (record fields unknown empty finish depth) b =
        (decode (noted fields unknown empty finish depth) b).map Prod.fst ∧
      ∀ a names, decode (noted fields unknown empty finish depth) b = .ok (a, names) →
        ∃ d, finish d = .ok a ∧ IsNoted fields (d, names) := by
  have hr : Traces (fun p => ∃ d, finish d = .ok p.1 ∧ IsNoted fields (d, p.2))
      ((noted fields unknown empty finish depth).run (.ofBytes b))
      ((record fields unknown empty finish depth).run (.ofBytes b)) :=
    Traces.run (noted_traces hs he finish) _
  unfold decode
  generalize (noted fields unknown empty finish depth).run (.ofBytes b) = x,
    (record fields unknown empty finish depth).run (.ofBytes b) = y at hr
  cases hr with
  | error e => exact ⟨rfl, fun a names h => by cases h⟩
  | ok h =>
    refine ⟨rfl, fun a names ha => ?_⟩
    cases ha
    exact h

end AttestedChannel.Cbor
