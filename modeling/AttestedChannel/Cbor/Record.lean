import AttestedChannel.Cbor.Skip

/-!
# Records

A record is written as a map from names to values. While its entries are read it is a *draft*, in
which a field may still be missing: a `Field` says under which name it is found, whether a draft has
it, and how its value is read into the draft. Entries may come in any order; no field may come
twice. What happens to an entry whose name is not known is up to the record: `skipUnknown` skips its
value, `refuseUnknown` refuses the record.
-/

namespace AttestedChannel.Cbor

/-- One field of a record whose drafts are `δ`. -/
structure Field (δ : Type) where
  name : String
  isSet : δ → Bool
  /-- Reads the value, with the number of levels that are allowed in it. -/
  read : (depth : Nat) → δ → Reader δ

/-- A field from its place in the draft and the reader of its value. -/
def Field.ofReader {δ α : Type} (name : String) (get : δ → Option α) (set : δ → α → δ)
    (r : Nat → Reader α) : Field δ where
  name := name
  isSet d := (get d).isSome
  read depth d := (r depth).map (set d)

/-- Deals with an entry whose name is not known; the cursor stands before its value. -/
abbrev UnknownEntry := (depth : Nat) → (name : Bytes) → Cursor → Except Failure Cursor

/-- The value of an unknown entry is skipped. -/
def skipUnknown : UnknownEntry := fun depth _ c =>
  match (skip depth).run c with
  | .error e => .error e
  | .ok (_, d) => .ok d

/-- An unknown entry is refused. -/
def refuseUnknown (known : List String) : UnknownEntry := fun _ b _ =>
  .error (.refused none (.unknownField (Text.Utf8.lossy b) known))

/-- Reads one entry into a draft. A second occurrence of a field is refused before its value is
read. -/
def readEntry {δ : Type} (fields : List (Field δ)) (unknown : UnknownEntry) (depth : Nat) :
    ItemReader δ := fun draft start h c =>
  match name start h c with
  | .error e => .error e
  | .ok (b, c) =>
    match fields.find? (fun f => Text.Utf8.encode f.name == b) with
    | some f =>
      if f.isSet draft then .error (.refused none (.duplicateField f.name))
      else (f.read depth draft).run c
    | none =>
      match unknown depth b c with
      | .error e => .error e
      | .ok c => .ok (draft, c)

/-- Reads a record: its entries into a draft that starts as `empty`, then the record from the draft.
-/
def record {δ α : Type} (fields : List (Field δ)) (unknown : UnknownEntry) (empty : δ)
    (finish : δ → Except Failure α) (depth : Nat) : Reader α := untagged fun _ h c =>
  match h with
  | .map n =>
    match depth with
    | 0 => .error .tooDeep
    | depth + 1 =>
      match readContainer (readEntry fields unknown depth) n empty c with
      | .error e => .error e
      | .ok (draft, d) =>
        match finish draft with
        | .error e => .error e
        | .ok a => .ok (a, d)
  | h => .error (h.refuse .map)

/-- The value of a field that may not be missing. -/
def required {α : Type} (name : String) : Option α → Except Failure α
  | some a => .ok a
  | none => .error (.refused none (.missingField name))

end AttestedChannel.Cbor
