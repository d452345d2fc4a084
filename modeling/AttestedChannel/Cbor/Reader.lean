import AttestedChannel.Cbor.Content

/-!
# Readers of CBOR items

A `Reader` takes over once the head of an item has been read: it gets the place where the item is
reported to start, the head, and the input behind the head. `Reader.run` reads the head first,
`decode` runs a reader on a whole byte string and ignores what follows the item.

Tags in front of an item are skipped by every reader except that of optional items, which looks at
the first head only. A reader of an item with items inside it gets the number of levels that are
still allowed, and needs one of them.
-/

namespace AttestedChannel.Cbor

/-- What reads an item after its head. -/
abbrev Reader (α : Type) := (start : Nat) → Head → Cursor → Except Failure (α × Cursor)

/-- The greatest number of nested items. -/
def maxDepth : Nat := 256

/-- Reads an item, its head included. -/
def Reader.run {α : Type} (r : Reader α) (c : Cursor) : Except Failure (α × Cursor) :=
  match Head.read c with
  | .error e => .error e
  | .ok (h, d) => r c.offset h d

/-- Reads an item whose head was looked at before `r` was chosen. -/
def Reader.again {α : Type} (r : Reader α) : Reader α := fun _ h c => r (c.startOf h) h c

/-- The first item of a byte string. -/
def decode {α : Type} (r : Reader α) (b : Bytes) : Except Failure α :=
  match r.run (.ofBytes b) with
  | .error e => .error e
  | .ok (a, _) => .ok a

/-- The reader of the same item with its value mapped. -/
def Reader.map {α β : Type} (f : α → β) (r : Reader α) : Reader β := fun start h c =>
  match r start h c with
  | .error e => .error e
  | .ok (a, d) => .ok (f a, d)

/-- Skips tags, then goes on as `r`. -/
def untagged {α : Type} (r : Reader α) (start : Nat) (h : Head) (c : Cursor) :
    Except Failure (α × Cursor) :=
  match h with
  | .tag _ =>
    match _e : Head.read c with
    | .error e => .error e
    | .ok (h, d) => untagged r c.offset h d
  | h => r start h c
termination_by c.rest.length
decreasing_by exact Head.length_of_read (by assumption)

/-! ## Containers -/

/-- What reads one item of a container and adds it to what was read before. -/
abbrev ItemReader (σ : Type) := σ → Reader σ

/-- Reads `n` items. -/
def readItems {σ : Type} (item : ItemReader σ) :
    (n : Nat) → σ → Cursor → Except Failure (σ × Cursor)
  | 0, s, c => .ok (s, c)
  | n + 1, s, c =>
    match (item s).run c with
    | .error e => .error e
    | .ok (s, d) => readItems item n s d

/-- Reads items up to a stop. Each item takes a head, so `fuel` beyond the length of the input is
never used up. -/
def readUntilStop {σ : Type} (item : ItemReader σ) : (fuel : Nat) → σ → Cursor →
    Except Failure (σ × Cursor)
  | 0, _, _ => .error .endOfInput
  | fuel + 1, s, c =>
    match Head.read c with
    | .error e => .error e
    | .ok (.stop, d) => .ok (s, d)
    | .ok (h, d) =>
      match (item s).again c.offset h d with
      | .error e => .error e
      | .ok (s, d) => readUntilStop item fuel s d

/-- Reads the items of a container whose head announced `length`. -/
def readContainer {σ : Type} (item : ItemReader σ) (length : Option Nat) (s : σ) (c : Cursor) :
    Except Failure (σ × Cursor) :=
  match length with
  | some n => readItems item n s c
  | none => readUntilStop item (c.rest.length + 1) s c

/-! ## Numbers -/

/-- An integer before its range is checked: its sign and its argument, which for a negative number
is one less than its absolute value. -/
structure RawInteger where
  isNegative : Bool
  argument : Nat
deriving DecidableEq, Repr

/-- An integer, given by its head or as a bignum. -/
def rawInteger (h : Head) (c : Cursor) : Except Failure (RawInteger × Cursor) :=
  match h with
  | .unsigned n => .ok (⟨false, n⟩, c)
  | .negative n => .ok (⟨true, n⟩, c)
  | .tag t =>
    match _e : Head.read c with
    | .error e => .error e
    | .ok (h, d) =>
      if t = 2 ∨ t = 3 then
        match h with
        | .bytes n =>
          match readBignum (d.startOf h) n d with
          | .error e => .error e
          | .ok (n, d) => .ok (⟨t == 3, n⟩, d)
        | h => .error (h.refuse .bytes)
      else rawInteger h d
  | h => .error (h.refuse .integer)
termination_by c.rest.length
decreasing_by exact Head.length_of_read (by assumption)

/-- A number of `width` bits. A number that does not even fit 64 bits is refused before that. -/
def unsigned (width : Nat) : Reader Nat := fun _ h c =>
  match rawInteger h c with
  | .error e => .error e
  | .ok (i, d) =>
    if i.isNegative then .error (.refused none .negativeInteger)
    else if 0x10000000000000000 ≤ i.argument then .error (.refused none .integerTooLarge)
    else if 1 <<< width ≤ i.argument then .error (.refused none (.outOfRange i.argument width))
    else .ok (i.argument, d)

/-- An octet. -/
def uint8 : Reader UInt8 := (unsigned 8).map UInt8.ofNat

/-- A number of 32 bits. -/
def uint32 : Reader UInt32 := (unsigned 32).map UInt32.ofNat

/-- A number of 64 bits. -/
def uint64 : Reader UInt64 := (unsigned 64).map UInt64.ofNat

/-- A number of sixteen bits that has to be one of the codes of `codes`. -/
def code {α : Type} (codes : List Nat) (ofCode? : Nat → Option α) : Reader α := fun start h c =>
  match unsigned 16 start h c with
  | .error e => .error e
  | .ok (n, d) =>
    match ofCode? n with
    | some a => .ok (a, d)
    | none => .error (.refused none (.unknownCode n codes))

/-- A truth value. The refusal names the place where the item starts. -/
def boolean : Reader Bool := untagged fun start h c =>
  match h with
  | .simple 20 => .ok (false, c)
  | .simple 21 => .ok (true, c)
  | _ => .error (.refused (some start) .notBoolean)

/-! ## Texts and byte strings -/

/-- A text. -/
def text : Reader String := untagged fun start h c =>
  match h with
  | .text n => readText start n c
  | h => .error (h.refuse .string)

/-- Adds an octet to those read so far, last one first. -/
def octetItem : ItemReader Bytes := fun read => uint8.map (· :: read)

/-- Octets: an array of numbers, or a byte string. -/
def octets (depth : Nat) : Reader Bytes := untagged fun start h c =>
  match h with
  | .array n =>
    if depth = 0 then .error .tooDeep
    else
      match readContainer octetItem n [] c with
      | .error e => .error e
      | .ok (read, d) => .ok (read.reverse, d)
  | .bytes n => readBytes start n c
  | h => .error (h.refuse .array)

/-! ## Names -/

/-- The octets of a name: a text or a byte string with a length of at most one chunk. A text has to
be well formed. -/
def name : Reader Bytes := untagged fun start h c =>
  match h with
  | .bytes (some n) =>
    if n ≤ chunkSize then c.take n else .error (h.refuse .name)
  | .text (some n) =>
    if n ≤ chunkSize then
      match c.take n with
      | .error e => .error e
      | .ok (b, d) =>
        if (Text.Utf8.decode? b).isSome then .ok (b, d) else .error (.malformed start)
    else .error (h.refuse .name)
  | h => .error (h.refuse .name)

/-- The variant with the given name. -/
def variantNamed {α : Type} (variants : List (String × α)) (b : Bytes) (c : Cursor) :
    Except Failure (α × Cursor) :=
  match variants.find? (fun v => Text.Utf8.encode v.1 == b) with
  | some v => .ok (v.2, c)
  | none => .error (.refused none (.unknownVariant (Text.Utf8.lossy b) (variants.map (·.1))))

/-- One of the named variants: its name, or a map of one entry with that name as key. Of such a map
only the key is read. -/
def variant {α : Type} (depth : Nat) (variants : List (String × α)) : Reader α :=
  untagged fun start h c =>
    match h with
    | .map (some 1) =>
      if depth = 0 then .error .tooDeep
      else
        match name.run c with
        | .error e => .error e
        | .ok (b, d) => variantNamed variants b d
    | .text _ =>
      if depth = 0 then .error .tooDeep
      else
        match name.again start h c with
        | .error e => .error e
        | .ok (b, d) => variantNamed variants b d
    | h => .error (h.refuse .variant)

/-! ## Optional items -/

/-- An item that may be null or undefined instead. -/
def optional {α : Type} (r : Reader α) : Reader (Option α) := fun start h c =>
  match h with
  | .simple 22 => .ok (none, c)
  | .simple 23 => .ok (none, c)
  | h => (r.map some).again start h c

end AttestedChannel.Cbor
