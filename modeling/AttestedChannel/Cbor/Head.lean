import AttestedChannel.Bytes
import AttestedChannel.Cbor.Failure

/-!
# Heads of CBOR items

Every item begins with a head: a major type and an argument. A `Cursor` is the input that is left,
together with the number of octets before it. `Head.read` reads one head; arguments need not be in
their shortest form. `Head.write` writes the shortest form.

A head that was looked at before its reader was chosen counts as if it had been written in its
shortest form, so an item that was looked at is reported to start `Head.width` octets before what
follows its head (`Cursor.startOf`).
-/

namespace AttestedChannel.Cbor

/-- The input that is left and the number of octets before it. -/
structure Cursor where
  rest : Bytes
  offset : Nat
deriving DecidableEq, Repr

/-- The start of an input. -/
def Cursor.ofBytes (b : Bytes) : Cursor := ⟨b, 0⟩

/-- The next `n` octets. -/
def Cursor.take (n : Nat) (c : Cursor) : Except Failure (Bytes × Cursor) :=
  match Bytes.take? n c.rest with
  | some (b, r) => .ok (b, ⟨r, c.offset + n⟩)
  | none => .error .endOfInput

/-- Octets that are there are taken. -/
theorem Cursor.take_append (p r : Bytes) (o : Nat) :
    Cursor.take p.length ⟨p ++ r, o⟩ = .ok (p, ⟨r, o + p.length⟩) := by
  simp [Cursor.take]

/-- Taking octets never lengthens the input. -/
theorem Cursor.length_of_take {n : Nat} {c d : Cursor} {b : Bytes} (h : c.take n = .ok (b, d)) :
    d.rest.length ≤ c.rest.length := by
  unfold Cursor.take at h
  split at h
  · next p r hp =>
    obtain ⟨_, hb⟩ := Bytes.take?_eq_some.1 hp
    cases h
    simp [hb]
  · cases h

/-- The head of an item. A length is absent when the item ends at a stop. -/
inductive Head where
  | unsigned (value : Nat)
  | negative (value : Nat)
  | bytes (length : Option Nat)
  | text (length : Option Nat)
  | array (length : Option Nat)
  | map (length : Option Nat)
  | tag (value : Nat)
  | float (value : Binary64)
  | simple (value : Nat)
  | stop
deriving DecidableEq, Repr

namespace Head

/-! ## Reading -/

/-- The head with a major type and an argument. -/
def ofArgument (major n : Nat) : Head :=
  match major with
  | 0 => .unsigned n
  | 1 => .negative n
  | 2 => .bytes (some n)
  | 3 => .text (some n)
  | 4 => .array (some n)
  | 5 => .map (some n)
  | 6 => .tag n
  | _ => .simple n

/-- The head with a major type and an argument of two, four or eight octets. -/
def ofWide (major octets n : Nat) : Head :=
  if major = 7 then
    .float (if octets = 2 then .ofHalf n else if octets = 4 then .ofSingle n else ⟨UInt64.ofNat n⟩)
  else ofArgument major n

/-- The head with a major type and no argument. -/
def ofIndefinite? : (major : Nat) → Option Head
  | 2 => some (.bytes none)
  | 3 => some (.text none)
  | 4 => some (.array none)
  | 5 => some (.map none)
  | 7 => some .stop
  | _ => none

/-- Reads the head of the next item. -/
def read (c : Cursor) : Except Failure (Head × Cursor) :=
  match c.rest with
  | [] => .error .endOfInput
  | x :: r =>
    let major := x.toNat / 32
    let minor := x.toNat % 32
    let body : Cursor := ⟨r, c.offset + 1⟩
    if minor < 24 then .ok (ofArgument major minor, body)
    else if minor < 28 then
      let octets := 1 <<< (minor - 24)
      match body.take octets with
      | .error e => .error e
      | .ok (b, d) =>
        .ok (if octets = 1 then ofArgument major b.toNat else ofWide major octets b.toNat, d)
    else if minor = 31 then
      match ofIndefinite? major with
      | some h => .ok (h, body)
      | none => .error (.malformed c.offset)
    else .error (.malformed c.offset)

/-- A head takes at least one octet. -/
theorem length_of_read {c d : Cursor} {h : Head} (e : read c = .ok (h, d)) :
    d.rest.length < c.rest.length := by
  unfold read at e
  split at e
  · cases e
  · next x r hr =>
    rw [hr, List.length_cons]
    simp only at e
    split at e
    · cases e; exact Nat.lt_succ_self _
    · split at e
      · split at e
        · cases e
        · next b d' ht =>
          have := Cursor.length_of_take ht
          cases e
          exact Nat.lt_succ_of_le this
      · split at e
        · split at e
          · cases e; exact Nat.lt_succ_self _
          · cases e
        · cases e

/-! ## Writing -/

/-- The head of a major type with the shortest form of an argument below `2 ^ 64`. -/
def write (major n : Nat) : Bytes :=
  let lead (minor : Nat) : UInt8 := UInt8.ofNat (major * 32 + minor)
  if n < 24 then [lead n]
  else if n < 0x100 then lead 24 :: Bytes.bigEndian 1 n
  else if n < 0x10000 then lead 25 :: Bytes.bigEndian 2 n
  else if n < 0x100000000 then lead 26 :: Bytes.bigEndian 4 n
  else lead 27 :: Bytes.bigEndian 8 n

/-- The number of octets of the shortest head with an argument. -/
def argumentWidth (n : Nat) : Nat :=
  if n < 24 then 1
  else if n < 0x100 then 2
  else if n < 0x10000 then 3
  else if n < 0x100000000 then 5
  else 9

theorem length_write (major n : Nat) : (write major n).length = argumentWidth n := by
  unfold write argumentWidth
  repeat' split
  all_goals simp

/-- The number of octets of the shortest form. Of a number with a point it is never asked for,
because no failure names the place where one starts. -/
def width : Head → Nat
  | .unsigned n | .negative n | .tag n | .simple n => argumentWidth n
  | .bytes n | .text n | .array n | .map n => (n.map argumentWidth).getD 1
  | .float _ => 9
  | .stop => 1

/-! ## Description -/

/-- What a head announces, in the words of a refusal. A negative number is shown in 64 bits. -/
def found : Head → Found
  | .unsigned n => .integer n
  | .negative n => .integer (Int.bmod (-1 - n) 0x10000000000000000)
  | .bytes _ => .bytes
  | .text _ => .string
  | .array _ => .sequence
  | .map _ => .map
  | .tag _ => .tag
  | .float x => .float x
  | .simple 20 => .boolean false
  | .simple 21 => .boolean true
  | .simple 22 => .null
  | .simple 23 => .undefined
  | .simple _ => .simple
  | .stop => .stop

/-- The refusal of an item of another kind. -/
def refuse (h : Head) (wanted : Wanted) : Failure := .refused none (.wrongKind h.found wanted)

end Head

/-- Where an item is reported to start whose head `h` was looked at before its reader was chosen;
the cursor stands behind the head. -/
def Cursor.startOf (c : Cursor) (h : Head) : Nat := c.offset - h.width

end AttestedChannel.Cbor
