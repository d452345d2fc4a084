import AttestedChannel.Cbor.Reader

/-!
# Skipping items

The value under a name that a record does not know is skipped, but not unchecked: it has to be well
formed, its texts have to be UTF-8, and its nesting counts. `skip depth` reads one item of any kind
with at most `depth` levels inside each other; the recursion is on that number.

A tag counts as a level, except before a short byte string when the two together write a bignum.
-/

namespace AttestedChannel.Cbor

/-- Skips the two items of a map entry. -/
def skipEntry (inner : Reader Unit) : ItemReader Unit := fun _ start h c =>
  match inner start h c with
  | .error e => .error e
  | .ok (_, d) => inner.run d

/-- The longest byte string that a tag turns into a bignum where any item is allowed. -/
def bignumSize : Nat := 16

/-- Skips the item behind a tag of a bignum whose own head is `h`. The absolute value of a negative
bignum is limited to 127 bits. -/
def skipBignum (t : Nat) (start n : Nat) (c : Cursor) : Except Failure (Unit × Cursor) :=
  match readBignum start (some n) c with
  | .error e => .error e
  | .ok (value, d) =>
    if t = 3 ∧ 1 <<< 127 ≤ value then .error (.refused none .integerTooLarge) else .ok ((), d)

/-- Skips an item whose inner items are skipped by `inner`; without `inner` there may be none. -/
def skipWith (inner : Option (Reader Unit)) : Reader Unit := fun _ h c =>
  match h with
  | .unsigned _ | .negative _ | .float _ => .ok ((), c)
  | .simple 20 | .simple 21 | .simple 22 | .simple 23 => .ok ((), c)
  | .simple _ => .error (h.refuse .knownSimple)
  | .stop => .error (h.refuse .item)
  | .bytes n =>
    match readBytes (c.startOf h) n c with
    | .error e => .error e
    | .ok (_, d) => .ok ((), d)
  | .text n =>
    match readText (c.startOf h) n c with
    | .error e => .error e
    | .ok (_, d) => .ok ((), d)
  | .array n =>
    match inner with
    | none => .error .tooDeep
    | some r => readContainer (fun _ => r) n () c
  | .map n =>
    match inner with
    | none => .error .tooDeep
    | some r => readContainer (skipEntry r) n () c
  | .tag t =>
    if t = 2 ∨ t = 3 then
      match Head.read c with
      | .error e => .error e
      | .ok (g, d) =>
        match g, inner with
        | .bytes (some n), inner =>
          if n ≤ bignumSize then skipBignum t (d.startOf g) n d
          else match inner with
            | none => .error .tooDeep
            | some r => r.again c.offset g d
        | _, none => .error .tooDeep
        | g, some r => r.again c.offset g d
    else
      match inner with
      | none => .error .tooDeep
      | some r => r.run c

/-- Skips an item with at most `depth` levels. -/
def skip : (depth : Nat) → Reader Unit
  | 0 => skipWith none
  | depth + 1 => skipWith (some (skip depth))

end AttestedChannel.Cbor
