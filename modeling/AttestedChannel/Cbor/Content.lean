import AttestedChannel.Cbor.Head
import AttestedChannel.Text.Utf8

/-!
# Content of byte strings and texts

The content of a byte string or a text either has a length or comes in segments that end at a stop;
segments may nest. `pieces` walks the segments, and a *piece* reader consumes the content of one
segment.

Text is read in chunks: `chunkSize` octets, of which up to three may be carried over from the chunk
before, because a character may straddle two chunks. What is left ill-formed at the end of a chunk
is carried if it is at most three octets long and is an error otherwise; nothing may be left at the
end of a segment. The error names the place where the segment starts.
-/

namespace AttestedChannel.Cbor

/-! ## Segments -/

/-- Consumes the content of one segment, given where the segment starts and how long it is. -/
abbrev Piece (σ : Type) := (start length : Nat) → σ → Cursor → Except Failure (σ × Cursor)

/-- Reads segments up to the stop that ends the outermost of `nested` contents. `lengthOf` tells the
segments from other items. Each round takes a head, so `fuel` beyond the length of the input is
never used up. -/
def segments {σ : Type} (lengthOf : Head → Option (Option Nat)) (piece : Piece σ) :
    (fuel nested : Nat) → σ → Cursor → Except Failure (σ × Cursor)
  | 0, _, _, _ => .error .endOfInput
  | _ + 1, 0, s, c => .ok (s, c)
  | fuel + 1, nested + 1, s, c =>
    match Head.read c with
    | .error e => .error e
    | .ok (.stop, d) => segments lengthOf piece fuel nested s d
    | .ok (h, d) =>
      match lengthOf h with
      | none => .error (.malformed c.offset)
      | some none => segments lengthOf piece fuel (nested + 2) s d
      | some (some n) =>
        match piece c.offset n s d with
        | .error e => .error e
        | .ok (s, d) => segments lengthOf piece fuel (nested + 1) s d

/-- Reads content whose head announced `length` and is reported to start at `start`. -/
def pieces {σ : Type} (lengthOf : Head → Option (Option Nat)) (piece : Piece σ) (start : Nat)
    (length : Option Nat) (s : σ) (c : Cursor) : Except Failure (σ × Cursor) :=
  match length with
  | some n => piece start n s c
  | none => segments lengthOf piece (c.rest.length + 2) 1 s c

/-! ## Byte strings -/

/-- The segments of a byte string. -/
def bytesLength : Head → Option (Option Nat)
  | .bytes n => some n
  | _ => none

/-- Adds one segment to the octets read so far, last one first. -/
def bytesPiece : Piece Bytes := fun _ n read c =>
  match c.take n with
  | .error e => .error e
  | .ok (b, d) => .ok (b.reverse ++ read, d)

/-- The content of a byte string. -/
def readBytes (start : Nat) (length : Option Nat) (c : Cursor) : Except Failure (Bytes × Cursor) :=
  match pieces bytesLength bytesPiece start length [] c with
  | .error e => .error e
  | .ok (read, d) => .ok (read.reverse, d)

/-! ## Texts -/

/-- The number of octets that are checked at a time. -/
def chunkSize : Nat := 4096

/-- What a chunk hands on to the next one. -/
abbrev Carry := { b : Bytes // b.length ≤ 3 }

/-- Adds a segment of which `unread` octets are left to the characters read so far, last one first.
-/
def textChunks (start : Nat) (carry : Carry) (unread : Nat) (read : List Char) (c : Cursor) :
    Except Failure (List Char × Cursor) :=
  if unread = 0 then
    if carry.val.isEmpty then .ok (read, c) else .error (.malformed start)
  else
    match c.take (min (chunkSize - carry.val.length) unread) with
    | .error e => .error e
    | .ok (b, d) =>
      match Text.Utf8.scan (carry.val ++ b) with
      | (cs, left) =>
        if h : left.length ≤ 3 then
          textChunks start ⟨left, h⟩ (unread - min (chunkSize - carry.val.length) unread)
            (cs.reverse ++ read) d
        else .error (.malformed start)
termination_by unread
decreasing_by
  have := carry.property
  simp only [chunkSize]
  omega

/-- The segments of a text. -/
def textLength : Head → Option (Option Nat)
  | .text n => some n
  | _ => none

/-- Adds one segment to the characters read so far, last one first. -/
def textPiece : Piece (List Char) := fun start n read c => textChunks start ⟨[], by simp⟩ n read c

/-- The content of a text. -/
def readText (start : Nat) (length : Option Nat) (c : Cursor) : Except Failure (String × Cursor) :=
  match pieces textLength textPiece start length [] c with
  | .error e => .error e
  | .ok (read, d) => .ok (String.ofList read.reverse, d)

/-! ## Bignums -/

/-- Adds octets to a number of `size` significant octets; `none` when there would be more than
sixteen. -/
def addOctets : (value size : Nat) → Bytes → Option (Nat × Nat)
  | value, size, [] => some (value, size)
  | value, size, x :: b =>
    if size = 16 then none
    else if size = 0 ∧ x = 0 then addOctets value size b
    else addOctets (value * 256 + x.toNat) (size + 1) b

/-- Adds a segment of which `unread` octets are left to a number of `size` significant octets,
sixteen octets at a time. -/
def bignumChunks (unread : Nat) (number : Nat × Nat) (c : Cursor) :
    Except Failure ((Nat × Nat) × Cursor) :=
  if unread = 0 then .ok (number, c)
  else
    match c.take (min 16 unread) with
    | .error e => .error e
    | .ok (b, d) =>
      match addOctets number.1 number.2 b with
      | none => .error (.refused none .bignumTooLarge)
      | some number => bignumChunks (unread - min 16 unread) number d
termination_by unread
decreasing_by omega

/-- The number that the content of a byte string writes: leading zeros do not count, and at most
sixteen octets may follow them. -/
def readBignum (start : Nat) (length : Option Nat) (c : Cursor) : Except Failure (Nat × Cursor) :=
  match pieces bytesLength (fun _ n number c => bignumChunks n number c) start length (0, 0) c with
  | .error e => .error e
  | .ok (number, d) => .ok (number.1, d)

end AttestedChannel.Cbor
