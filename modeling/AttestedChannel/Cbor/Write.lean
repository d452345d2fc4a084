import AttestedChannel.Cbor.Head
import AttestedChannel.Text.Utf8

/-!
# Writing CBOR

Values are written in one way only: every argument in its shortest form, every length in front,
octets as an array of numbers, records as maps from names to values in the order of their fields.
-/

namespace AttestedChannel.Cbor.Write

/-- A number below `2 ^ 64`. -/
def unsigned (n : Nat) : Bytes := Head.write 0 n

/-- A text. -/
def text (s : String) : Bytes :=
  let b := Text.Utf8.encode s
  Head.write 3 b.length ++ b

/-- A truth value. -/
def boolean (b : Bool) : Bytes := [if b then 0xF5 else 0xF4]

/-- The absent value. -/
def null : Bytes := [0xF6]

/-- Octets, as an array of numbers. -/
def octets (b : Bytes) : Bytes := Head.write 4 b.length ++ b.flatMap fun x => unsigned x.toNat

/-- A value, or null when it is absent. -/
def optional {α : Type} (write : α → Bytes) : Option α → Bytes
  | some a => write a
  | none => null

/-- A record: the names of its fields and their written values. -/
def record (entries : List (String × Bytes)) : Bytes :=
  Head.write 5 entries.length ++ entries.flatMap fun e => text e.1 ++ e.2

/-- The entry of an optional field, which is left out when it is absent. -/
def entry? {α : Type} (name : String) (write : α → Bytes) : Option α → List (String × Bytes)
  | some a => [(name, write a)]
  | none => []

end AttestedChannel.Cbor.Write
