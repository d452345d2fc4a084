import AttestedChannel.Bytes

/-!
# Hexadecimal text

Numbers and octets in lower-case hexadecimal: session numbers, unknown mask bits, escapes and
message type codes are shown this way.
-/

namespace AttestedChannel.Text.Hex

/-- The digit of a value below sixteen. -/
def digit (d : Nat) : Char := if d < 10 then Char.ofNat (0x30 + d) else Char.ofNat (0x57 + d)

/-- The `w` lowest hexadecimal digits of `n`. -/
def digits : Nat → Nat → List Char
  | 0, _ => []
  | w + 1, n => digits w (n / 16) ++ [digit (n % 16)]

theorem length_digits (w n : Nat) : (digits w n).length = w := by
  induction w generalizing n with
  | zero => rfl
  | succ w ih => simp [digits, ih]

/-- The number of hexadecimal digits of `n` without leading zeros, at least one. -/
def width (n : Nat) : Nat := if n < 16 then 1 else n.log2 / 4 + 1

/-- `n` without leading zeros. -/
def shortest (n : Nat) : String := String.ofList (digits (width n) n)

/-- `n` padded with zeros to `w` digits; more digits if it needs them. -/
def padded (w n : Nat) : String := String.ofList (digits (max w (width n)) n)

/-- Two digits for each octet. -/
def ofBytes (b : Bytes) : String := String.ofList (b.flatMap fun x => digits 2 x.toNat)

end AttestedChannel.Text.Hex
