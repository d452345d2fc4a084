import AttestedChannel.Text.Hex
import AttestedChannel.Text.Unprintable

/-!
# Quoted text

Text inside an error message is put between double quotes, so that a peer cannot smuggle control
characters into a log: the quote and the backslash are escaped by a backslash, four control
characters have letters of their own, and every other unprintable character is written by its code
point.
-/

namespace AttestedChannel.Text.Quoted

/-- One character as it stands between the quotes. -/
def encodeChar (c : Char) : List Char :=
  if c = '"' then ['\\', '"']
  else if c = '\\' then ['\\', '\\']
  else if c = '\n' then ['\\', 'n']
  else if c = '\r' then ['\\', 'r']
  else if c = '\t' then ['\\', 't']
  else if c = '\x00' then ['\\', '0']
  else if isUnprintable c then
    ['\\', 'u', '\x7b'] ++ Hex.digits (Hex.width c.toNat) c.toNat ++ ['\x7d']
  else [c]

/-- The text between double quotes. -/
def encode (s : String) : String :=
  String.ofList ('"' :: s.toList.flatMap encodeChar ++ ['"'])

end AttestedChannel.Text.Quoted
