import AttestedChannel.Text.Hex

/-!
# Session numbers

A transport numbers its sessions with 64 bits; they are shown as sixteen hexadecimal digits.
-/

namespace AttestedChannel

/-- The number of a session. -/
structure SessionId where
  value : UInt64
deriving DecidableEq, Repr, Inhabited

namespace SessionId

/-- Sixteen hexadecimal digits. -/
def text (s : SessionId) : String := Text.Hex.padded 16 s.value.toNat

end SessionId

end AttestedChannel
