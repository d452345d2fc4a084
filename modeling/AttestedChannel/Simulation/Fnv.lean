import AttestedChannel.Bytes

/-!
# FNV-1a

The 64-bit FNV-1a hash with a free starting value. It tells apart any two byte strings of one length
that differ in one octet, which is all that the simulated quote asks of it.
-/

namespace AttestedChannel.Simulation.Fnv

/-- The factor of every step. -/
def prime : UInt64 := 0x100000001b3

/-- The usual starting value. -/
def offsetBasis : UInt64 := 0xcbf29ce484222325

/-- Adds one octet to a hash. -/
def step (h : UInt64) (x : UInt8) : UInt64 := (h ^^^ x.toUInt64) * prime

/-- The hash of a byte string. -/
def hash (start : UInt64) (b : Bytes) : UInt64 := b.foldl step start

end AttestedChannel.Simulation.Fnv
