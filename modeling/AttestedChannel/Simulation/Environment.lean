import AttestedChannel.Duration
import AttestedChannel.Simulation.Entropy

/-!
# Simulated environments

An environment has a source of randomness and a clock. A simulated one draws from the keystream of a
seed and sleeps on a virtual clock, so that it does the same in every run.
-/

namespace AttestedChannel.Simulation

/-- A source of randomness and the time that has been slept, in nanoseconds. -/
structure Environment where
  entropy : Entropy
  elapsed : Nat

namespace Environment

/-- The environment of a seed. -/
def ofSeed (seed : UInt64) : Environment := ⟨.keystream seed, 0⟩

/-- The next `n` random octets. -/
def bytes (e : Environment) (n : Nat) : Bytes × Environment :=
  let (b, entropy) := e.entropy.draw n
  (b, { e with entropy := entropy })

/-- The next random number, highest octet first. -/
def number (e : Environment) : UInt64 × Environment :=
  let (b, e) := e.bytes 8
  (UInt64.ofNat b.toNat, e)

/-- Lets time pass. -/
def sleep (e : Environment) (d : Duration) : Environment :=
  { e with elapsed := e.elapsed + d.toNanos }

/-- The time that has been slept, in whole milliseconds. -/
def elapsedMillis (e : Environment) : Nat := e.elapsed / Duration.nanosPerMilli

end Environment

end AttestedChannel.Simulation
