import AttestedChannel.Bytes

/-!
# Reproducible randomness

Simulations draw their random octets from a fixed endless sequence. A draw takes the next octets and
then moves on to a multiple of the alignment, so that what is left of a started word is thrown away.
The state of a source is its position.

Two sequences are used: octets that count upwards (`counting`), and the ChaCha keystream of a seed
(`keystream`), with twenty rounds, a block counter of 64 bits from zero and stream number zero.
-/

namespace AttestedChannel.Simulation

/-- A source of random octets. -/
structure Entropy where
  octet : Nat → UInt8
  alignment : Nat
  position : Nat

namespace Entropy

/-- The next `n` octets. -/
def draw (e : Entropy) (n : Nat) : Bytes × Entropy :=
  let stop := e.position + n
  ((List.range n).map fun k => e.octet (e.position + k),
   { e with position := stop + (e.alignment - stop % e.alignment) % e.alignment })

/-- Octets that count upwards from a seed. -/
def counting (seed : Nat) : Entropy := ⟨fun k => UInt8.ofNat (seed + k), 1, 0⟩

end Entropy

/-! ## Keystream -/

namespace Keystream

/-- Four words. -/
structure Row where
  x : UInt32
  y : UInt32
  z : UInt32
  w : UInt32
deriving DecidableEq, Repr

namespace Row

/-- Combines two rows word by word. -/
def zip (f : UInt32 → UInt32 → UInt32) (a b : Row) : Row :=
  ⟨f a.x b.x, f a.y b.y, f a.z b.z, f a.w b.w⟩

/-- A word with its bits rotated to the left. -/
def rotateWord (n v : UInt32) : UInt32 := (v <<< n) ||| (v >>> (32 - n))

/-- Rotates the bits of every word. -/
def rotateBits (n : UInt32) (a : Row) : Row :=
  ⟨rotateWord n a.x, rotateWord n a.y, rotateWord n a.z, rotateWord n a.w⟩

/-- Moves every word one place to the left. -/
def shift (a : Row) : Row := ⟨a.y, a.z, a.w, a.x⟩

/-- The octets of a row, lowest octet of each word first. -/
def octets (a : Row) : Bytes :=
  [a.x, a.y, a.z, a.w].flatMap fun v => (Bytes.bigEndian 4 v.toNat).reverse

end Row

/-- Sixteen words in four rows. -/
structure Block where
  a : Row
  b : Row
  c : Row
  d : Row
deriving DecidableEq, Repr

namespace Block

/-- Half a quarter round on the four columns. -/
def halfRound (m n : UInt32) (s : Block) : Block :=
  let a := s.a.zip (· + ·) s.b
  let d := (s.d.zip (· ^^^ ·) a).rotateBits m
  let c := s.c.zip (· + ·) d
  let b := (s.b.zip (· ^^^ ·) c).rotateBits n
  ⟨a, b, c, d⟩

/-- A round on the four columns. -/
def columnRound (s : Block) : Block := (s.halfRound 16 12).halfRound 8 7

/-- A round on the columns and one on the diagonals. -/
def doubleRound (s : Block) : Block :=
  let t := s.columnRound
  let u := (⟨t.a, t.b.shift, t.c.shift.shift, t.d.shift.shift.shift⟩ : Block).columnRound
  ⟨u.a, u.b.shift.shift.shift, u.c.shift.shift, u.d.shift⟩

/-- Ten double rounds, added to the block that they started from. -/
def scramble (s : Block) : Block :=
  let t := (List.range 10).foldl (fun t _ => t.doubleRound) s
  ⟨s.a.zip (· + ·) t.a, s.b.zip (· + ·) t.b, s.c.zip (· + ·) t.c, s.d.zip (· + ·) t.d⟩

/-- The octets of a block. -/
def octets (s : Block) : Bytes := s.a.octets ++ s.b.octets ++ s.c.octets ++ s.d.octets

end Block

/-- The next state of the generator that spreads a seed over a key. -/
def nextState (state : UInt64) : UInt64 := state * 6364136223846793005 + 11634580027462260723

/-- The key word of a state. -/
def keyWord (state : UInt64) : UInt32 :=
  let x := (((state >>> 18) ^^^ state) >>> 27).toUInt32
  let n := (state >>> 59).toUInt32
  (x >>> n) ||| (x <<< ((32 - n) % 32))

/-- The first four key words after a state, and the state they leave. -/
def keyRow (state : UInt64) : Row × UInt64 :=
  let s := nextState state
  let t := nextState s
  let u := nextState t
  let v := nextState u
  (⟨keyWord s, keyWord t, keyWord u, keyWord v⟩, v)

/-- The block of a seed and a counter before it is scrambled. -/
def block (seed : UInt64) (counter : Nat) : Block :=
  let (low, state) := keyRow seed
  let (high, _) := keyRow state
  ⟨⟨0x61707865, 0x3320646e, 0x79622d32, 0x6b206574⟩, low, high,
   ⟨UInt32.ofNat counter, UInt32.ofNat (counter >>> 32), 0, 0⟩⟩

/-- An octet of the keystream of a seed. -/
def octet (seed : UInt64) (k : Nat) : UInt8 :=
  (block seed (k / 64)).scramble.octets.getD (k % 64) 0

end Keystream

/-- The keystream of a seed, in words. -/
def Entropy.keystream (seed : UInt64) : Entropy := ⟨Keystream.octet seed, 4, 0⟩

end AttestedChannel.Simulation
