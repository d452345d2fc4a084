import AttestedChannel.Binary64

/-!
# Shortest decimals

A number is shown with the fewest digits that still read back as the same number, and of those as
near to it as possible. All arithmetic is exact.

The reals that read back as `m * 2 ^ q` form the interval from half a step below it to half a step
above it, ends included when `m` is even. On the grid of the multiples of `10 ^ k` only the two
neighbours of the number can lie nearest, so `onGrid` tests those two, and `shortest` walks from a
coarse grid to finer ones until one of them has a hit: that is the grid with the fewest digits.
-/

namespace AttestedChannel.Binary64

/-- The decimal `digits * 10 ^ exponent`. -/
structure Decimal where
  digits : Nat
  exponent : Int
deriving DecidableEq, Repr

/-- The point of the grid `10 ^ k` that is nearest to `m * 2 ^ q` and reads back as it, if there is
one; halfway between two, the upper. Both sides of every comparison are scaled to whole numbers of
quarter steps. -/
def onGrid (m : Nat) (q k : Int) : Option Decimal :=
  let grid := Nat.pow 10 k.toNat <<< (2 - q).toNat
  let step := Nat.pow 10 (-k).toNat <<< (q - 2).toNat
  let low := (if m = 1 <<< 52 ∧ -1074 < q then 4 * m - 1 else 4 * m - 2) * step
  let high := (4 * m + 2) * step
  let value := 4 * m * step
  let inside (d : Nat) : Bool :=
    if m % 2 = 0 then low ≤ d * grid && d * grid ≤ high else low < d * grid && d * grid < high
  let below := value / grid
  if inside below then
    if inside (below + 1) && (below + 1) * grid - value ≤ value - below * grid then
      some ⟨below + 1, k⟩
    else some ⟨below, k⟩
  else if inside (below + 1) then some ⟨below + 1, k⟩
  else none

/-- The first hit among the grids `10 ^ k`, `10 ^ (k - 1)` and so on, at most `n` of them. -/
def search (m : Nat) (q : Int) : Nat → Int → Option Decimal
  | 0, _ => none
  | n + 1, k =>
    match onGrid m q k with
    | some d => some d
    | none => search m q n (k - 1)

/-- An exponent of ten whose power is not below `m * 2 ^ q`, and at most two decimal places above
it. -/
def coarseGrid (m : Nat) (q : Int) : Int := (Int.ofNat (m.log2 + 1) + q) * 30103 / 100000 + 1

/-- The shortest decimal that reads back as `m * 2 ^ q`. Seventeen digits always suffice, so twenty
grids from the coarse one are enough. -/
def shortest (m : Nat) (q : Int) : Decimal :=
  if m = 0 then ⟨0, 0⟩ else (search m q 20 (coarseGrid m q)).getD ⟨0, 0⟩

/-- A decimal in positional notation, with at least one digit on each side of the point. -/
def Decimal.positional (d : Decimal) : String :=
  let cs := Nat.toDigits 10 d.digits
  match d.exponent with
  | .ofNat n => String.ofList (cs ++ List.replicate n '0' ++ ['.', '0'])
  | .negSucc n =>
    let places := n + 1
    let padded := List.replicate (places + 1 - cs.length) '0' ++ cs
    let whole := padded.length - places
    String.ofList (padded.take whole ++ '.' :: padded.drop whole)

/-- The number in positional notation, however large or small it is. -/
def text (x : Binary64) : String :=
  let sign := if x.isNegative then "-" else ""
  match x.magnitude with
  | .nan => "NaN"
  | .infinite => sign ++ "inf"
  | .finite m q => sign ++ (shortest m q).positional

end AttestedChannel.Binary64
