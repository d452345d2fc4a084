/-!
# Binary floating-point numbers

A double-precision number is its 64 bits: sign, eleven bits of exponent, 52 bits of fraction. The
library never computes with such numbers; it reads them in three widths, so all that is needed is to
widen a shorter format (`widen`) and to take a number apart (`classify`).
-/

namespace AttestedChannel

/-- A double-precision number by its bits. -/
structure Binary64 where
  bits : UInt64
deriving DecidableEq, Repr, Inhabited

namespace Binary64

/-- The number with the given sign, biased exponent and fraction. -/
def ofFields (negative : Bool) (exponent fraction : Nat) : Binary64 :=
  ⟨UInt64.ofNat ((if negative then 1 <<< 63 else 0) + exponent <<< 52 + fraction)⟩

/-- A format with `e` bits of exponent and `f` bits of fraction, widened without loss: infinities
and zeros stay what they are, a subnormal number becomes a normal one, and of a NaN only its being
one is kept. -/
def widen (e f bits : Nat) : Binary64 :=
  let negative := bits >>> (e + f) % 2 == 1
  let exponent := (bits >>> f) % (1 <<< e)
  let fraction := bits % (1 <<< f)
  if exponent = 1 <<< e - 1 then ofFields negative 2047 (if fraction = 0 then 0 else 1 <<< 51)
  else if exponent = 0 then
    if fraction = 0 then ofFields negative 0 0
    else
      let top := fraction.log2
      ofFields negative (1024 - 1 <<< (e - 1) + 1 + top - f) (fraction <<< (52 - top) - 1 <<< 52)
  else ofFields negative (1024 - 1 <<< (e - 1) + exponent) (fraction <<< (52 - f))

/-- A half-precision number. -/
def ofHalf (bits : Nat) : Binary64 := widen 5 10 bits

/-- A single-precision number. -/
def ofSingle (bits : Nat) : Binary64 := widen 8 23 bits

/-- What a bit pattern stands for: `finite m q` is `m * 2 ^ q`. -/
inductive Magnitude where
  | nan
  | infinite
  | finite (m : Nat) (q : Int)
deriving DecidableEq, Repr

/-- The sign bit. -/
def isNegative (x : Binary64) : Bool := x.bits.toNat >>> 63 == 1

/-- The number without its sign. -/
def magnitude (x : Binary64) : Magnitude :=
  let exponent := x.bits.toNat >>> 52 % 2048
  let fraction := x.bits.toNat % (1 <<< 52)
  if exponent = 2047 then (if fraction = 0 then .infinite else .nan)
  else if exponent = 0 then .finite fraction (-1074)
  else .finite (1 <<< 52 + fraction) (Int.ofNat exponent - 1075)

end Binary64

end AttestedChannel
