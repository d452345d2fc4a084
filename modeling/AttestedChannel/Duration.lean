import AttestedChannel.Cbor.Record
import AttestedChannel.Cbor.Write

/-!
# Durations

A duration is a number of whole seconds and a number of nanoseconds. `text` shows it in the largest
unit in which it is not below one, with no more decimals than it needs. On the wire it is a record
of the two numbers; a reader carries excess nanoseconds into the seconds and refuses other entries.
-/

namespace AttestedChannel

/-- A span of time. -/
structure Duration where
  seconds : UInt64
  nanos : UInt32
deriving DecidableEq, Repr, Inhabited

namespace Duration

/-- Nanoseconds in a second. -/
def nanosPerSecond : Nat := 1000000000

/-- Nanoseconds in a millisecond. -/
def nanosPerMilli : Nat := 1000000

/-- The whole span in nanoseconds. -/
def toNanos (d : Duration) : Nat := d.seconds.toNat * nanosPerSecond + d.nanos.toNat

/-- A span of `n` nanoseconds. -/
def ofNanos (n : Nat) : Duration :=
  ⟨UInt64.ofNat (n / nanosPerSecond), UInt32.ofNat (n % nanosPerSecond)⟩

/-- A span of `n` seconds. -/
def ofSeconds (n : Nat) : Duration := ⟨UInt64.ofNat n, 0⟩

/-- A span of `n` milliseconds. -/
def ofMillis (n : Nat) : Duration := ofNanos (n * nanosPerMilli)

/-- `n` padded with zeros to `w` decimal digits. -/
def paddedDigits (w n : Nat) : List Char :=
  let ds := Nat.toDigits 10 n
  List.replicate (w - ds.length) '0' ++ ds

/-- `whole` and a fraction of `w` decimal places, without the zeros at its end. -/
def decimalText (whole w fraction : Nat) : String :=
  let places := ((paddedDigits w fraction).reverse.dropWhile (· == '0')).reverse
  let point := if fraction = 0 then [] else '.' :: places
  String.ofList (Nat.toDigits 10 whole ++ point)

/-- The span in the largest unit that it fills: seconds, milliseconds, microseconds, nanoseconds. -/
def text (d : Duration) : String :=
  let n := d.nanos.toNat
  if 0 < d.seconds then decimalText d.seconds.toNat 9 n ++ "s"
  else if 1000000 ≤ n then decimalText (n / 1000000) 6 (n % 1000000) ++ "ms"
  else if 1000 ≤ n then decimalText (n / 1000) 3 (n % 1000) ++ "µs"
  else decimalText n 0 0 ++ "ns"

/-! ## On the wire -/

/-- A duration while its entries are read. -/
structure Draft where
  seconds : Option UInt64
  nanos : Option UInt32

/-- No entry read. -/
def Draft.empty : Draft := ⟨none, none⟩

/-- The fields of a duration. -/
def fields : List (Cbor.Field Draft) :=
  [.ofReader "secs" (·.seconds) (fun d v => { d with seconds := some v }) (fun _ => Cbor.uint64),
   .ofReader "nanos" (·.nanos) (fun d v => { d with nanos := some v }) (fun _ => Cbor.uint32)]

/-- The span of `seconds` and any number of nanoseconds, unless its seconds exceed 64 bits. -/
def carry? (seconds : UInt64) (nanos : UInt32) : Option Duration :=
  let whole := seconds.toNat + nanos.toNat / nanosPerSecond
  if whole < 0x10000000000000000 then
    some ⟨UInt64.ofNat whole, UInt32.ofNat (nanos.toNat % nanosPerSecond)⟩
  else none

/-- The duration of a draft that has every field. -/
def ofDraft (d : Draft) : Except Cbor.Failure Duration := do
  let seconds ← Cbor.required "secs" d.seconds
  let nanos ← Cbor.required "nanos" d.nanos
  match carry? seconds nanos with
  | some d => return d
  | none => throw (.refused none .durationOverflow)

/-- Reads a duration. -/
def reader (depth : Nat) : Cbor.Reader Duration :=
  Cbor.record fields (Cbor.refuseUnknown ["secs", "nanos"]) .empty ofDraft depth

/-- The octets of a duration. -/
def encode (d : Duration) : Bytes :=
  Cbor.Write.record
    [("secs", Cbor.Write.unsigned d.seconds.toNat), ("nanos", Cbor.Write.unsigned d.nanos.toNat)]

end Duration

end AttestedChannel
