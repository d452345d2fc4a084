import AttestedChannel.Cbor.Reader
import AttestedChannel.Cbor.Write

/-!
# Property masks

A property mask selects measured properties of a platform by their index, 0 to 31. The first eleven
have names. `indices` lists a mask, `ofIndices` builds one; indices of 32 and above select nothing.
-/

namespace AttestedChannel

/-- A set of properties, one bit for each. -/
structure PropertyMask where
  bits : UInt32
deriving DecidableEq, Repr, Inhabited

namespace PropertyMask

/-- The empty mask. -/
def empty : PropertyMask := ⟨0⟩

/-- The named properties. -/
def basic : PropertyMask := ⟨0x7FF⟩

/-- The first twenty-four properties. -/
def platform : PropertyMask := ⟨0xFFFFFF⟩

/-- Every bit. -/
def full : PropertyMask := ⟨0xFFFFFFFF⟩

/-- Whether the mask selects the property of an index. -/
def selects (m : PropertyMask) (i : Nat) : Bool := m.bits.toNat.testBit i

/-- The selected indices in ascending order. -/
def indices (m : PropertyMask) : List UInt8 := ((List.range 32).filter m.selects).map UInt8.ofNat

/-- Whether nothing is selected. -/
def isEmpty (m : PropertyMask) : Bool := m.bits == 0

/-- Whether every bit is set. -/
def isFull (m : PropertyMask) : Bool := m == full

/-! ## Set operations -/

/-- What either mask selects. -/
def union (m n : PropertyMask) : PropertyMask := ⟨m.bits ||| n.bits⟩

/-- The mask that selects one index. -/
def single (i : UInt8) : PropertyMask := if i < 32 then ⟨1 <<< i.toUInt32⟩ else empty

/-- The mask that selects the given indices. -/
def ofIndices (is : List UInt8) : PropertyMask := is.foldr (fun i m => (single i).union m) empty

/-- What both masks select. -/
def inter (m n : PropertyMask) : PropertyMask := ⟨m.bits &&& n.bits⟩

/-- What the first mask selects and the second does not. -/
def diff (m n : PropertyMask) : PropertyMask := ⟨m.bits &&& ~~~n.bits⟩

/-- What exactly one of the masks selects. -/
def symmDiff (m n : PropertyMask) : PropertyMask := ⟨m.bits ^^^ n.bits⟩

/-- What the mask does not select. -/
def compl (m : PropertyMask) : PropertyMask := ⟨~~~m.bits⟩

/-- Whether the first mask selects all that the second selects. -/
def includes (m n : PropertyMask) : Bool := m.inter n == n

/-- Whether some property is selected by both. -/
def intersects (m n : PropertyMask) : Bool := !(m.inter n).isEmpty

/-! ## Names -/

/-- The names of the first properties, by index. -/
def propertyNames : List String :=
  ["FIRMWARE", "FIRMWARE_CONFIG", "OPTION_ROMS", "OPTION_ROM_CONFIG", "BOOT_LOADER",
   "BOOT_LOADER_CONFIG", "PLATFORM_STATE", "SECURE_BOOT_POLICY", "KERNEL", "KERNEL_CONFIG",
   "RUNTIME"]

/-- The names of the selected properties that have one. -/
def names (m : PropertyMask) : List String :=
  propertyNames.zipIdx.filterMap fun (s, i) => if m.selects i then some s else none

/-- The mask on one line: the names it selects, then the other bits as a number. -/
def describe (m : PropertyMask) : String :=
  let unnamed := m.diff basic
  let parts :=
    m.names ++ if m.isEmpty || !unnamed.isEmpty then ["0x" ++ Text.Hex.shortest unnamed.bits.toNat]
      else []
  "PropertyMask(" ++ " | ".intercalate parts ++ ")"

/-! ## On the wire -/

/-- The mask as a number. -/
def write (m : PropertyMask) : Bytes := Cbor.Write.unsigned m.bits.toNat

/-- Reads a mask. -/
def reader : Cbor.Reader PropertyMask := Cbor.uint32.map PropertyMask.mk

end PropertyMask

end AttestedChannel
