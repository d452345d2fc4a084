import AttestedChannel.Binary64.Shortest
import AttestedChannel.Text.Quoted

/-!
# Why a CBOR item is not accepted

Reading an item fails in four ways: the input ends, it is not well formed, it is well formed but not
what was wanted, or it is nested too deeply. A refusal keeps its cause; the wording is in `message`,
and `Failure.text` shows a failure on one line, which is what travels to the peer.
-/

namespace AttestedChannel.Cbor

/-- What was found where something else was wanted. -/
inductive Found where
  | integer (value : Int)
  | bytes
  | string
  | sequence
  | map
  | tag
  | boolean (value : Bool)
  | null
  | undefined
  | simple
  | float (value : Binary64)
  | stop
deriving DecidableEq, Repr

/-- What was wanted. -/
inductive Wanted where
  | map
  | array
  | string
  | variant
  | integer
  | name
  | bytes
  | knownSimple
  | item
deriving DecidableEq, Repr

/-- Why a well-formed item was not accepted. -/
inductive Refusal where
  /-- an item of another kind -/
  | wrongKind (found : Found) (wanted : Wanted)
  /-- a number that does not fit `width` bits -/
  | outOfRange (value width : Nat)
  | negativeInteger
  /-- a bignum of more than sixteen significant octets -/
  | bignumTooLarge
  | integerTooLarge
  /-- a number that is none of the codes -/
  | unknownCode (value : Nat) (codes : List Nat)
  | missingField (name : String)
  | duplicateField (name : String)
  | unknownField (name : String) (known : List String)
  | unknownVariant (name : String) (known : List String)
  | notBoolean
  | durationOverflow
deriving DecidableEq, Repr

/-- Why no item was read. -/
inductive Failure where
  | endOfInput
  /-- the input is not well formed at `offset` -/
  | malformed (offset : Nat)
  | refused (offset : Option Nat) (why : Refusal)
  /-- more than the allowed number of nested items -/
  | tooDeep
deriving DecidableEq, Repr

/-! ## Wording -/

/-- The name of what was found. -/
def Found.describe : Found → String
  | .integer n => "integer `" ++ toString n ++ "`"
  | .bytes => "bytes"
  | .string => "string"
  | .sequence => "sequence"
  | .map => "map"
  | .tag => "tag"
  | .boolean b => "boolean `" ++ (if b then "true" else "false") ++ "`"
  | .null => "null"
  | .undefined => "undefined"
  | .simple => "simple"
  | .float x => "floating point `" ++ x.text ++ "`"
  | .stop => "break"

/-- The name of what was wanted. -/
def Wanted.describe : Wanted → String
  | .map => "map"
  | .array => "array"
  | .string => "string"
  | .variant => "enum"
  | .integer => "integer"
  | .name => "str or bytes"
  | .bytes => "bytes"
  | .knownSimple => "known simple value"
  | .item => "non-break"

/-- A list of alternatives in words. -/
def alternatives (names : List String) : String :=
  match names.map (fun s => "`" ++ s ++ "`") with
  | [] => "nothing"
  | [a] => a
  | [a, b] => a ++ " or " ++ b
  | all => "one of " ++ ", ".intercalate all

/-- The refusal in words. -/
def Refusal.message : Refusal → String
  | .wrongKind found wanted =>
    "invalid type: " ++ found.describe ++ ", expected " ++ wanted.describe
  | .outOfRange n w => "invalid value: integer `" ++ toString n ++ "`, expected u" ++ toString w
  | .negativeInteger => "unexpected negative integer"
  | .bignumTooLarge => "bigint too large"
  | .integerTooLarge => "integer too large"
  | .unknownCode n codes =>
    "invalid value: " ++ toString n ++ ", expected one of: " ++
      ", ".intercalate (codes.map toString)
  | .missingField name => "missing field `" ++ name ++ "`"
  | .duplicateField name => "duplicate field `" ++ name ++ "`"
  | .unknownField name known => "unknown field `" ++ name ++ "`, expected " ++ alternatives known
  | .unknownVariant name known =>
    "unknown variant `" ++ name ++ "`, expected " ++ alternatives known
  | .notBoolean => "expected bool"
  | .durationOverflow => "overflow deserializing Duration"

/-- The failure on one line. -/
def Failure.text : Failure → String
  | .endOfInput =>
    "Io(Error \x7b kind: UnexpectedEof, message: \"failed to fill whole buffer\" \x7d)"
  | .malformed offset => "Syntax(" ++ toString offset ++ ")"
  | .refused none why => "Semantic(None, " ++ Text.Quoted.encode why.message ++ ")"
  | .refused (some offset) why =>
    "Semantic(Some(" ++ toString offset ++ "), " ++ Text.Quoted.encode why.message ++ ")"
  | .tooDeep => "RecursionLimitExceeded"

end AttestedChannel.Cbor
