import ModuleBundler.Text.Quoted

/-!
# Faults in JSON texts

Why a text is no JSON, or not JSON of the expected shape, and where.  A place is
a line, counted from one, and the number of bytes of that line that were read.

Main results:

- Theorem {lit}`Json.Fault.message_of_spot_none`: a fault without a place is its reason.
-/

namespace ModuleBundler
namespace Json

/-- How far a text was read: a line and the bytes read in it. -/
structure Spot where
  line : Nat
  column : Nat
deriving DecidableEq, Repr, Inhabited

/-- What was found where something else was expected. -/
inductive Found where
  | null
  | flag (value : Bool)
  | whole (value : Int)
  | decimal (digits : String)
  | text (value : String)
  | list
  | table
deriving DecidableEq, Repr

namespace Found

/-- The find in words. -/
def describe : Found → String
  | null => "null"
  | flag value => "boolean `" ++ (if value then "true" else "false") ++ "`"
  | whole value => "integer `" ++ toString value ++ "`"
  | decimal digits => "floating point `" ++ digits ++ "`"
  | text value => "string " ++ Text.Quoted.quote value
  | list => "sequence"
  | table => "map"

end Found

/-- Why a text cannot be read. -/
inductive Reason where
  | endInList
  | endInTable
  | endInText
  | endInValue
  | expectedColon
  | expectedListCommaOrEnd
  | expectedTableCommaOrEnd
  | expectedIdent
  | expectedValue
  | invalidEscape
  | invalidNumber
  | numberOutOfRange
  | controlCharacter
  | keyNotText
  | loneSurrogate
  | endOfEscape
  | trailingComma
  | trailingCharacters
  | tooDeep
  /-- A value of another type than the expected one. -/
  | invalidType (found : Found) (expected : String)
  /-- A value of the expected type outside its range. -/
  | invalidValue (found : Found) (expected : String)
  /-- A list with another number of items than expected. -/
  | invalidLength (length : Nat) (expected : String)
  | missingField (name : String)
  | duplicateField (name : String)
  /-- A tag that names none of the variants. -/
  | unknownVariant (tag : String) (variants : List String)
deriving DecidableEq, Repr

namespace Reason

/-- The reason in words. -/
def message : Reason → String
  | endInList => "EOF while parsing a list"
  | endInTable => "EOF while parsing an object"
  | endInText => "EOF while parsing a string"
  | endInValue => "EOF while parsing a value"
  | expectedColon => "expected `:`"
  | expectedListCommaOrEnd => "expected `,` or `]`"
  | expectedTableCommaOrEnd => "expected `,` or `\x7d`"
  | expectedIdent => "expected ident"
  | expectedValue => "expected value"
  | invalidEscape => "invalid escape"
  | invalidNumber => "invalid number"
  | numberOutOfRange => "number out of range"
  | controlCharacter => "control character (\\u0000-\\u001F) found while parsing a string"
  | keyNotText => "key must be a string"
  | loneSurrogate => "lone leading surrogate in hex escape"
  | endOfEscape => "unexpected end of hex escape"
  | trailingComma => "trailing comma"
  | trailingCharacters => "trailing characters"
  | tooDeep => "recursion limit exceeded"
  | invalidType found expected => "invalid type: " ++ found.describe ++ ", expected " ++ expected
  | invalidValue found expected => "invalid value: " ++ found.describe ++ ", expected " ++ expected
  | invalidLength length expected =>
    "invalid length " ++ toString length ++ ", expected " ++ expected
  | missingField name => "missing field `" ++ name ++ "`"
  | duplicateField name => "duplicate field `" ++ name ++ "`"
  | unknownVariant tag variants =>
    "unknown variant `" ++ tag ++ "`, expected " ++
      " or ".intercalate (variants.map fun name => "`" ++ name ++ "`")

end Reason

/-- A reason and, unless the content of an already read value is at fault, its place. -/
structure Fault where
  reason : Reason
  spot : Option Spot
deriving DecidableEq, Repr

namespace Fault

/-- The fault in words, with its place behind it. -/
def message (fault : Fault) : String :=
  match fault.spot with
  | none => fault.reason.message
  | some spot =>
    fault.reason.message ++ " at line " ++ toString spot.line ++ " column " ++ toString spot.column

/-- The fault with a place, where it has none of its own. -/
def locate (fault : Fault) (spot : Spot) : Fault :=
  ⟨fault.reason, some (fault.spot.getD spot)⟩

theorem message_of_spot_none (reason : Reason) :
    (Fault.mk reason none).message = reason.message := rfl

theorem locate_of_spot (reason : Reason) (own spot : Spot) :
    (Fault.mk reason (some own)).locate spot = ⟨reason, some own⟩ := rfl

end Fault

end Json
end ModuleBundler
