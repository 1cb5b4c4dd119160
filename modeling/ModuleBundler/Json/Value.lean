/-!
# JSON values

A JSON value with the members of its objects in the order in which they were
written.  Numbers that are not whole, or that need more than 64 bits, are kept
as the text of their shortest decimal.
-/

namespace ModuleBundler
namespace Json

/-- A JSON value. -/
inductive Value where
  | null
  | flag (value : Bool)
  /-- A whole number that fits 64 bits, with or without sign. -/
  | whole (value : Int)
  /-- Any other number, as the text of its shortest decimal. -/
  | decimal (digits : String)
  | text (value : String)
  | list (items : List Value)
  | table (members : List (String × Value))
deriving Repr, Inhabited, BEq

end Json
end ModuleBundler
