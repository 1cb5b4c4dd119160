import ModuleBundler.Json.Scalar

/-!
# Reading over a value

A value that nobody asks for is read over without being built.  Its nesting is
kept on a stack of open brackets, so it may be as deep as it likes.
-/

namespace ModuleBundler
namespace Json

/-- An open bracket. -/
inductive Bracket where
  | list
  | table
deriving DecidableEq, Repr

namespace Bracket

/-- The character that closes the bracket. -/
def closing : Bracket → Char
  | list => ']'
  | table => '\x7d'

/-- The fault of a text that ends inside the bracket. -/
def atEnd : Bracket → Reason
  | list => .endInList
  | table => .endInTable

/-- The fault where neither a comma nor the end follows an item. -/
def expectedComma : Bracket → Reason
  | list => .expectedListCommaOrEnd
  | table => .expectedTableCommaOrEnd

end Bracket

namespace Reader

/-- Read over a scalar, or over an opening bracket, which is then returned. -/
def skipFront : Reader (Option Bracket) := do
  match ← peekToken with
  | none => failNext .endInValue
  | some c =>
    if c = 'n' then
      skip
      ident ['u', 'l', 'l']
      return none
    else if c = 't' then
      skip
      ident ['r', 'u', 'e']
      return none
    else if c = 'f' then
      skip
      ident ['a', 'l', 's', 'e']
      return none
    else if c = '-' then
      skip
      skipUnsigned
      return none
    else if '0' ≤ c ∧ c ≤ '9' then
      skipUnsigned
      return none
    else if c = '"' then
      skip
      skipTextBody
      return none
    else if c = '[' then
      skip
      return some .list
    else if c = '\x7b' then
      skip
      return some .table
    else
      failNext .expectedValue

/-- Read over what closes the innermost bracket or separates its items, up to the next
item; {lit}`comma` says whether a comma may come.  The result is the brackets that are still open. -/
def skipBetween (brackets : List Bracket) (comma : Bool) : Reader (List Bracket) :=
  repeatFrom (brackets, comma) fun (brackets, comma) => do
    match brackets with
    | [] => return .inr []
    | bracket :: outer =>
      match ← peekToken with
      | none => failNext bracket.atEnd
      | some c =>
        if c = ',' ∧ comma then
          skip
          return .inr brackets
        else if c = bracket.closing then
          skip
          return .inl (outer, true)
        else if comma then
          failNext bracket.expectedComma
        else
          return .inr brackets

/-- Read over the key of a member and its colon. -/
def skipKey : Reader Unit := do
  match ← peekToken with
  | none => failNext .endInTable
  | some '"' =>
    skip
    skipTextBody
    match ← peekToken with
    | none => failNext .endInTable
    | some ':' => skip
    | some _ => failNext .expectedColon
  | some _ => failNext .keyNotText

/-- Read over one value. -/
def skipValue : Reader Unit :=
  repeatFrom ([] : List Bracket) fun brackets => do
    let opened ← skipFront
    let brackets ← match opened with
      | some bracket => skipBetween (bracket :: brackets) false
      | none => skipBetween brackets true
    match brackets with
    | [] => return .inr ()
    | .list :: _ => return .inl brackets
    | .table :: _ =>
      skipKey
      return .inl brackets

end Reader
end Json
end ModuleBundler
