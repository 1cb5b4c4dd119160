import ModuleBundler.Json.Any
import ModuleBundler.Table

/-!
# Reading values of a known shape

Readers for values whose shape is known beforehand.  A value of another shape is
a fault that tells what was found and what was expected.
-/

namespace ModuleBundler
namespace Json

variable {α : Type}

namespace Reader

/-- The fault of a value that is not the {lit}`expected` one; the value is read as far as that needs. -/
def mismatch (expected : String) : Reader α :=
  located do
    match ← peek with
    | none => failNext .expectedValue
    | some c =>
      if c = '[' then fail (.invalidType .list expected)
      else if c = '\x7b' then fail (.invalidType .table expected)
      else
        match ← scalar c with
        | .null => fail (.invalidType .null expected)
        | .flag value => fail (.invalidType (.flag value) expected)
        | .whole value => fail (.invalidType (.whole value) expected)
        | .decimal digits => fail (.invalidType (.decimal digits) expected)
        | .text value => fail (.invalidType (.text value) expected)
        | .list _ => fail (.invalidType .list expected)
        | .table _ => fail (.invalidType .table expected)

/-- Read a text, which faults call {lit}`expected`. -/
def text (expected : String) : Reader String := do
  match ← peekToken with
  | none => failNext .endInValue
  | some '"' =>
    skip
    textBody
  | some _ => mismatch expected

/-- Read a truth value. -/
def flag : Reader Bool := do
  match ← peekToken with
  | none => failNext .endInValue
  | some c =>
    if c = 't' then
      skip
      ident ['r', 'u', 'e']
      return true
    else if c = 'f' then
      skip
      ident ['a', 'l', 's', 'e']
      return false
    else
      mismatch "a boolean"

/-- Read a natural number up to {lit}`most`, which faults call {lit}`expected`. -/
def natural (most : Nat) (expected : String) : Reader Nat := do
  let check (number : Number) : Reader Nat :=
    located do
      match number with
      | .whole value =>
        if 0 ≤ value ∧ value ≤ most then return value.toNat
        else fail (.invalidValue (.whole value) expected)
      | .decimal digits => fail (.invalidType (.decimal digits) expected)
  match ← peekToken with
  | none => failNext .endInValue
  | some c =>
    if c = '-' then
      skip
      check (← unsigned true)
    else if '0' ≤ c ∧ c ≤ '9' then
      check (← unsigned false)
    else
      mismatch expected

/-- Read a value that may be absent, which {lit}`null` says. -/
def optional (reader : Reader α) : Reader (Option α) := do
  match ← peekToken with
  | some 'n' =>
    skip
    ident ['u', 'l', 'l']
    return none
  | _ => return some (← reader)

/-- Read a list. -/
def list (reader : Reader α) : Reader (List α) := do
  match ← peekToken with
  | none => failNext .endInValue
  | some '[' =>
    located <| ended
      (do
        skip
        repeatFrom ([] : List α) fun read => do
          if ← hasItem read.isEmpty then return .inl ((← reader) :: read)
          else return .inr read.reverse)
      endList
  | some _ => mismatch "a sequence"

/-- Read a table whose values have one shape; of members with one key the last one counts. -/
def tableOf (reader : Reader α) : Reader (Table α) := do
  match ← peekToken with
  | none => failNext .endInValue
  | some c =>
    if c = '\x7b' then
      located <| ended
        (do
          skip
          repeatFrom (true, (Table.empty : Table α)) fun (first, read) => do
            if ← hasMember first then
              let name ← key
              colon
              return .inl (false, read.put name (← reader))
            else return .inr read)
        endTable
    else
      mismatch "a map"

end Reader

end Json
end ModuleBundler
