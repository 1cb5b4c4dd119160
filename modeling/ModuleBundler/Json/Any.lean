import ModuleBundler.Json.Skip

/-!
# Reading any value

The reader of JSON values.  Lists and tables may be nested at most 127 deep.

-/

namespace ModuleBundler
namespace Json
namespace Reader

/-- Whether another item of a list follows; {lit}`first` says that none was read yet. -/
def hasItem (first : Bool) : Reader Bool := do
  match ← peekToken with
  | none => failNext .endInList
  | some ']' => return false
  | some c =>
    if first then return true
    else if c = ',' then
      skip
      match ← peekToken with
      | some ']' => failNext .trailingComma
      | some _ => return true
      | none => failNext .endInValue
    else
      failNext .expectedListCommaOrEnd

/-- Whether another member of a table follows; {lit}`first` says that none was read yet. -/
def hasMember (first : Bool) : Reader Bool := do
  match ← peekToken with
  | none => failNext .endInTable
  | some c =>
    if c = '\x7d' then return false
    else if first then
      if c = '"' then return true else failNext .keyNotText
    else if c = ',' then
      skip
      match ← peekToken with
      | none => failNext .endInValue
      | some c =>
        if c = '"' then return true
        else if c = '\x7d' then failNext .trailingComma
        else failNext .keyNotText
    else
      failNext .expectedTableCommaOrEnd

/-- Read the key of a member, whose quote comes next. -/
def key : Reader String := do
  skip
  textBody

/-- Read the colon behind a key. -/
def colon : Reader Unit := do
  match ← peekToken with
  | some ':' => skip
  | some _ => failNext .expectedColon
  | none => failNext .endInTable

/-- Read the end of a list. -/
def endList : Reader Unit := do
  match ← peekToken with
  | some ']' => skip
  | some ',' =>
    skip
    match ← peekToken with
    | some ']' => failNext .trailingComma
    | _ => failNext .trailingCharacters
  | some _ => failNext .trailingCharacters
  | none => failNext .endInList

/-- Read the end of a table. -/
def endTable : Reader Unit := do
  match ← peekToken with
  | some c =>
    if c = '\x7d' then skip
    else if c = ',' then failNext .trailingComma
    else failNext .trailingCharacters
  | none => failNext .endInTable

/-- Read a value whose first character is {lit}`c` and which is neither a list nor a table. -/
def scalar (c : Char) : Reader Value := do
  if c = 'n' then
    skip
    ident ['u', 'l', 'l']
    return .null
  else if c = 't' then
    skip
    ident ['r', 'u', 'e']
    return .flag true
  else if c = 'f' then
    skip
    ident ['a', 'l', 's', 'e']
    return .flag false
  else if c = '-' then
    skip
    return (← unsigned true).toValue
  else if '0' ≤ c ∧ c ≤ '9' then
    return (← unsigned false).toValue
  else if c = '"' then
    skip
    return .text (← textBody)
  else
    failNext .expectedValue

/-- Read a value; {lit}`depth` bounds the brackets that may still be opened. -/
def value : (depth : Nat) → Reader Value
  | 0 => do
    match ← peekToken with
    | none => failNext .endInValue
    | some c => if c = '[' ∨ c = '\x7b' then failNext .tooDeep else scalar c
  | depth + 1 => do
    match ← peekToken with
    | none => failNext .endInValue
    | some c =>
      if c = '[' then
        let items ← ended
          (do
            skip
            repeatFrom ([] : List Value) fun read => do
              if ← hasItem read.isEmpty then return .inl ((← value depth) :: read)
              else return .inr read.reverse)
          endList
        return .list items
      else if c = '\x7b' then
        let members ← ended
          (do
            skip
            repeatFrom ([] : List (String × Value)) fun read => do
              if ← hasMember read.isEmpty then
                let name ← key
                colon
                return .inl ((name, ← value depth) :: read)
              else return .inr read.reverse)
          endTable
        return .table members
      else
        scalar c

/-- Read white space up to the end of the text. -/
def endOfText : Reader Unit := do
  match ← peekToken with
  | some _ => failNext .trailingCharacters
  | none => return ()

/-- How many brackets may be open at once. -/
def maxDepth : Nat := 127

/-- Read a whole text with a reader. -/
def all {α : Type} (reader : Reader α) (text : String) : Except Fault α :=
  (runFrom (do
    let a ← reader
    endOfText
    return a) (.ofString text)).1

end Reader

/-- The value that a text writes, or the first fault of the text. -/
def parse (text : String) : Except Fault Value :=
  Reader.all (Reader.value Reader.maxDepth) text

end Json
end ModuleBundler
