import ModuleBundler.Json.Fault

/-!
# Reading JSON character by character

A reader looks at the rest of a text and remembers how far it has come.  A fault
leaves the reader where it stands, so that what follows a fault can still be
looked at.  Every loop runs over a bound that the size of the text gives, which
it cannot exhaust, because each of its rounds reads at least one character.

Main results:

- Theorem {lit}`Json.Cursor.rest_advance`: a character read is the first of the rest.
-/

namespace ModuleBundler
namespace Json

/-! ## Cursors -/

/-- The rest of a text and how far the text was read. -/
structure Cursor where
  line : Nat
  column : Nat
  rest : List Char
  /-- The number of characters of the whole text. -/
  size : Nat
deriving Repr

namespace Cursor

/-- The cursor in front of a text. -/
def ofString (s : String) : Cursor :=
  ⟨1, 0, s.toList, s.length⟩

/-- How far the text was read. -/
def spot (cursor : Cursor) : Spot :=
  ⟨cursor.line, cursor.column⟩

/-- How far the text is read together with {lit}`count` more bytes, at most up to its end. -/
def spotAfter (cursor : Cursor) (count : Nat) : Spot :=
  go cursor.line cursor.column cursor.rest count
where
  /-- The walk over the characters. -/
  go (line column : Nat) : List Char → Nat → Spot
    | _, 0 => ⟨line, column⟩
    | [], _ => ⟨line, column⟩
    | c :: rest, count =>
      if c = '\n' then go (line + 1) 0 rest (count - 1)
      else if c.utf8Size ≤ count then go line (column + c.utf8Size) rest (count - c.utf8Size)
      else ⟨line, column + count⟩

/-- The cursor behind one character. -/
def advance (cursor : Cursor) : Cursor :=
  match cursor.rest with
  | [] => cursor
  | c :: rest =>
    if c = '\n' then ⟨cursor.line + 1, 0, rest, cursor.size⟩
    else ⟨cursor.line, cursor.column + c.utf8Size, rest, cursor.size⟩

@[simp]
theorem rest_advance (cursor : Cursor) : cursor.advance.rest = cursor.rest.tail := by
  unfold advance
  split
  · rename_i h
    simp [h]
  · rename_i h
    split <;> simp [h]

end Cursor

/-! ## Readers -/

/-- A reader: a value or a fault, and in both cases where the text now stands. -/
abbrev Reader (α : Type) := ExceptT Fault (StateM Cursor) α

namespace Reader

variable {α β σ : Type}

/-- Run a reader. -/
def runFrom (reader : Reader α) (cursor : Cursor) : Except Fault α × Cursor :=
  reader.run.run cursor

/-- A fault without a place. -/
def fail (reason : Reason) : Reader α :=
  throw ⟨reason, none⟩

/-- A fault at what was read so far. -/
def failHere (reason : Reason) : Reader α := do
  throw ⟨reason, some (← get).spot⟩

/-- A fault at the next byte. -/
def failNext (reason : Reason) : Reader α := do
  throw ⟨reason, some ((← get).spotAfter 1)⟩

/-- The next character, which stays unread. -/
def peek : Reader (Option Char) := do
  return (← get).rest.head?

/-- Read one character. -/
def skip : Reader Unit :=
  modify Cursor.advance

/-- Whether the character is white space between JSON tokens. -/
def isSpace (c : Char) : Bool :=
  c = ' ' || c = '\n' || c = '\t' || c = '\r'

/-- The cursor behind the white space. -/
def skipSpaceFrom (size line column : Nat) : List Char → Cursor
  | [] => ⟨line, column, [], size⟩
  | c :: rest =>
    if c = '\n' then skipSpaceFrom size (line + 1) 0 rest
    else if isSpace c then skipSpaceFrom size line (column + c.utf8Size) rest
    else ⟨line, column, c :: rest, size⟩

/-- Read the white space. -/
def skipSpace : Reader Unit :=
  modify fun cursor => skipSpaceFrom cursor.size cursor.line cursor.column cursor.rest

/-- The next character behind the white space, which is read. -/
def peekToken : Reader (Option Char) := do
  skipSpace
  peek

/-- A fault of {lit}`reader` that has no place gets the one where the reader then stands. -/
def located (reader : Reader α) : Reader α :=
  fun cursor =>
    match reader cursor with
    | (.ok a, after) => (.ok a, after)
    | (.error fault, after) => (.error (fault.locate after.spot), after)

/-- Run {lit}`reader` and then, whether or not it failed, {lit}`ending`; the first fault counts. -/
def ended (reader : Reader α) (ending : Reader Unit) : Reader α :=
  fun cursor =>
    match reader cursor with
    | (.ok a, after) =>
      match ending after with
      | (.ok _, last) => (.ok a, last)
      | (.error fault, last) => (.error fault, last)
    | (.error fault, after) => (.error fault, (ending after).2)

/-- At most {lit}`rounds` rounds of {lit}`step`, up to the first result. -/
def loop (step : σ → Reader (σ ⊕ β)) : Nat → σ → Reader β
  | 0, _ => failHere .tooDeep
  | rounds + 1, state => do
    match ← step state with
    | .inl state => loop step rounds state
    | .inr result => return result

/-- Rounds of {lit}`step` up to the first result; each round reads a character, or is the last. -/
def repeatFrom (state : σ) (step : σ → Reader (σ ⊕ β)) : Reader β := do
  loop step ((← get).size + 1) state

/-- Read the characters of a word whose first letter was read. -/
def ident : List Char → Reader Unit
  | [] => return ()
  | expected :: rest => do
    match ← peek with
    | none => failHere .endInValue
    | some c =>
      if c = expected then
        skip
        ident rest
      else
        failNext .expectedIdent

end Reader
end Json
end ModuleBundler
