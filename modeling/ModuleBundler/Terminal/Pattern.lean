import ModuleBundler.Text.Alphanumeric

/-!
# Patterns for field values

A filter may ask for the value of a field by a pattern.  No value of a record is
ever looked at, but a filter with a malformed pattern is malformed as a whole, so
it is only said which patterns are well-formed.  A pattern stands between braces
and hence has no closing brace, and counted repetition never comes to its end.
Boundaries of words are not supported.

Main results:

- Theorem {lit}`Pattern.isPattern_nil`: the empty pattern is well-formed.
- Theorem {lit}`Pattern.not_isPattern_repetition`: nothing can be repeated at the front.
-/

namespace ModuleBundler
namespace Terminal
namespace Pattern

/-! ## Escapes -/

/-- What an escape stands for. -/
inductive Atom where
  | char (code : Nat)
  /-- A set of characters. -/
  | set
  /-- The beginning or the end of the text. -/
  | edge
deriving DecidableEq, Repr

/-- The code points that one-letter escapes stand for. -/
def letterCodes : List (Char × Nat) :=
  [('a', 7), ('f', 12), ('t', 9), ('n', 10), ('r', 13), ('v', 11)]

/-- A code point that is given by a number of hexadecimal digits. -/
def hexadecimal? (count : Nat) (cs : List Char) : Option (Atom × List Char) :=
  let digits := cs.take count
  let isDigit (c : Char) : Bool := c.isDigit || ("abcdef".toList.contains c.toLower)
  let value (c : Char) : Nat :=
    if c.isDigit then c.toNat - '0'.toNat else c.toLower.toNat - 'a'.toNat + 10
  let code := digits.foldl (fun n c => 16 * n + value c) 0
  if digits.length = count ∧ digits.all isDigit ∧ code.isValidChar then
    some (.char code, cs.drop count)
  else none

/-- Read the escape behind a backslash. -/
def escape? : List Char → Option (Atom × List Char)
  | [] => none
  | c :: cs =>
    if c = 'x' then hexadecimal? 2 cs
    else if c = 'u' then hexadecimal? 4 cs
    else if c = 'U' then hexadecimal? 8 cs
    else if c = 'p' ∨ c = 'P' then
      match cs with
      | category :: rest =>
        if "lmnpszc".toList.contains category.toLower then some (.set, rest) else none
      | [] => none
    else if "dDsSwW".toList.contains c then some (.set, cs)
    else if c = 'A' ∨ c = 'z' then some (.edge, cs)
    else
      match letterCodes.lookup c with
      | some code => some (.char code, cs)
      | none =>
        if c.toNat < 0x80 ∧ !c.isAlphanum ∧ c ≠ '<' ∧ c ≠ '>' then some (.char c.toNat, cs) else none

/-! ## Sets -/

/-- The names of sets. -/
def setNames : List String :=
  ["alnum", "alpha", "ascii", "blank", "cntrl", "digit", "graph", "lower", "print", "punct", "space",
    "upper", "word", "xdigit"]

/-- Read a set by its name, behind the opening bracket. -/
def named? : List Char → Option (List Char)
  | ':' :: cs =>
    let cs := if cs.head? = some '^' then cs.tail else cs
    match cs.dropWhile (· != ':') with
    | ':' :: ']' :: rest =>
      if setNames.contains (String.ofList (cs.takeWhile (· != ':'))) then some rest else none
    | _ => none
  | _ => none

/-- What follows the opening bracket of a set, and characters that would end it elsewhere. -/
def opened (cs : List Char) : List Char :=
  let cs := if cs.head? = some '^' then cs.tail else cs
  let rest := cs.dropWhile (· = '-')
  if rest.length = cs.length ∧ rest.head? = some ']' then rest.tail else rest

/-- Read one character or escape in a set. -/
def item? : List Char → Option (Atom × List Char)
  | [] => none
  | '\\' :: cs => escape? cs
  | c :: cs => some (.char c.toNat, cs)

/-- Read a character, an escape or a range of characters in a set. -/
def range? (cs : List Char) : Option (List Char) := do
  let (first, rest) ← item? cs
  match rest with
  | '-' :: next :: more =>
    if next = ']' ∨ next = '-' then if first = .edge then none else some rest
    else
      match first, ← item? (next :: more) with
      | .char low, (.char high, rest) => if low ≤ high then some rest else none
      | _, _ => none
  | _ => if first = .edge then none else some rest

/-- Read on to the end of the outermost of {lit}`depth` sets, and no further than {lit}`fuel` items. -/
def set? : (fuel depth : Nat) → List Char → Option (List Char)
  | 0, _, _ => none
  | _, _, [] => none
  | fuel + 1, depth, '[' :: cs =>
    match named? cs with
    | some rest => set? fuel depth rest
    | none => set? fuel (depth + 1) (opened cs)
  | fuel + 1, depth, ']' :: cs => if depth ≤ 1 then some cs else set? fuel (depth - 1) cs
  | fuel + 1, depth, '&' :: '&' :: cs => set? fuel depth cs
  | fuel + 1, depth, '-' :: '-' :: cs => set? fuel depth cs
  | fuel + 1, depth, '~' :: '~' :: cs => set? fuel depth cs
  | fuel + 1, depth, cs => (range? cs).bind (set? fuel depth)

/-! ## Groups -/

/-- Whether the characters are the name of a group. -/
def isGroupName : List Char → Bool
  | [] => false
  | c :: cs =>
    (c = '_' || Text.isAlphanumeric c && !c.isDigit) &&
      cs.all fun c => "_.[]".toList.contains c || Text.isAlphanumeric c

/-- Whether the characters are flags: every one once, and some of them behind a minus sign if there is
one. -/
def areFlags (flags : List Char) : Bool :=
  flags.all "imsUuRx-".toList.contains && decide (flags.eraseDups = flags) &&
    flags.getLast? != some '-'

/-- Read the opening of a group behind its bracket.  The result says whether anything is opened: flags
may stand alone. -/
def group? : List Char → Option (Bool × List Char)
  | '?' :: cs =>
    let name? (cs : List Char) : Option (Bool × List Char) :=
      match cs.dropWhile (· != '>') with
      | _ :: rest => if isGroupName (cs.takeWhile (· != '>')) then some (true, rest) else none
      | [] => none
    match cs with
    | 'P' :: '<' :: cs => name? cs
    | '<' :: cs => name? cs
    | cs =>
      let isInside (c : Char) : Bool := c != ':' && c != ')'
      let flags := cs.takeWhile isInside
      match cs.dropWhile isInside with
      | ':' :: rest => if areFlags flags then some (true, rest) else none
      | _ :: rest => if areFlags flags && !flags.isEmpty then some (false, rest) else none
      | [] => none
  | cs => some (true, cs)

/-! ## Patterns -/

/-- Whether the rest of a pattern is well-formed, {lit}`depth` groups being open.  {lit}`repeats` says
whether there is something to repeat in front. -/
def isRest : (fuel depth : Nat) → (repeats : Bool) → List Char → Bool
  | _, depth, _, [] => depth == 0
  | 0, _, _, _ => false
  | fuel + 1, depth, repeats, c :: cs =>
    if c = '(' then
      match group? cs with
      | some (true, rest) => isRest fuel (depth + 1) false rest
      | some (false, rest) => isRest fuel depth false rest
      | none => false
    else if c = ')' then depth != 0 && isRest fuel (depth - 1) true cs
    else if c = '|' then isRest fuel depth false cs
    else if c = '[' then (set? cs.length 1 (opened cs)).any (isRest fuel depth true)
    else if c = '?' ∨ c = '*' ∨ c = '+' then
      repeats && isRest fuel depth true (if cs.head? = some '?' then cs.tail else cs)
    else if c = '\x7b' then false
    else if c = '\\' then (escape? cs).any fun found => isRest fuel depth true found.2
    else isRest fuel depth true cs

/-- Whether a text is a well-formed pattern. -/
def isPattern (cs : List Char) : Bool :=
  isRest cs.length 0 false cs

/-- Whether a text is a number with a plus sign. -/
def isPositive : List Char → Bool
  | '+' :: cs =>
    let word := String.ofList (cs.map Char.toLower)
    let whole := cs.takeWhile Char.isDigit
    let behind := cs.dropWhile Char.isDigit
    let behind := if behind.head? = some '.' then behind.tail else behind
    let places := behind.takeWhile Char.isDigit
    let isExponent : List Char → Bool
      | [] => true
      | e :: '-' :: digits => e.toLower = 'e' && !digits.isEmpty && digits.all Char.isDigit
      | e :: '+' :: digits => e.toLower = 'e' && !digits.isEmpty && digits.all Char.isDigit
      | e :: digits => e.toLower = 'e' && !digits.isEmpty && digits.all Char.isDigit
    ["inf", "infinity", "nan"].contains word ||
      !(whole ++ places).isEmpty && isExponent (behind.dropWhile Char.isDigit)
  | _ => false

/-- Whether a text is good for a field value: a pattern or a number. -/
def isValue (cs : List Char) : Bool :=
  isPattern cs || isPositive cs

theorem isPattern_nil : isPattern [] = true := rfl

theorem not_isPattern_repetition (cs : List Char) : isPattern ('*' :: cs) = false := by
  simp [isPattern, isRest]

end Pattern
end Terminal
end ModuleBundler
