import ModuleBundler.Decimal.Shortest

/-!
# Status lines

The lines that tell a person at a terminal how a build goes, in colour if the
terminal shows colours.

Main results:

- Theorem {lit}`Status.paint_plain`: without colour a text stays as it is.
-/

namespace ModuleBundler
namespace Terminal

/-- What a status line tells. -/
inductive Status where
  | building (what : Option String)
  /-- A build has ended after the given number of nanoseconds. -/
  | built (nanoseconds : Nat)
  | failed (detail : String)
deriving DecidableEq, Repr

/-- The log level from which on status lines are shown. -/
def statusLevel : Nat := 3

namespace Status

/-! ## Durations -/

/-- A number of hundredths with two places behind the point. -/
def hundredthsText (n : Nat) : String :=
  let places := toString (n % 100)
  toString (n / 100) ++ "." ++ (if n % 100 < 10 then "0" ++ places else places)

/-- The number of hundredths nearest to a fraction; a half goes to the even neighbour. -/
def hundredths (value : Shortest.Fraction) : Nat :=
  let whole := 100 * value.num / value.den
  let rest := 2 * (100 * value.num % value.den)
  if rest < value.den then whole
  else if value.den < rest then whole + 1
  else if whole % 2 = 0 then whole
  else whole + 1

/-- Nanoseconds in a second. -/
def second : Nat := 1000000000

/-- Nanoseconds in a millisecond. -/
def millisecond : Nat := 1000000

/-- A duration in whole milliseconds, or from one second on in seconds with two places. -/
def durationText (nanoseconds : Nat) : String :=
  if nanoseconds / millisecond < 1000 then toString (nanoseconds / millisecond) ++ "ms"
  else
    let seconds := (nanoseconds / second).toFloat + (nanoseconds % second).toFloat / second.toFloat
    hundredthsText (hundredths (Shortest.Target.ofBits seconds.toBits).value) ++ "s"

/-! ## Colours -/

/-- The sequence that ends a style. -/
def reset : List Char :=
  ['\x1b', '[', '0', 'm']

/-- A text in which the style is taken up again behind every end of a style. -/
def restyle (style : List Char) : (skip : Nat) → List Char → List Char
  | _, [] => []
  | skip + 1, c :: cs => if skip = 0 then c :: style ++ restyle style 0 cs else c :: restyle style skip cs
  | 0, c :: cs =>
    if reset.isPrefixOf (c :: cs) then c :: restyle style (reset.length - 1) cs
    else c :: restyle style 0 cs

/-- A text in the style of the given code, if there is colour. -/
def paint (color : Bool) (code : String) (text : String) : String :=
  if color then
    let style := "\x1b[".toList ++ code.toList ++ ['m']
    String.ofList (style ++ restyle style 0 text.toList ++ reset)
  else text

@[simp]
theorem paint_plain (code text : String) : paint false code text = text := rfl

/-! ## Lines -/

/-- Whether the line goes to the error output. -/
def isError : Status → Bool
  | failed _ => true
  | _ => false

/-- The line, which ends with a newline. -/
def render (color : Bool) : Status → String
  | building (some what) =>
    "  " ++ paint color "90" "⏳" ++ " Building " ++ paint color "96" what ++ "...\n"
  | building none => "  " ++ paint color "90" "⏳" ++ " Building...\n"
  | built nanoseconds =>
    "  " ++ paint color "92" "✓" ++ " Built in " ++ paint color "1;97" (durationText nanoseconds) ++
      ".\n"
  | failed detail => "  " ++ paint color "91" "✗" ++ " " ++ paint color "31" detail ++ "\n"

end Status
end Terminal
end ModuleBundler
