import ModuleBundler.Failure
import ModuleBundler.Terminal.Moment
import ModuleBundler.Text.Quoted

/-!
# The log

The records of the log, with their levels and their wording.  On a terminal the
controls that terminals obey are shown as escapes.

Main results:

- Theorem {lit}`Control.escape_of_not`: other characters are shown as they are.
- Theorem {lit}`LogRecord.render_plain`: how a record is shown without colour.
-/

namespace ModuleBundler
namespace Terminal

/-! ## Durations -/

/-- A number of units in hundredths, with a half going to the even neighbour. -/
def hundredthsOf (nanoseconds unit : Nat) : String :=
  let whole := 100 * nanoseconds / unit
  let rest := 2 * (100 * nanoseconds % unit)
  let n := if rest < unit ∨ (rest = unit ∧ whole % 2 = 0) then whole else whole + 1
  let places := toString (n % 100)
  toString (n / 100) ++ "." ++ (if n % 100 < 10 then "0" ++ places else places)

/-- A duration with two places, in the greatest unit of which it has one at least. -/
def preciseDuration (nanoseconds : Nat) : String :=
  if 1000000000 ≤ nanoseconds then hundredthsOf nanoseconds 1000000000 ++ "s"
  else if 1000000 ≤ nanoseconds then hundredthsOf nanoseconds 1000000 ++ "ms"
  else if 1000 ≤ nanoseconds then hundredthsOf nanoseconds 1000 ++ "µs"
  else hundredthsOf nanoseconds 1 ++ "ns"

/-! ## Controls -/

/-- How a character of a record is shown. -/
def Control.escape (c : Char) : List Char :=
  if c = '\x1b' then ['\\', 'x', '1', 'b']
  else if c = '\x07' then ['\\', 'x', '0', '7']
  else if c = '\x08' then ['\\', 'x', '0', '8']
  else if c = '\x0c' then ['\\', 'x', '0', 'c']
  else if c = '\x7f' then ['\\', 'x', '7', 'f']
  else if 0x80 ≤ c.toNat ∧ c.toNat ≤ 0x9f then Text.Quoted.codePoint c
  else [c]

theorem Control.escape_of_not {c : Char} (hlow : 0x20 ≤ c.toNat)
    (hhigh : c.toNat < 0x7f ∨ 0xa0 ≤ c.toNat) : escape c = [c] := by
  have hne (d : Char) (hd : d.toNat < 0x20 ∨ d.toNat = 0x7f) : c ≠ d := by
    rintro rfl
    omega
  have hrange : ¬(0x80 ≤ c.toNat ∧ c.toNat ≤ 0x9f) := by omega
  simp [escape, hrange, hne '\x1b' (by decide), hne '\x07' (by decide), hne '\x08' (by decide),
    hne '\x0c' (by decide), hne '\x7f' (by decide)]

/-! ## Records -/

/-- How important a record is. -/
inductive Level where
  | error
  | warn
  | info
deriving DecidableEq, Repr

namespace Level

/-- The number of the level; the less important records have the greater ones. -/
def rank : Level → Nat
  | error => 1
  | warn => 2
  | info => 3

/-- The name of the level. -/
def name : Level → String
  | error => "ERROR"
  | warn => "WARN"
  | info => "INFO"

/-- The code of the colour of the level. -/
def colorCode : Level → String
  | error => "31"
  | warn => "33"
  | info => "32"

/-- The name of the level, right in a column of five. -/
def column (level : Level) : String :=
  String.ofList (List.replicate (5 - level.name.length) ' ') ++ level.name

end Level

/-- A record of the log. -/
inductive LogRecord where
  | entry (p : Path)
  | output (p : Path)
  | passComplete (assets bundles nanoseconds : Nat)
  | bundle (name : Path) (assets : Nat)
  | watching
  | warning (message : String)
  | failed (failure : Failure)
deriving DecidableEq, Repr

namespace LogRecord

/-- The level of a record. -/
def level : LogRecord → Level
  | warning _ => .warn
  | failed _ => .error
  | _ => .info

/-- The text of a record. -/
def message : LogRecord → String
  | entry p => "Entry: " ++ p.text
  | output p => "Output: " ++ p.text
  | passComplete assets bundles nanoseconds =>
    "Pass complete: " ++ toString assets ++ " assets in " ++ toString bundles ++ " bundles (" ++
      preciseDuration nanoseconds ++ ")"
  | bundle name assets => name.text ++ " (" ++ toString assets ++ " assets)"
  | watching => "Watching for changes. Press Ctrl+C to stop."
  | warning message => message
  | failed failure => failure.detailed

/-- The text of a record as it is shown on a terminal. -/
def shown (record : LogRecord) : String :=
  String.ofList (record.message.toList.flatMap Control.escape)

/-- The line of a record that was made at the given moment. -/
def render (color : Bool) (moment : Moment) (record : LogRecord) : String :=
  let painted (code text : String) : String :=
    if color then "\x1b[" ++ code ++ "m" ++ text ++ "\x1b[0m" else text
  painted "2" moment.text ++ " " ++ painted record.level.colorCode record.level.column ++ " " ++
    record.shown ++ "\n"

theorem render_plain (moment : Moment) (record : LogRecord) :
    record.render false moment =
      moment.text ++ " " ++ record.level.column ++ " " ++ record.shown ++ "\n" := by
  simp only [render, Bool.false_eq_true, if_false]

end LogRecord

end Terminal
end ModuleBundler
