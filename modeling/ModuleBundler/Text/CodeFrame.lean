import ModuleBundler.Text.Lines
import ModuleBundler.Text.Location

/-!
# Code frames

A code frame shows the marked line of a source text with up to two lines on
either side.  Every row starts with a gutter that holds the line number; a row
with a caret under the marked column follows the marked line.

Main results:

- Theorem {lit}`CodeFrame.shows_self`: the marked line lies in the window.
-/

namespace ModuleBundler
namespace CodeFrame

/-- A line number, padded with blanks in front to at least three digits. -/
def lineNumber (n : Nat) : List Char :=
  let digits := (toString n).toList
  List.replicate (3 - digits.length) ' ' ++ digits

/-- The row of a line next to the marked one. -/
def plainRow (n : Nat) (line : List Char) : List Char :=
  [' ', ' '] ++ lineNumber n ++ [' ', '|', ' '] ++ line ++ ['\n']

/-- The row of the marked line. -/
def markedRow (n : Nat) (line : List Char) : List Char :=
  ['>', ' '] ++ lineNumber n ++ [' ', '|', ' '] ++ line ++ ['\n']

/-- The row with the caret. -/
def caretRow (column : Nat) : List Char :=
  List.replicate 6 ' ' ++ ['|', ' '] ++ List.replicate (column - 1) ' ' ++ ['^', '\n']

/-- Whether the line {lit}`n` lies in the window around the marked line. -/
def shows (place : Location) (n : Nat) : Bool :=
  decide (max (place.line - 2) 1 ≤ n) && decide (n ≤ place.line + 2)

/-- The rows of one line. -/
def rowsOf (place : Location) (n : Nat) (line : List Char) : List Char :=
  if shows place n then
    if n = place.line then markedRow n line ++ caretRow place.column else plainRow n line
  else
    []

/-- The rows of the lines numbered from {lit}`n`. -/
def rowsFrom (place : Location) : Nat → List (List Char) → List Char
  | _, [] => []
  | n, line :: rest => rowsOf place n line ++ rowsFrom place (n + 1) rest

/-- The code frame of a place in a source text. -/
def render (source : String) (place : Location) : String :=
  String.ofList (rowsFrom place 1 (Text.lines source.toList))

theorem shows_self {place : Location} (h : 0 < place.line) : shows place place.line = true := by
  simp [shows]
  omega

end CodeFrame
end ModuleBundler
