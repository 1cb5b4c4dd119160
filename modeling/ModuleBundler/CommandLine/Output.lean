import ModuleBundler.Build.Notice
import ModuleBundler.Terminal.Filter

/-!
# Output of the program

What the program shows: records of the log and status lines on the standard
output, and failures on the error output.

Main results:

- Theorem {lit}`Output.ofNotice_ended`: that a pass is over is not shown.
- Theorem {lit}`Output.map_timed_ofNotice`: the time of a pass can be told afterwards.
- Theorem {lit}`Output.isShown_failed`: the failure that ends the program is always shown.
-/

namespace ModuleBundler
namespace CommandLine

open Terminal

/-- Something that the program shows. -/
inductive Output where
  | log (record : LogRecord)
  | status (status : Status)
  /-- The failure that ends the program. -/
  | failed (failure : Failure)
deriving DecidableEq, Repr

namespace Output

/-- What is shown for a notice of a pass that took the given number of nanoseconds. -/
def ofNotice (nanoseconds : Nat) : Build.Notice → List Output
  | .started => [.status (.building none)]
  | .opened entry outDir => [.log (.entry entry), .log (.output outDir)]
  | .building name => [.status (.building (some name))]
  | .completed assets bundles =>
    [.status (.built nanoseconds), .log (.passComplete assets bundles.length nanoseconds)]
  | .failed failure => [.log (.failed failure), .status (.failed failure.message)]
  | .ended _ => []
  | .warning message => [.log (.warning message)]

/-- Whether an output is shown: a record if the filter keeps it, and a status line from a log level on. -/
def isShown (filter : Filter) (logLevel : Nat) : Output → Bool
  | log record => filter.keeps record.level
  | status _ => decide (statusLevel ≤ logLevel)
  | failed _ => true

/-- Whether the output goes to the error output. -/
def isError : Output → Bool
  | log _ => false
  | status line => line.isError
  | failed _ => true

/-- The text of an output at the given moment, which ends with a newline. -/
def render (statusColor logColor : Bool) (moment : Moment) : Output → String
  | log record => record.render logColor moment
  | status line => line.render statusColor
  | failed failure => "Error: " ++ failure.detailed ++ "\n"

/-- The output with another time that the pass took, if it tells one. -/
def timed (nanoseconds : Nat) : Output → Output
  | status (.built _) => status (.built nanoseconds)
  | log (.passComplete assets bundles _) => log (.passComplete assets bundles nanoseconds)
  | output => output

theorem ofNotice_ended (nanoseconds : Nat) (errored : Bool) :
    ofNotice nanoseconds (.ended errored) = [] := rfl

theorem map_timed_ofNotice (nanoseconds other : Nat) (notice : Build.Notice) :
    (ofNotice other notice).map (timed nanoseconds) = ofNotice nanoseconds notice := by
  cases notice <;> rfl

theorem isShown_failed (filter : Filter) (logLevel : Nat) (failure : Failure) :
    (failed failure).isShown filter logLevel = true := rfl

end Output
end CommandLine
end ModuleBundler
