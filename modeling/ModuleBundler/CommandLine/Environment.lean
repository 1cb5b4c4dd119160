/-!
# The environment

The variables of the environment that the program looks at, and what they mean
for the colours of its output.

Main results:

- Theorem {lit}`Environment.statusColor_of_force`: colours can be forced.
- Theorem {lit}`Environment.statusColor_false`: without a terminal there are no colours by themselves.
-/

namespace ModuleBundler
namespace CommandLine

/-- The variables of the environment that the program looks at. -/
structure Environment where
  /-- The mode in which the project is built. -/
  mode : Option String := none
  /-- The filter for the log. -/
  logFilter : Option String := none
  /-- If it is set, there is no colour. -/
  noColor : Option String := none
  /-- If it is set and not zero, there is colour everywhere. -/
  forceColor : Option String := none
  /-- If it is zero, there is no colour on terminals either. -/
  color : Option String := none
deriving DecidableEq, Repr

namespace Environment

/-- The environment in which a variable has the given value, if it has any. -/
def ofVariables (value : String → Option String) : Environment where
  mode := value "NODE_ENV"
  logFilter := value "RUST_LOG"
  noColor := value "NO_COLOR"
  forceColor := value "CLICOLOR_FORCE"
  color := value "CLICOLOR"

/-- The names of all variables that the program looks at. -/
def names : List String :=
  ["NODE_ENV", "RUST_LOG", "NO_COLOR", "CLICOLOR_FORCE", "CLICOLOR"]

/-- Whether status lines have colour.  {lit}`terminal` says whether the output goes to a terminal. -/
def statusColor (environment : Environment) (terminal : Bool) : Bool :=
  environment.forceColor.any (· != "0") ||
    environment.noColor.isNone && terminal && environment.color.all (· != "0")

/-- Whether records of the log have colour. -/
def logColor (environment : Environment) : Bool :=
  environment.noColor.all String.isEmpty

theorem statusColor_of_force {environment : Environment} {value : String}
    (hset : environment.forceColor = some value) (hvalue : value ≠ "0") (terminal : Bool) :
    environment.statusColor terminal = true := by
  simp [statusColor, hset, hvalue]

theorem statusColor_false {environment : Environment} (h : environment.forceColor = none) :
    environment.statusColor false = false := by
  simp [statusColor, h]

end Environment
end CommandLine
end ModuleBundler
