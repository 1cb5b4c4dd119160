import ModuleBundler.Failure
import ModuleBundler.Terminal.Status

/-!
# Notices

What a build tells while it runs, in the order in which it happens.  A notice
says what happened; how it looks on a terminal or in a log is a matter of its own.

Main results:

- Theorem {lit}`Notice.statuses_started`: a pass announces itself before all else.
-/

namespace ModuleBundler
namespace Build

/-- Something that happened in a build. -/
inductive Notice where
  /-- A pass begins. -/
  | started
  /-- The first pass begins, with the given entry and output directory. -/
  | opened (entry outDir : Path)
  /-- An asset is loaded, or will be because its file has changed. -/
  | building (name : String)
  /-- A pass has succeeded, with so many assets and bundles of these names. -/
  | completed (assets : Nat) (bundles : List Path)
  | failed (failure : Failure)
  /-- A pass is over. -/
  | ended (errored : Bool)
  | warning (message : String)
deriving DecidableEq, Repr

namespace Notice

/-- The status lines for a notice; a pass took the given number of nanoseconds. -/
def statuses (nanoseconds : Nat) : Notice → List Terminal.Status
  | started => [.building none]
  | building name => [.building (some name)]
  | completed _ _ => [.built nanoseconds]
  | failed failure => [.failed failure.message]
  | _ => []

theorem statuses_started (nanoseconds : Nat) : started.statuses nanoseconds = [.building none] := rfl

end Notice
end Build
end ModuleBundler
