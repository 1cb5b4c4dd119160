import ModuleBundler.FileTree.Basic
import ModuleBundler.Lookup.Modules
import ModuleBundler.Source.Compile

/-!
# What a build can reach

A build looks at the directories of its entry and of the program, at manifests,
configurations and installed packages above them, and at what is elsewhere and the
sources ask for.

Main results:

- Theorem {lit}`Reach.outward_empty`: an empty tree imports nothing.
- Theorem {lit}`Reach.mem_above`: manifests are looked for in all directories above.
-/

namespace ModuleBundler
namespace CommandLine
namespace Reach

open Lookup

/-- What may lie in the directories above a path and have a meaning for it. -/
def above (p : Path) : List Path :=
  p.ancestors.flatMap fun directory =>
    [Modules.manifestName, Nearest.configName, Nearest.packagesName].map directory.child

/-- Whether a path lies in a directory of installed packages. -/
def isInstalled (p : Path) : Bool :=
  p.segments.contains Nearest.packagesName

/-- The directories that a source imports from by relative specifiers. -/
def imported (p : Path) (source : String) : List Path :=
  (Source.dependencies p source).filterMap fun dependency =>
    if Modules.isRelative dependency.specifier then do
      let target := (← p.parent?).child dependency.specifier
      target.normalize.parent?
    else none

/-- The directories that are not in a tree and that its sources import from.  Installed packages hold
all that they import. -/
def outward (tree : FileTree) : List Path :=
  let directories := tree.entries.flatMap fun (address, entry) =>
    let p := FileTree.pathOf address
    match entry with
    | .file content _ =>
      if isInstalled p then []
      else (String.fromUTF8? content).elim [] (imported p)
    | _ => []
  (directories.filter fun p => (tree.at? (FileTree.addressOf p)).isNone).eraseDups

theorem outward_empty (home : Address) (clock : Int) : outward (.empty home clock) = [] := rfl

theorem mem_above {p directory : Path} (h : directory ∈ p.ancestors) :
    directory.child Modules.manifestName ∈ above p := by
  simp only [above, List.mem_flatMap, List.map_cons, List.mem_cons]
  exact ⟨directory, h, Or.inl rfl⟩

end Reach
end CommandLine
end ModuleBundler
