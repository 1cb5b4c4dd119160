import ModuleBundler.FileTree.Walk
import ModuleBundler.Json.Codec
import ModuleBundler.Options.Settings
import ModuleBundler.Path.Map

/-!
# The nearest file of a name

A file such as a manifest or a configuration applies to all that lies below its
directory.  The search goes up from a path, directory by directory, tries the
names in their order, and does not leave a directory of installed packages.
Whether a file exists is asked once and remembered.

Main results:

- Theorem {lit}`Nearest.exists_known`: an answer that is remembered is not asked for again.
-/

namespace ModuleBundler
namespace Lookup
namespace Nearest

/-- Which files are known to exist or not to exist. -/
abbrev Known := Path.Map Bool

/-- The name of the directories that hold installed packages. -/
def packagesName : String := "node_modules"

/-- Whether a file exists, as far as it is known, and otherwise as the tree says. -/
def isFile (tree : FileTree) (known : Known) (p : Path) : Bool × Known :=
  match known.get? p with
  | some answer => (answer, known)
  | none => (tree.isFile p, known.put p (tree.isFile p))

theorem exists_known (tree : FileTree) {known : Known} {p : Path} {answer : Bool}
    (h : known.get? p = some answer) : isFile tree known p = (answer, known) := by
  simp [isFile, h]

/-- The first of the names that a file in the directory has. -/
def inDirectory (tree : FileTree) (directory : Path) :
    (names : List String) → Known → Option Path × Known
  | [], known => (none, known)
  | name :: names, known =>
    let candidate := directory.child name
    match isFile tree known candidate with
    | (true, known) => (some candidate, known)
    | (false, known) => inDirectory tree directory names known

/-- The first file of one of the names in the directories, up to one that holds packages. -/
def inDirectories (tree : FileTree) (names : List String) :
    (directories : List Path) → Known → Option Path × Known
  | [], known => (none, known)
  | directory :: outer, known =>
    if directory.fileName? = some packagesName then (none, known)
    else
      match inDirectory tree directory names known with
      | (some found, known) => (some found, known)
      | (none, known) => inDirectories tree names outer known

/-- The nearest file above a path that has one of the names. -/
def find (tree : FileTree) (p : Path) (names : List String) (known : Known) :
    Option Path × Known :=
  inDirectories tree names p.ancestors known

/-! ## Loading -/

/-- Read a file that should be JSON. -/
def read {α : Type} (tree : FileTree) (parse : String → Except Json.Fault α) (p : Path) :
    Except Failure α := do
  let text ← (tree.readText p).mapError Failure.io
  (parse text).mapError fun fault =>
    .config ("Failed to parse " ++ p.text ++ ": " ++ fault.message)

/-- Find and read the nearest file of one of the names. -/
def load {α : Type} (tree : FileTree) (parse : String → Except Json.Fault α) (p : Path)
    (names : List String) (known : Known) : Except Failure (Option (α × Path)) × Known :=
  match find tree p names known with
  | (none, known) => (.ok none, known)
  | (some found, known) => ((read tree parse found).map fun a => some (a, found), known)

/-- The name of configuration files. -/
def configName : String := "kiln.config.json"

/-- A request read from a file, its directories taken from the directory of that file. -/
def anchored (request : Request) (file : Path) : Request :=
  match file.parent? with
  | none => request
  | some directory =>
    { request with
      outDir := request.outDir.map directory.join
      cacheDir := request.cacheDir.map directory.join }

/-- The request of the configuration file above an entry file. -/
def requestFor (tree : FileTree) (entry : Path) (known : Known) :
    Except Failure (Option Request) × Known :=
  match load tree Request.record.codec.parse entry [configName] known with
  | (result, known) =>
    (result.map fun found => found.map fun (request, file) => anchored request file, known)

end Nearest
end Lookup
end ModuleBundler
