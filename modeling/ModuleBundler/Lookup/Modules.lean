import ModuleBundler.Lookup.Nearest
import ModuleBundler.Package.Metadata

/-!
# Module resolution

A specifier names a module.  Relative specifiers are files or directories near
the importer, rooted ones files on disk or in the project, and all others name
packages, which are looked for in the directories above the importer.  A file
may be named without its extension; a directory stands for the entry that its
manifest names, or for its index file.

Main results:

- Theorem {lit}`Modules.splitSpecifier_plain`: a name without slashes is a package without a subpath.
-/

namespace ModuleBundler
namespace Lookup

/-- The rules of a module resolution. -/
structure Modules where
  /-- The directory that rooted specifiers and the entry start from. -/
  root : Path
  /-- The extensions that may be left out, in the order in which they are tried. -/
  extensions : List String

namespace Modules

/-- The extensions that may be left out when nothing else is asked for. -/
def defaultExtensions : List String :=
  ["js", "jsx", "mjs", "cjs", "ts", "tsx", "json", "css", "less", "scss", "sass", "styl", "html"]

/-- The usual rules. -/
def ofRoot (root : Path) : Modules :=
  ⟨root, defaultExtensions⟩

/-- The rules with other extensions, whose leading dots do not count. -/
def withExtensions (modules : Modules) (extensions : List String) : Modules :=
  { modules with
    extensions := extensions.map fun extension =>
      String.ofList (extension.toList.dropWhile (· == '.')) }

/-! ## What is remembered -/

/-- What earlier resolutions have found out, and the warnings they gave. -/
structure Memory where
  known : Nearest.Known := .empty
  /-- The manifests that could be read. -/
  packages : Path.Map Package := .empty
  warnings : List String := []

instance : Inhabited Memory :=
  ⟨{}⟩

/-- A step of a resolution. -/
abbrev Search (α : Type) := StateM Memory α

/-! ## Specifiers -/

/-- The pieces of a specifier between slashes, at most {lit}`count` of them. -/
def splitFirst : (count : Nat) → List Char → List (List Char)
  | 0, _ => []
  | 1, cs => [cs]
  | count + 2, cs =>
    match cs.dropWhile (· != '/') with
    | [] => [cs]
    | _ :: rest => cs.takeWhile (· != '/') :: splitFirst (count + 1) rest

/-- The package that a specifier names, and the path inside it.  The name of a package in a scope has
two parts. -/
def splitSpecifier (specifier : String) : String × Option String :=
  let cs := specifier.toList
  if cs.head? = some '@' then
    match splitFirst 3 cs with
    | [scope] => (String.ofList scope, none)
    | [scope, name] => (String.ofList (scope ++ '/' :: name), none)
    | scope :: name :: path :: _ => (String.ofList (scope ++ '/' :: name), some (String.ofList path))
    | [] => (specifier, none)
  else
    match splitFirst 2 cs with
    | name :: path :: _ => (String.ofList name, some (String.ofList path))
    | _ => (specifier, none)

theorem splitSpecifier_plain {specifier : String} (h : '/' ∉ specifier.toList)
    (hscope : specifier.toList.head? ≠ some '@') : splitSpecifier specifier = (specifier, none) := by
  have hdrop : ∀ cs : List Char, '/' ∉ cs → cs.dropWhile (· != '/') = [] := by
    intro cs
    induction cs with
    | nil => exact fun _ => rfl
    | cons c rest ih =>
      intro hno
      rw [List.mem_cons, not_or] at hno
      have hc : (c != '/') = true := by simpa using Ne.symm hno.1
      simp [List.dropWhile, hc, ih hno.2]
  simp [splitSpecifier, hscope, splitFirst, hdrop _ h]

/-- Whether the specifier is relative to the importer. -/
def isRelative (specifier : String) : Bool :=
  "./".toList.isPrefixOf specifier.toList || "../".toList.isPrefixOf specifier.toList ||
    specifier = "."

/-! ## Files and directories -/

/-- The name of manifests. -/
def manifestName : String := "package.json"

/-- The file of a path, with or without one of the extensions. -/
def asFile (modules : Modules) (tree : FileTree) (p : Path) : Option Path :=
  (p :: modules.extensions.map fun extension => ⟨p.text ++ "." ++ extension⟩).find? tree.isFile

/-- Read a manifest, unless it was read before. -/
def readPackage (tree : FileTree) (manifest : Path) : Search (Option Package) := do
  let memory ← get
  match memory.packages.get? manifest with
  | some package => return some package
  | none =>
    match tree.readText manifest with
    | .error _ => return none
    | .ok text =>
      match Package.record.codec.parse text with
      | .error fault =>
        set { memory with
          warnings := memory.warnings ++
            ["Ignoring malformed " ++ manifest.text ++ ": " ++ fault.message] }
        return none
      | .ok package =>
        let package := { package with manifest := some manifest }
        set { memory with packages := memory.packages.put manifest package }
        return some package

/-- The module that a directory stands for. -/
def asDirectory (modules : Modules) (tree : FileTree) (directory : Path) : Search (Option Path) := do
  let manifest := directory.child manifestName
  let package ← if tree.isFile manifest then readPackage tree manifest else pure none
  let entries := match package with
    | some package => package.module.toList ++ package.main.toList
    | none => []
  let named := entries.findSome? fun entry => modules.asFile tree (directory.child entry).normalize
  match named with
  | some found => return some found
  | none => return modules.asFile tree (directory.child "index")

/-- The module that a path stands for. -/
def asFileOrDirectory (modules : Modules) (tree : FileTree) (p : Path) : Search (Option Path) := do
  let p := p.normalize
  match modules.asFile tree p with
  | some found => return some found
  | none => if tree.isDirectory p then modules.asDirectory tree p else return none

/-! ## Packages -/

/-- The module of a package directory, or of a path inside it. -/
def inPackage (modules : Modules) (tree : FileTree) (directory : Path) (inner : Option String) :
    Search (Option Path) :=
  match inner with
  | some inner => modules.asFileOrDirectory tree (directory.child inner)
  | none => modules.asDirectory tree directory

/-- The module of an installed package, looked for from the directories, the nearest first. -/
def installed (modules : Modules) (tree : FileTree) (package : String) (inner : Option String) :
    List Path → Search (Option Path)
  | [] => return none
  | directory :: outer => do
    let home := (directory.child Nearest.packagesName).child package
    if directory.fileName? ≠ some Nearest.packagesName ∧ tree.isDirectory home = true then
      match ← modules.inPackage tree home inner with
      | some found => return some found
      | none => modules.installed tree package inner outer
    else
      modules.installed tree package inner outer

/-- The module of an installed package, looked for from a directory. -/
def asPackage (modules : Modules) (tree : FileTree) (specifier : String) (start : Path) :
    Search (Option Path) :=
  let (package, inner) := splitSpecifier specifier
  modules.installed tree package inner (start :: start.ancestors)

/-! ## Resolution -/

/-- The file that a specifier stands for. -/
def locate (modules : Modules) (tree : FileTree) (specifier : String) (importer : Option Path) :
    Search (Option Path) := do
  let base := (importer.bind Path.parent?).getD modules.root
  if isRelative specifier then
    modules.asFileOrDirectory tree (base.child specifier)
  else
    match specifier.toList with
    | '/' :: rooted =>
      match ← modules.asFileOrDirectory tree ⟨specifier⟩ with
      | some found => return some found
      | none => modules.asFileOrDirectory tree (modules.root.child (String.ofList rooted))
    | _ =>
      let entry ←
        if importer.isNone then modules.asFileOrDirectory tree (base.child specifier) else pure none
      match entry with
      | some found => return some found
      | none => modules.asPackage tree specifier base

/-- The metadata of the package that a file belongs to. -/
def packageOf (tree : FileTree) (p : Path) : Search Package := do
  let memory ← get
  let (manifest, known) := Nearest.find tree p [manifestName] memory.known
  set { memory with known }
  match manifest with
  | some manifest => return (← readPackage tree manifest).getD {}
  | none => return {}

/-- A resolved module. -/
structure Resolved where
  path : Path
  package : Package
deriving DecidableEq, Repr

/-- The module that a specifier names for an importer. -/
def resolve (modules : Modules) (tree : FileTree) (specifier : String) (importer : Option Path) :
    Search (Except Failure Resolved) := do
  match ← modules.locate tree specifier importer with
  | none => return .error (.moduleNotFound specifier (importer.getD modules.root))
  | some found =>
    match tree.canonical found with
    | .error fault => return .error (.io fault)
    | .ok path => return .ok ⟨path, ← packageOf tree path⟩

end Modules
end Lookup
end ModuleBundler
