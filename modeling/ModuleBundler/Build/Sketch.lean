import ModuleBundler.Build.Toolset
import ModuleBundler.Cache.Units
import ModuleBundler.Workers.Attempt

/-!
# Sketches of projects

A sketch is a project in memory whose files are given together with what their
compilation will result in.  It keeps a journal of everything that a build does
with it, so that builds can be tried out and looked at without a file system.

Main results:

- Theorem {lit}`Sketch.resolve_of_file`: an absolute path that names a file is found.
- Theorem {lit}`Sketch.compile_missing`: a file that has vanished cannot be compiled.
-/

namespace ModuleBundler
namespace Build

/-! ## Files -/

/-- A file of a sketch. -/
structure SketchFile where
  content : String
  /-- The output, if it is not the content. -/
  generated : Option Generated := none
  /-- The fingerprint, if it is not that of the output. -/
  hash : Option String := none
  dependencies : List Dependency := []
  package : Package := {}
  /-- The message with which the compilation fails, if it does. -/
  fault : Option String := none
  /-- The message with which the compiler crashes, if it does. -/
  crash : Option String := none
  /-- What happens to files while the file is compiled for the first time; a file without
  successor vanishes. -/
  meanwhile : List (Path × Option SketchFile) := []
  /-- The changes that are reported while the file is compiled for the first time. -/
  reported : List Path := []
deriving Inhabited

namespace SketchFile

mutual

/-- How many files there can be because of a file. -/
def weight : SketchFile → Nat
  | ⟨_, _, _, _, _, _, _, meanwhile, _⟩ => weightAll meanwhile + 1

/-- How many files there can be because of others. -/
def weightAll : List (Path × Option SketchFile) → Nat
  | [] => 0
  | (_, none) :: rest => weightAll rest
  | (_, some file) :: rest => weight file + weightAll rest

end

/-- The kind of the output of a file by its extension. -/
def kindOf (p : Path) : Kind :=
  match p.extension?.getD "" with
  | "css" | "less" | "scss" => .css
  | "html" => .html
  | _ => .js

/-- What comes of an attempt to compile the file. -/
def attempt (file : SketchFile) (p : Path) : Workers.Attempt CompiledUnit :=
  match file.crash, file.fault with
  | some message, _ => .crashed (some message)
  | none, some message => .finished (.error (.compileIn message p))
  | none, none =>
    let generated := file.generated.getD (.single (kindOf p).tag file.content)
    .finished (.ok ⟨generated, file.hash.getD generated.fingerprint, file.dependencies⟩)

/-- The file after its first compilation. -/
def settled (file : SketchFile) : SketchFile :=
  { file with meanwhile := [], reported := [] }

end SketchFile

/-! ## Sketches -/

/-- Whether a build has a thing, and whether it works. -/
inductive Device where
  | absent
  | working
  | broken
deriving DecidableEq, Repr

/-- What was done with a cache. -/
inductive CacheUse where
  | read (p : Path) (hit : Bool)
  | write (p : Path) (inlined : List Path)
  | invalidate (p : Path)
deriving DecidableEq, Repr

/-- A line that tells of a use of a cache. -/
def CacheUse.describe : CacheUse → String
  | read p hit => "read " ++ p.text ++ (if hit then " hit" else " miss")
  | write p inlined =>
    "write " ++ p.text ++ " [" ++ ", ".intercalate (inlined.map Path.text) ++ "]"
  | invalidate p => "invalidate " ++ p.text

/-- What was sent to pages. -/
inductive Sending where
  | update (assets : List LiveUpdate.UpdatedAsset)
  | alert (failure : Failure)
  | stop
deriving DecidableEq, Repr

/-- A project in memory with the journal of a build. -/
structure Sketch where
  files : Path.Map SketchFile := .empty
  /-- The specifiers that cannot be resolved, with the failures. -/
  unresolvable : Table Failure := .empty
  /-- The implied imports by the texts of paths, or for all files of a kind by its tag behind a point. -/
  implied : Table (Except Failure (List Dependency)) := .empty
  /-- The names of bundles that cannot be written. -/
  unwritable : List String := []
  cache : Device := .absent
  watcher : Device := .working
  sends : Bool := false
  memory : Cache.Memory := {}
  watched : List String := []
  closed : Bool := false
  compiled : List Path := []
  written : List PackagedBundle := []
  sent : List Sending := []
  cacheUses : List CacheUse := []
  /-- The reported changes that the build has not taken note of yet. -/
  pending : List Path := []

namespace Sketch

/-- Change files; a file without successor vanishes. -/
def edit (sketch : Sketch) (files : List (Path × Option SketchFile)) : Sketch :=
  { sketch with
    files := files.foldl
      (fun map change =>
        match change.2 with
        | some file => map.put change.1 file
        | none => map.erase change.1)
      sketch.files }

/-- How many files there are and can be. -/
def reach (sketch : Sketch) : Nat :=
  SketchFile.weightAll (sketch.files.entries.map fun entry => (entry.1, some entry.2))

/-- Forget what was done so far. -/
def withoutJournal (sketch : Sketch) : Sketch :=
  { sketch with compiled := [], written := [], sent := [], cacheUses := [] }

/-! ## The tools -/

/-- The path that a specifier means. -/
def target (specifier : String) : Option Path → Path
  | none => ⟨specifier⟩
  | some importer =>
    if (Path.mk specifier).isAbsolute then ⟨specifier⟩
    else ((importer.parent?.getD ⟨"/"⟩).join ⟨specifier⟩).normalize

/-- Find a module. -/
def resolve (specifier : String) (importer : Option Path) (sketch : Sketch) : Answer × Sketch :=
  let result : Except Failure Lookup.Modules.Resolved :=
    match sketch.unresolvable.get? specifier with
    | some failure => .error failure
    | none =>
      let p := target specifier importer
      match sketch.files.get? p with
      | some file => .ok ⟨p, file.package⟩
      | none => .error (.moduleNotFound specifier (importer.getD ⟨"/"⟩))
  (⟨result, []⟩, sketch)

/-- Compile a file.  What happens meanwhile happens after the file was read. -/
def compile (p : Path) (sketch : Sketch) : Except Failure CompiledUnit × Sketch :=
  let sketch := { sketch with compiled := sketch.compiled ++ [p] }
  match sketch.files.get? p with
  | none => (.error (.compileIn "file vanished" p), sketch)
  | some file =>
    let sketch := (sketch.edit [(p, some file.settled)]).edit file.meanwhile
    ((file.attempt p).guarded p, { sketch with pending := sketch.pending ++ file.reported })

/-- The imports that a file has by its path or else by its kind. -/
def imply (p : Path) (kind : Kind) (sketch : Sketch) : Except Failure (List Dependency) × Sketch :=
  let found := sketch.implied.get? p.text <|> sketch.implied.get? ("." ++ kind.tag)
  (found.getD (.ok []), sketch)

/-- Take down a use of the cache. -/
def use (sketch : Sketch) (cacheUse : CacheUse) : Sketch :=
  { sketch with cacheUses := sketch.cacheUses ++ [cacheUse] }

/-- Recall a unit. -/
def retrieve (p : Path) (sketch : Sketch) : Option CompiledUnit × Sketch :=
  if sketch.cache = .working then
    let unit := sketch.memory.read p
    (unit, sketch.use (.read p unit.isSome))
  else (none, sketch)

/-- Keep a unit. -/
def remember (p : Path) (unit : CompiledUnit) (inlined : List Path) (sketch : Sketch) : Sketch :=
  if sketch.cache = .working then
    { sketch with memory := sketch.memory.write p unit }.use (.write p inlined)
  else sketch

/-- Drop a unit. -/
def forget (p : Path) (sketch : Sketch) : Sketch :=
  if sketch.cache = .working then
    { sketch with memory := sketch.memory.invalidate p }.use (.invalidate p)
  else sketch

/-- Watch a file. -/
def watch (p : Path) (sketch : Sketch) : Except Failure Unit × Sketch :=
  match sketch.watcher with
  | .absent => (.ok (), sketch)
  | .broken => (.error (.build "watch limit"), sketch)
  | .working => (.ok (), { sketch with watched := includeLast p.text sketch.watched })

/-- Watch a file no more. -/
def unwatch (p : Path) (sketch : Sketch) : Sketch :=
  if sketch.watcher = .working then { sketch with watched := sketch.watched.filter (· != p.text) }
  else sketch

/-- Take down that a bundle was written. -/
def write (bundle : PackagedBundle) (sketch : Sketch) : Except Failure Unit × Sketch :=
  if sketch.unwritable.contains bundle.name.text then
    (.error (.build ("cannot write " ++ bundle.name.text)), sketch)
  else (.ok (), { sketch with written := sketch.written ++ [bundle] })

/-- Take down that something was sent. -/
def send (sketch : Sketch) (sending : Sending) : Sketch :=
  if sketch.sends then { sketch with sent := sketch.sent ++ [sending] } else sketch

/-- The tools of a build over a sketch; whether files are watched depends on the sketch at its start. -/
def tools (start : Sketch) : Toolset Unit Unit Sketch where
  resolve := resolve
  compile := fun _ p _ sketch => compile p sketch
  implied := imply
  arrivals := fun sketch => (sketch.pending, { sketch with pending := [] })
  source := fun _ _ => none
  retrieve := retrieve
  remember := remember
  forget := forget
  watch := watch
  unwatch := unwatch
  prepare := fun _ sketch => (.ok (), sketch)
  write := fun _ bundle sketch => write bundle sketch
  writesOn := false
  update := fun assets sketch => sketch.send (.update assets)
  alert := fun failure sketch => sketch.send (.alert failure)
  close := fun sketch => { sketch with closed := sketch.watcher != Device.absent }.send .stop
  watches := start.watcher != Device.absent
  reach := reach

theorem resolve_of_file {sketch : Sketch} {specifier : String} {file : SketchFile}
    (h : sketch.unresolvable.get? specifier = none) (hf : sketch.files.get? ⟨specifier⟩ = some file) :
    (sketch.resolve specifier none).1.result = .ok ⟨⟨specifier⟩, file.package⟩ := by
  simp [resolve, target, h, hf]

theorem compile_missing {sketch : Sketch} {p : Path} (h : sketch.files.get? p = none) :
    (sketch.compile p).1 = .error (.compileIn "file vanished" p) := by
  simp [compile, h]

end Sketch
end Build
end ModuleBundler
