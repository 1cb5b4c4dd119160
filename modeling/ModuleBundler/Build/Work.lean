import ModuleBundler.Build.State
import ModuleBundler.Build.Notice
import ModuleBundler.Build.Toolset
import ModuleBundler.Asset.Types

/-!
# Work on a build

The state of a build together with the world it works on and the notices it has
given, and the steps in which a single asset is made ready: its source is
compiled, its imports are found and its place in the graph is recorded.

Main results:

- Theorem {lit}`Work.find_eq_found_iff`: which module an import means, the resolver decides.
- Theorem {lit}`Work.world_notify`: taking note of a change does not touch the world.
- Theorem {lit}`Imports.add_late`: what is found later does not undo a failure.
-/

namespace ModuleBundler
namespace Build

/-- A build at work. -/
structure Work (σ : Type) where
  state : State
  world : σ
  /-- The notices, the first one first. -/
  notices : List Notice := []

namespace Work

variable {κ π σ : Type}

/-! ## Notices and changes -/

/-- Give a notice. -/
def tell (work : Work σ) (notice : Notice) : Work σ :=
  { work with notices := work.notices ++ [notice] }

/-- Bring warnings to the user's attention. -/
def warn (work : Work σ) (warnings : List String) : Work σ :=
  { work with notices := work.notices ++ warnings.map Notice.warning }

/-- Take note of a change of a file.  The first part of the result says whether it concerns the build. -/
def notify (work : Work σ) (p : Path) : Bool × Work σ :=
  match work.state.notify p with
  | (none, _) => (false, work)
  | (some id, state) =>
    let name := (state.graph.get? id).map fun asset => asset.identity.basename
    (true, { work with state }.tell (.building (name.getD "")))

/-- Take note of changes of files. -/
def notifyAll (work : Work σ) (changes : List Path) : Work σ :=
  changes.foldl (fun work p => (work.notify p).2) work

/-- Take note of the changes that have been reported meanwhile.  This follows whatever a build waits for,
so that changes can come between any two steps of it. -/
def listen (tools : Toolset κ π σ) (work : Work σ) : Work σ :=
  let (changes, world) := tools.arrivals work.world
  { work with world }.notifyAll changes

/-! ## Assets -/

/-- Begin to watch a file. -/
def watch (tools : Toolset κ π σ) (work : Work σ) (p : Path) : Work σ :=
  match tools.watch p work.world with
  | (.ok _, world) => { work with world }
  | (.error failure, world) =>
    { work with world }.warn ["Cannot watch " ++ p.text ++ ": " ++ failure.message]

/-- The asset of a module, which is watched from the moment it is made. -/
def enter (tools : Toolset κ π σ) (types : AssetTypes κ) (work : Work σ)
    (module : Lookup.Modules.Resolved) : AssetId × Work σ :=
  match work.state.graph.insert module.path (types.kindOf module.path) module.package with
  | ((id, false), graph) => (id, { work with state := { work.state with graph } })
  | ((id, true), graph) =>
    (id, { work with state := { work.state with graph } }.watch tools module.path)

/-- Let changes of a file that was put into an asset concern that asset. -/
def inline (tools : Toolset κ π σ) (work : Work σ) (id : AssetId) (p : Path) : Work σ :=
  match work.state.graph.makeAlias p id with
  | (false, _) => work
  | (true, graph) => { work with state := { work.state with graph } }.watch tools p

/-! ## Compilation -/

/-- The unit of an asset, from the cache or else from the compiler.  The second part of a unit says
whether it was compiled just now. -/
def compile (tools : Toolset κ π σ) (types : AssetTypes κ) (work : Work σ) (asset : Asset) :
    Except Failure (CompiledUnit × Bool) × Work σ :=
  match tools.retrieve asset.identity work.world with
  | (some unit, world) => (.ok (unit, false), { work with world }.listen tools)
  | (none, world) =>
    let work := { work with world }.listen tools
    let (result, world) :=
      tools.compile (types.compilerOf asset.identity) asset.identity asset.package work.world
    (result.map fun unit => (unit, true), { work with world }.listen tools)

/-- All imports of an asset, those of its unit first. -/
def dependencies (tools : Toolset κ π σ) (work : Work σ) (asset : Asset) (unit : CompiledUnit) :
    Except Failure (List Dependency) × Work σ :=
  match tools.implied asset.identity asset.kind work.world with
  | (.ok implied, world) =>
    (.ok (unit.dependencies ++ implied), { work with world }.listen tools)
  | (.error failure, world) => (.error failure, { work with world }.listen tools)

end Work

/-! ## Imports -/

/-- What became of an import. -/
inductive Finding where
  | found (module : Lookup.Modules.Resolved)
  | failed (failure : Failure)
  /-- The import leads nowhere.  The failure shows the place of the import, so that it is known only when
  the importing source has been read again. -/
  | late (failure : Failure)

/-- What became of the imports of an asset. -/
inductive Imports where
  | found (modules : List (Dependency × Lookup.Modules.Resolved))
  | failed (failure : Failure)
  | late (failure : Failure)

namespace Imports

/-- Add an import that was found. -/
def add (dep : Dependency) (module : Lookup.Modules.Resolved) : Imports → Imports
  | found modules => found (modules ++ [(dep, module)])
  | imports => imports

/-- Add a late failure; an earlier failure counts. -/
def miss (failure : Failure) : Imports → Imports
  | found _ => late failure
  | imports => imports

/-- Whether a late failure is among the imports. -/
def isLate : Imports → Bool
  | late _ => true
  | _ => false

/-- The imports that were found. -/
def modules : Imports → List (Dependency × Lookup.Modules.Resolved)
  | found modules => modules
  | _ => []

@[simp]
theorem add_late (dep : Dependency) (module : Lookup.Modules.Resolved) (failure : Failure) :
    (late failure).add dep module = late failure := rfl

end Imports

namespace Work

variable {κ π σ : Type}

/-- The failure of an import that leads nowhere. -/
def missing (tools : Toolset κ π σ) (work : Work σ) (importer : Path) (dep : Dependency) : Finding :=
  let context := Context.ofFile importer
  match dep.place with
  | none => .failed (.resolution dep.specifier context)
  | some place =>
    let context := { context with place := some place }
    let context :=
      match tools.source importer work.world with
      | some source => context.withSource source
      | none => context
    .late (.resolution dep.specifier context)

/-- Find the module that an import means. -/
def find (tools : Toolset κ π σ) (work : Work σ) (importer : Path) (dep : Dependency) :
    Finding × Work σ :=
  let (answer, world) := tools.resolve dep.specifier (some importer) work.world
  let work := ({ work with world }.warn answer.warnings).listen tools
  match answer.result with
  | .ok module => (.found module, work)
  | .error (.moduleNotFound specifier file) =>
    if specifier = dep.specifier then (work.missing tools importer dep, work)
    else (.failed (.moduleNotFound specifier file), work)
  | .error failure => (.failed failure, work)

/-- An import is found if the resolver answers with a module, and only then. -/
theorem find_eq_found_iff {tools : Toolset κ π σ} {work : Work σ} {importer : Path} {dep : Dependency}
    {module : Lookup.Modules.Resolved} : (work.find tools importer dep).1 = .found module ↔
      (tools.resolve dep.specifier (some importer) work.world).1.result = .ok module := by
  have hmissing : ∀ asked : Work σ, asked.missing tools importer dep ≠ .found module := by
    intro asked h
    unfold missing at h
    dsimp only at h
    split at h <;> cases h
  unfold find
  dsimp only
  split
  · rename_i found heq
    rw [heq, Finding.found.injEq, Except.ok.injEq]
  · rename_i heq
    rw [heq]
    split
    · exact iff_of_false (hmissing _) nofun
    · exact iff_of_false nofun nofun
  · rename_i heq
    rw [heq]
    exact iff_of_false nofun nofun

/-- Up to so many imports are found side by side, so that a failure that is known at once comes before
a late one; with more of them the order of the imports decides. -/
def sideBySide : Nat := 30

/-- Find the modules that imports mean, up to the first failure that is known. -/
def findEach (tools : Toolset κ π σ) (inOrder : Bool) (importer : Path) :
    List Dependency → Imports → Work σ → Imports × Work σ
  | [], imports, work => (imports, work)
  | dep :: rest, imports, work =>
    match work.find tools importer dep with
    | (.found module, work) => findEach tools inOrder importer rest (imports.add dep module) work
    | (.late failure, work) => findEach tools inOrder importer rest (imports.miss failure) work
    | (.failed failure, work) =>
      if imports.isLate && inOrder then findEach tools inOrder importer rest imports work
      else (.failed failure, work)

/-- Find the modules that imports mean. -/
def findAll (tools : Toolset κ π σ) (work : Work σ) (importer : Path) (dependencies : List Dependency) :
    Imports × Work σ :=
  findEach tools (decide (sideBySide < dependencies.length)) importer dependencies (.found []) work

/-- Record an import of an asset.  The asset it leads to is a child, unless it was put into the
importing one. -/
def record (tools : Toolset κ π σ) (types : AssetTypes κ) (id : AssetId)
    (found : Dependency × Lookup.Modules.Resolved) (work : Work σ) : List AssetId × Work σ :=
  if found.1.inlined then ([], work.inline tools id found.2.path)
  else
    let (target, work) := work.enter tools types found.2
    ([target], { work with state := work.state.connect id found.1 target })

/-- Record the imports of an asset; the result lists its children. -/
def recordAll (tools : Toolset κ π σ) (types : AssetTypes κ) (id : AssetId) :
    List (Dependency × Lookup.Modules.Resolved) → Work σ → List AssetId × Work σ
  | [], work => ([], work)
  | found :: rest, work =>
    let (child, work) := work.record tools types id found
    let (children, work) := recordAll tools types id rest work
    (child ++ children, work)

/-- What became of a claimed asset. -/
inductive Preparation where
  /-- The asset is ready; its children are to be loaded. -/
  | ready (children : List AssetId)
  | failed (failure : Failure)
  | late (failure : Failure)

/-- Keep the unit of an asset in the cache if it is new. -/
def remember (tools : Toolset κ π σ) (work : Work σ) (asset : Asset) (unit : CompiledUnit)
    (isNew : Bool) (modules : List (Dependency × Lookup.Modules.Resolved)) : Work σ :=
  if isNew then
    let inlined := (modules.filter fun found => found.1.inlined).map fun found => found.2.path
    { work with world := tools.remember asset.identity unit inlined work.world }.listen tools
  else work

/-- Make a claimed asset ready. -/
def prepare (tools : Toolset κ π σ) (types : AssetTypes κ) (work : Work σ) (id : AssetId)
    (asset : Asset) : Preparation × Work σ :=
  match work.compile tools types asset with
  | (.error failure, work) => (.failed failure, work)
  | (.ok (unit, isNew), work) =>
    match work.dependencies tools asset unit with
    | (.error failure, work) => (.failed failure, work)
    | (.ok dependencies, work) =>
      let work := { work with state := work.state.keep id unit }
      match work.findAll tools asset.identity dependencies with
      | (.failed failure, work) => (.failed failure, work)
      | (.late failure, work) => (.late failure, work)
      | (.found modules, work) =>
        let (children, work) :=
          recordAll tools types id modules (work.remember tools asset unit isNew modules)
        (.ready children, work)

theorem world_notify (work : Work σ) (p : Path) : (work.notify p).2.world = work.world := by
  unfold notify
  split <;> rfl

theorem world_notifyAll (work : Work σ) (changes : List Path) :
    (work.notifyAll changes).world = work.world := by
  unfold notifyAll
  induction changes generalizing work with
  | nil => rfl
  | cons p rest ih => rw [List.foldl_cons, ih, world_notify]

@[simp]
theorem findEach_nil (tools : Toolset κ π σ) (inOrder : Bool) (importer : Path) (imports : Imports)
    (work : Work σ) : findEach tools inOrder importer [] imports work = (imports, work) := rfl

end Work
end Build
end ModuleBundler
