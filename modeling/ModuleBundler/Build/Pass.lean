import ModuleBundler.Build.Load
import ModuleBundler.Bundle.Layout
import ModuleBundler.Bundle.Packagers
import ModuleBundler.Bundle.Report

/-!
# A pass of a build

A pass loads all assets that wait, and with them everything that turns out to be
imported.  Then it lays the assets out in bundles anew, writes the bundles that
have changed and unloads the assets that belong to no bundle any more.  The first
pass also finds the entry.

Main results:

- Theorem {lit}`Pass.drain_of_empty`: when nothing waits, nothing is loaded.
- Theorem {lit}`Pass.drain_succ`: more batches than needed do not change a result.
-/

namespace ModuleBundler
namespace Build

/-- What does not change during a pass. -/
structure Setup (κ π : Type) where
  entry : Path
  outDir : Path
  types : AssetTypes κ
  packagers : Packagers π

namespace Pass

variable {κ π σ : Type}

/-! ## Loading what waits -/

/-- Drop assets from the cache. -/
def forgetAll (tools : Toolset κ π σ) (ids : List AssetId) (work : Work σ) : Work σ :=
  let identities := ids.filterMap fun id => (work.state.graph.get? id).map Asset.identity
  { work with world := identities.foldl (fun world p => tools.forget p world) work.world }.listen tools

/-- Load one batch after another until nothing waits.  The result lists what was loaded; after the
first pass everything in a batch is compiled anew.  It is {lit}`none` if the number of batches or the
depth was too small. -/
def drain (tools : Toolset κ π σ) (types : AssetTypes κ) (first : Bool) (depth : Nat) :
    (batches : Nat) → List AssetId → Work σ → Option (Except Failure (List AssetId) × Work σ)
  | 0, _, _ => none
  | batches + 1, loaded, work =>
    let (ids, state) := work.state.drain (!first)
    let work := { work with state }
    if ids.isEmpty then some (.ok loaded, work)
    else
      let work := if first then work else forgetAll tools ids work
      match Load.batch tools types depth ids work with
      | none => none
      | some (some failure, work) => some (.error failure, work)
      | some (none, work) =>
        drain tools types first depth batches
          (ids.foldl (fun loaded id => includeLast id loaded) loaded) work

/-- Send the assets that were loaded, and before them those that have no place in the layout yet. -/
def sendUpdate (tools : Toolset κ π σ) (loaded : List AssetId) (work : Work σ) : Work σ :=
  let changed := loaded.foldl (fun changed id => includeLast id changed) work.state.graph.orphans
  { work with world := tools.update (changed.filterMap work.state.graph.updated?) work.world }.listen
    tools

/-! ## Bundles -/

/-- Lay all assets out in bundles anew. -/
def layOut (outDir : Path) (start : AssetId) (work : Work σ) : BundleTree × Work σ :=
  let layout := Layout.ofGraph (work.state.graph.updateAll Asset.withoutPlace) outDir start
  (layout.tree, { work with state := { work.state with graph := layout.graph } })

/-- Write bundles. -/
def write (tools : Toolset κ π σ) (packagers : Packagers π) (bundles : List PackagedBundle)
    (work : Work σ) : Except Failure Unit × Work σ :=
  let (result, world) :=
    if tools.writesOn then packagers.runAll tools.write bundles work.world
    else packagers.runInTurn tools.write bundles work.world
  (result, { work with world }.listen tools)

/-- Unload the assets that belong to no bundle. -/
def unload (tools : Toolset κ π σ) (work : Work σ) : Work σ :=
  let (released, state) := work.state.unload
  { work with state, world := released.foldl (fun world p => tools.unwatch p world) work.world }

/-- Write the bundles that have changed, and report on all of them. -/
def finish (tools : Toolset κ π σ) (setup : Setup κ π) (start : AssetId) (work : Work σ) :
    Except Failure Report × Work σ :=
  let (tree, work) := layOut setup.outDir start work
  let plan := Packaging.plan tree work.state.graph work.state.fingerprints
  match write tools setup.packagers plan.changed work with
  | (.error failure, work) => (.error failure, work)
  | (.ok _, work) =>
    let work := { work with state := { work.state with fingerprints := some plan.hashes } }
    let work := unload tools work
    (.ok (Report.ofTree tree work.state.graph (plan.changed.map PackagedBundle.name)), work)

/-! ## Whole passes -/

/-- Load what waits.  The result is the asset from which the bundles are to be laid out. -/
def gather (tools : Toolset κ π σ) (types : AssetTypes κ) (first : Bool) (depth : Nat)
    (work : Work σ) : Option (Except Failure AssetId × Work σ) :=
  match drain tools types first depth depth [] work with
  | none => none
  | some (.error failure, work) => some (.error failure, work)
  | some (.ok loaded, work) =>
    let work := if first then work else sendUpdate tools loaded work
    match work.state.start with
    | none => some (.error (.build "Entry asset is not loaded"), work)
    | some start => some (.ok start, work)

/-- Make the output directory and find the entry, which then waits to be loaded. -/
def enter (tools : Toolset κ π σ) (setup : Setup κ π) (work : Work σ) :
    Except Failure Unit × Work σ :=
  let work := work.tell (.opened setup.entry setup.outDir)
  match tools.prepare setup.outDir work.world with
  | (.error failure, world) => (.error failure, { work with world }.listen tools)
  | (.ok _, world) =>
    let work := { work with world }.listen tools
    let (answer, world) := tools.resolve setup.entry.text none work.world
    let work := ({ work with world }.warn answer.warnings).listen tools
    match answer.result with
    | .error failure => (.error failure, work)
    | .ok module =>
      let (id, work) := work.enter tools setup.types module
      (.ok (), { work with state := { work.state with start := some id }.enqueue id })

/-- The part of a pass before the bundles are laid out. -/
def assemble (tools : Toolset κ π σ) (setup : Setup κ π) (depth : Nat) (work : Work σ) :
    Option (Except Failure AssetId × Work σ) :=
  if work.state.start.isNone then
    match enter tools setup work with
    | (.error failure, work) => some (.error failure, work)
    | (.ok _, work) => gather tools setup.types true depth work
  else gather tools setup.types false depth work

/-- A pass.  The result is {lit}`none` if the depth was too small. -/
def run (tools : Toolset κ π σ) (setup : Setup κ π) (depth : Nat) (work : Work σ) :
    Option (Except Failure Report × Work σ) :=
  match assemble tools setup depth work with
  | none => none
  | some (.error failure, work) => some (.error failure, work)
  | some (.ok start, work) => some (finish tools setup start work)

/-! ### Laws -/

theorem drain_of_empty (tools : Toolset κ π σ) (types : AssetTypes κ) (first : Bool)
    (depth batches : Nat) (loaded : List AssetId) {work : Work σ} (h : work.state.queue = []) :
    (drain tools types first depth (batches + 1) loaded work).map (·.1.toOption) =
      some (some loaded) := by
  simp [drain, State.drain, h, Except.toOption]

/-- More batches do not change a result. -/
theorem drain_succ (tools : Toolset κ π σ) (types : AssetTypes κ) (first : Bool) (depth : Nat) :
    ∀ {batches : Nat} {loaded : List AssetId} {work : Work σ}
      {result : Except Failure (List AssetId) × Work σ},
      drain tools types first depth batches loaded work = some result →
        drain tools types first depth (batches + 1) loaded work = some result := by
  intro batches
  induction batches with
  | zero => intro loaded work result h; simp [drain] at h
  | succ batches ih =>
    intro loaded work result h
    rw [drain] at h ⊢
    dsimp only at h ⊢
    by_cases hempty : (work.state.drain (!first)).1.isEmpty
    · rw [if_pos hempty] at h ⊢
      exact h
    · rw [if_neg hempty] at h ⊢
      revert h
      generalize Load.batch tools types depth _ _ = outcome
      intro h
      match outcome, h with
      | none, h => simp at h
      | some (some _, _), h => exact h
      | some (none, _), h => exact ih h

end Pass
end Build
end ModuleBundler
