import ModuleBundler.Asset.Unit
import ModuleBundler.Bundle.Packaging
import ModuleBundler.LiveUpdate.Message
import ModuleBundler.Lookup.Modules

/-!
# The tools of a build

A build works on the world through tools: they find modules, compile them, keep
compiled units, watch files, write bundles and send live updates.  Every tool is
a function on the world, so that a build over the same world always gives the
same result.  Changes of files are reported to a build at any time; the world
holds the reports until the build asks for them.

Main results:

- Theorem {lit}`Toolset.withoutCache_retrieve`: without a cache nothing is retrieved.
-/

namespace ModuleBundler
namespace Build

/-- The answer to the question where a module is. -/
structure Answer where
  result : Except Failure Lookup.Modules.Resolved
  /-- What has to be brought to the user's attention. -/
  warnings : List String := []

/-- The tools of a build.  Compilers are known by {lit}`κ` and packagers by {lit}`π`; the world is a
{lit}`σ`. -/
structure Toolset (κ π σ : Type) where
  /-- Find the module that a specifier means in an importing file. -/
  resolve : String → Option Path → σ → Answer × σ
  /-- Compile a file of a package. -/
  compile : κ → Path → Package → σ → Except Failure CompiledUnit × σ
  /-- The imports that a file has though its source does not name them. -/
  implied : Path → Kind → σ → Except Failure (List Dependency) × σ
  /-- The files that were reported as changed since the last time this was asked, the first one first. -/
  arrivals : σ → List Path × σ
  /-- The source of a file, to show it in a failure. -/
  source : Path → σ → Option String
  /-- Recall the unit of a file from the cache. -/
  retrieve : Path → σ → Option CompiledUnit × σ
  /-- Keep the unit of a file, into which the given files were put, in the cache. -/
  remember : Path → CompiledUnit → List Path → σ → σ
  /-- Drop a file from the cache. -/
  forget : Path → σ → σ
  /-- Begin to watch a file. -/
  watch : Path → σ → Except Failure Unit × σ
  /-- Watch a file no more. -/
  unwatch : Path → σ → σ
  /-- Make the output directory. -/
  prepare : Path → σ → Except Failure Unit × σ
  /-- Write a bundle with a packager. -/
  write : π → PackagedBundle → σ → Except Failure Unit × σ
  /-- Whether the bundles behind one that cannot be written are written all the same. -/
  writesOn : Bool
  /-- Send the assets that a pass has loaded. -/
  update : List LiveUpdate.UpdatedAsset → σ → σ
  /-- Send a failure. -/
  alert : Failure → σ → σ
  /-- Watch nothing and send nothing from now on. -/
  close : σ → σ
  /-- Whether builds go on after the first pass because files are watched. -/
  watches : Bool
  /-- No more modules can be found, and no more changes come during a pass, than this. -/
  reach : σ → Nat

namespace Toolset

variable {κ π σ : Type}

/-- The tools without a cache. -/
def withoutCache (tools : Toolset κ π σ) : Toolset κ π σ :=
  { tools with
    retrieve := fun _ world => (none, world)
    remember := fun _ _ _ world => world
    forget := fun _ world => world }

@[simp]
theorem withoutCache_retrieve (tools : Toolset κ π σ) (p : Path) (world : σ) :
    tools.withoutCache.retrieve p world = (none, world) := rfl

end Toolset
end Build
end ModuleBundler
