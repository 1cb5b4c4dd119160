import ModuleBundler.Bundle.Packaging

/-!
# Packagers

A packager writes bundles.  Every kind of bundle can have its own; the kinds
that have none go to the fallback.

Main results:

- Theorem {lit}`Packagers.packagerFor_register`: a registered packager is found for its kind.
- Theorem {lit}`Packagers.runInTurn_nil`: without bundles nothing happens.
-/

namespace ModuleBundler

/-- A way to write a bundle. -/
inductive Packager where
  /-- The contents of the assets one after another. -/
  | plain
  /-- The same for stylesheets, with media queries around assets that are imported under them. -/
  | stylesheet
deriving DecidableEq, Repr

namespace Packager

/-- The text of a bundle. -/
def render : Packager → PackagedBundle → String
  | plain => Packaging.renderPlain
  | stylesheet => Packaging.renderStylesheet

end Packager

/-- The packagers by the tag of their kind; {lit}`π` is how packagers are known. -/
structure Packagers (π : Type) where
  packagers : Table π
  fallback : π

namespace Packagers

variable {π σ : Type}

/-- One packager for all kinds. -/
def ofFallback (packager : π) : Packagers π :=
  ⟨.empty, packager⟩

/-- Register a packager for a kind. -/
def register (packagers : Packagers π) (kind : Kind) (packager : π) : Packagers π :=
  { packagers with packagers := packagers.packagers.put kind.tag packager }

/-- Exchange the packager for the kinds that have none of their own. -/
def withFallback (packagers : Packagers π) (packager : π) : Packagers π :=
  { packagers with fallback := packager }

/-- The packager for a kind. -/
def packagerFor (packagers : Packagers π) (kind : Kind) : π :=
  (packagers.packagers.get? kind.tag).getD packagers.fallback

/-- The packagers that are used if nothing else is asked for. -/
def standard : Packagers Packager :=
  (ofFallback .plain).register .css .stylesheet

@[simp]
theorem packagerFor_register (packagers : Packagers π) (kind : Kind) (packager : π) :
    (packagers.register kind packager).packagerFor kind = packager := by
  simp [packagerFor, register]

/-! ## Running -/

/-- Write the bundles one after another, up to the first failure. -/
def runInTurn (packagers : Packagers π) (write : π → PackagedBundle → σ → Except Failure Unit × σ) :
    List PackagedBundle → σ → Except Failure Unit × σ
  | [], state => (.ok (), state)
  | bundle :: rest, state =>
    match write (packagers.packagerFor bundle.kind) bundle state with
    | (.ok _, state) => runInTurn packagers write rest state
    | (.error failure, state) => (.error failure, state)

/-- Write all bundles, also after a failure; the first failure counts. -/
def runAll (packagers : Packagers π) (write : π → PackagedBundle → σ → Except Failure Unit × σ) :
    List PackagedBundle → σ → Except Failure Unit × σ
  | [], state => (.ok (), state)
  | bundle :: rest, state =>
    match write (packagers.packagerFor bundle.kind) bundle state with
    | (.ok _, state) => runAll packagers write rest state
    | (.error failure, state) => (.error failure, (runAll packagers write rest state).2)

@[simp]
theorem runInTurn_nil (packagers : Packagers π)
    (write : π → PackagedBundle → σ → Except Failure Unit × σ) (state : σ) :
    packagers.runInTurn write [] state = (.ok (), state) := rfl

end Packagers
end ModuleBundler
