import ModuleBundler.Json.Codec
import ModuleBundler.Path.Normal

/-!
# Package metadata

What the manifest of a package says, as far as bundling needs it.

Main results:

- Theorem {lit}`Package.mainPath?_of_main_none`: a package that names no main module has no main path.
-/

namespace ModuleBundler

/-- The metadata of a package. -/
structure Package where
  name : Option String := none
  version : Option String := none
  main : Option String := none
  module : Option String := none
  /-- The manifest that the metadata was read from. -/
  manifest : Option Path := none
deriving DecidableEq, Repr, Inhabited

namespace Package

/-- The absolute path of the main module, if the package names one and its manifest is known. -/
def mainPath? (package : Package) : Option Path := do
  let main ← package.main
  let manifest ← package.manifest
  let directory ← manifest.parent?
  return (directory.child main).normalize

@[simp]
theorem mainPath?_of_main_none {package : Package} (h : package.main = none) :
    package.mainPath? = none := by
  simp [mainPath?, h]

/-- How metadata stands in JSON; where the manifest lies does not belong to it. -/
def record : Json.Record Package where
  title := "struct PackageMetadata"
  start := {}
  fields :=
    let text := Json.Codec.optional (.text "a string")
    [⟨Option String, "name", false, text,
        Package.name, fun name package => { package with name }⟩,
     ⟨Option String, "version", false, text,
        Package.version, fun version package => { package with version }⟩,
     ⟨Option String, "main", false, text,
        Package.main, fun main package => { package with main }⟩,
     ⟨Option String, "module", false, text,
        Package.module, fun module package => { package with module }⟩]

end Package
end ModuleBundler
