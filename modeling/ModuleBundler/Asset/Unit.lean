import ModuleBundler.Asset.Kind
import ModuleBundler.Digest.Blake3
import ModuleBundler.Text.Location

/-!
# Compiled units

What compiling one asset yields: the output text for each kind of bundle, its
fingerprint and the imports that the source declares.

Main results:

- Theorem {lit}`Generated.fingerprintBytes_empty`: no output has no bytes.
-/

namespace ModuleBundler

/-- The largest number that a place is counted with, the largest one of 64 bits. -/
def maxCount : Nat := 18446744073709551615

namespace Location

/-- How a place stands in JSON. -/
def record : Json.Record Location where
  title := "struct SourceLocation"
  start := ⟨0, 0⟩
  fields :=
    let count := Json.Codec.natural maxCount "usize"
    [⟨Nat, "line", true, count, Location.line, fun line place => { place with line }⟩,
     ⟨Nat, "column", true, count, Location.column, fun column place => { place with column }⟩]

end Location

/-! ## Dependencies -/

/-- An import as the source declares it. -/
structure Dependency where
  specifier : String
  /-- Whether the module is loaded only when it is asked for. -/
  dynamic : Bool := false
  /-- Whether the importer's output holds the module's output already. -/
  inlined : Bool := false
  place : Option Location := none
  /-- The media query under which a stylesheet is imported. -/
  media : Option String := none
deriving DecidableEq, Repr, Inhabited

namespace Dependency

/-- How a dependency stands in JSON. -/
def record : Json.Record Dependency where
  title := "struct Dependency"
  start := { specifier := "" }
  fields :=
    [⟨String, "specifier", true, .text "a string",
        Dependency.specifier, fun specifier dep => { dep with specifier }⟩,
     ⟨Bool, "dynamic", false, .flag,
        Dependency.dynamic, fun dynamic dep => { dep with dynamic }⟩,
     ⟨Bool, "included_in_parent", false, .flag,
        Dependency.inlined, fun inlined dep => { dep with inlined }⟩,
     ⟨Option Location, "loc", false, .optional Location.record.codec,
        Dependency.place, fun place dep => { dep with place }⟩,
     ⟨Option String, "media", false, .optional (.text "a string"),
        Dependency.media, fun media dep => { dep with media }⟩]

end Dependency

/-! ## Output -/

/-- Output texts by the tag of their kind. -/
abbrev Generated := Table String

namespace Generated

/-- The output of one kind. -/
def ofKind (generated : Generated) (kind : Kind) : Option String :=
  generated.get? kind.tag

/-- The bytes that stand for the output: every tag, a NUL and the tag's text. -/
def fingerprintBytes (generated : Generated) : ByteArray :=
  generated.entries.foldl
    (fun bytes entry => (bytes ++ entry.1.toUTF8).push 0 ++ entry.2.toUTF8) .empty

/-- The fingerprint of the output. -/
def fingerprint (generated : Generated) : String :=
  Blake3.hex generated.fingerprintBytes

@[simp]
theorem fingerprintBytes_empty : fingerprintBytes (Table.empty : Generated) = .empty := rfl

end Generated

/-! ## Units -/

/-- The result of compiling one asset. -/
structure CompiledUnit where
  generated : Generated
  hash : String
  dependencies : List Dependency
deriving DecidableEq, Repr, Inhabited

namespace CompiledUnit

/-- How a compiled unit stands in JSON. -/
def record : Json.Record CompiledUnit where
  title := "struct CompiledUnit"
  start := ⟨.empty, "", []⟩
  fields :=
    [⟨Table String, "generated", true, .tableOf (.text "a string"),
        CompiledUnit.generated, fun generated unit => { unit with generated }⟩,
     ⟨String, "hash", true, .text "a string",
        CompiledUnit.hash, fun hash unit => { unit with hash }⟩,
     ⟨List Dependency, "dependencies", true, .list Dependency.record.codec,
        CompiledUnit.dependencies, fun dependencies unit => { unit with dependencies }⟩]

end CompiledUnit
end ModuleBundler
