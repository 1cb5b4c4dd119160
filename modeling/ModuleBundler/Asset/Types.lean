import ModuleBundler.Asset.Kind
import ModuleBundler.Path.Basic
import ModuleBundler.Text.Lowercase

/-!
# Asset types

The extension of a file decides the kind of its asset and the compiler that
handles it.  Extensions are compared in lower case; those that nobody registered
are kinds of their own and go to the fallback compiler.

Main results:

- Theorem {lit}`AssetTypes.typeOf_register`: a registered type is found for its extension.
-/

namespace ModuleBundler

/-- The kind and the compiler of an extension. -/
structure AssetType (κ : Type) where
  kind : Kind
  compiler : κ
deriving DecidableEq, Repr

/-- The asset types by extension; {lit}`κ` is how compilers are known. -/
structure AssetTypes (κ : Type) where
  types : Table (AssetType κ)
  fallback : κ

namespace AssetTypes

variable {κ : Type}

/-- The extensions that every project knows, with their kinds. -/
def builtin : List (String × Kind) :=
  [("js", .js), ("jsx", .js), ("mjs", .js), ("cjs", .js), ("ts", .js), ("tsx", .js),
   ("json", .js), ("css", .css), ("less", .css), ("scss", .css), ("sass", .css), ("styl", .css),
   ("html", .html), ("htm", .html)]

/-- The types of every project, all with one compiler. -/
def ofFallback (compiler : κ) : AssetTypes κ :=
  ⟨.ofList (builtin.map fun (extension, kind) => (extension, ⟨kind, compiler⟩)), compiler⟩

/-- An extension as it is compared: without leading dots, in lower case. -/
def keyOf (extension : String) : String :=
  Text.lowercase (String.ofList (extension.toList.dropWhile (· == '.')))

/-- Register a type for an extension. -/
def register (types : AssetTypes κ) (extension : String) (kind : Kind) (compiler : κ) : AssetTypes κ :=
  { types with types := types.types.put (keyOf extension) ⟨kind, compiler⟩ }

/-- Exchange the fallback compiler, also in the types that still use it. -/
def withFallback [DecidableEq κ] (types : AssetTypes κ) (compiler : κ) : AssetTypes κ :=
  { types := types.types.map fun type =>
      if type.compiler = types.fallback then { type with compiler } else type
    fallback := compiler }

/-- The kind of files whose extension nobody registered. -/
def otherKind (extension : String) : Kind :=
  ⟨if extension = "" then "raw" else extension⟩

/-- The type of a file. -/
def typeOf (types : AssetTypes κ) (p : Path) : AssetType κ :=
  let extension := p.foldedExtension Text.lowercase
  (types.types.get? extension).getD ⟨otherKind extension, types.fallback⟩

/-- The kind of a file. -/
def kindOf (types : AssetTypes κ) (p : Path) : Kind :=
  (types.typeOf p).kind

/-- The compiler of a file. -/
def compilerOf (types : AssetTypes κ) (p : Path) : κ :=
  (types.typeOf p).compiler

/-- All compilers, each once, the fallback first. -/
def compilers [DecidableEq κ] (types : AssetTypes κ) : List κ :=
  (types.fallback :: types.types.entries.map fun entry => entry.2.compiler).eraseDups

theorem typeOf_register {types : AssetTypes κ} {extension : String} {p : Path}
    (h : p.foldedExtension Text.lowercase = keyOf extension) (kind : Kind) (compiler : κ) :
    (types.register extension kind compiler).typeOf p = ⟨kind, compiler⟩ := by
  simp [typeOf, register, h]

end AssetTypes
end ModuleBundler
