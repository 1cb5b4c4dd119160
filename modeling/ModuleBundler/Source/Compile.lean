import ModuleBundler.Asset.Unit
import ModuleBundler.Failure
import ModuleBundler.Json.Any
import ModuleBundler.Source.Family
import ModuleBundler.Source.Markup
import ModuleBundler.Source.Script
import ModuleBundler.Source.Stylesheet

/-!
# Compiling sources

Sources are passed on as they are, apart from three things: data becomes a
module that exports it, stylesheets lose the imports that the bundler follows,
and minified output loses indentation and blank lines.  The imports of a source
are the dependencies of its asset.

Main results:

- Theorem {lit}`Source.generated_entries`: a compiled source has one output, of its family's kind.
-/

namespace ModuleBundler
namespace Source

/-! ## Dependencies -/

/-- The dependency of an import in a script. -/
def scriptDependency (found : Script.Import) : Dependency where
  specifier := String.ofList found.site.mention.specifier
  dynamic := found.dynamic
  place := some found.site.place

/-- The dependency of an import rule; {lit}`inlined` says that the output holds the sheet already. -/
def styleDependency (inlined : Bool) (site : Piece.Site) : Dependency where
  specifier := String.ofList (Specifier.ofUrl site.mention.specifier)
  inlined := inlined
  place := some site.place
  media :=
    let media := Stylesheet.mediaOf site.mention
    if media.isEmpty then none else some (String.ofList media)

/-- The dependency of a reference in a page. -/
def markupDependency (site : Piece.Site) : Dependency where
  specifier := String.ofList (Specifier.ofUrl site.mention.specifier)
  place := some site.place

/-- The dependencies that the source of a file declares, in the order of their places. -/
def dependencies (path : Path) (source : String) : List Dependency :=
  let extension := extensionOf path
  match Family.ofExtension extension with
  | .script => (Script.imports source).map scriptDependency
  | .style => (Stylesheet.imports source).map (styleDependency (isPreprocessed extension))
  | .markup => (Markup.references source).map markupDependency
  | .data => []
  | .other => []

/-! ## Output -/

/-- The module that exports the data of a text. -/
def exporting (source : String) : String :=
  "module.exports = " ++ Text.trimString source ++ ";"

/-- The output of a source before minification. -/
def output (path : Path) (source : String) : Except Failure String :=
  let extension := extensionOf path
  match Family.ofExtension extension with
  | .data =>
    match Json.parse source with
    | .ok _ => .ok (exporting source)
    | .error fault =>
      let spot := fault.spot.getD ⟨0, 0⟩
      .error (.compileAt ("Invalid JSON: " ++ fault.message) path ⟨spot.line, spot.column⟩)
  | .style => .ok (if isPreprocessed extension then source else Stylesheet.withoutLocalImports source)
  | _ => .ok source

/-- The kind of a file's output. -/
def kindOf (path : Path) : Kind :=
  (Family.ofExtension (extensionOf path)).outputKind (extensionOf path)

/-- The generated output for a text. -/
def generatedFor (path : Path) (minify : Bool) (text : String) : Generated :=
  .single (kindOf path).tag (if minify then Text.minifyString text else text)

/-- Compile the source of a file. -/
def compile (path : Path) (minify : Bool) (source : String) : Except Failure CompiledUnit :=
  (output path source).map fun text =>
    let generated := generatedFor path minify text
    ⟨generated, generated.fingerprint, dependencies path source⟩

/-- Compile a file from what reading it gave. -/
def compileFile (path : Path) (minify : Bool) (content : Except FileFault String) :
    Except Failure CompiledUnit :=
  match content with
  | .ok source => compile path minify source
  | .error fault => .error (.compileIn ("Cannot read " ++ path.text ++ ": " ++ fault.message) path)

theorem generated_entries {path : Path} {minify : Bool} {source : String} {unit : CompiledUnit}
    (h : compile path minify source = .ok unit) :
    ∃ text, unit.generated.entries = [((kindOf path).tag, text)] := by
  unfold compile at h
  cases hout : output path source with
  | error failure => rw [hout] at h; cases h
  | ok text =>
    rw [hout] at h
    cases h
    exact ⟨_, rfl⟩

end Source
end ModuleBundler
