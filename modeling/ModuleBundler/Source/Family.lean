import ModuleBundler.Asset.Kind
import ModuleBundler.Path.Basic
import ModuleBundler.Text.Lowercase

/-!
# Families of source languages

The extension of a file, in lower case, says to which family of languages it
belongs and what kind of output it has.

Main results:

- Theorem {lit}`Family.outputKind_ofExtension_css`: every style language yields stylesheets.
-/

namespace ModuleBundler
namespace Source

/-- A family of source languages. -/
inductive Family where
  | script
  | data
  | style
  | markup
  | other
deriving DecidableEq, Repr

namespace Family

/-- The family that an extension belongs to. -/
def ofExtension (extension : String) : Family :=
  if extension ∈ ["js", "jsx", "mjs", "cjs", "ts", "tsx"] then script
  else if extension = "json" then data
  else if extension ∈ ["css", "less", "scss", "sass", "styl"] then style
  else if extension ∈ ["html", "htm"] then markup
  else other

/-- The kind of output that a family has; files of no known family are passed on under their extension. -/
def outputKind (family : Family) (extension : String) : Kind :=
  match family with
  | script => .js
  | data => .js
  | style => .css
  | markup => .html
  | other => ⟨extension⟩

theorem outputKind_ofExtension_css {extension : String}
    (h : extension ∈ ["css", "less", "scss", "sass", "styl"]) :
    (ofExtension extension).outputKind extension = .css := by
  simp only [List.mem_cons, List.not_mem_nil, or_false] at h
  rcases h with rfl | rfl | rfl | rfl | rfl <;> decide

end Family

/-- Style languages whose imports their own tools have put into the output already. -/
def isPreprocessed (extension : String) : Bool :=
  extension ∈ ["less", "scss", "sass", "styl"]

/-- The extension of a path in lower case. -/
def extensionOf (path : Path) : String :=
  path.foldedExtension Text.lowercase

end Source
end ModuleBundler
