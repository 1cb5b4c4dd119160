import ModuleBundler.Json.Codec

/-!
# Kinds of assets

The kind of an asset says which bundles it can be part of, and it is the file
extension of their output.
-/

namespace ModuleBundler

/-- A kind of asset or of output, known by its tag. -/
structure Kind where
  tag : String
deriving DecidableEq, Repr, Inhabited

namespace Kind

def js : Kind :=
  ⟨"js"⟩

def css : Kind :=
  ⟨"css"⟩

def html : Kind :=
  ⟨"html"⟩

/-- Kinds are ordered by their tags. -/
def le (a b : Kind) : Bool :=
  decide (a.tag ≤ b.tag)

/-- A kind stands in JSON as its tag. -/
def codec : Json.Codec Kind :=
  (Json.Codec.text "a string").iso Kind.mk Kind.tag

end Kind
end ModuleBundler
