import ModuleBundler.Bundle.Tree
import ModuleBundler.Text.Lines

/-!
# Packaging

A bundle is packaged from a copy of its members' output.  Only bundles whose
fingerprint has changed since the last time are packaged; empty ones never are.
Scripts and all else are written one after another; a stylesheet that is
imported only under media queries is put under them.

Main results:

- Theorem {lit}`Packaging.renderPlain_nil`: a bundle without members is written as nothing.
- Theorem {lit}`Packaging.renderStyled_of_incoming_nil`: what nothing imports is not put under a media query.
-/

namespace ModuleBundler

/-! ## Packages of output -/

/-- A member of a packaged bundle. -/
structure PackagedAsset where
  identity : Path
  kind : Kind
  content : String
  hash : String
  incoming : List Dependency
deriving DecidableEq, Repr

/-- A bundle with all that its file is written from. -/
structure PackagedBundle where
  name : Path
  kind : Kind
  assets : List PackagedAsset
deriving DecidableEq, Repr, Inhabited

namespace Packaging

/-! ## Rendering -/

/-- The members' output, one after another. -/
def renderPlain (bundle : PackagedBundle) : String :=
  "\n".intercalate (bundle.assets.map PackagedAsset.content)

/-- The media queries of an asset, if it is imported and every import has one. -/
def mediaQueries (asset : PackagedAsset) : Option (List String) :=
  if asset.incoming.isEmpty then none else asset.incoming.mapM Dependency.media

/-- A stylesheet under its media queries. -/
def renderStyled (asset : PackagedAsset) : String :=
  match mediaQueries asset with
  | some queries =>
    "@media " ++ ", ".intercalate queries ++ " \x7b\n" ++ Text.trimString asset.content ++ "\n\x7d\n"
  | none => asset.content

/-- The members' stylesheets, one after another. -/
def renderStylesheet (bundle : PackagedBundle) : String :=
  "\n".intercalate (bundle.assets.map renderStyled)

@[simp]
theorem renderPlain_nil (name : Path) (kind : Kind) : renderPlain ⟨name, kind, []⟩ = "" := rfl

theorem renderStyled_of_incoming_nil {asset : PackagedAsset} (h : asset.incoming = []) :
    renderStyled asset = asset.content := by
  simp [renderStyled, mediaQueries, h]

/-! ## Planning -/

/-- The fingerprints of bundles by their names. -/
abbrev Fingerprints := Path.Map String

/-- Which bundles are to be packaged, and the fingerprints of all that are not empty. -/
structure Plan where
  changed : List PackagedBundle
  hashes : Fingerprints
deriving Inhabited

/-- The copy of an asset for a bundle of the given kind. -/
def copyOf (kind : Kind) (asset : Asset) : PackagedAsset where
  identity := asset.identity
  kind := asset.kind
  content := (asset.compiled.bind fun generated => generated.ofKind kind).getD ""
  hash := asset.hash.getD ""
  incoming := asset.incoming

/-- The copy of a bundle. -/
def snapshot (graph : AssetGraph) (bundle : Bundle) : PackagedBundle :=
  ⟨bundle.name, bundle.kind, (bundle.assets.filterMap graph.get?).map (copyOf bundle.kind)⟩

/-- Whether a bundle had the fingerprint before. -/
def isUnchanged (previous : Option Fingerprints) (name : Path) (hash : String) : Bool :=
  (previous.bind fun hashes => hashes.get? name) == some hash

/-- The plan with one more bundle. -/
def planBundle (tree : BundleTree) (graph : AssetGraph) (previous : Option Fingerprints)
    (plan : Plan) (id : BundleId) : Plan :=
  match tree.get? id with
  | none => plan
  | some bundle =>
    if bundle.assets.isEmpty then plan
    else
      let hash := tree.fingerprint id graph
      { changed :=
          if isUnchanged previous bundle.name hash then plan.changed
          else plan.changed ++ [snapshot graph bundle]
        hashes := plan.hashes.put bundle.name hash }

/-- The plan for the bundles of a tree, given the fingerprints of the last time. -/
def plan (tree : BundleTree) (graph : AssetGraph) (previous : Option Fingerprints) : Plan :=
  tree.walk.foldl (planBundle tree graph previous) ⟨[], .empty⟩

end Packaging
end ModuleBundler
