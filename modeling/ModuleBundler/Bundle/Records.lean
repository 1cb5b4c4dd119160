import ModuleBundler.Bundle.Packaging
import ModuleBundler.Bundle.Report

/-!
# Assets, bundles and reports in JSON

How assets, bundles, reports and answers to questions about a report stand in JSON.
Assets and bundles of a tree stand for their ids.

Main results:

- Theorem {lit}`Report.toValue_empty`: a report on nothing.
-/

namespace ModuleBundler

/-! ## Assets and trees -/

/-- An asset id in JSON. -/
def AssetId.toValue (id : AssetId) : Json.Value :=
  .whole id.index

/-- A bundle id in JSON. -/
def BundleId.toValue (id : BundleId) : Json.Value :=
  .whole id.index

/-- An asset in JSON. -/
def Asset.toValue (asset : Asset) : Json.Value :=
  let ofTable {α : Type} (write : α → Json.Value) (table : Table α) : Json.Value :=
    .table (table.map write).entries
  let ofDependencies (dependencies : List Dependency) : Json.Value :=
    .list (dependencies.map Dependency.record.codec.write)
  .table
    [("id", asset.id.toValue), ("identity", .text asset.identity.text), ("kind", .text asset.kind.tag),
      ("compiled", asset.compiled.elim .null (ofTable .text)),
      ("content_hash", asset.hash.elim .null .text),
      ("dependencies", ofDependencies asset.dependencies),
      ("resolved", ofTable AssetId.toValue asset.resolved),
      ("incoming", ofDependencies asset.incoming), ("dirty", .flag asset.dirty),
      ("bundles", .list (asset.bundles.map BundleId.toValue)),
      ("parent_bundle", asset.home.elim .null BundleId.toValue)]

/-- A bundle of a tree in JSON. -/
def Bundle.toValue (bundle : Bundle) : Json.Value :=
  .table
    [("kind", .text bundle.kind.tag), ("name", .text bundle.name.text),
      ("entry", bundle.start.elim .null AssetId.toValue),
      ("assets", .list (bundle.assets.map AssetId.toValue)),
      ("parent", bundle.parent.elim .null BundleId.toValue),
      ("children", .list (bundle.children.map BundleId.toValue)),
      ("siblings", .table (bundle.siblings.map BundleId.toValue).entries),
      ("empty", .flag bundle.assets.isEmpty)]

/-- A bundle tree in JSON. -/
def BundleTree.toValue (tree : BundleTree) : Json.Value :=
  .table
    [("root", tree.root.elim .null BundleId.toValue), ("len", .whole tree.size),
      ("empty", .flag tree.bundles.isEmpty), ("bundles", .list (tree.bundles.map Bundle.toValue))]

/-! ## Packaged bundles and reports -/

/-- How a member of a packaged bundle stands in JSON. -/
def PackagedAsset.record : Json.Record PackagedAsset where
  title := "packaged asset"
  start := ⟨⟨""⟩, ⟨""⟩, "", "", []⟩
  fields :=
    [⟨Path, "identity", true, Path.codec,
        PackagedAsset.identity, fun identity asset => { asset with identity }⟩,
     ⟨Kind, "kind", false, Kind.codec, PackagedAsset.kind, fun kind asset => { asset with kind }⟩,
     ⟨String, "content", true, .text "a string",
        PackagedAsset.content, fun content asset => { asset with content }⟩,
     ⟨String, "content_hash", false, .text "a string",
        PackagedAsset.hash, fun hash asset => { asset with hash }⟩,
     ⟨List Dependency, "incoming", false, .list Dependency.record.codec,
        PackagedAsset.incoming, fun incoming asset => { asset with incoming }⟩]

/-- How a packaged bundle stands in JSON. -/
def PackagedBundle.record : Json.Record PackagedBundle where
  title := "packaged bundle"
  start := ⟨⟨""⟩, ⟨""⟩, []⟩
  fields :=
    [⟨Path, "name", true, Path.codec, PackagedBundle.name, fun name bundle => { bundle with name }⟩,
     ⟨Kind, "kind", true, Kind.codec, PackagedBundle.kind, fun kind bundle => { bundle with kind }⟩,
     ⟨List PackagedAsset, "assets", true, .list PackagedAsset.record.codec,
        PackagedBundle.assets, fun assets bundle => { bundle with assets }⟩]

/-- What a report says about a bundle, in JSON. -/
def BundleInfo.record : Json.Record BundleInfo where
  title := "bundle"
  start := ⟨⟨""⟩, ⟨""⟩, none, [], "", none, []⟩
  fields :=
    [⟨Path, "name", true, Path.codec, BundleInfo.name, fun name info => { info with name }⟩,
     ⟨Kind, "kind", true, Kind.codec, BundleInfo.kind, fun kind info => { info with kind }⟩,
     ⟨Option Path, "entry", false, .optional Path.codec,
        BundleInfo.start, fun start info => { info with start }⟩,
     ⟨List Path, "assets", true, .list Path.codec,
        BundleInfo.assets, fun assets info => { info with assets }⟩,
     ⟨String, "hash", true, .text "a string", BundleInfo.hash, fun hash info => { info with hash }⟩,
     ⟨Option Path, "parent", false, .optional Path.codec,
        BundleInfo.parent, fun parent info => { info with parent }⟩,
     ⟨List Path, "children", true, .list Path.codec,
        BundleInfo.children, fun children info => { info with children }⟩]

namespace Report

/-- A report in JSON. -/
def toValue (report : Report) : Json.Value :=
  .table
    [("bundles", .list (report.bundles.map BundleInfo.record.codec.write)),
      ("placements", .table (report.placements.map fun (asset, bundle) => (asset.text, .text bundle.text))),
      ("packaged", .list (report.packaged.map fun name => .text name.text))]

/-- What a report answers about a path, in JSON: the names of the bundles that it leads to. -/
def answersFor (report : Report) (p : Path) : Json.Value :=
  let nameOf (info : Option BundleInfo) : Json.Value :=
    match info with
    | some info => .text info.name.text
    | none => .null
  .table
    [("root", nameOf report.root?), ("bundle", nameOf (report.bundle? p)),
      ("for_entry", nameOf (report.bundleFrom? p)), ("primary", nameOf (report.primary? p)),
      ("containing", .list ((report.containing p).map fun info => .text info.name.text))]

theorem toValue_empty :
    toValue ⟨[], [], []⟩ = .table [("bundles", .list []), ("placements", .table []), ("packaged", .list [])] := rfl

end Report
end ModuleBundler
