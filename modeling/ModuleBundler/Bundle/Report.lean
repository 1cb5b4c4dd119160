import ModuleBundler.Bundle.Packaging

/-!
# Build reports

What a pass tells about its result: the bundles with their members, where every
asset belongs, and which bundles were written.

Main results:

- Theorem {lit}`Report.length_bundles`: a report has an entry for every bundle of the walk.
-/

namespace ModuleBundler

/-- What a report says about a bundle. -/
structure BundleInfo where
  name : Path
  kind : Kind
  /-- The asset that the bundle was made for. -/
  start : Option Path
  assets : List Path
  hash : String
  parent : Option Path
  children : List Path
deriving DecidableEq, Repr

/-- The report of a pass. -/
structure Report where
  bundles : List BundleInfo
  /-- The name of the bundle that each asset belongs to. -/
  placements : List (Path × Path)
  /-- The names of the bundles that were written. -/
  packaged : List Path
deriving DecidableEq, Repr

namespace Report

/-- The identity of an asset. -/
def identityOf (graph : AssetGraph) (id : AssetId) : Option Path :=
  (graph.get? id).map Asset.identity

/-- What a report says about a bundle of the tree. -/
def infoOf (tree : BundleTree) (graph : AssetGraph) (id : BundleId) : BundleInfo :=
  let bundle := (tree.get? id).getD ⟨⟨""⟩, ⟨""⟩, none, [], none, [], .empty⟩
  { name := bundle.name
    kind := bundle.kind
    start := bundle.start.bind (identityOf graph)
    assets := bundle.assets.filterMap (identityOf graph)
    hash := tree.fingerprint id graph
    parent := bundle.parent.map tree.nameOf
    children := bundle.children.map tree.nameOf }

/-- Where the live assets belong. -/
def placementsOf (tree : BundleTree) (graph : AssetGraph) : List (Path × Path) :=
  graph.live.filterMap fun asset => asset.home.map fun home => (asset.identity, tree.nameOf home)

/-- The report about a tree. -/
def ofTree (tree : BundleTree) (graph : AssetGraph) (packaged : List Path) : Report :=
  ⟨tree.walk.map (infoOf tree graph), placementsOf tree graph, packaged⟩

@[simp]
theorem length_bundles (tree : BundleTree) (graph : AssetGraph) (packaged : List Path) :
    (ofTree tree graph packaged).bundles.length = tree.walk.length := by
  simp [ofTree]

/-! ## Questions -/

/-- The main bundle. -/
def root? (report : Report) : Option BundleInfo :=
  report.bundles.head?

/-- The bundle of a name. -/
def bundle? (report : Report) (name : Path) : Option BundleInfo :=
  report.bundles.find? fun bundle => bundle.name == name

/-- The bundle that was made for an asset. -/
def bundleFrom? (report : Report) (start : Path) : Option BundleInfo :=
  report.bundles.find? fun bundle => bundle.start.any (· == start)

/-- The bundle that an asset belongs to. -/
def primary? (report : Report) (asset : Path) : Option BundleInfo :=
  (report.placements.find? fun placement => placement.1 == asset).bind fun placement =>
    report.bundle? placement.2

/-- The bundles that an asset is a member of. -/
def containing (report : Report) (asset : Path) : List BundleInfo :=
  report.bundles.filter fun bundle => bundle.assets.any (· == asset)

end Report
end ModuleBundler
