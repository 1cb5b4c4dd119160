import ModuleBundler.Asset.Unit
import ModuleBundler.LiveUpdate.Message
import ModuleBundler.Package.Metadata
import ModuleBundler.Path.Map

/-!
# The asset graph

Assets are the modules of a build.  They are known by ids, which are counted up
and never used again; an index leads from paths to ids.  A path in the index is
the identity of its asset or an alias, a file whose content the asset holds too.

Main results:

- Theorem {lit}`AssetGraph.get?_update_self` and theorem {lit}`AssetGraph.get?_update_of_ne`: an update changes one asset.
- Theorem {lit}`AssetGraph.get?_remove_self`: a removed asset is gone.
- Theorem {lit}`AssetGraph.size_insert`: an id is never used again.
-/

namespace ModuleBundler

/-- The id of an asset. -/
structure AssetId where
  index : Nat
deriving DecidableEq, Repr, Inhabited

/-- The id of a bundle. -/
structure BundleId where
  index : Nat
deriving DecidableEq, Repr, Inhabited

/-! ## Assets -/

/-- A module of a build. -/
structure Asset where
  id : AssetId
  identity : Path
  kind : Kind
  package : Package
  /-- The output of the latest compilation. -/
  compiled : Option Generated := none
  /-- The fingerprint of the latest compilation. -/
  hash : Option String := none
  /-- What the source imports, each specifier once. -/
  dependencies : List Dependency := []
  /-- The assets that specifiers lead to. -/
  resolved : Table AssetId := .empty
  /-- The imports that have led to the asset in the latest layout. -/
  incoming : List Dependency := []
  /-- The bundles that the asset is a member of. -/
  bundles : List BundleId := []
  /-- The bundle that the asset belongs to. -/
  home : Option BundleId := none
  /-- Whether the asset has to be compiled. -/
  dirty : Bool := true
deriving DecidableEq, Repr

namespace Asset

/-- The asset as it was before its first compilation. -/
def invalidate (asset : Asset) : Asset :=
  { asset with
    dirty := true, compiled := none, hash := none, dependencies := [], resolved := .empty }

/-- The asset without a place in any bundle. -/
def withoutPlace (asset : Asset) : Asset :=
  { asset with home := none, bundles := [], incoming := [] }

/-- Whether the asset has output of a kind. -/
def generates (asset : Asset) (kind : Kind) : Bool :=
  asset.compiled.any fun generated => generated.has kind.tag

/-- The imports that lead to an asset, with that asset. -/
def links (asset : Asset) : List (Dependency × AssetId) :=
  asset.dependencies.filterMap fun dep =>
    (asset.resolved.get? dep.specifier).map fun target => (dep, target)

/-- Put an import in the place of the one with its specifier, or else at the end. -/
def putDependency (dep : Dependency) : List Dependency → List Dependency
  | [] => [dep]
  | other :: rest =>
    if other.specifier = dep.specifier then dep :: rest else other :: putDependency dep rest

/-- Declare an import. -/
def declare (asset : Asset) (dep : Dependency) : Asset :=
  { asset with dependencies := putDependency dep asset.dependencies }

/-- Let a specifier lead to an asset. -/
def connect (asset : Asset) (specifier : String) (target : AssetId) : Asset :=
  { asset with resolved := asset.resolved.put specifier target }

/-- Take an import back. -/
def withdraw (asset : Asset) (specifier : String) : Asset :=
  { asset with
    dependencies := asset.dependencies.filter fun dep => dep.specifier != specifier
    resolved := asset.resolved.erase specifier }

/-- Whether the asset declares an import of the specifier. -/
def declares (asset : Asset) (specifier : String) : Bool :=
  asset.dependencies.any fun dep => dep.specifier == specifier

/-- A package name as part of a file name. -/
def flatName (name : String) : String :=
  String.ofList (name.toList.map fun c => if c = '/' then '-' else c)

/-- How many digits of the digest of its identity name an asset. -/
def nameDigits : Nat := 16

/-- The file name, without extension, of a bundle that starts with the asset.  The main module of a package
has the name of the package; otherwise the main bundle has the name of the file, and any other one a
digest of the asset's identity. -/
def bundleStem (asset : Asset) (isMain : Bool) : String :=
  let named := do
    let main ← asset.package.mainPath?
    let name ← asset.package.name
    if main == asset.identity then some (flatName name) else none
  match named with
  | some name => name
  | none =>
    if isMain then asset.identity.stem?.getD "index"
    else String.ofList ((Blake3.hex asset.identity.text.toUTF8).toList.take nameDigits)

/-- The file name of a bundle that starts with the asset. -/
def bundleName (asset : Asset) (isMain : Bool) : String :=
  asset.bundleStem isMain ++ "." ++ asset.kind.tag

end Asset

/-! ## The graph -/

/-- The assets of a build.  The slot of a removed asset stays empty. -/
structure AssetGraph where
  slots : List (Option Asset) := []
  index : Path.Map AssetId := .empty
deriving Inhabited

namespace AssetGraph

/-- The graph without assets. -/
def empty : AssetGraph :=
  {}

/-- How many ids were given out. -/
def size (graph : AssetGraph) : Nat :=
  graph.slots.length

/-- The asset with an id. -/
def get? (graph : AssetGraph) (id : AssetId) : Option Asset :=
  graph.slots[id.index]?.join

/-- The live assets in the order of their ids. -/
def live (graph : AssetGraph) : List Asset :=
  graph.slots.filterMap id

/-- The asset with the given identity. -/
def named? (graph : AssetGraph) (p : Path) : Option Asset :=
  ((graph.index.get? p).bind graph.get?).filter fun asset => asset.identity == p

/-- The id of the asset with the given identity. -/
def idNamed? (graph : AssetGraph) (p : Path) : Option AssetId :=
  (graph.named? p).map Asset.id

/-- The live asset that a path leads to. -/
def owner? (graph : AssetGraph) (p : Path) : Option AssetId :=
  (graph.index.get? p).filter fun id => (graph.get? id).isSome

/-- The graph with one asset changed. -/
def update (graph : AssetGraph) (id : AssetId) (change : Asset → Asset) : AssetGraph :=
  { graph with slots := graph.slots.modify id.index (Option.map change) }

/-- Record an import of an asset, with the asset that it leads to if there is one. -/
def link (graph : AssetGraph) (id : AssetId) (dep : Dependency) (target : Option AssetId) : AssetGraph :=
  graph.update id fun asset =>
    let asset := asset.declare dep
    match target with
    | some target => asset.connect dep.specifier target
    | none => asset

/-- The graph with every asset changed. -/
def updateAll (graph : AssetGraph) (change : Asset → Asset) : AssetGraph :=
  { graph with slots := graph.slots.map (Option.map change) }

/-- A new asset for a path. -/
def add (graph : AssetGraph) (identity : Path) (kind : Kind) (package : Package) : AssetGraph :=
  { slots := graph.slots ++ [some { id := ⟨graph.size⟩, identity, kind, package }]
    index := graph.index.put identity ⟨graph.size⟩ }

/-- The asset with the given identity, which is made if it is not there yet.  The second part of the
result says whether it was made. -/
def insert (graph : AssetGraph) (identity : Path) (kind : Kind) (package : Package) :
    (AssetId × Bool) × AssetGraph :=
  match graph.named? identity with
  | some asset => ((asset.id, false), graph)
  | none => ((⟨graph.size⟩, true), graph.add identity kind package)

/-- Let a path lead to an asset, unless it is the identity of one. -/
def makeAlias (graph : AssetGraph) (p : Path) (owner : AssetId) : Bool × AssetGraph :=
  match graph.named? p with
  | some _ => (false, graph)
  | none => (true, { graph with index := graph.index.put p owner })

/-- The paths in the index that lead to an id. -/
def pathsOf (graph : AssetGraph) (id : AssetId) : List Path :=
  (graph.index.filter fun _ owner => owner == id).paths

/-- Remove an asset; the paths that led to it are released. -/
def remove (graph : AssetGraph) (id : AssetId) : List Path × AssetGraph :=
  match graph.get? id with
  | none => ([], graph)
  | some _ =>
    (graph.pathsOf id,
      { slots := graph.slots.set id.index none
        index := graph.index.filter fun _ owner => owner != id })

/-- The assets that belong to no bundle. -/
def orphans (graph : AssetGraph) : List AssetId :=
  (graph.live.filter fun asset => asset.home.isNone).map Asset.id

/-- An asset as it is sent to pages. -/
def updated? (graph : AssetGraph) (id : AssetId) : Option LiveUpdate.UpdatedAsset :=
  (graph.get? id).map fun asset =>
    { id := asset.identity
      kind := asset.kind
      generated := asset.compiled.getD .empty
      deps := asset.resolved.filterMap fun target => (graph.get? target).map Asset.identity }

/-! ### Laws -/

theorem get?_update_self (graph : AssetGraph) (id : AssetId) (change : Asset → Asset) :
    (graph.update id change).get? id = (graph.get? id).map change := by
  simp only [get?, update, List.getElem?_modify_eq]
  cases graph.slots[id.index]? with
  | none => rfl
  | some slot => cases slot <;> rfl

theorem get?_update_of_ne {id other : AssetId} (h : other ≠ id) (graph : AssetGraph)
    (change : Asset → Asset) : (graph.update id change).get? other = graph.get? other := by
  have hne : id.index ≠ other.index := fun heq => h (congrArg AssetId.mk heq.symm)
  simp [get?, update, hne]

theorem get?_updateAll (graph : AssetGraph) (change : Asset → Asset) (id : AssetId) :
    (graph.updateAll change).get? id = (graph.get? id).map change := by
  simp only [get?, updateAll, List.getElem?_map]
  cases graph.slots[id.index]? with
  | none => rfl
  | some slot => cases slot <;> rfl

@[simp]
theorem size_update (graph : AssetGraph) (id : AssetId) (change : Asset → Asset) :
    (graph.update id change).size = graph.size := by
  simp [size, update]

@[simp]
theorem index_update (graph : AssetGraph) (id : AssetId) (change : Asset → Asset) :
    (graph.update id change).index = graph.index := rfl

theorem get?_remove_self (graph : AssetGraph) (id : AssetId) :
    (graph.remove id).2.get? id = none := by
  unfold remove
  split
  · assumption
  · simp only [get?, List.getElem?_set_self']
    cases graph.slots[id.index]? <;> rfl

theorem size_insert (graph : AssetGraph) (identity : Path) (kind : Kind) (package : Package) :
    (graph.insert identity kind package).2.size =
      graph.size + if (graph.insert identity kind package).1.2 then 1 else 0 := by
  unfold insert
  split <;> simp [add, size]

end AssetGraph
end ModuleBundler
