import ModuleBundler.Asset.Graph

/-!
# The bundle tree

Bundles form a tree: below the main bundle lie the bundles that are loaded on
demand, and next to a bundle, as its child, one sibling for every other kind of
output.  Bundles are numbered in the order in which they are made, so a parent
has a smaller number than its children.

Main results:

- Theorem {lit}`BundleTree.mem_chain_self`: a bundle is in its own chain.
- Theorem {lit}`BundleTree.sibling_own_kind`: for its own kind a bundle is its own sibling.
-/

namespace ModuleBundler

/-- A bundle: the assets that are written to one file. -/
structure Bundle where
  kind : Kind
  /-- The path of the file. -/
  name : Path
  /-- The asset that the bundle was made for; siblings have none. -/
  start : Option AssetId := none
  /-- The members in their order. -/
  assets : List AssetId := []
  parent : Option BundleId := none
  children : List BundleId := []
  /-- The siblings by the tag of their kind. -/
  siblings : Table BundleId := .empty
deriving DecidableEq, Repr

/-- Put a value at the end of a list, unless it is in it. -/
def includeLast {α : Type} [BEq α] (a : α) (as : List α) : List α :=
  if as.contains a then as else as ++ [a]

/-- What is put at the end of a list is in it, and so is what was in it before. -/
@[simp]
theorem mem_includeLast_iff {α : Type} [BEq α] [LawfulBEq α] {a b : α} {as : List α} :
    b ∈ includeLast a as ↔ b ∈ as ∨ b = a := by
  unfold includeLast
  split
  · rename_i h
    have hmem : a ∈ as := by simpa using h
    exact ⟨.inl, fun hb => hb.elim id fun heq => heq ▸ hmem⟩
  · simp

theorem mem_includeLast {α : Type} [BEq α] [LawfulBEq α] (a : α) (as : List α) :
    a ∈ includeLast a as :=
  mem_includeLast_iff.2 (.inr rfl)

theorem nodup_includeLast {α : Type} [BEq α] [LawfulBEq α] {as : List α} (h : as.Nodup) (a : α) :
    (includeLast a as).Nodup := by
  unfold includeLast
  split
  · exact h
  · rename_i hn
    have hn : a ∉ as := by simpa using hn
    rw [List.nodup_append]
    exact ⟨h, by simp, fun x hx y hy => by
      simp only [List.mem_singleton] at hy
      exact fun heq => hn (hy ▸ heq ▸ hx)⟩

/-- The bundles of a build. -/
structure BundleTree where
  bundles : List Bundle := []
  root : Option BundleId := none
deriving DecidableEq, Repr, Inhabited

namespace BundleTree

/-- The tree without bundles. -/
def empty : BundleTree :=
  {}

/-- How many bundles there are. -/
def size (tree : BundleTree) : Nat :=
  tree.bundles.length

/-- The bundle with an id. -/
def get? (tree : BundleTree) (id : BundleId) : Option Bundle :=
  tree.bundles[id.index]?

/-- The tree with one bundle changed. -/
def update (tree : BundleTree) (id : BundleId) (change : Bundle → Bundle) : BundleTree :=
  { tree with bundles := tree.bundles.modify id.index change }

/-- The name of a bundle. -/
def nameOf (tree : BundleTree) (id : BundleId) : Path :=
  ((tree.get? id).map Bundle.name).getD ⟨""⟩

/-- The kind of a bundle. -/
def kindOf (tree : BundleTree) (id : BundleId) : Kind :=
  ((tree.get? id).map Bundle.kind).getD ⟨""⟩

/-- The parent of a bundle. -/
def parentOf (tree : BundleTree) (id : BundleId) : Option BundleId :=
  (tree.get? id).bind Bundle.parent

/-- The children of a bundle. -/
def childrenOf (tree : BundleTree) (id : BundleId) : List BundleId :=
  ((tree.get? id).map Bundle.children).getD []

/-! ## Growing -/

/-- The tree with a new bundle, which becomes the last child of its parent. -/
def push (tree : BundleTree) (bundle : Bundle) : BundleTree :=
  let tree := { tree with bundles := tree.bundles ++ [bundle] }
  match bundle.parent with
  | none => tree
  | some parent =>
    tree.update parent fun other => { other with children := other.children ++ [⟨tree.size - 1⟩] }

/-- Make the main bundle. -/
def createRoot (tree : BundleTree) (kind : Kind) (name : Path) (start : AssetId) :
    BundleId × BundleTree :=
  (⟨tree.size⟩, { tree.push { kind, name, start := some start } with root := some ⟨tree.size⟩ })

/-- Make a bundle that is loaded on demand. -/
def createChild (tree : BundleTree) (parent : BundleId) (kind : Kind) (name : Path)
    (start : AssetId) : BundleId × BundleTree :=
  (⟨tree.size⟩, tree.push { kind, name, start := some start, parent := some parent })

/-- The bundle for a kind of output next to a bundle, which is made if it is not there yet.  It has the
name of its neighbour with another extension. -/
def sibling (tree : BundleTree) (id : BundleId) (kind : Kind) : BundleId × BundleTree :=
  match tree.get? id with
  | none => (id, tree)
  | some bundle =>
    if bundle.kind = kind then (id, tree)
    else
      match bundle.siblings.get? kind.tag with
      | some found => (found, tree)
      | none =>
        let name := bundle.name.withExtension kind.tag
        let grown := tree.push { kind, name, parent := some id }
        (⟨tree.size⟩, grown.update id fun bundle =>
          { bundle with siblings := bundle.siblings.put kind.tag ⟨tree.size⟩ })

/-- Make an asset a member of a bundle. -/
def addMember (tree : BundleTree) (id : BundleId) (asset : AssetId) : BundleTree :=
  tree.update id fun bundle => { bundle with assets := includeLast asset bundle.assets }

/-- Take an asset out of a bundle. -/
def removeMember (tree : BundleTree) (id : BundleId) (asset : AssetId) : BundleTree :=
  tree.update id fun bundle => { bundle with assets := bundle.assets.filter (· != asset) }

/-! ## Ancestors -/

/-- A bundle, its parent, and so on up to the root. -/
def chain (tree : BundleTree) (id : BundleId) : List BundleId :=
  id :: match tree.parentOf id with
    | none => []
    | some parent => if parent.index < id.index then tree.chain parent else []
termination_by id.index

/-- The last entry up to which two lists agree, or {lit}`common` where they do not agree at all. -/
def lastAgreed (common : BundleId) : List BundleId → List BundleId → BundleId
  | a :: as, b :: bs => if a = b then lastAgreed a as bs else common
  | _, _ => common

/-- The innermost bundle that is, or lies above, each of two bundles. -/
def commonAncestor (tree : BundleTree) (a b : BundleId) : BundleId :=
  let ours := (tree.chain a).reverse
  lastAgreed (ours.headD a) ours (tree.chain b).reverse

theorem mem_chain_self (tree : BundleTree) (id : BundleId) : id ∈ tree.chain id := by
  unfold chain
  exact List.mem_cons_self

theorem sibling_own_kind {tree : BundleTree} {id : BundleId} {bundle : Bundle}
    (h : tree.get? id = some bundle) : tree.sibling id bundle.kind = (id, tree) := by
  simp [sibling, h]

/-! ## Walking -/

/-- A bundle and all that lie below it, children in the order in which they were made. -/
def subtree (tree : BundleTree) (id : BundleId) : List BundleId :=
  id :: (tree.childrenOf id).flatMap fun child =>
    if _h : id.index < child.index ∧ child.index < tree.size then tree.subtree child else []
termination_by tree.size - id.index
decreasing_by omega

/-- All bundles below the root, parents before their children. -/
def walk (tree : BundleTree) : List BundleId :=
  match tree.root with
  | none => []
  | some root => tree.subtree root

/-! ## Fingerprints -/

/-- The text that stands for the members of a bundle: their fingerprints one after another. -/
def fingerprintText (tree : BundleTree) (id : BundleId) (graph : AssetGraph) : String :=
  match tree.get? id with
  | none => ""
  | some bundle =>
    String.join (bundle.assets.map fun asset => ((graph.get? asset).bind Asset.hash).getD "")

/-- The fingerprint of a bundle. -/
def fingerprint (tree : BundleTree) (id : BundleId) (graph : AssetGraph) : String :=
  Blake3.hex (tree.fingerprintText id graph).toUTF8

end BundleTree
end ModuleBundler
