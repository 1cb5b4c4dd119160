import ModuleBundler.Bundle.Tree

/-!
# Laying out bundles

A layout assigns the assets of a graph to bundles.  It visits the assets from
the entry, each asset's imports in their order and in depth.  A dynamic import
opens a bundle of its own; any other import stays in the bundle of its importer,
and output of another kind goes to the sibling of that kind.  When an asset is
reached from a second bundle, it moves up to the innermost bundle above both,
and with it what it imports and what was in the bundle that it leaves.

Main results:

- Theorem {lit}`Layout.countP_update`: changing one asset changes a count by that asset.
- Theorem {lit}`Layout.unplaced_hoist`: moving assets places none and displaces none.
-/

namespace ModuleBundler

/-- A graph whose assets are assigned to the bundles of a tree. -/
structure Layout where
  graph : AssetGraph
  tree : BundleTree

namespace Layout

/-! ## Counting assets -/

/-- How many live assets have a property. -/
def count (layout : Layout) (p : Asset → Bool) : Nat :=
  layout.graph.slots.countP fun slot => slot.any p

/-- How many live assets belong to no bundle. -/
def unplaced (layout : Layout) : Nat :=
  layout.count fun asset => asset.home.isNone

/-- How many live assets belong to a bundle. -/
def settled (layout : Layout) (bundle : BundleId) : Nat :=
  layout.count fun asset => asset.home = some bundle

theorem countP_modify {α : Type} (p : α → Bool) (f : α → α) {as : List α} {i : Nat} {a : α}
    (h : as[i]? = some a) :
    (as.modify i f).countP p + (p a).toNat = as.countP p + (p (f a)).toNat := by
  induction as generalizing i with
  | nil => simp at h
  | cons head rest ih =>
    cases i with
    | zero =>
      simp only [List.getElem?_cons_zero, Option.some.injEq] at h
      subst h
      simp only [List.modify_zero_cons, List.countP_cons]
      cases p head <;> cases p (f head) <;> simp
    | succ i =>
      simp only [List.getElem?_cons_succ] at h
      have hrest := ih h
      simp only [List.modify_succ_cons, List.countP_cons]
      omega

theorem countP_update {layout : Layout} {id : AssetId} {asset : Asset}
    (h : layout.graph.get? id = some asset) (change : Asset → Asset) (tree : BundleTree)
    (p : Asset → Bool) :
    count ⟨layout.graph.update id change, tree⟩ p + (p asset).toNat =
      layout.count p + (p (change asset)).toNat := by
  have hslot : layout.graph.slots[id.index]? = some (some asset) := by
    unfold AssetGraph.get? at h
    cases hcase : layout.graph.slots[id.index]? with
    | none => simp [hcase] at h
    | some slot =>
      rw [hcase] at h
      exact congrArg some h
  have := countP_modify (fun slot : Option Asset => slot.any p) (Option.map change) hslot
  simpa [count, AssetGraph.update] using this

/-! ## Moving an asset -/

/-- Exchange one membership of an asset for a membership beside {lit}`common`.  The second part of the
state is the list of the asset's memberships. -/
def exchange (asset : AssetId) (common : BundleId) (state : BundleTree × List BundleId)
    (bundle : BundleId) : BundleTree × List BundleId :=
  let (tree, bundles) := state
  let kind := tree.kindOf bundle
  let (target, tree) := (tree.removeMember bundle asset).sibling common kind
  (tree.addMember target asset, includeLast target (bundles.filter (· != bundle)))

/-- Move an asset, with all its memberships, to the bundle {lit}`common`. -/
def relocate (layout : Layout) (asset : Asset) (common : BundleId) (id : AssetId) : Layout :=
  let (tree, bundles) := asset.bundles.foldl (exchange id common) (layout.tree, asset.bundles)
  ⟨layout.graph.update id fun asset => { asset with bundles, home := some common }, tree⟩

theorem count_relocate {layout : Layout} {id : AssetId} {asset : Asset}
    (h : layout.graph.get? id = some asset) (common : BundleId) (p : Option BundleId → Bool) :
    (layout.relocate asset common id).count (fun asset => p asset.home) + (p asset.home).toNat =
      layout.count (fun asset => p asset.home) + (p (some common)).toNat :=
  countP_update h _ _ fun asset => p asset.home

/-- Move an asset that belongs to the bundle {lit}`old` to the bundle {lit}`common`.  The result lists the
assets that are to follow, which are those it imports. -/
def follow (old common : BundleId) (id : AssetId) (layout : Layout) : List AssetId × Layout :=
  match layout.graph.get? id with
  | none => ([], layout)
  | some asset =>
    if asset.home = some old then (asset.links.map (·.2), layout.relocate asset common id)
    else ([], layout)

/-- Whoever is followed has left the bundle. -/
theorem settled_follow {old common : BundleId} (hne : old ≠ common) (id : AssetId) (layout : Layout) :
    (layout.follow old common id).2.settled old < layout.settled old ∨
      layout.follow old common id = ([], layout) := by
  unfold follow
  split
  · exact .inr rfl
  · rename_i asset h
    split
    · rename_i hhome
      have hcount := count_relocate h common fun home => decide (home = some old)
      have hne' : ¬ (some common = some old) := fun heq => hne (Option.some.inj heq).symm
      simp only [hhome, hne', decide_true, decide_false, Bool.toNat_true, Bool.toNat_false] at hcount
      refine .inl ?_
      simp only [settled]
      omega
    · exact .inr rfl

/-- Move the assets in the list that belong to the bundle {lit}`old` up to the bundle {lit}`common`, and with
each of them what it imports. -/
def hoist (old common : BundleId) (hne : old ≠ common) : List AssetId → Layout → Layout
  | [], layout => layout
  | id :: rest, layout =>
    hoist old common hne ((layout.follow old common id).1 ++ rest) (layout.follow old common id).2
termination_by ids layout => (layout.settled old, ids.length)
decreasing_by
  rcases settled_follow hne id layout with hlt | heq
  · exact Prod.Lex.left _ _ hlt
  · rw [heq]
    exact Prod.Lex.right _ (by simp)

theorem unplaced_follow (old common : BundleId) (id : AssetId) (layout : Layout) :
    (layout.follow old common id).2.unplaced = layout.unplaced := by
  unfold follow
  split
  · rfl
  · rename_i asset h
    split
    · rename_i hhome
      have hcount := count_relocate h common Option.isNone
      simp only [hhome, Option.isNone_some, Bool.toNat_false, Nat.add_zero] at hcount
      exact hcount
    · rfl

theorem unplaced_hoist (old common : BundleId) (hne : old ≠ common) (ids : List AssetId)
    (layout : Layout) : (hoist old common hne ids layout).unplaced = layout.unplaced := by
  fun_induction hoist old common hne ids layout with
  | case1 => rfl
  | case2 id rest layout ih => rw [ih, unplaced_follow]

/-! ## Visiting assets -/

/-- A visit to an asset: the import that leads to it and the bundle of the importer.  The visit to the
entry has neither. -/
structure Visit where
  asset : AssetId
  via : Option Dependency
  into : Option BundleId
deriving DecidableEq

/-- Note the import that leads to an asset. -/
def arrive (layout : Layout) (visit : Visit) : Layout :=
  match visit.via with
  | none => layout
  | some dep =>
    { layout with
      graph := layout.graph.update visit.asset fun asset =>
        { asset with incoming := asset.incoming ++ [dep] } }

/-- Move an asset that belongs to {lit}`current` and is now reached from {lit}`into` up to the innermost
bundle above both, if that bundle is of the same kind. -/
def share (layout : Layout) (id : AssetId) (into current : BundleId) : Layout :=
  let common := layout.tree.commonAncestor into current
  if hne : current ≠ common then
    if layout.tree.kindOf current = layout.tree.kindOf common then
      hoist current common hne [id] layout
    else layout
  else layout

/-- The bundle for an asset that is visited for the first time. -/
def bundleFor (tree : BundleTree) (outDir : Path) (visit : Visit) (asset : Asset) :
    BundleId × BundleTree :=
  match visit.into with
  | none => tree.createRoot asset.kind (outDir.child (asset.bundleName true)) visit.asset
  | some parent =>
    if visit.via.any Dependency.dynamic then
      tree.createChild parent asset.kind (outDir.child (asset.bundleName false)) visit.asset
    else (parent, tree)

/-- Make an asset a member of the bundle of its kind beside {lit}`bundle`, and of {lit}`bundle` itself if it
has output of that kind too. -/
def enter (layout : Layout) (id : AssetId) (asset : Asset) (bundle : BundleId) : Layout :=
  let (target, tree) := layout.tree.sibling bundle asset.kind
  let tree := tree.addMember target id
  let bundles := includeLast target asset.bundles
  let both := target != bundle && asset.generates (tree.kindOf bundle)
  let tree := if both then tree.addMember bundle id else tree
  let bundles := if both then includeLast bundle bundles else bundles
  ⟨layout.graph.update id fun asset => { asset with bundles, home := some bundle }, tree⟩

theorem count_enter {layout : Layout} {id : AssetId} {old : Asset}
    (h : layout.graph.get? id = some old) (asset : Asset) (bundle : BundleId)
    (p : Option BundleId → Bool) :
    (layout.enter id asset bundle).count (fun asset => p asset.home) + (p old.home).toNat =
      layout.count (fun asset => p asset.home) + (p (some bundle)).toNat :=
  countP_update h _ _ fun asset => p asset.home

theorem unplaced_arrive (layout : Layout) (visit : Visit) :
    (layout.arrive visit).unplaced = layout.unplaced := by
  unfold arrive
  split
  · rfl
  · rename_i dep _
    cases h : layout.graph.get? visit.asset with
    | none =>
      have hslots : (layout.graph.update visit.asset fun asset =>
          { asset with incoming := asset.incoming ++ [dep] }).slots = layout.graph.slots := by
        apply List.ext_getElem?
        intro i
        by_cases hi : visit.asset.index = i
        · subst hi
          simp only [AssetGraph.update, List.getElem?_modify_eq]
          unfold AssetGraph.get? at h
          cases hcase : layout.graph.slots[visit.asset.index]? with
          | none => rfl
          | some slot =>
            rw [hcase] at h
            cases slot with
            | none => rfl
            | some asset => cases h
        · simp [AssetGraph.update, hi]
      simp [unplaced, count, hslots]
    | some asset =>
      have hcount := countP_update h (fun asset =>
        { asset with incoming := asset.incoming ++ [dep] }) layout.tree fun asset => asset.home.isNone
      exact Nat.add_right_cancel hcount

theorem unplaced_share (layout : Layout) (id : AssetId) (into current : BundleId) :
    (layout.share id into current).unplaced = layout.unplaced := by
  unfold share
  dsimp only
  split
  · split
    · exact unplaced_hoist _ _ _ _ _
    · rfl
  · rfl

/-- The asset after an arrival is the asset with one more import. -/
theorem get?_arrive {layout : Layout} {visit : Visit} {asset : Asset}
    (h : layout.graph.get? visit.asset = some asset) :
    (layout.arrive visit).graph.get? visit.asset =
      some { asset with incoming := asset.incoming ++ visit.via.toList } := by
  unfold arrive
  split
  · rename_i hvia
    simp [hvia, h]
  · rename_i dep hvia
    simp [hvia, AssetGraph.get?_update_self, h]

/-- Visit an asset.  The result lists the visits that have to follow at once: if the asset is placed now,
those to all it imports. -/
def visit (outDir : Path) (visit : Visit) (layout : Layout) : List Visit × Layout :=
  match layout.graph.get? visit.asset with
  | none => ([], layout)
  | some asset =>
    let arrived := layout.arrive visit
    match asset.home, visit.into with
    | some current, some into => ([], arrived.share visit.asset into current)
    | some _, none => ([], arrived)
    | none, _ =>
      let (bundle, tree) := bundleFor arrived.tree outDir visit asset
      (asset.links.map fun (dep, target) => ⟨target, some dep, some bundle⟩,
        enter ⟨arrived.graph, tree⟩ visit.asset asset bundle)

/-- Only a visit that places an asset leads to further visits. -/
theorem unplaced_visit (outDir : Path) (visit : Visit) (layout : Layout) :
    (layout.visit outDir visit).2.unplaced < layout.unplaced ∨
      (layout.visit outDir visit).1 = [] ∧
        (layout.visit outDir visit).2.unplaced = layout.unplaced := by
  unfold Layout.visit
  split
  · exact .inr ⟨rfl, rfl⟩
  · rename_i asset h
    dsimp only
    split
    · exact .inr ⟨rfl, (unplaced_share _ _ _ _).trans (unplaced_arrive layout visit)⟩
    · exact .inr ⟨rfl, unplaced_arrive layout visit⟩
    · rename_i hhome
      left
      have hcount := @count_enter
        ⟨(layout.arrive visit).graph, (bundleFor (layout.arrive visit).tree outDir visit asset).2⟩ _ _
        (get?_arrive h) asset (bundleFor (layout.arrive visit).tree outDir visit asset).1 Option.isNone
      have harrived := unplaced_arrive layout visit
      simp only [hhome, Option.isNone_none, Option.isNone_some, Bool.toNat_true, Bool.toNat_false,
        Nat.add_zero] at hcount
      simp only [unplaced, count] at hcount harrived ⊢
      omega

/-- Place the assets of the visits, and what they import, in bundles. -/
def place (outDir : Path) : List Visit → Layout → Layout
  | [], layout => layout
  | visit :: rest, layout =>
    place outDir ((layout.visit outDir visit).1 ++ rest) (layout.visit outDir visit).2
termination_by visits layout => (layout.unplaced, visits.length)
decreasing_by
  rcases unplaced_visit outDir visit layout with hlt | ⟨hnil, heq⟩
  · exact Prod.Lex.left _ _ hlt
  · rw [hnil, heq]
    exact Prod.Lex.right _ (by simp)

/-- The layout of a graph, whose assets belong to no bundle yet, from the entry on. -/
def ofGraph (graph : AssetGraph) (outDir : Path) (start : AssetId) : Layout :=
  place outDir [⟨start, none, none⟩] ⟨graph, .empty⟩

end Layout
end ModuleBundler
