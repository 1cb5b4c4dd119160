import ModuleBundler.Proofs.Bundle.Membership

/-!
# Placing assets

How the places of assets change while a layout is made.  An asset that has no
place gets one in the bundle from which it is visited first; later it can only
move up, to a bundle above the one that it leaves, and the assets that it imports
and that were in the same place move with it.

Main results:

- Theorem {lit}`Layout.hoist_hoisted`: what moving assets up does to the places of all assets.
- Theorem {lit}`Layout.visit_sound`: a visit keeps a layout sound.
- Theorem {lit}`Layout.ofGraph_sound`: a finished layout is sound.
-/

namespace ModuleBundler
namespace Layout

open BundleTree

/-! ## Homes -/

/-- The bundle that an asset belongs to. -/
def homeOf (layout : Layout) (id : AssetId) : Option BundleId :=
  (layout.graph.get? id).bind Asset.home

theorem homeOf_of_get? {layout : Layout} {id : AssetId} {asset : Asset}
    (h : layout.graph.get? id = some asset) : layout.homeOf id = asset.home := by
  simp [homeOf, h]

/-- Only live assets belong to a bundle. -/
theorem exists_get?_of_homeOf {layout : Layout} {id : AssetId} {home : BundleId}
    (h : layout.homeOf id = some home) :
    ∃ asset, layout.graph.get? id = some asset ∧ asset.home = some home :=
  Option.bind_eq_some_iff.1 h

/-- The home of an asset is a primary bundle. -/
theorem Sound.isPrimary_homeOf {layout : Layout} (hsound : layout.Sound) {id : AssetId} {home : BundleId}
    (h : layout.homeOf id = some home) : layout.tree.IsPrimary home := by
  obtain ⟨asset, hget, hhome⟩ := exists_get?_of_homeOf h
  exact hsound.primary hget hhome

/-- A noted import moves no asset. -/
theorem homeOf_arrive (layout : Layout) (visit : Visit) (id : AssetId) :
    (layout.arrive visit).homeOf id = layout.homeOf id := by
  unfold Layout.arrive homeOf
  cases visit.via with
  | none => rfl
  | some dep =>
    by_cases hid : id = visit.asset
    · subst hid
      rw [AssetGraph.get?_update_self]
      cases layout.graph.get? visit.asset <;> rfl
    · rw [AssetGraph.get?_update_of_ne hid]

theorem tree_arrive (layout : Layout) (visit : Visit) : (layout.arrive visit).tree = layout.tree := by
  unfold Layout.arrive
  split <;> rfl

/-- An asset that has moved is in the bundle that it has moved to. -/
theorem homeOf_relocate_self {layout : Layout} {id : AssetId} {asset : Asset}
    (h : layout.graph.get? id = some asset) (common : BundleId) :
    (layout.relocate asset common id).homeOf id = some common := by
  simp [relocate, homeOf, AssetGraph.get?_update_self, h]

theorem homeOf_relocate_of_ne {id other : AssetId} (h : other ≠ id) (layout : Layout) (asset : Asset)
    (common : BundleId) : (layout.relocate asset common id).homeOf other = layout.homeOf other := by
  simp [relocate, homeOf, AssetGraph.get?_update_of_ne h]

/-- An asset that was placed is in the bundle that it was placed in. -/
theorem homeOf_enter_self {layout : Layout} {id : AssetId} {current : Asset}
    (h : layout.graph.get? id = some current) (asset : Asset) (bundle : BundleId) :
    (layout.enter id asset bundle).homeOf id = some bundle := by
  simp [enter, homeOf, AssetGraph.get?_update_self, h]

theorem homeOf_enter_of_ne {id other : AssetId} (h : other ≠ id) (layout : Layout) (asset : Asset)
    (bundle : BundleId) : (layout.enter id asset bundle).homeOf other = layout.homeOf other := by
  simp [enter, homeOf, AssetGraph.get?_update_of_ne h]

/-! ## Moving up -/

/-- What moving assets from one bundle up to another one does to a layout: whoever moves was in the one
bundle and is in the other now. -/
structure Hoisted (old common : BundleId) (before after : Layout) : Prop where
  sound : after.Sound
  grows : before.tree.Extends after.tree
  primary : ∀ {bundle : BundleId}, after.tree.IsPrimary bundle → before.tree.IsPrimary bundle
  content : before.graph.SameContent after.graph
  homes : ∀ id, after.homeOf id = before.homeOf id ∨
    before.homeOf id = some old ∧ after.homeOf id = some common

namespace Hoisted

variable {old common : BundleId} {a b c : Layout}

theorem refl {layout : Layout} (h : layout.Sound) : Hoisted old common layout layout where
  sound := h
  grows := .refl _
  primary h := h
  content := .refl _
  homes _ := .inl rfl

theorem trans (hab : Hoisted old common a b) (hbc : Hoisted old common b c) : Hoisted old common a c where
  sound := hbc.sound
  grows := hab.grows.trans hbc.grows
  primary h := hab.primary (hbc.primary h)
  content := hab.content.trans hbc.content
  homes id := by
    rcases hbc.homes id with heq | ⟨hold, hcommon⟩
    · rw [heq]
      exact hab.homes id
    · rcases hab.homes id with heq' | ⟨hold', -⟩
      · exact .inr ⟨heq' ▸ hold, hcommon⟩
      · exact .inr ⟨hold', hcommon⟩

/-- Whoever has left the bundle does not come back. -/
theorem homeOf_ne (h : Hoisted old common a b) {id : AssetId}
    (hid : a.homeOf id ≠ some old) : b.homeOf id ≠ some old := by
  rcases h.homes id with heq | ⟨hold, -⟩
  · rwa [heq]
  · exact absurd hold hid

/-- Assets keep having a place. -/
theorem isSome_homeOf (h : Hoisted old common a b) (id : AssetId) :
    (b.homeOf id).isSome = (a.homeOf id).isSome := by
  rcases h.homes id with heq | ⟨hold, hcommon⟩
  · rw [heq]
  · rw [hold, hcommon]
    rfl

end Hoisted

/-- Whoever is followed was in the bundle, and moves. -/
theorem follow_cases (old common : BundleId) (id : AssetId) (layout : Layout) :
    (layout.homeOf id ≠ some old ∧ layout.follow old common id = ([], layout)) ∨
    ∃ asset, layout.graph.get? id = some asset ∧ asset.home = some old ∧
      layout.follow old common id = (asset.links.map (·.2), layout.relocate asset common id) := by
  unfold follow homeOf
  cases hget : layout.graph.get? id with
  | none => exact .inl ⟨by simp, rfl⟩
  | some asset =>
    by_cases hhome : asset.home = some old
    · exact .inr ⟨asset, rfl, hhome, if_pos hhome⟩
    · exact .inl ⟨hhome, if_neg hhome⟩

variable {old common : BundleId}

theorem relocate_hoisted {layout : Layout} (hsound : layout.Sound) {id : AssetId} {asset : Asset}
    (hget : layout.graph.get? id = some asset) (hhome : asset.home = some old)
    (hcommon : layout.tree.IsPrimary common)
    (hkind : layout.tree.kindOf old = layout.tree.kindOf common) :
    Hoisted old common layout (layout.relocate asset common id) := by
  obtain ⟨hsound', hregroups⟩ := relocate_sound hsound hget hhome hcommon hkind
  refine ⟨hsound', hregroups.grows, hregroups.primary, sameContent_relocate _ _ _ _, ?_⟩
  intro other
  by_cases hother : other = id
  · subst hother
    exact .inr ⟨(homeOf_of_get? hget).trans hhome, homeOf_relocate_self hget common⟩
  · exact .inl (homeOf_relocate_of_ne hother layout asset common)

theorem follow_hoisted {layout : Layout} (hsound : layout.Sound) (hcommon : layout.tree.IsPrimary common)
    (hkind : layout.tree.kindOf old = layout.tree.kindOf common) (id : AssetId) :
    Hoisted old common layout (layout.follow old common id).2 := by
  rcases follow_cases old common id layout with ⟨-, heq⟩ | ⟨asset, hget, hhome, heq⟩
  · rw [heq]
    exact .refl hsound
  · rw [heq]
    exact relocate_hoisted hsound hget hhome hcommon hkind

/-- Kinds agree in a tree that has grown as they did before. -/
theorem kindOf_hoisted {a b : Layout} (h : Hoisted old common a b) (hold : a.tree.IsPrimary old)
    (hcommon : a.tree.IsPrimary common) (hkind : a.tree.kindOf old = a.tree.kindOf common) :
    b.tree.kindOf old = b.tree.kindOf common := by
  rw [h.grows.kindOf_of_isPrimary hold, h.grows.kindOf_of_isPrimary hcommon, hkind]

/-- A noted import moves nobody. -/
theorem arrive_hoisted {layout : Layout} (hsound : layout.Sound) (visit : Visit) :
    Hoisted old common layout (layout.arrive visit) where
  sound := hsound.arrive visit
  grows := by
    rw [tree_arrive]
    exact .refl _
  primary h := by
    rw [tree_arrive] at h
    exact h
  content := sameContent_arrive layout visit
  homes id := .inl (homeOf_arrive layout visit id)

/-- Moving assets up moves only assets of the bundle that they leave. -/
theorem hoist_hoisted (hne : old ≠ common) (ids : List AssetId) {layout : Layout} (hsound : layout.Sound)
    (hold : layout.tree.IsPrimary old) (hcommon : layout.tree.IsPrimary common)
    (hkind : layout.tree.kindOf old = layout.tree.kindOf common) :
    Hoisted old common layout (hoist old common hne ids layout) := by
  fun_induction hoist old common hne ids layout with
  | case1 layout => exact .refl hsound
  | case2 id rest layout ih =>
    have hstep := follow_hoisted hsound hcommon hkind id
    exact hstep.trans (ih hstep.sound (hstep.grows.isPrimary hold) (hstep.grows.isPrimary hcommon)
      (kindOf_hoisted hstep hold hcommon hkind))

/-- No asset of the list stays in the bundle. -/
theorem homeOf_hoist_ne (hne : old ≠ common) (ids : List AssetId) {layout : Layout}
    (hsound : layout.Sound) (hold : layout.tree.IsPrimary old) (hcommon : layout.tree.IsPrimary common)
    (hkind : layout.tree.kindOf old = layout.tree.kindOf common) :
    ∀ id ∈ ids, (hoist old common hne ids layout).homeOf id ≠ some old := by
  fun_induction hoist old common hne ids layout with
  | case1 layout => exact fun _ h => by cases h
  | case2 id rest layout ih =>
    have hstep := follow_hoisted hsound hcommon hkind id
    have hold' := hstep.grows.isPrimary hold
    have hcommon' := hstep.grows.isPrimary hcommon
    have hkind' := kindOf_hoisted hstep hold hcommon hkind
    have hrest := hoist_hoisted hne ((layout.follow old common id).1 ++ rest) hstep.sound hold'
      hcommon' hkind'
    intro other hmem
    rcases List.mem_cons.1 hmem with rfl | hmem
    · -- the first of the list has left the bundle after this step
      apply hrest.homeOf_ne
      rcases follow_cases old common other layout with ⟨hhome, heq⟩ | ⟨asset, hget, -, heq⟩
      · rw [heq]
        exact hhome
      · rw [heq, homeOf_relocate_self hget]
        simpa using hne.symm
    · exact ih hstep.sound hold' hcommon' hkind' other (List.mem_append_right _ hmem)

/-- Whoever leaves the bundle takes its imports along. -/
theorem hoist_together (hne : old ≠ common) (ids : List AssetId) {layout : Layout}
    (hsound : layout.Sound) (hold : layout.tree.IsPrimary old) (hcommon : layout.tree.IsPrimary common)
    (hkind : layout.tree.kindOf old = layout.tree.kindOf common) :
    ∀ id asset, layout.graph.get? id = some asset → asset.home = some old →
      (hoist old common hne ids layout).homeOf id ≠ some old →
        ∀ link ∈ asset.links, (hoist old common hne ids layout).homeOf link.2 ≠ some old := by
  fun_induction hoist old common hne ids layout with
  | case1 layout =>
    intro id asset hget hhome hleft
    exact absurd ((homeOf_of_get? hget).trans hhome) hleft
  | case2 id rest layout ih =>
    have hstep := follow_hoisted hsound hcommon hkind id
    have hold' := hstep.grows.isPrimary hold
    have hcommon' := hstep.grows.isPrimary hcommon
    have hkind' := kindOf_hoisted hstep hold hcommon hkind
    have hlist := homeOf_hoist_ne hne ((layout.follow old common id).1 ++ rest) hstep.sound hold'
      hcommon' hkind'
    have htogether := ih hstep.sound hold' hcommon' hkind'
    rcases follow_cases old common id layout with ⟨-, heq⟩ | ⟨asset, hget, -, heq⟩
    · -- nobody moves in this step
      rw [heq] at htogether ⊢
      exact htogether
    · rw [heq] at hlist htogether ⊢
      intro other asset' hget' hhome' hleft link hlink
      by_cases hother : other = id
      · -- the asset moves, and its imports are on the list from now on
        subst hother
        have hsame : asset = asset' := Option.some.inj (hget.symm.trans hget')
        subst hsame
        exact hlist link.2 (List.mem_append_left _ (List.mem_map_of_mem hlink))
      · refine htogether other asset' ?_ hhome' hleft link hlink
        rw [relocate, AssetGraph.get?_update_of_ne hother]
        exact hget'

/-! ## Sharing -/

/-- Sharing changes nothing, or it moves an asset up to the common ancestor. -/
theorem share_cases (layout : Layout) (id : AssetId) (into current : BundleId) :
    (layout.share id into current = layout ∧ (current = layout.tree.commonAncestor into current ∨
      layout.tree.kindOf current ≠ layout.tree.kindOf (layout.tree.commonAncestor into current))) ∨
    ∃ hne : current ≠ layout.tree.commonAncestor into current,
      layout.tree.kindOf current = layout.tree.kindOf (layout.tree.commonAncestor into current) ∧
        layout.share id into current =
          hoist current (layout.tree.commonAncestor into current) hne [id] layout := by
  unfold share
  by_cases hne : current ≠ layout.tree.commonAncestor into current
  · by_cases hkind : layout.tree.kindOf current =
        layout.tree.kindOf (layout.tree.commonAncestor into current)
    · exact .inr ⟨hne, hkind, by rw [dif_pos hne, if_pos hkind]⟩
    · exact .inl ⟨by rw [dif_pos hne, if_neg hkind], .inr hkind⟩
  · exact .inl ⟨by rw [dif_neg hne], .inl (Decidable.not_not.1 hne)⟩

/-- The common ancestor of two primary bundles is primary. -/
theorem isPrimary_commonAncestor {tree : BundleTree} (hwf : tree.WellFormed) {a b : BundleId}
    (ha : tree.IsPrimary a) (hb : tree.IsPrimary b) : tree.IsPrimary (tree.commonAncestor a b) :=
  isPrimary_of_mem_chain hwf ha (commonAncestor_above hwf ha hb).1

/-- Sharing moves assets at most from the current bundle to the common ancestor. -/
theorem share_hoisted {layout : Layout} (hsound : layout.Sound) (id : AssetId) {into current : BundleId}
    (hinto : layout.tree.IsPrimary into) (hcurrent : layout.tree.IsPrimary current) :
    Hoisted current (layout.tree.commonAncestor into current) layout (layout.share id into current) := by
  rcases share_cases layout id into current with ⟨heq, -⟩ | ⟨hne, hkind, heq⟩
  · rw [heq]
    exact .refl hsound
  · rw [heq]
    exact hoist_hoisted hne [id] hsound hcurrent
      (isPrimary_commonAncestor hsound.tree hinto hcurrent) hkind

/-! ## Visits -/

/-- What a visit needs to know: the bundle of the importer is a primary one, and only the first visit has
no importer. -/
structure Visit.Fits (visit : Visit) (tree : BundleTree) : Prop where
  into : ∀ {bundle : BundleId}, visit.into = some bundle → tree.IsPrimary bundle
  root : visit.into = none → tree = .empty

/-- The bundle for a new asset: the main bundle, the bundle of the importer, or a new one below that. -/
theorem bundleFor_cases (tree : BundleTree) (outDir : Path) (visit : Visit) (asset : Asset) :
    (visit.into = none ∧ bundleFor tree outDir visit asset =
      tree.createRoot asset.kind (outDir.child (asset.bundleName true)) visit.asset) ∨
    (∃ parent, visit.into = some parent ∧ visit.via.any Dependency.dynamic = true ∧
      bundleFor tree outDir visit asset =
        tree.createChild parent asset.kind (outDir.child (asset.bundleName false)) visit.asset) ∨
    (∃ parent, visit.into = some parent ∧ visit.via.any Dependency.dynamic = false ∧
      bundleFor tree outDir visit asset = (parent, tree)) := by
  unfold bundleFor
  cases visit.into with
  | none => exact .inl ⟨rfl, rfl⟩
  | some parent =>
    by_cases hdynamic : visit.via.any Dependency.dynamic = true
    · exact .inr (.inl ⟨parent, rfl, hdynamic, if_pos hdynamic⟩)
    · exact .inr (.inr ⟨parent, rfl, by simpa using hdynamic, if_neg hdynamic⟩)

/-- The bundle for a new asset is primary; making it extends the tree and changes no members. -/
theorem bundleFor_grows {tree : BundleTree} (hwf : tree.WellFormed) (outDir : Path) {visit : Visit}
    (hfits : visit.Fits tree) (asset : Asset) :
    tree.Extends (bundleFor tree outDir visit asset).2 ∧
      (bundleFor tree outDir visit asset).2.WellFormed ∧
      (bundleFor tree outDir visit asset).2.IsPrimary (bundleFor tree outDir visit asset).1 ∧
      ∀ other, (bundleFor tree outDir visit asset).2.membersOf other = tree.membersOf other := by
  rcases bundleFor_cases tree outDir visit asset with ⟨hinto, heq⟩ | ⟨parent, hinto, -, heq⟩ |
    ⟨parent, hinto, -, heq⟩
  · rw [heq, hfits.root hinto]
    obtain ⟨hwf', hget, hmembers⟩ :=
      createRoot_grows asset.kind (outDir.child (asset.bundleName true)) visit.asset
    refine ⟨?_, hwf', ⟨_, hget, rfl⟩, hmembers⟩
    intro id bundle h
    rw [get?_empty] at h
    cases h
  · rw [heq]
    obtain ⟨hgrows, hwf', hget, hmembers⟩ := createChild_grows hwf (hfits.into hinto) asset.kind
      (outDir.child (asset.bundleName false)) visit.asset
    exact ⟨hgrows, hwf', ⟨_, hget, rfl⟩, hmembers⟩
  · rw [heq]
    exact ⟨.refl tree, hwf, hfits.into hinto, fun _ => rfl⟩

/-- The only bundle that can become primary is the one for the new asset; it is made for that asset and has
its kind. -/
theorem isPrimary_of_bundleFor {tree : BundleTree} (hwf : tree.WellFormed) (outDir : Path)
    {visit : Visit} (hfits : visit.Fits tree) (asset : Asset) {other : BundleId}
    (h : (bundleFor tree outDir visit asset).2.IsPrimary other) :
    tree.IsPrimary other ∨ other = (bundleFor tree outDir visit asset).1 ∧
      ∃ bundle, (bundleFor tree outDir visit asset).2.get? other = some bundle ∧
        bundle.kind = asset.kind ∧ bundle.start = some visit.asset := by
  rcases bundleFor_cases tree outDir visit asset with ⟨hinto, heq⟩ | ⟨parent, hinto, -, heq⟩ |
    ⟨parent, hinto, -, heq⟩
  · rw [heq, hfits.root hinto] at h ⊢
    obtain ⟨-, hget, -⟩ :=
      createRoot_grows asset.kind (outDir.child (asset.bundleName true)) visit.asset
    have hpushed : (empty.push {
        kind := asset.kind, name := outDir.child (asset.bundleName true)
        start := some visit.asset }).IsPrimary other := h
    rcases isPrimary_of_push (fun _ hp => by cases hp) hpushed with ⟨rfl, -⟩ | hbefore
    · exact .inr ⟨rfl, _, hget, rfl, rfl⟩
    · exact .inl hbefore
  · rw [heq] at h ⊢
    obtain ⟨-, -, hget, -⟩ := createChild_grows hwf (hfits.into hinto) asset.kind
      (outDir.child (asset.bundleName false)) visit.asset
    obtain ⟨value, hvalue⟩ := (hfits.into hinto).exists_get?
    rcases isPrimary_of_push (parent_lt_size rfl hvalue) h with ⟨rfl, -⟩ | hbefore
    · exact .inr ⟨rfl, _, hget, rfl, rfl⟩
    · exact .inl hbefore
  · rw [heq] at h
    exact .inl h

/-- The bundle for a new asset is the bundle of its importer, unless the import is dynamic, and lies below
it in any case. -/
theorem bundleFor_below {tree : BundleTree} (hwf : tree.WellFormed) (outDir : Path) {visit : Visit}
    {into : BundleId} (hinto : visit.into = some into) (hprimary : tree.IsPrimary into) (asset : Asset) :
    into ∈ (bundleFor tree outDir visit asset).2.chain (bundleFor tree outDir visit asset).1 ∧
      (visit.via.any Dependency.dynamic = false → (bundleFor tree outDir visit asset).1 = into) := by
  rcases bundleFor_cases tree outDir visit asset with ⟨hnone, -⟩ | ⟨parent, hparent, hdynamic, heq⟩ |
    ⟨parent, hparent, -, heq⟩
  · rw [hinto] at hnone
    cases hnone
  · have hsame : into = parent := Option.some.inj (hinto.symm.trans hparent)
    subst hsame
    rw [heq]
    refine ⟨?_, fun hstatic => ?_⟩
    · obtain ⟨-, -, hget, -⟩ := createChild_grows hwf hprimary asset.kind
        (outDir.child (asset.bundleName false)) visit.asset
      obtain ⟨value, hvalue⟩ := hprimary.exists_get?
      exact mem_chain_of_parent (parentOf_of_get? hget) (lt_size_of_get? hvalue)
    · rw [hdynamic] at hstatic
      cases hstatic
  · have hsame : into = parent := Option.some.inj (hinto.symm.trans hparent)
    subst hsame
    rw [heq]
    exact ⟨mem_chain_self _ _, fun _ => rfl⟩

/-- What a first visit to an asset does to a layout: the asset gets a home at or below the bundle of its
importer, and nobody else moves. -/
structure Enters (visit : Visit) (kind : Kind) (bundle : BundleId) (before after : Layout) : Prop where
  sound : after.Sound
  grows : before.tree.Extends after.tree
  primary : after.tree.IsPrimary bundle
  /-- A bundle that becomes primary is made for the asset. -/
  made : ∀ {other : BundleId}, after.tree.IsPrimary other → before.tree.IsPrimary other ∨
    ∃ value, after.tree.get? other = some value ∧ value.kind = kind ∧ value.start = some visit.asset
  nowhere : before.homeOf visit.asset = none
  home : after.homeOf visit.asset = some bundle
  others : ∀ {id : AssetId}, id ≠ visit.asset → after.homeOf id = before.homeOf id
  below : ∀ {into : BundleId}, visit.into = some into → into ∈ after.tree.chain bundle
  /-- Only a dynamic import leads into another bundle. -/
  atOnce : ∀ {into : BundleId}, visit.into = some into →
    visit.via.any Dependency.dynamic = false → bundle = into

/-- Whoever had a home before a first visit is another asset, and keeps its home. -/
theorem Enters.keeps {visit : Visit} {kind : Kind} {bundle : BundleId} {before after : Layout}
    (h : Enters visit kind bundle before after) {id : AssetId} {home : BundleId}
    (hid : before.homeOf id = some home) : id ≠ visit.asset ∧ after.homeOf id = some home := by
  have hne : id ≠ visit.asset := by
    rintro rfl
    rw [h.nowhere] at hid
    cases hid
  exact ⟨hne, (h.others hne).trans hid⟩

/-- An asset without a home enters the bundle for it. -/
theorem enter_enters {outDir : Path} {visit : Visit} {layout : Layout} (hsound : layout.Sound)
    (hfits : visit.Fits layout.tree) {asset : Asset}
    (hget : layout.graph.get? visit.asset = some asset) (hhome : asset.home = none)
    {bundle : BundleId} {tree : BundleTree}
    (hbundle : bundleFor layout.tree outDir visit asset = (bundle, tree)) :
    Enters visit asset.kind bundle layout
      (Layout.enter ⟨(layout.arrive visit).graph, tree⟩ visit.asset asset bundle) := by
  have hgrowth := bundleFor_grows hsound.tree outDir hfits asset
  have hprimaries := fun other => @isPrimary_of_bundleFor _ hsound.tree outDir _ hfits asset other
  have hbelow := fun into hinto =>
    @bundleFor_below _ hsound.tree outDir visit into hinto (hfits.into hinto) asset
  rw [hbundle] at hgrowth hprimaries hbelow
  obtain ⟨hgrows, hwf, hprimary, hmembers⟩ := hgrowth
  have hgrown : Sound ⟨(layout.arrive visit).graph, tree⟩ := by
    refine (hsound.arrive visit).grow ?_ hwf ?_
    · rw [tree_arrive]
      exact hgrows
    · rw [tree_arrive]
      exact hmembers
  obtain ⟨hentered, hregroups⟩ := enter_sound hgrown (get?_arrive hget) hhome
    (hsound.unplaced hget hhome) rfl hprimary
  have hself := @homeOf_enter_self ⟨(layout.arrive visit).graph, tree⟩ _ _ (get?_arrive hget) asset
    bundle
  refine ⟨hentered, hgrows.trans hregroups.grows, hregroups.grows.isPrimary hprimary, ?_,
    (homeOf_of_get? hget).trans hhome, hself, fun {id} hne => ?_, fun {into} hinto => ?_, ?_⟩
  · intro other hother
    rcases hprimaries other (hregroups.primary hother) with hold | ⟨rfl, value, hvalue, hkind, hstart⟩
    · exact .inl hold
    · obtain ⟨value', hvalue', hcontinues⟩ := hregroups.grows hvalue
      exact .inr ⟨value', hvalue', hcontinues.kind.trans hkind, hcontinues.start.trans hstart⟩
  · apply (homeOf_enter_of_ne hne ⟨(layout.arrive visit).graph, tree⟩ asset bundle).trans
    exact homeOf_arrive layout visit id
  · have hchain := hregroups.grows.chain_of_isPrimary hwf hprimary
    rw [hchain]
    exact (hbelow into hinto).1
  · exact fun hinto hstatic => (hbelow _ hinto).2 hstatic

/-- What becomes of a sound layout: nothing happens, assets move up, or an asset enters a bundle, and what
it imports is visited next. -/
theorem visit_spec (outDir : Path) {visit : Visit} {layout : Layout} (hsound : layout.Sound)
    (hfits : visit.Fits layout.tree) :
    (layout.graph.get? visit.asset = none ∧ layout.visit outDir visit = ([], layout)) ∨
    (∃ current common, layout.homeOf visit.asset = some current ∧
      (layout.visit outDir visit).1 = [] ∧
        Hoisted current common layout (layout.visit outDir visit).2) ∨
    ∃ asset bundle, layout.graph.get? visit.asset = some asset ∧
      (layout.visit outDir visit).1 =
          (asset.links.map fun link => (⟨link.2, some link.1, some bundle⟩ : Visit)) ∧
        Enters visit asset.kind bundle layout (layout.visit outDir visit).2 := by
  have hnoted := fun old common => @arrive_hoisted old common layout hsound visit
  rcases visit_cases outDir visit layout with hnone | ⟨asset, current, into, hget, hhome, hinto, heq⟩ |
    ⟨asset, current, hget, hhome, -, heq⟩ | ⟨asset, bundle, tree, hget, hhome, hbundle, heq⟩
  · exact .inl hnone
  · have hcurrent : (layout.arrive visit).tree.IsPrimary current := by
      rw [tree_arrive]
      exact hsound.primary hget hhome
    have hprimary : (layout.arrive visit).tree.IsPrimary into := by
      rw [tree_arrive]
      exact hfits.into hinto
    have hshared := share_hoisted (hsound.arrive visit) visit.asset hprimary hcurrent
    rw [heq]
    exact .inr (.inl ⟨current, _, (homeOf_of_get? hget).trans hhome, rfl, (hnoted _ _).trans hshared⟩)
  · rw [heq]
    exact .inr (.inl ⟨current, current, (homeOf_of_get? hget).trans hhome, rfl, hnoted _ _⟩)
  · rw [tree_arrive] at hbundle
    rw [heq]
    exact .inr (.inr ⟨asset, bundle, hget, rfl, enter_enters hsound hfits hget hhome hbundle⟩)

/-- The layout after a visit is sound, and the visits that follow know a primary bundle. -/
theorem visit_sound (outDir : Path) {visit : Visit} {layout : Layout} (hsound : layout.Sound)
    (hfits : visit.Fits layout.tree) :
    (layout.visit outDir visit).2.Sound ∧
      layout.tree.Extends (layout.visit outDir visit).2.tree ∧
      ∀ next ∈ (layout.visit outDir visit).1, ∃ bundle, next.into = some bundle ∧
        (layout.visit outDir visit).2.tree.IsPrimary bundle := by
  rcases visit_spec outDir hsound hfits with ⟨-, heq⟩ | ⟨current, common, -, hnext, hmoved⟩ |
    ⟨asset, bundle, -, hnext, henters⟩
  · rw [heq]
    exact ⟨hsound, .refl _, by simp⟩
  · rw [hnext]
    exact ⟨hmoved.sound, hmoved.grows, by simp⟩
  · rw [hnext]
    refine ⟨henters.sound, henters.grows, fun next hmem => ?_⟩
    obtain ⟨link, -, rfl⟩ := List.mem_map.1 hmem
    exact ⟨bundle, rfl, henters.primary⟩

/-! ## Whole layouts -/

/-- What holds before the first visit. -/
theorem sound_start (graph : AssetGraph) : Sound ⟨graph.updateAll Asset.withoutPlace, .empty⟩ := by
  have hempty : ∀ {id : AssetId} {asset : Asset},
      (graph.updateAll Asset.withoutPlace).get? id = some asset →
        asset.home = none ∧ asset.bundles = [] := by
    intro id asset hget
    rw [AssetGraph.get?_updateAll] at hget
    obtain ⟨before, -, rfl⟩ := Option.map_eq_some_iff.1 hget
    exact ⟨rfl, rfl⟩
  refine ⟨wellFormed_empty, ?_, ?_, ?_, ?_, ?_⟩
  · intro id asset home hget hhome
    rw [(hempty hget).1] at hhome
    cases hhome
  · intro id asset home hget hhome
    rw [(hempty hget).1] at hhome
    cases hhome
  · exact fun hget _ => (hempty hget).2
  · intro id bundle
    refine ⟨fun hmem => by simp [membersOf, BundleTree.empty, BundleTree.get?] at hmem, ?_⟩
    rintro ⟨asset, hget, hmem⟩
    rw [(hempty hget).2] at hmem
    cases hmem
  · intro bundle
    simp [membersOf, BundleTree.empty, BundleTree.get?]

/-- The visit to the entry. -/
def Visit.ofEntry (start : AssetId) : Visit :=
  ⟨start, none, none⟩

/-- What every visit preserves holds after all visits. -/
theorem place_induction {outDir : Path} {P : List Visit → Layout → Prop}
    (hstep : ∀ visit rest layout, P (visit :: rest) layout →
      P ((layout.visit outDir visit).1 ++ rest) (layout.visit outDir visit).2)
    {visits : List Visit} {layout : Layout} (h : P visits layout) : P [] (place outDir visits layout) := by
  fun_induction place outDir visits layout with
  | case1 layout => exact h
  | case2 visit rest layout ih => exact ih (hstep visit rest layout h)

/-- What holds after the visit to the entry and is preserved by every visit holds of a layout. -/
theorem ofGraph_induction {graph : AssetGraph} {outDir : Path} {start : AssetId}
    {P : List Visit → Layout → Prop}
    (hstart : P (Layout.visit outDir (Visit.ofEntry start) ⟨graph, .empty⟩).1
      (Layout.visit outDir (Visit.ofEntry start) ⟨graph, .empty⟩).2)
    (hstep : ∀ visit rest layout, P (visit :: rest) layout →
      P ((layout.visit outDir visit).1 ++ rest) (layout.visit outDir visit).2) :
    P [] (ofGraph graph outDir start) := by
  unfold ofGraph
  rw [place, List.append_nil]
  exact place_induction hstep hstart

/-- Whether a layout is sound and all visits to come know a primary bundle. -/
structure Underway (visits : List Visit) (layout : Layout) : Prop where
  sound : layout.Sound
  known : ∀ visit ∈ visits, ∃ bundle, visit.into = some bundle ∧ layout.tree.IsPrimary bundle

/-- A visit that knows a primary bundle fits. -/
theorem Underway.fits {visit : Visit} {rest : List Visit} {layout : Layout}
    (h : Underway (visit :: rest) layout) : visit.Fits layout.tree := by
  obtain ⟨bundle, hinto, hprimary⟩ := h.known visit List.mem_cons_self
  refine ⟨fun h => ?_, fun h => ?_⟩
  · rw [hinto, Option.some.injEq] at h
    exact h ▸ hprimary
  · rw [hinto] at h
    cases h

/-- A visit keeps a layout sound. -/
theorem Underway.visit (outDir : Path) {visit : Visit} {rest : List Visit} {layout : Layout}
    (h : Underway (visit :: rest) layout) :
    Underway ((layout.visit outDir visit).1 ++ rest) (layout.visit outDir visit).2 := by
  obtain ⟨hsound, hgrows, hnext⟩ := visit_sound outDir h.sound h.fits
  refine ⟨hsound, ?_⟩
  intro next hmem
  rcases List.mem_append.1 hmem with hnew | hrest
  · exact hnext next hnew
  · obtain ⟨bundle, hinto, hprimary⟩ := h.known next (List.mem_cons_of_mem _ hrest)
    exact ⟨bundle, hinto, hgrows.isPrimary hprimary⟩

/-- The visit to the entry fits the empty tree. -/
theorem fits_ofEntry (start : AssetId) : (Visit.ofEntry start).Fits .empty :=
  ⟨fun h => (by cases h), fun _ => rfl⟩

/-- The layout after the visit to the entry is sound. -/
theorem underway_start (graph : AssetGraph) (outDir : Path) (start : AssetId) :
    Underway
      (Layout.visit outDir (Visit.ofEntry start) ⟨graph.updateAll Asset.withoutPlace, .empty⟩).1
      (Layout.visit outDir (Visit.ofEntry start) ⟨graph.updateAll Asset.withoutPlace, .empty⟩).2 := by
  obtain ⟨hsound, -, hnext⟩ := visit_sound outDir (sound_start graph) (fits_ofEntry start)
  exact ⟨hsound, hnext⟩

/-- A finished layout is sound. -/
theorem ofGraph_sound (graph : AssetGraph) (outDir : Path) (start : AssetId) :
    (ofGraph (graph.updateAll Asset.withoutPlace) outDir start).Sound :=
  (ofGraph_induction (underway_start graph outDir start)
    fun _ _ _ h => h.visit outDir).sound

/-- What holds before the visit to the entry, and is preserved by every visit to a sound layout that fits,
holds of a finished layout. -/
theorem ofGraph_visits {graph : AssetGraph} {outDir : Path} {start : AssetId}
    {P : List Visit → Layout → Prop}
    (hstart : P [Visit.ofEntry start] ⟨graph.updateAll Asset.withoutPlace, .empty⟩)
    (hstep : ∀ visit rest layout, layout.Sound → visit.Fits layout.tree →
      (∀ next ∈ rest, ∃ bundle, next.into = some bundle ∧ layout.tree.IsPrimary bundle) →
        P (visit :: rest) layout → P ((layout.visit outDir visit).1 ++ rest) (layout.visit outDir visit).2) :
    P [] (ofGraph (graph.updateAll Asset.withoutPlace) outDir start) := by
  have hfirst := hstep _ [] _ (sound_start graph) (fits_ofEntry start) (by simp) hstart
  rw [List.append_nil] at hfirst
  have hend := @ofGraph_induction (graph.updateAll Asset.withoutPlace) outDir start
    (fun visits layout => Underway visits layout ∧ P visits layout)
    ⟨underway_start graph outDir start, hfirst⟩
    fun visit rest layout ⟨hunder, h⟩ => ⟨hunder.visit outDir, hstep visit rest layout hunder.sound
      hunder.fits (fun next hmem => hunder.known next (List.mem_cons_of_mem _ hmem)) h⟩
  exact hend.2

/-! ## Layouts step by step -/

/-- Some steps of a search that works off a list. -/
def steps {α : Type} (step : α → Layout → List α × Layout) :
    Nat → List α × Layout → List α × Layout
  | 0, state => state
  | _ + 1, ([], layout) => ([], layout)
  | n + 1, (a :: rest, layout) => steps step n ((step a layout).1 ++ rest, (step a layout).2)

/-- Visits can be made ahead. -/
theorem place_steps (outDir : Path) (n : Nat) (state : List Visit × Layout) :
    place outDir state.1 state.2 =
      place outDir (steps (Layout.visit outDir) n state).1 (steps (Layout.visit outDir) n state).2 := by
  induction n generalizing state with
  | zero => rfl
  | succ n ih =>
    obtain ⟨visits, layout⟩ := state
    cases visits with
    | nil => rfl
    | cons visit rest =>
      rw [place, steps, ← ih]

/-- Assets can be moved ahead. -/
theorem hoist_steps {old common : BundleId} (hne : old ≠ common) (n : Nat)
    (state : List AssetId × Layout) :
    hoist old common hne state.1 state.2 =
      hoist old common hne (steps (Layout.follow old common) n state).1
        (steps (Layout.follow old common) n state).2 := by
  induction n generalizing state with
  | zero => rfl
  | succ n ih =>
    obtain ⟨ids, layout⟩ := state
    cases ids with
    | nil => rfl
    | cons id rest =>
      rw [hoist, steps, ← ih]

/-- A layout of which all visits have been made ahead. -/
theorem ofGraph_of_steps {graph : AssetGraph} {outDir : Path} {start : AssetId} {n : Nat}
    (h : (steps (Layout.visit outDir) n ([Visit.ofEntry start], ⟨graph, .empty⟩)).1 = []) :
    ofGraph graph outDir start =
      (steps (Layout.visit outDir) n ([Visit.ofEntry start], ⟨graph, .empty⟩)).2 := by
  have hplace := place_steps outDir n ([Visit.ofEntry start], ⟨graph, .empty⟩)
  rw [h, place] at hplace
  exact hplace

end Layout
end ModuleBundler
