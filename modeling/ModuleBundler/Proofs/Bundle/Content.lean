import ModuleBundler.Bundle.Layout

/-!
# What a layout leaves alone

A layout changes nothing about the assets but their places.  Everything else,
above all what they import and of which kind they are, is their content.

Main results:

- Theorem {lit}`Layout.visit_cases`: what a single visit can do.
- Theorem {lit}`AssetGraph.Placewise.ofGraph`: what changes of places preserve holds after a layout.
- Theorem {lit}`Layout.sameContent_ofGraph`: a layout changes only places.
-/

namespace ModuleBundler

/-! ## Content -/

/-- Assets with the same content agree in whatever does not depend on places. -/
theorem Asset.eq_of_withoutPlace {α : Type} {a b : Asset} (h : a.withoutPlace = b.withoutPlace)
    {f : Asset → α} (hf : ∀ asset, f asset.withoutPlace = f asset) : f a = f b := by
  rw [← hf a, h, hf b]

/-- Assets with the same content share the properties that do not depend on places. -/
theorem Asset.iff_of_withoutPlace {a b : Asset} (h : a.withoutPlace = b.withoutPlace)
    {p : Asset → Prop} (hp : ∀ asset, p asset.withoutPlace ↔ p asset) : p a ↔ p b := by
  rw [← hp a, h, hp b]

/-- Assets with the same content have the same imports. -/
theorem Asset.links_of_withoutPlace {a b : Asset} (h : a.withoutPlace = b.withoutPlace) :
    a.links = b.links :=
  Asset.eq_of_withoutPlace h fun _ => rfl

theorem Asset.kind_of_withoutPlace {a b : Asset} (h : a.withoutPlace = b.withoutPlace) :
    a.kind = b.kind :=
  Asset.eq_of_withoutPlace h fun _ => rfl

theorem Asset.generates_of_withoutPlace {a b : Asset} (h : a.withoutPlace = b.withoutPlace) :
    a.generates = b.generates :=
  Asset.eq_of_withoutPlace h fun _ => rfl

namespace AssetGraph

/-- Whether two graphs have the same assets up to their places in bundles. -/
structure SameContent (old new : AssetGraph) : Prop where
  assets : ∀ id, (new.get? id).map Asset.withoutPlace = (old.get? id).map Asset.withoutPlace
  index : new.index = old.index

namespace SameContent

theorem refl (graph : AssetGraph) : graph.SameContent graph :=
  ⟨fun _ => rfl, rfl⟩

theorem symm {a b : AssetGraph} (h : a.SameContent b) : b.SameContent a :=
  ⟨fun id => (h.assets id).symm, h.index.symm⟩

theorem trans {a b c : AssetGraph} (hab : a.SameContent b) (hbc : b.SameContent c) : a.SameContent c :=
  ⟨fun id => (hbc.assets id).trans (hab.assets id), hbc.index.trans hab.index⟩

/-- An asset is found again with the same content. -/
theorem exists_get? {old new : AssetGraph} (h : old.SameContent new) {id : AssetId} {asset : Asset}
    (hget : old.get? id = some asset) :
    ∃ asset', new.get? id = some asset' ∧ asset'.withoutPlace = asset.withoutPlace := by
  have hid := h.assets id
  rw [hget, Option.map_some, Option.map_eq_some_iff] at hid
  exact hid

end SameContent

/-- A change of places changes no content. -/
theorem sameContent_update (graph : AssetGraph) (id : AssetId) {change : Asset → Asset}
    (h : ∀ asset, (change asset).withoutPlace = asset.withoutPlace) :
    graph.SameContent (graph.update id change) := by
  refine ⟨fun other => ?_, rfl⟩
  by_cases hother : other = id
  · subst hother
    rw [get?_update_self]
    cases graph.get? other with
    | none => rfl
    | some asset => exact congrArg some (h asset)
  · rw [get?_update_of_ne hother]

/-- Assets without places have the same content as before. -/
theorem sameContent_withoutPlace (graph : AssetGraph) :
    graph.SameContent (graph.updateAll Asset.withoutPlace) := by
  refine ⟨fun id => ?_, rfl⟩
  rw [get?_updateAll]
  cases graph.get? id <;> rfl

/-- Whether changes of places preserve a property of graphs. -/
structure Placewise (holds : AssetGraph → Prop) : Prop where
  update : ∀ {graph : AssetGraph} (id : AssetId) {change : Asset → Asset},
    (∀ asset, (change asset).withoutPlace = asset.withoutPlace) → holds graph → holds (graph.update id change)

theorem placewise_sameContent (graph : AssetGraph) : Placewise graph.SameContent where
  update id _ hchange h := h.trans (sameContent_update _ id hchange)

theorem placewise_size (n : Nat) : Placewise fun graph => graph.size = n where
  update id _ _ h := (size_update _ id _).trans h

end AssetGraph

namespace Layout

/-- A visit finds no asset, or one that belongs to a bundle, or one that belongs to none yet. -/
theorem visit_cases (outDir : Path) (visit : Visit) (layout : Layout) :
    (layout.graph.get? visit.asset = none ∧ layout.visit outDir visit = ([], layout)) ∨
    (∃ asset current into, layout.graph.get? visit.asset = some asset ∧ asset.home = some current ∧
      visit.into = some into ∧
      layout.visit outDir visit = ([], (layout.arrive visit).share visit.asset into current)) ∨
    (∃ asset current, layout.graph.get? visit.asset = some asset ∧ asset.home = some current ∧
      visit.into = none ∧ layout.visit outDir visit = ([], layout.arrive visit)) ∨
    (∃ asset bundle tree, layout.graph.get? visit.asset = some asset ∧ asset.home = none ∧
      bundleFor (layout.arrive visit).tree outDir visit asset = (bundle, tree) ∧
      layout.visit outDir visit =
        (asset.links.map fun link => ⟨link.2, some link.1, some bundle⟩,
          enter ⟨(layout.arrive visit).graph, tree⟩ visit.asset asset bundle)) := by
  unfold Layout.visit
  cases hget : layout.graph.get? visit.asset with
  | none => exact .inl ⟨rfl, rfl⟩
  | some asset =>
    refine .inr ?_
    cases hhome : asset.home with
    | none =>
      refine .inr (.inr ⟨asset, (bundleFor (layout.arrive visit).tree outDir visit asset).1,
        (bundleFor (layout.arrive visit).tree outDir visit asset).2, rfl, hhome, rfl, ?_⟩)
      simp only [hhome]
    | some current =>
      cases hinto : visit.into with
      | none => exact .inr (.inl ⟨asset, current, rfl, hhome, rfl, by simp only [hhome]⟩)
      | some into => exact .inl ⟨asset, current, into, rfl, hhome, rfl, by simp only [hhome]⟩

end Layout

/-! ## Layouts place by place -/

namespace AssetGraph.Placewise

open Layout

variable {holds : AssetGraph → Prop}

theorem arrive (h : Placewise holds) {layout : Layout} (hlayout : holds layout.graph) (visit : Visit) :
    holds (layout.arrive visit).graph := by
  unfold Layout.arrive
  split
  · exact hlayout
  · exact h.update _ (fun _ => rfl) hlayout

theorem relocate (h : Placewise holds) {layout : Layout} (hlayout : holds layout.graph) (asset : Asset)
    (common : BundleId) (id : AssetId) : holds (layout.relocate asset common id).graph :=
  h.update id (fun _ => rfl) hlayout

theorem follow (h : Placewise holds) {layout : Layout} (hlayout : holds layout.graph)
    (old common : BundleId) (id : AssetId) : holds (layout.follow old common id).2.graph := by
  unfold Layout.follow
  split
  · exact hlayout
  · split
    · exact h.relocate hlayout _ _ _
    · exact hlayout

theorem hoist (h : Placewise holds) {layout : Layout} (hlayout : holds layout.graph)
    {old common : BundleId} (hne : old ≠ common) (ids : List AssetId) :
    holds (Layout.hoist old common hne ids layout).graph := by
  fun_induction Layout.hoist old common hne ids layout with
  | case1 layout => exact hlayout
  | case2 id rest layout ih => exact ih (h.follow hlayout old common id)

theorem share (h : Placewise holds) {layout : Layout} (hlayout : holds layout.graph) (id : AssetId)
    (into current : BundleId) : holds (layout.share id into current).graph := by
  unfold Layout.share
  dsimp only
  split
  · split
    · exact h.hoist hlayout _ _
    · exact hlayout
  · exact hlayout

theorem visit (h : Placewise holds) {layout : Layout} (hlayout : holds layout.graph) (outDir : Path)
    (visit : Visit) : holds (layout.visit outDir visit).2.graph := by
  have harrive := h.arrive hlayout visit
  rcases visit_cases outDir visit layout with ⟨-, heq⟩ | ⟨asset, current, into, -, -, -, heq⟩ |
    ⟨asset, current, -, -, -, heq⟩ | ⟨asset, bundle, tree, -, -, -, heq⟩
  · rw [heq]
    exact hlayout
  · rw [heq]
    exact h.share harrive _ _ _
  · rw [heq]
    exact harrive
  · rw [heq]
    exact h.update _ (fun _ => rfl) harrive

theorem place (h : Placewise holds) {layout : Layout} (hlayout : holds layout.graph) (outDir : Path)
    (visits : List Visit) : holds (Layout.place outDir visits layout).graph := by
  fun_induction Layout.place outDir visits layout with
  | case1 layout => exact hlayout
  | case2 visit rest layout ih => exact ih (h.visit hlayout outDir visit)

/-- What changes of places preserve holds after a layout. -/
theorem ofGraph (h : Placewise holds) {graph : AssetGraph} (hgraph : holds graph) (outDir : Path)
    (start : AssetId) : holds (Layout.ofGraph graph outDir start).graph :=
  h.place hgraph outDir _

end AssetGraph.Placewise

namespace Layout

theorem sameContent_arrive (layout : Layout) (visit : Visit) :
    layout.graph.SameContent (layout.arrive visit).graph :=
  layout.graph.placewise_sameContent.arrive (.refl _) visit

theorem sameContent_relocate (layout : Layout) (asset : Asset) (common : BundleId) (id : AssetId) :
    layout.graph.SameContent (layout.relocate asset common id).graph :=
  layout.graph.placewise_sameContent.relocate (.refl _) asset common id

theorem sameContent_visit (outDir : Path) (visit : Visit) (layout : Layout) :
    layout.graph.SameContent (layout.visit outDir visit).2.graph :=
  layout.graph.placewise_sameContent.visit (.refl _) outDir visit

/-- A layout changes only places. -/
theorem sameContent_ofGraph (graph : AssetGraph) (outDir : Path) (start : AssetId) :
    graph.SameContent (ofGraph graph outDir start).graph :=
  graph.placewise_sameContent.ofGraph (.refl _) outDir start

/-- A layout makes no assets. -/
theorem size_ofGraph (graph : AssetGraph) (outDir : Path) (start : AssetId) :
    (ofGraph graph outDir start).graph.size = graph.size :=
  (AssetGraph.placewise_size graph.size).ofGraph rfl outDir start

end Layout
end ModuleBundler
