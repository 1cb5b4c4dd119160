import ModuleBundler.Proofs.Bundle.Reporting
import ModuleBundler.Proofs.Bundle.Skipping

/-!
# Laying out again what a layout has kept

A pass keeps of its layout the assets that have a place, with their places.  The next
layout forgets the places, but it starts from the same asset, and none of the assets
that it can reach is missing.  So it makes the same bundles with the same members, and
whatever was kept has a place in it again.

The proof compares the two layouts by the identity on those ids that stand for the same
asset, or for none, in what was laid out first and in what was kept of it.

Main results:

- Theorem {lit}`Layout.Retains.matches_again`: the second layout matches the first one.
- Theorem {lit}`Layout.Retains.retains_again`: the second layout leaves no asset without a place.
- Theorem {lit}`Layout.Retains.bundles_again` and theorem {lit}`Layout.Retains.placements_again`: both
  layouts have the same bundles and the same placements in their reports.
-/

namespace ModuleBundler

/-! ## Live assets of two graphs -/

/-- Where the slots of two graphs correspond, so do their live assets, in the order of their ids. -/
theorem AssetGraph.live_forall₂ {R : Asset → Asset → Prop} {a b : AssetGraph} (hsize : a.size = b.size)
    (hget : ∀ id, Option.Rel R (a.get? id) (b.get? id)) : List.Forall₂ R a.live b.live := by
  have hslots : List.Forall₂ (Option.Rel R) a.slots b.slots := by
    refine List.forall₂_iff_get.2 ⟨hsize, fun i ha hb => ?_⟩
    have hid := hget ⟨i⟩
    rw [AssetGraph.get?, AssetGraph.get?, List.getElem?_eq_getElem ha, List.getElem?_eq_getElem hb] at hid
    exact hid
  exact List.rel_filterMap (fun _ _ h => h) hslots

namespace Layout

/-! ## What stays -/

/-- Whether two ids are one that stands for the same asset, or for none, in a layout and in a graph. -/
def Stays (layout : Layout) (graph : AssetGraph) (x y : AssetId) : Prop :=
  x = y ∧ graph.get? x = layout.graph.get? x

theorem biUnique_stays (layout : Layout) (graph : AssetGraph) : Relator.BiUnique (layout.Stays graph) :=
  ⟨fun _ _ _ hx hy => hx.1.trans hy.1.symm, fun _ _ _ hx hy => hx.1.symm.trans hy.1⟩

section

variable {layout : Layout} {graph : AssetGraph} {id : AssetId}

/-- An asset stays if it has a place, and so does an id that is not live. -/
theorem Retains.stays (h : layout.Retains graph) (hid : layout.graph.IsLive id → layout.IsPlaced id) :
    layout.Stays graph id id := by
  refine ⟨rfl, ?_⟩
  by_cases hlive : layout.graph.IsLive id
  · exact h.kept (hid hlive)
  · have hnone : layout.graph.get? id = none := Option.eq_none_iff_forall_ne_some.2 fun asset hget =>
      hlive ⟨asset, hget⟩
    rw [hnone, Option.eq_none_iff_forall_ne_some]
    exact fun asset hget => hlive (h.placed hget).isLive

/-- Whoever is live and stays has a place. -/
theorem Retains.isPlaced_of_stays (h : layout.Retains graph) {other : AssetId}
    (hstays : layout.Stays graph id other) (hlive : layout.graph.IsLive id) : layout.IsPlaced id := by
  obtain ⟨asset, hget⟩ := hlive
  exact h.placed (hstays.2.trans hget)

end

/-! ## The second layout -/

/-- The layout of a graph, whatever places its assets have had before. -/
abbrev anew (graph : AssetGraph) (outDir : Path) (start : AssetId) : Layout :=
  ofGraph (graph.updateAll Asset.withoutPlace) outDir start

/-- A layout changes only places, those from before included. -/
theorem sameContent_anew (graph : AssetGraph) (outDir : Path) (start : AssetId) :
    graph.SameContent (anew graph outDir start).graph :=
  graph.sameContent_withoutPlace.trans (sameContent_ofGraph _ outDir start)

theorem size_anew (graph : AssetGraph) (outDir : Path) (start : AssetId) :
    (anew graph outDir start).graph.size = graph.size := by
  refine (size_ofGraph _ outDir start).trans ?_
  simp [AssetGraph.size, AssetGraph.updateAll]

section

variable {content graph : AssetGraph} {outDir : Path} {start : AssetId}

/-- The asset from which the layout starts stays. -/
theorem Retains.stays_start
    (h : (anew content outDir start).Retains graph) :
    (anew content outDir start).Stays graph start start := by
  have hexplored := ofGraph_explored content outDir start
  refine h.stays fun hlive => (hexplored.isPlaced_iff start).2 ?_
  exact .entry ((hexplored.content.isLive_iff start).1 hlive)

/-- What an asset imports that stays, stays as well. -/
theorem Retains.stays_link
    (h : (anew content outDir start).Retains graph) {id other : AssetId}
    (hstays : (anew content outDir start).Stays graph id other)
    {asset : Asset} (hget : (content.updateAll Asset.withoutPlace).get? id = some asset)
    {link : Dependency × AssetId} (hlink : link ∈ asset.links) :
    (anew content outDir start).Stays graph link.2 link.2 := by
  have hexplored := ofGraph_explored content outDir start
  have hplaced := h.isPlaced_of_stays hstays ((hexplored.content.isLive_iff id).2 ⟨asset, hget⟩)
  refine h.stays fun hlive => ?_
  have himports : (content.updateAll Asset.withoutPlace).Imports id link.2 :=
    ⟨(hexplored.content.isLive_iff _).1 hlive, asset, link.1, hget, hlink⟩
  exact (hexplored.isPlaced_iff _).2 (.step ((hexplored.isPlaced_iff _).1 hplaced) himports)

/-- Without places, what was laid out first and what was kept of it match. -/
theorem Retains.matches_withoutPlace
    (h : (anew content outDir start).Retains graph) :
    AssetGraph.Matches ((anew content outDir start).Stays graph)
      (content.updateAll Asset.withoutPlace) (graph.updateAll Asset.withoutPlace) := by
  intro id other hstays
  have hsame := hstays.2
  obtain rfl : id = other := hstays.1
  have hcontent := (ofGraph_explored content outDir start).content
  have hequal : (graph.updateAll Asset.withoutPlace).get? id = (content.updateAll Asset.withoutPlace).get? id := by
    have hassets := hcontent.assets id
    rw [← hsame, AssetGraph.get?_updateAll, Option.map_map] at hassets
    rw [AssetGraph.get?_updateAll, AssetGraph.get?_updateAll]
    exact hassets
  rw [hequal]
  cases hget : (content.updateAll Asset.withoutPlace).get? id with
  | none => exact .none
  | some asset =>
    refine .some ⟨rfl, rfl, rfl, rfl, rfl, rfl, rfl, List.forall₂_same.2 fun link hlink => ⟨rfl, ?_⟩⟩
    exact h.stays_link hstays hget hlink

/-- The layout of what was kept of a layout matches the latter. -/
theorem Retains.matches_again
    (h : (anew content outDir start).Retains graph) :
    Matches ((anew content outDir start).Stays graph)
      (anew content outDir start)
      (anew graph outDir start) :=
  ofGraph_matches (biUnique_stays _ _) h.matches_withoutPlace outDir h.stays_start

/-- All that was kept of a layout has a place when it is laid out again. -/
theorem Retains.isPlaced_again
    (h : (anew content outDir start).Retains graph) {id : AssetId}
    (hlive : graph.IsLive id) : (anew graph outDir start).IsPlaced id := by
  obtain ⟨asset, hget⟩ := hlive
  have hplaced := h.placed hget
  exact (h.matches_again.isPlaced_iff (h.stays fun _ => hplaced)).2 hplaced

/-- The second layout keeps all it has. -/
theorem Retains.retains_again
    (h : (anew content outDir start).Retains graph) :
    (anew graph outDir start).Retains
      (anew graph outDir start).graph := by
  refine ⟨fun _ => rfl, fun {id asset} hget => h.isPlaced_again ?_⟩
  exact ((sameContent_anew graph outDir start).isLive_iff id).1 ⟨asset, hget⟩

/-- In the second layout no asset is without a home. -/
theorem Retains.orphans_again
    (h : (anew content outDir start).Retains graph)
    (hindexed : graph.Indexed) :
    (anew graph outDir start).graph.orphans = [] := by
  have hagain := (sameContent_anew graph outDir start).indexed hindexed
  refine List.eq_nil_iff_forall_not_mem.2 fun id hmem => ?_
  obtain ⟨asset, hget, -⟩ := (AssetGraph.mem_orphans_iff hagain).1 hmem
  exact ((isPlaced_iff_not_mem_orphans hagain id).1 (h.retains_again.placed hget)).2 hmem

/-- Both layouts have the same bundles in their reports. -/
theorem Retains.bundles_again
    (h : (anew content outDir start).Retains graph)
    (packaged packaged' : List Path) :
    (Report.ofTree (anew graph outDir start).tree
      (anew graph outDir start).graph packaged').bundles =
    (Report.ofTree (anew content outDir start).tree graph packaged).bundles :=
  h.matches_again.bundles_eq (ofGraph_sound content outDir start) (ofGraph_started content outDir start) h
    h.retains_again packaged packaged'

/-- What was kept of a layout matches what the second layout makes of it, places included. -/
theorem Retains.matches_places
    (h : (anew content outDir start).Retains graph) (id : AssetId) :
    Option.Rel
      (Asset.Matches ((anew content outDir start).Stays graph))
      (graph.get? id) ((anew graph outDir start).graph.get? id) := by
  cases hget : graph.get? id with
  | none =>
    cases hagain : (anew graph outDir start).graph.get? id with
    | none => exact .none
    | some asset =>
      obtain ⟨other, hother⟩ := ((sameContent_anew graph outDir start).isLive_iff id).1 ⟨asset, hagain⟩
      rw [hget] at hother
      cases hother
  | some asset =>
    have hplaced := h.placed hget
    have hmatch := h.matches_again.graph id id (h.stays fun _ => hplaced)
    rw [← h.kept hplaced, hget] at hmatch
    exact hmatch

/-- Both layouts have the same placements in their reports, in the same order. -/
theorem Retains.placements_again
    (h : (anew content outDir start).Retains graph) :
    Report.placementsOf (anew graph outDir start).tree
        (anew graph outDir start).graph =
      Report.placementsOf (anew content outDir start).tree graph := by
  have hnames := h.matches_again.tree.nameOf
  have hlive := AssetGraph.live_forall₂ (size_anew graph outDir start).symm h.matches_places
  refine filterMap_forall₂ hlive fun asset _ other hmatches => ?_
  rw [hmatches.home, hmatches.identity]
  exact congrArg (fun name => asset.home.map fun home => (asset.identity, name home)) (funext hnames)

end
end Layout

end ModuleBundler
