import ModuleBundler.Proofs.Asset.Indexing
import ModuleBundler.Proofs.Bundle.Placement

/-!
# Which assets are placed

A layout is a depth-first search.  The search finds exactly the assets that are
reachable from the entry, and every asset that it finds has a place from then on.

Main results:

- Theorem {lit}`Layout.isPlaced_visit`: a visit gives one asset a place and no other one.
- Theorem {lit}`Layout.mem_visit_of_link`: the search goes on to all that the asset imports.
- Theorem {lit}`Layout.ofGraph_explored`: exactly the reachable assets have a place in a finished layout.
- Theorem {lit}`Layout.ofGraph_arranges`: where the assets of a graph are in a finished layout.
-/

namespace ModuleBundler
namespace AssetGraph

/-! ## Reachable assets -/

/-- Whether an asset imports another one, and both are live. -/
def Imports (graph : AssetGraph) (id target : AssetId) : Prop :=
  graph.IsLive target ∧
    ∃ asset dep, graph.get? id = some asset ∧ (dep, target) ∈ asset.links

/-- The assets that are reachable from an entry along imports between live assets. -/
inductive Reaches (graph : AssetGraph) (start : AssetId) : AssetId → Prop where
  | entry : graph.IsLive start → Reaches graph start start
  | step {id target : AssetId} :
      Reaches graph start id → graph.Imports id target → Reaches graph start target

/-- Graphs with the same content have the same live assets. -/
theorem SameContent.isLive_iff {old new : AssetGraph} (h : old.SameContent new) (id : AssetId) :
    new.IsLive id ↔ old.IsLive id := by
  constructor
  · rintro ⟨asset, hget⟩
    obtain ⟨asset', hget', -⟩ := h.symm.exists_get? hget
    exact ⟨asset', hget'⟩
  · rintro ⟨asset, hget⟩
    obtain ⟨asset', hget', -⟩ := h.exists_get? hget
    exact ⟨asset', hget'⟩

/-- Graphs with the same content are both indexed. -/
theorem SameContent.indexed {old new : AssetGraph} (h : old.SameContent new) (hindexed : old.Indexed) :
    new.Indexed := by
  constructor
  · intro id asset hget
    obtain ⟨before, hbefore, hsame⟩ := h.symm.exists_get? hget
    have hid : before.id = asset.id := Asset.eq_of_withoutPlace hsame fun _ => rfl
    exact hid.symm.trans (hindexed.named hbefore)
  · intro id asset hget
    obtain ⟨before, hbefore, hsame⟩ := h.symm.exists_get? hget
    have hidentity : before.identity = asset.identity := Asset.eq_of_withoutPlace hsame fun _ => rfl
    rw [h.index, ← hidentity]
    exact hindexed.found hbefore

/-- Graphs with the same content have the same imports. -/
theorem SameContent.imports_iff {old new : AssetGraph} (h : old.SameContent new) (id target : AssetId) :
    new.Imports id target ↔ old.Imports id target := by
  apply and_congr (h.isLive_iff target)
  constructor
  · rintro ⟨asset, dep, hget, hlink⟩
    obtain ⟨asset', hget', hcontent⟩ := h.symm.exists_get? hget
    exact ⟨asset', dep, hget', by rw [Asset.links_of_withoutPlace hcontent]; exact hlink⟩
  · rintro ⟨asset, dep, hget, hlink⟩
    obtain ⟨asset', hget', hcontent⟩ := h.exists_get? hget
    exact ⟨asset', dep, hget', by rw [Asset.links_of_withoutPlace hcontent]; exact hlink⟩

/-- Graphs with the same content have the same reachable assets. -/
theorem SameContent.reaches {old new : AssetGraph} (h : old.SameContent new) {start id : AssetId}
    (hreach : old.Reaches start id) : new.Reaches start id := by
  induction hreach with
  | entry hlive => exact .entry ((h.isLive_iff _).2 hlive)
  | step _ himports ih => exact .step ih ((h.imports_iff _ _).2 himports)

/-- Reachable assets are live. -/
theorem Reaches.isLive {graph : AssetGraph} {start id : AssetId} (h : graph.Reaches start id) :
    graph.IsLive id := by
  cases h with
  | entry hlive => exact hlive
  | step _ himports => exact himports.1

end AssetGraph

namespace Layout

open BundleTree

/-! ## One visit -/

/-- Whether an asset has a place. -/
def IsPlaced (layout : Layout) (id : AssetId) : Prop :=
  ∃ home, layout.homeOf id = some home

theorem isPlaced_iff_isSome {layout : Layout} {id : AssetId} :
    layout.IsPlaced id ↔ (layout.homeOf id).isSome = true :=
  Option.isSome_iff_exists.symm

/-- Assets with a place are live. -/
theorem IsPlaced.isLive {layout : Layout} {id : AssetId} (h : layout.IsPlaced id) :
    layout.graph.IsLive id := by
  obtain ⟨home, hhome⟩ := h
  obtain ⟨asset, hget, -⟩ := exists_get?_of_homeOf hhome
  exact ⟨asset, hget⟩

/-- The live assets without a place are the orphans. -/
theorem isPlaced_iff_not_mem_orphans {layout : Layout} (hindexed : layout.graph.Indexed) (id : AssetId) :
    layout.IsPlaced id ↔ layout.graph.IsLive id ∧ id ∉ layout.graph.orphans := by
  rw [AssetGraph.mem_orphans_iff hindexed]
  constructor
  · rintro ⟨home, hhome⟩
    obtain ⟨asset, hget, hasset⟩ := exists_get?_of_homeOf hhome
    refine ⟨⟨asset, hget⟩, ?_⟩
    rintro ⟨other, hother, hnone⟩
    rw [hget, Option.some.injEq] at hother
    rw [← hother, hasset] at hnone
    cases hnone
  · rintro ⟨⟨asset, hget⟩, hnot⟩
    cases hhome : asset.home with
    | none => exact absurd ⟨asset, hget, hhome⟩ hnot
    | some home => exact ⟨home, (homeOf_of_get? hget).trans hhome⟩

/-- Moving up gives no asset a place and takes none away. -/
theorem Hoisted.isPlaced_iff {old common : BundleId} {before after : Layout}
    (h : Hoisted old common before after) (id : AssetId) : after.IsPlaced id ↔ before.IsPlaced id := by
  rw [isPlaced_iff_isSome, isPlaced_iff_isSome, h.isSome_homeOf]

theorem isPlaced_arrive (layout : Layout) (visit : Visit) (id : AssetId) :
    (layout.arrive visit).IsPlaced id ↔ layout.IsPlaced id := by
  unfold IsPlaced
  rw [homeOf_arrive]

/-- An asset that enters a bundle has a place from then on. -/
theorem Enters.isPlaced_iff {visit : Visit} {kind : Kind} {bundle : BundleId} {before after : Layout}
    (h : Enters visit kind bundle before after) (id : AssetId) :
    after.IsPlaced id ↔ before.IsPlaced id ∨ id = visit.asset := by
  by_cases hid : id = visit.asset
  · subst hid
    have hplaced : after.IsPlaced visit.asset := ⟨bundle, h.home⟩
    simp [hplaced]
  · unfold IsPlaced
    rw [h.others hid]
    simp [hid]

/-- A visit to a live asset gives that asset a place and no other one. -/
theorem isPlaced_visit (outDir : Path) {visit : Visit} {layout : Layout} (hsound : layout.Sound)
    (hfits : visit.Fits layout.tree) (id : AssetId) :
    (layout.visit outDir visit).2.IsPlaced id ↔
      layout.IsPlaced id ∨ id = visit.asset ∧ layout.graph.IsLive id := by
  rcases visit_spec outDir hsound hfits with ⟨hnone, heq⟩ | ⟨current, common, hhome, -, hmoved⟩ |
    ⟨asset, bundle, hget, -, henters⟩
  · rw [heq]
    refine ⟨.inl, fun h => ?_⟩
    rcases h with h | ⟨rfl, asset, hget⟩
    · exact h
    · rw [hnone] at hget
      cases hget
  · -- the asset has a place already
    rw [hmoved.isPlaced_iff]
    refine ⟨.inl, fun h => ?_⟩
    rcases h with h | ⟨rfl, -⟩
    · exact h
    · exact ⟨current, hhome⟩
  · rw [henters.isPlaced_iff]
    refine or_congr_right ⟨fun hid => ⟨hid, ?_⟩, fun h => h.1⟩
    rw [hid]
    exact ⟨asset, hget⟩

/-- What is visited after an asset is imported by it. -/
theorem imports_of_mem_visit (outDir : Path) {visit next : Visit} {layout : Layout}
    (hnext : next ∈ (layout.visit outDir visit).1) :
    ∃ asset dep, layout.graph.get? visit.asset = some asset ∧ (dep, next.asset) ∈ asset.links := by
  rcases visit_cases outDir visit layout with ⟨-, heq⟩ | ⟨asset, current, into, -, -, -, heq⟩ |
    ⟨asset, current, -, -, -, heq⟩ | ⟨asset, bundle, tree, hget, -, -, heq⟩
  · rw [heq] at hnext
    cases hnext
  · rw [heq] at hnext
    cases hnext
  · rw [heq] at hnext
    cases hnext
  · rw [heq] at hnext
    obtain ⟨link, hlink, rfl⟩ := List.mem_map.1 hnext
    exact ⟨asset, link.1, hget, hlink⟩

/-- All that an asset without a place imports is visited after it. -/
theorem mem_visit_of_link (outDir : Path) {visit : Visit} {layout : Layout}
    (hnowhere : ¬ layout.IsPlaced visit.asset) {asset : Asset}
    (hget : layout.graph.get? visit.asset = some asset) {link : Dependency × AssetId}
    (hlink : link ∈ asset.links) : ∃ next ∈ (layout.visit outDir visit).1, next.asset = link.2 := by
  have hhome : ∀ {found : Asset} {current : BundleId}, layout.graph.get? visit.asset = some found →
      found.home ≠ some current :=
    fun hfound hcurrent => hnowhere ⟨_, (homeOf_of_get? hfound).trans hcurrent⟩
  rcases visit_cases outDir visit layout with ⟨hnone, -⟩ | ⟨found, current, into, hfound, hcurrent, -⟩ |
    ⟨found, current, hfound, hcurrent, -⟩ | ⟨found, bundle, tree, hfound, -, -, heq⟩
  · rw [hnone] at hget
    cases hget
  · exact absurd hcurrent (hhome hfound)
  · exact absurd hcurrent (hhome hfound)
  · have hsame : asset = found := Option.some.inj (hget.symm.trans hfound)
    subst hsame
    rw [heq]
    exact ⟨_, List.mem_map_of_mem hlink, rfl⟩

/-! ## The search -/

/-- Where the search stands: what has a place is reachable, what is to be visited is reachable or not live,
and what an asset with a place imports has a place or is to be visited. -/
structure Explored (graph : AssetGraph) (start : AssetId) (visits : List Visit) (layout : Layout) :
    Prop where
  content : graph.SameContent layout.graph
  reached : ∀ {id : AssetId}, layout.IsPlaced id → graph.Reaches start id
  coming : ∀ {visit : Visit}, visit ∈ visits → graph.IsLive visit.asset → graph.Reaches start visit.asset
  closed : ∀ {id target : AssetId}, layout.IsPlaced id → graph.Imports id target →
    layout.IsPlaced target ∨ ∃ visit ∈ visits, visit.asset = target
  begun : graph.IsLive start → layout.IsPlaced start ∨ ∃ visit ∈ visits, visit.asset = start

/-- A visit keeps the search in order. -/
theorem Explored.visit {graph : AssetGraph} {start : AssetId} (outDir : Path) {visit : Visit}
    {rest : List Visit} {layout : Layout} (h : Explored graph start (visit :: rest) layout)
    (hsound : layout.Sound) (hfits : visit.Fits layout.tree) :
    Explored graph start ((layout.visit outDir visit).1 ++ rest) (layout.visit outDir visit).2 := by
  have hplaced := isPlaced_visit outDir hsound hfits
  -- whoever has a place or was to be visited has a place or is to be visited
  have hforward : ∀ {id : AssetId}, graph.IsLive id →
      (layout.IsPlaced id ∨ ∃ coming ∈ visit :: rest, coming.asset = id) →
        (layout.visit outDir visit).2.IsPlaced id ∨
          ∃ coming ∈ (layout.visit outDir visit).1 ++ rest, coming.asset = id := by
    intro id hlive hid
    rcases hid with hid | ⟨coming, hmem, rfl⟩
    · exact .inl ((hplaced id).2 (.inl hid))
    · rcases List.mem_cons.1 hmem with rfl | hrest
      · exact .inl ((hplaced _).2 (.inr ⟨rfl, (h.content.isLive_iff _).2 hlive⟩))
      · exact .inr ⟨coming, List.mem_append_right _ hrest, rfl⟩
  have hvisited : graph.IsLive visit.asset → graph.Reaches start visit.asset :=
    h.coming List.mem_cons_self
  refine ⟨h.content.trans (sameContent_visit outDir visit layout), ?_, ?_, ?_, ?_⟩
  · intro id hid
    rcases (hplaced id).1 hid with hid | ⟨rfl, hlive⟩
    · exact h.reached hid
    · exact hvisited ((h.content.isLive_iff _).1 hlive)
  · intro coming hmem hlive
    rcases List.mem_append.1 hmem with hnew | hrest
    · obtain ⟨asset, dep, hget, hlink⟩ := imports_of_mem_visit outDir hnew
      have himports : graph.Imports visit.asset coming.asset :=
        (h.content.imports_iff _ _).1 ⟨(h.content.isLive_iff _).2 hlive, asset, dep, hget, hlink⟩
      exact .step (hvisited ((h.content.isLive_iff _).1 ⟨asset, hget⟩)) himports
    · exact h.coming (List.mem_cons_of_mem _ hrest) hlive
  · intro id target hid himports
    by_cases hbefore : layout.IsPlaced id
    · exact hforward himports.1 (h.closed hbefore himports)
    · -- the asset has just been found, so all that it imports is on the list
      rcases (hplaced id).1 hid with hid | ⟨rfl, -⟩
      · exact absurd hid hbefore
      · obtain ⟨-, asset, dep, hget, hlink⟩ := (h.content.imports_iff _ _).2 himports
        obtain ⟨coming, hmem, hasset⟩ := mem_visit_of_link outDir hbefore hget hlink
        exact .inr ⟨coming, List.mem_append_left _ hmem, hasset⟩
  · intro hlive
    exact hforward hlive (h.begun hlive)

/-- When no visit is left, exactly the reachable assets have a place. -/
theorem Explored.isPlaced_iff {graph : AssetGraph} {start : AssetId} {layout : Layout}
    (h : Explored graph start [] layout) (id : AssetId) :
    layout.IsPlaced id ↔ graph.Reaches start id := by
  refine ⟨h.reached, fun hreach => ?_⟩
  induction hreach with
  | entry hlive => exact (h.begun hlive).elim (fun hid => hid) (by simp)
  | step _ himports ih => exact (h.closed ih himports).elim (fun hid => hid) (by simp)

/-- Before the first visit no asset has a place. -/
theorem not_isPlaced_start (graph : AssetGraph) (id : AssetId) :
    ¬ IsPlaced ⟨graph.updateAll Asset.withoutPlace, .empty⟩ id := by
  rintro ⟨home, hhome⟩
  obtain ⟨asset, hget, hhome⟩ := exists_get?_of_homeOf hhome
  rw [AssetGraph.get?_updateAll] at hget
  obtain ⟨before, -, rfl⟩ := Option.map_eq_some_iff.1 hget
  cases hhome

/-- Before the first visit only the entry is to be visited. -/
theorem explored_start (graph : AssetGraph) (start : AssetId) :
    Explored (graph.updateAll Asset.withoutPlace) start [Visit.ofEntry start]
      ⟨graph.updateAll Asset.withoutPlace, .empty⟩ := by
  have hnowhere := not_isPlaced_start graph
  refine ⟨.refl _, fun hid => absurd hid (hnowhere _), ?_, fun hid => absurd hid (hnowhere _), ?_⟩
  · intro visit hmem hlive
    rw [List.mem_singleton] at hmem
    subst hmem
    exact .entry hlive
  · exact fun _ => .inr ⟨_, List.mem_singleton_self _, rfl⟩

/-- Exactly the reachable assets have a place in a finished layout. -/
theorem ofGraph_explored (graph : AssetGraph) (outDir : Path) (start : AssetId) :
    Explored (graph.updateAll Asset.withoutPlace) start []
      (ofGraph (graph.updateAll Asset.withoutPlace) outDir start) :=
  ofGraph_visits (explored_start graph start)
    fun _ _ _ hsound hfits _ h => h.visit outDir hsound hfits

/-! ## The arrangement -/

/-- What a finished layout of a graph is to be: nothing but places has changed, exactly the assets that are
reachable from the entry have a home, each of them is a member of the bundles that it belongs into and of
no others, and bundles and assets agree on who is a member. -/
structure Arranges (layout : Layout) (graph : AssetGraph) (start : AssetId) : Prop where
  content : graph.SameContent layout.graph
  /-- An asset has a home just if it is reachable. -/
  placed : ∀ {id : AssetId} {asset : Asset}, layout.graph.get? id = some asset →
    (asset.home.isSome = true ↔ graph.Reaches start id)
  /-- A home is never a sibling. -/
  primary : ∀ {id : AssetId} {asset : Asset} {home : BundleId}, layout.graph.get? id = some asset →
    asset.home = some home → layout.tree.IsPrimary home
  /-- An asset is a member of the bundle of its kind at its home, and of the home itself if that is of
  another kind for which the asset has output. -/
  bundles : ∀ {id : AssetId} {asset : Asset} {home : BundleId}, layout.graph.get? id = some asset →
    asset.home = some home → ∃ own, layout.tree.beside? home asset.kind = some own ∧
      layout.tree.kindOf own = asset.kind ∧ ∀ bundle, bundle ∈ asset.bundles ↔ bundle = own ∨
        bundle = home ∧ asset.kind ≠ layout.tree.kindOf home ∧
          asset.generates (layout.tree.kindOf home) = true
  nowhere : ∀ {id : AssetId} {asset : Asset}, layout.graph.get? id = some asset →
    asset.home = none → asset.bundles = []
  bundlesOnce : ∀ {id : AssetId} {asset : Asset}, layout.graph.get? id = some asset →
    asset.bundles.Nodup
  /-- Bundles and assets agree, and a bundle has no members that are not live. -/
  members : ∀ {id : AssetId} {bundle : BundleId}, id ∈ layout.tree.membersOf bundle ↔
    ∃ asset, layout.graph.get? id = some asset ∧ bundle ∈ asset.bundles
  membersOnce : ∀ bundle, (layout.tree.membersOf bundle).Nodup

/-- The bundles of an asset with a home. -/
theorem Sound.bundles_eq {layout : Layout} (h : layout.Sound) {id : AssetId} {asset : Asset}
    {home : BundleId} (hget : layout.graph.get? id = some asset) (hhome : asset.home = some home) :
    ∃ own, layout.tree.beside? home asset.kind = some own ∧
      (own ≠ home ↔ asset.kind ≠ layout.tree.kindOf home) ∧
      asset.bundles = own :: if asset.kind ≠ layout.tree.kindOf home ∧
        asset.generates (layout.tree.kindOf home) = true then [home] else [] := by
  obtain ⟨own, -, -, -, hown, hbundles⟩ := kindOf_target h.tree (h.places hget hhome)
  obtain ⟨bundle, hbundle⟩ := (h.primary hget hhome).exists_get?
  exact ⟨own, hown, target_ne_home h.tree hbundle hown, hbundles⟩

/-- Every layout arranges its graph, from whichever entry and whatever the graph is. -/
theorem ofGraph_arranges (graph : AssetGraph) (outDir : Path) (start : AssetId) :
    (ofGraph (graph.updateAll Asset.withoutPlace) outDir start).Arranges graph start := by
  have hsound := ofGraph_sound graph outDir start
  have hexplored := ofGraph_explored graph outDir start
  have hcontent := graph.sameContent_withoutPlace
  refine ⟨hcontent.trans hexplored.content, ?_, hsound.primary, ?_, hsound.unplaced, ?_, hsound.mirror,
    hsound.nodup⟩
  · intro id asset hget
    rw [← homeOf_of_get? hget, ← isPlaced_iff_isSome, hexplored.isPlaced_iff]
    exact ⟨hcontent.symm.reaches, hcontent.reaches⟩
  · intro id asset home hget hhome
    obtain ⟨own, hown, -, hbundles⟩ := hsound.bundles_eq hget hhome
    refine ⟨own, hown, kindOf_of_beside? hsound.tree hown, fun bundle => ?_⟩
    rw [hbundles, List.mem_cons]
    split
    · rename_i hboth
      simp [hboth]
    · rename_i hboth
      simp [hboth]
  · intro id asset hget
    cases hhome : asset.home with
    | none =>
      rw [hsound.unplaced hget hhome]
      exact List.nodup_nil
    | some home =>
      obtain ⟨own, -, hne, hbundles⟩ := hsound.bundles_eq hget hhome
      rw [hbundles]
      split
      · rename_i hboth
        simpa using hne.2 hboth.1
      · simp

end Layout
end ModuleBundler
