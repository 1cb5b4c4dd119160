import ModuleBundler.Bundle.Report
import ModuleBundler.Proofs.Bundle.Reachability

/-!
# The order of members

A bundle lists its members in the order in which they were found.  The search goes from an
asset to what it imports, in depth and in the order of the imports, and it lists an asset
before it goes on.  So in a build without imports that are followed later on, where all
assets are of one kind, the only bundle starts with the entry, and every other member comes
after an asset that imports it.

Main results:

- Theorem {lit}`Walks.unique`: what imports what can be walked in one order only.
- Theorem {lit}`Led.importedFirst_iff`: what is imported does not come before all its importers, unless
  nothing is imported.
- Theorem {lit}`Layout.ofGraph_gathered`: the members of the only bundle are in the order of the walk.
-/

namespace ModuleBundler

/-! ## Walks -/

section

variable {α β : Type}

/-- A walk along imports.  From some nodes that were met and some that are to be visited it leads to all that
are met in the end, in this order: a node is met when it is visited for the first time, and then what it
imports is visited before anything else.  What there is no list of imports for is passed by. -/
inductive Walks (imports : α → Option (List α)) : List α → List α → List α → Prop where
  | done (met : List α) : Walks imports met [] met
  | pass {node : α} {met rest members : List α} :
      node ∈ met ∨ imports node = none → Walks imports met rest members →
        Walks imports met (node :: rest) members
  | meet {node : α} {targets met rest members : List α} :
      imports node = some targets → node ∉ met →
        Walks imports (met ++ [node]) (targets ++ rest) members → Walks imports met (node :: rest) members

/-- Whether a node imports another one. -/
def Includes (imports : α → Option (List α)) (importer target : α) : Prop :=
  ∃ targets, imports importer = some targets ∧ target ∈ targets

/-- Whether each node of a list but the first one comes after a node that imports it. -/
def Led (imports : α → Option (List α)) (start : α) (members : List α) : Prop :=
  ∀ before node after, members = before ++ node :: after →
    node = start ∨ ∃ importer ∈ before, Includes imports importer node

/-- Whether what is imported comes before what imports it. -/
def ImportedFirst (imports : α → Option (List α)) (members : List α) : Prop :=
  ∀ importer ∈ members, ∀ target, Includes imports importer target → [target, importer].Sublist members

namespace Walks

variable {imports : α → Option (List α)} {met todo members : List α}

/-- What imports what can be walked in one order only. -/
theorem unique {members' : List α} (h : Walks imports met todo members)
    (h' : Walks imports met todo members') : members = members' := by
  induction h with
  | done met =>
    cases h' with
    | done => rfl
  | pass hpass _ ih =>
    cases h' with
    | pass _ hrest => exact ih hrest
    | meet himports hnew _ =>
      rcases hpass with hmet | hnone
      · exact absurd hmet hnew
      · cases hnone.symm.trans himports
  | meet himports hnew _ ih =>
    cases h' with
    | pass hpass _ =>
      rcases hpass with hmet | hnone
      · exact absurd hmet hnew
      · cases hnone.symm.trans himports
    | meet himports' _ hrest =>
      obtain rfl := Option.some.inj (himports.symm.trans himports')
      exact ih hrest

/-- What was met comes first. -/
theorem isPrefix (h : Walks imports met todo members) : met <+: members := by
  induction h with
  | done met => exact List.prefix_rfl
  | pass _ _ ih => exact ih
  | meet _ _ _ ih => exact (List.prefix_append _ _).trans ih

/-- Nothing is met twice. -/
theorem nodup (h : Walks imports met todo members) (hmet : met.Nodup) : members.Nodup := by
  induction h with
  | done met => exact hmet
  | pass _ _ ih => exact ih hmet
  | meet _ hnew _ ih => exact ih (List.nodup_append.2 ⟨hmet, by simp, by
      intro a ha b hb heq
      rw [List.mem_singleton.1 hb] at heq
      exact hnew (heq ▸ ha)⟩)

/-- A walk meets the node with which it begins first. -/
theorem head? {start : α} {targets : List α} (h : Walks imports [] [start] members)
    (hstart : imports start = some targets) : ∃ others, members = start :: others := by
  cases h with
  | pass hpass _ => cases (hpass.resolve_left List.not_mem_nil).symm.trans hstart
  | meet _ _ hrest =>
    obtain ⟨others, rfl⟩ := hrest.isPrefix
    exact ⟨others, rfl⟩

/-- A walk remains one when its nodes get names, provided that different ones get different names. -/
theorem map {imports' : β → Option (List β)} {f : α → β} {reached : α → Prop}
    (hclosed : ∀ {node target : α}, reached node → Includes imports node target → reached target)
    (hsame : ∀ {node : α}, reached node → imports' (f node) = (imports node).map (List.map f))
    (hinjective : ∀ {a b : α}, reached a → reached b → f a = f b → a = b)
    (hmet : ∀ node ∈ met, reached node) (htodo : ∀ node ∈ todo, reached node)
    (h : Walks imports met todo members) : Walks imports' (met.map f) (todo.map f) (members.map f) := by
  induction h with
  | done met => exact .done _
  | pass hpass _ ih =>
    obtain ⟨hnode, hrest⟩ := List.forall_mem_cons.1 htodo
    refine .pass ?_ (ih hmet hrest)
    rcases hpass with hmem | hnone
    · exact .inl (List.mem_map_of_mem hmem)
    · exact .inr (by rw [hsame hnode, hnone]; rfl)
  | @meet node targets met rest members himports hnew _ ih =>
    obtain ⟨hnode, hrest⟩ := List.forall_mem_cons.1 htodo
    have hnew' : f node ∉ met.map f := by
      intro hmem
      obtain ⟨other, hother, heq⟩ := List.mem_map.1 hmem
      exact hnew (hinjective (hmet other hother) hnode heq ▸ hother)
    refine .meet (by rw [hsame hnode, himports]; rfl) hnew' ?_
    have hwalk := ih (List.forall_mem_append.2 ⟨hmet, List.forall_mem_singleton.2 hnode⟩)
      (List.forall_mem_append.2 ⟨fun target htarget => hclosed hnode ⟨targets, himports, htarget⟩, hrest⟩)
    rwa [List.map_append, List.map_append] at hwalk

end Walks

/-! ## Importers and what they import -/

variable {imports : α → Option (List α)} {start : α}

/-- One more node is led if one of the others imports it. -/
theorem Led.append {node : α} {members : List α} (h : Led imports start members)
    (hnode : node = start ∨ ∃ importer ∈ members, Includes imports importer node) :
    Led imports start (members ++ [node]) := by
  intro before other after heq
  rcases List.eq_nil_or_concat after with rfl | ⟨front, last, rfl⟩
  · obtain ⟨rfl, hlast⟩ := List.append_inj' heq rfl
    obtain rfl : node = other := by simpa using hlast
    exact hnode
  · rw [List.concat_eq_append, ← List.cons_append, ← List.append_assoc] at heq
    obtain ⟨rfl, -⟩ := List.append_inj' heq rfl
    exact h before other front rfl

/-- A walk leads from importers to what they import. -/
theorem Walks.led {met todo members : List α} (h : Walks imports met todo members)
    (hmet : Led imports start met)
    (htodo : ∀ node ∈ todo, node = start ∨ ∃ importer ∈ met, Includes imports importer node) :
    Led imports start members := by
  induction h with
  | done met => exact hmet
  | pass _ _ ih => exact ih hmet (List.forall_mem_cons.1 htodo).2
  | @meet node targets met rest members himports _ _ ih =>
    obtain ⟨hnode, hrest⟩ := List.forall_mem_cons.1 htodo
    refine ih (hmet.append hnode) (List.forall_mem_append.2 ⟨fun target htarget => ?_, fun other hother => ?_⟩)
    · exact .inr ⟨node, by simp, targets, himports, htarget⟩
    · exact (hrest other hother).imp_right fun ⟨importer, hmem, himports⟩ =>
        ⟨importer, List.mem_append_left _ hmem, himports⟩

/-- Where every member is led by an importer, what is imported comes before its importers only if nothing is
imported: the first member has nothing before it. -/
theorem Led.importedFirst_iff {others : List α} (h : Led imports start (start :: others))
    (hnodup : (start :: others).Nodup) :
    ImportedFirst imports (start :: others) ↔ ∀ target, ¬ Includes imports start target := by
  obtain ⟨hstart, -⟩ := List.nodup_cons.1 hnodup
  constructor
  · intro hfirst target himports
    cases hfirst start List.mem_cons_self target himports with
    | cons _ hbehind => exact hstart (hbehind.subset (by simp))
    | cons_cons _ hbehind => exact hstart (hbehind.subset List.mem_cons_self)
  · intro hnone
    cases others with
    | nil =>
      intro importer himporter target himports
      rw [List.mem_singleton.1 himporter] at himports
      exact absurd himports (hnone target)
    | cons second rest =>
      rcases h [start] second rest rfl with rfl | ⟨importer, himporter, himports⟩
      · exact absurd List.mem_cons_self hstart
      · rw [List.mem_singleton.1 himporter] at himports
        exact absurd himports (hnone second)

/-- Whatever a walk meets but the node with which it begins comes after a node that imports it. -/
theorem Walks.led_start {members : List α} (h : Walks imports [] [start] members) : Led imports start members :=
  h.led (fun before node after heq => by cases before <;> cases heq) (List.forall_mem_singleton.2 (.inl rfl))

/-- In what a walk has met, what is imported comes before its importers only if the node with which the walk
begins imports nothing. -/
theorem Walks.importedFirst_iff {targets members : List α} (h : Walks imports [] [start] members)
    (hstart : imports start = some targets) : ImportedFirst imports members ↔ targets = [] := by
  have hled := h.led_start
  have hnodup := h.nodup List.nodup_nil
  obtain ⟨others, rfl⟩ := h.head? hstart
  rw [hled.importedFirst_iff hnodup]
  constructor
  · exact fun hnone => List.eq_nil_iff_forall_not_mem.2 fun target hmem => hnone target ⟨targets, hstart, hmem⟩
  · rintro rfl target ⟨targets', htargets', hmem⟩
    obtain rfl := Option.some.inj (hstart.symm.trans htargets')
    cases hmem

end

namespace AssetGraph

/-- The assets that an asset imports, in the order of its imports. -/
def targetsOf (graph : AssetGraph) (id : AssetId) : Option (List AssetId) :=
  (graph.get? id).map fun asset => asset.links.map Prod.snd

theorem targetsOf_of_get? {graph : AssetGraph} {id : AssetId} {asset : Asset} (h : graph.get? id = some asset) :
    graph.targetsOf id = some (asset.links.map Prod.snd) := by
  unfold targetsOf
  rw [h]
  rfl

theorem targetsOf_of_not_isLive {graph : AssetGraph} {id : AssetId} (h : ¬ graph.IsLive id) :
    graph.targetsOf id = none := by
  unfold targetsOf
  rw [Option.map_eq_none_iff, Option.eq_none_iff_forall_ne_some]
  exact fun asset hget => h ⟨asset, hget⟩

/-- Whether all assets that are reachable are of one kind, and none is to be imported later on. -/
structure Plain (graph : AssetGraph) (start : AssetId) (kind : Kind) : Prop where
  kind : ∀ {id : AssetId} {asset : Asset}, graph.Reaches start id → graph.get? id = some asset → asset.kind = kind
  static : ∀ {id : AssetId} {asset : Asset}, graph.Reaches start id → graph.get? id = some asset →
    ∀ link ∈ asset.links, link.1.dynamic = false

end AssetGraph

/-! ## One bundle -/

namespace BundleTree

/-- The tree of one bundle. -/
def lone (bundle : Bundle) : BundleTree :=
  ⟨[bundle], some ⟨0⟩⟩

theorem get?_lone (bundle : Bundle) : (lone bundle).get? ⟨0⟩ = some bundle := rfl

theorem walk_lone {bundle : Bundle} (h : bundle.children = []) : (lone bundle).walk = [⟨0⟩] := by
  have hroot : (lone bundle).root = some ⟨0⟩ := rfl
  have hchildren : (lone bundle).childrenOf ⟨0⟩ = [] := h
  unfold walk
  rw [hroot]
  dsimp only
  rw [subtree, hchildren]
  rfl

end BundleTree

namespace Layout

open BundleTree

/-- Whoever is reached again from the own bundle stays there. -/
theorem share_self (layout : Layout) (id : AssetId) (bundle : BundleId) :
    layout.share id bundle bundle = layout := by
  have hcommon : layout.tree.commonAncestor bundle bundle = bundle :=
    commonAncestor_of_mem_chain (mem_chain_self _ _)
  unfold share
  dsimp only
  rw [dif_neg fun hne => hne hcommon.symm]

/-- Whether all that was met so far is in one bundle, in this order. -/
structure Gathered (graph : AssetGraph) (bundle : Bundle) (met : List AssetId) (layout : Layout) : Prop where
  content : graph.SameContent layout.graph
  tree : layout.tree = lone { bundle with assets := met }
  home : ∀ id, layout.homeOf id = if id ∈ met then some ⟨0⟩ else none

namespace Gathered

variable {graph : AssetGraph} {bundle : Bundle} {met : List AssetId} {layout : Layout}

theorem arrive (h : Gathered graph bundle met layout) (visit : Visit) :
    Gathered graph bundle met (layout.arrive visit) where
  content := h.content.trans (sameContent_arrive layout visit)
  tree := (tree_arrive layout visit).trans h.tree
  home id := (homeOf_arrive layout visit id).trans (h.home id)

/-- An asset of the kind of the bundle becomes its last member. -/
theorem enter (h : Gathered graph bundle met layout) {id : AssetId} {current asset : Asset}
    (hcurrent : layout.graph.get? id = some current) (hnew : id ∉ met) (hkind : asset.kind = bundle.kind) :
    Gathered graph bundle (met ++ [id]) (layout.enter id asset ⟨0⟩) := by
  have hsibling : layout.tree.sibling ⟨0⟩ asset.kind = (⟨0⟩, layout.tree) := by
    have hown := sibling_own_kind (get?_lone { bundle with assets := met })
    rw [hkind, h.tree]
    exact hown
  refine ⟨h.content.trans (AssetGraph.sameContent_update _ id fun _ => rfl), ?_, fun other => ?_⟩
  · unfold Layout.enter
    rw [hsibling, h.tree]
    simp [lone, addMember, update, includeLast, hnew]
  · by_cases hother : other = id
    · subst hother
      rw [homeOf_enter_self hcurrent, if_pos (by simp)]
    · rw [homeOf_enter_of_ne hother, h.home]
      simp [hother]

/-- A visit to what was met already does nothing, and any other asset becomes the last member. -/
theorem visit {visit : Visit} (h : Gathered graph bundle met layout) (outDir : Path) (hinto : visit.into = some ⟨0⟩)
    (hstatic : visit.via.any Dependency.dynamic = false)
    (hkind : ∀ asset, graph.get? visit.asset = some asset → asset.kind = bundle.kind) :
    ((visit.asset ∈ met ∨ graph.targetsOf visit.asset = none) ∧ (layout.visit outDir visit).1 = [] ∧
      Gathered graph bundle met (layout.visit outDir visit).2) ∨
    ∃ asset, graph.get? visit.asset = some asset ∧ visit.asset ∉ met ∧
      (layout.visit outDir visit).1 = (asset.links.map fun link => ⟨link.2, some link.1, some ⟨0⟩⟩) ∧
      Gathered graph bundle (met ++ [visit.asset]) (layout.visit outDir visit).2 := by
  have hnowhere : ∀ {asset : Asset}, layout.graph.get? visit.asset = some asset →
      (asset.home = none ↔ visit.asset ∉ met) := by
    intro asset hget
    rw [← homeOf_of_get? hget, h.home]
    simp
  rcases visit_cases outDir visit layout with ⟨hnone, heq⟩ | ⟨asset, current, into, hget, hhome, hinto', heq⟩ |
    ⟨asset, current, -, -, hinto', -⟩ | ⟨asset, home, tree, hget, hhome, hbundle, heq⟩
  · rw [heq]
    refine .inl ⟨.inr (AssetGraph.targetsOf_of_not_isLive ?_), rfl, h⟩
    rw [← h.content.isLive_iff]
    rintro ⟨asset, hget⟩
    rw [hnone] at hget
    cases hget
  · -- it is a member, and its bundle is the only one
    have hmet : visit.asset ∈ met := by
      refine Decidable.byContradiction fun hnot => ?_
      rw [(hnowhere hget).2 hnot] at hhome
      cases hhome
    obtain rfl : (⟨0⟩ : BundleId) = into := Option.some.inj (hinto.symm.trans hinto')
    have hown : (⟨0⟩ : BundleId) = current := by
      have hcurrent := (homeOf_of_get? hget).trans hhome
      rw [h.home, if_pos hmet] at hcurrent
      exact Option.some.inj hcurrent
    subst hown
    rw [heq, share_self]
    exact .inl ⟨.inl hmet, rfl, h.arrive visit⟩
  · rw [hinto] at hinto'
    cases hinto'
  · obtain ⟨before, hbefore, hsame⟩ := h.content.symm.exists_get? hget
    have hin : bundleFor (layout.arrive visit).tree outDir visit asset =
        (⟨0⟩, (layout.arrive visit).tree) := by
      unfold bundleFor
      simp only [hinto, hstatic, Bool.false_eq_true, if_false]
    rw [hin] at hbundle
    obtain ⟨rfl, rfl⟩ := Prod.mk.inj hbundle
    have hnew := (hnowhere hget).1 hhome
    have hof : asset.kind = bundle.kind := (Asset.kind_of_withoutPlace hsame).symm.trans (hkind before hbefore)
    rw [heq]
    refine .inr ⟨before, hbefore, hnew, ?_, (h.arrive visit).enter (get?_arrive hget) hnew hof⟩
    rw [Asset.links_of_withoutPlace hsame]

end Gathered

/-- The members are the assets that have a place. -/
theorem Gathered.mem_iff {graph : AssetGraph} {bundle : Bundle} {met : List AssetId} {layout : Layout}
    (h : Gathered graph bundle met layout) (id : AssetId) : id ∈ met ↔ layout.IsPlaced id := by
  rw [isPlaced_iff_isSome, h.home]
  by_cases hmet : id ∈ met <;> simp [hmet]

/-- The only bundle of a build from an entry, without members. -/
def loneBundle (outDir : Path) (start : AssetId) (asset : Asset) : Bundle where
  kind := asset.kind
  name := outDir.child (asset.bundleName true)
  start := some start

/-- Where the search stands: what was met is in one bundle, the visits to come are for that bundle, and what
they lead to is what a walk from the entry leads to. -/
structure Gathering (graph : AssetGraph) (bundle : Bundle) (start : AssetId) (visits : List Visit)
    (met : List AssetId) (layout : Layout) : Prop where
  gathered : Gathered graph bundle met layout
  coming : ∀ visit ∈ visits, visit.into = some ⟨0⟩ ∧ visit.via.any Dependency.dynamic = false ∧
    (graph.IsLive visit.asset → graph.Reaches start visit.asset)
  walks : ∀ members, Walks graph.targetsOf met (visits.map Visit.asset) members →
    Walks graph.targetsOf [] [start] members

section

variable {graph : AssetGraph} {start : AssetId} {kind : Kind} (hplain : graph.Plain start kind)
include hplain

/-- What a reachable asset imports is to be visited for the same bundle. -/
theorem coming_of_links {id : AssetId} {asset : Asset} (hreach : graph.Reaches start id)
    (hget : graph.get? id = some asset) :
    ∀ visit ∈ asset.links.map fun link => (⟨link.2, some link.1, some ⟨0⟩⟩ : Visit),
      visit.into = some ⟨0⟩ ∧ visit.via.any Dependency.dynamic = false ∧
        (graph.IsLive visit.asset → graph.Reaches start visit.asset) := by
  intro visit hvisit
  obtain ⟨link, hlink, rfl⟩ := List.mem_map.1 hvisit
  exact ⟨rfl, hplain.static hreach hget link hlink, fun hlive => .step hreach ⟨hlive, asset, link.1, hget, hlink⟩⟩

/-- A visit keeps the search in one bundle. -/
theorem Gathering.visit (outDir : Path) {bundle : Bundle} (hkind : bundle.kind = kind) {visit : Visit}
    {rest : List Visit} {met : List AssetId} {layout : Layout}
    (h : Gathering graph bundle start (visit :: rest) met layout) :
    ∃ met', Gathering graph bundle start ((layout.visit outDir visit).1 ++ rest) met'
      (layout.visit outDir visit).2 := by
  obtain ⟨⟨hinto, hstatic, hreach⟩, hrest⟩ := List.forall_mem_cons.1 h.coming
  rcases h.gathered.visit outDir hinto hstatic fun asset hget =>
      (hplain.kind (hreach ⟨asset, hget⟩) hget).trans hkind.symm with
    ⟨hpass, hnone, hgathered⟩ | ⟨asset, hget, hnew, hnext, hgathered⟩
  · rw [hnone]
    exact ⟨met, hgathered, hrest, fun members hwalks => h.walks members (.pass hpass hwalks)⟩
  · rw [hnext]
    refine ⟨met ++ [visit.asset], hgathered, ?_, fun members hwalks =>
      h.walks members (.meet (AssetGraph.targetsOf_of_get? hget) hnew ?_)⟩
    · exact List.forall_mem_append.2 ⟨coming_of_links hplain (hreach ⟨asset, hget⟩) hget, hrest⟩
    · rw [List.map_append, List.map_map] at hwalks
      exact hwalks

/-- The first visit makes the bundle, with the entry as its first member. -/
theorem gathering_start (outDir : Path) {asset : Asset} (hget : graph.get? start = some asset) :
    Gathering graph (loneBundle outDir start asset) start
      (Layout.visit outDir (Visit.ofEntry start) ⟨graph.updateAll Asset.withoutPlace, .empty⟩).1 [start]
      (Layout.visit outDir (Visit.ofEntry start) ⟨graph.updateAll Asset.withoutPlace, .empty⟩).2 := by
  have hbefore : (graph.updateAll Asset.withoutPlace).get? start = some asset.withoutPlace := by
    rw [AssetGraph.get?_updateAll, hget]
    rfl
  have hvisit : Layout.visit outDir (Visit.ofEntry start) ⟨graph.updateAll Asset.withoutPlace, .empty⟩ =
      (asset.links.map fun link => ⟨link.2, some link.1, some ⟨0⟩⟩,
        Layout.enter ⟨graph.updateAll Asset.withoutPlace, lone (loneBundle outDir start asset)⟩ start
          asset.withoutPlace ⟨0⟩) := by
    unfold Layout.visit
    rw [show (Visit.ofEntry start).asset = start from rfl, hbefore]
    rfl
  have hnothing : Gathered graph (loneBundle outDir start asset) []
      ⟨graph.updateAll Asset.withoutPlace, lone (loneBundle outDir start asset)⟩ := by
    refine ⟨graph.sameContent_withoutPlace, rfl, fun id => ?_⟩
    rw [if_neg List.not_mem_nil, ← Option.not_isSome_iff_eq_none, ← isPlaced_iff_isSome]
    exact not_isPlaced_start graph id
  have hreach : graph.Reaches start start := .entry ⟨asset, hget⟩
  rw [hvisit]
  refine ⟨hnothing.enter hbefore List.not_mem_nil rfl, coming_of_links hplain hreach hget,
    fun members hwalks => .meet (AssetGraph.targetsOf_of_get? hget) List.not_mem_nil ?_⟩
  rw [List.append_nil]
  rw [List.map_map] at hwalks
  exact hwalks

end

/-- If all that can be reached from the entry is of its kind, and nothing is to be imported later on, then
there is one bundle, and its members are in the order of the walk. -/
theorem ofGraph_gathered {graph : AssetGraph} {start : AssetId} (outDir : Path) {asset : Asset}
    (hget : graph.get? start = some asset) (hplain : graph.Plain start asset.kind) :
    ∃ members, Walks graph.targetsOf [] [start] members ∧ Gathered graph (loneBundle outDir start asset) members
      (ofGraph (graph.updateAll Asset.withoutPlace) outDir start) := by
  obtain ⟨members, hend⟩ := @ofGraph_induction (graph.updateAll Asset.withoutPlace) outDir start
    (fun visits layout => ∃ met, Gathering graph (loneBundle outDir start asset) start visits met layout)
    ⟨[start], gathering_start hplain outDir hget⟩
    fun visit rest layout ⟨_, h⟩ => h.visit hplain outDir rfl
  exact ⟨members, hend.walks members (.done members), hend.gathered⟩

end Layout

/-! ## Packaging one bundle -/

/-- If no bundle was written before, the only bundle is, unless it is empty. -/
theorem Packaging.changed_plan_lone {bundle : Bundle} (hchildren : bundle.children = [])
    (hmembers : bundle.assets ≠ []) (graph : AssetGraph) :
    (plan (.lone bundle) graph none).changed = [snapshot graph bundle] := by
  have hempty : bundle.assets.isEmpty = false := by simpa using hmembers
  unfold plan
  rw [BundleTree.walk_lone hchildren, List.foldl_cons, List.foldl_nil]
  unfold planBundle
  rw [BundleTree.get?_lone]
  simp [hempty, isUnchanged]

theorem Report.bundles_lone {bundle : Bundle} (hchildren : bundle.children = []) (graph : AssetGraph)
    (packaged : List Path) :
    (ofTree (.lone bundle) graph packaged).bundles = [infoOf (.lone bundle) graph ⟨0⟩] := by
  unfold ofTree
  rw [BundleTree.walk_lone hchildren]
  rfl

end ModuleBundler
