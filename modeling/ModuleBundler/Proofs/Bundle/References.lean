import ModuleBundler.Bundle.Packagers
import ModuleBundler.Proofs.Bundle.Reachability

/-!
# The imports that lead to an asset

A layout notes with every asset the imports that have led to it.  The search follows
each import of each asset that it places exactly once, whether the imported asset has a
place already or not, and moving assets up follows no import again.  So in the end the
imports that are noted with an asset are those of all reachable assets, each as often as
it is declared.

The packager of stylesheets reads what is noted there.  It writes an asset under media
queries just if something imports the asset and every import is under one, and it names
those queries.

Main results:

- Theorem {lit}`Layout.Counted.visit`: every visit follows the one import that it was made for.
- Theorem {lit}`Packaging.isStyled_renderStyled`: what is written for an asset follows from what is noted with it.
- Theorem {lit}`Layout.ofGraph_references`: in a finished layout every import is noted once, and stylesheets
  are written accordingly.
-/

namespace ModuleBundler

/-! ## Imports between two assets -/

/-- The imports that lead to an asset. -/
def Asset.importsTo (asset : Asset) (target : AssetId) : List Dependency :=
  (asset.links.filter fun link => link.2 = target).map (·.1)

namespace AssetGraph

/-- The imports of one asset that lead to another. -/
def importsOf (graph : AssetGraph) (target id : AssetId) : List Dependency :=
  ((graph.get? id).map fun asset => asset.importsTo target).getD []

/-- The imports of several assets that lead to one. -/
def importsFrom (graph : AssetGraph) (sources : List AssetId) (target : AssetId) : List Dependency :=
  sources.flatMap (graph.importsOf target)

theorem importsOf_of_sameContent {old new : AssetGraph} (h : old.SameContent new) {id : AssetId} {asset : Asset}
    (hget : new.get? id = some asset) (target : AssetId) : old.importsOf target id = asset.importsTo target := by
  obtain ⟨before, hbefore, hsame⟩ := h.symm.exists_get? hget
  unfold importsOf Asset.importsTo
  rw [hbefore, Option.map_some, Option.getD_some, Asset.links_of_withoutPlace hsame]

/-- The imports that are noted with an asset. -/
def incomingOf (graph : AssetGraph) (id : AssetId) : List Dependency :=
  ((graph.get? id).map Asset.incoming).getD []

theorem incomingOf_of_get? {graph : AssetGraph} {id : AssetId} {asset : Asset}
    (h : graph.get? id = some asset) : graph.incomingOf id = asset.incoming := by
  unfold incomingOf
  rw [h, Option.map_some, Option.getD_some]

/-- What changes no notes leaves them. -/
theorem incomingOf_update {graph : AssetGraph} {id other : AssetId} {change : Asset → Asset}
    (h : ∀ asset, (change asset).incoming = asset.incoming) :
    (graph.update id change).incomingOf other = graph.incomingOf other := by
  unfold incomingOf
  by_cases hother : other = id
  · subst hother
    rw [get?_update_self]
    cases graph.get? other with
    | none => rfl
    | some asset => simp [h]
  · rw [get?_update_of_ne hother]

end AssetGraph

namespace Layout

/-! ## Notes -/

/-- An arrival notes the import that it comes by. -/
theorem incomingOf_arrive {layout : Layout} {visit : Visit} (hlive : layout.graph.IsLive visit.asset)
    (target : AssetId) : (layout.arrive visit).graph.incomingOf target =
      layout.graph.incomingOf target ++ if visit.asset = target then visit.via.toList else [] := by
  obtain ⟨asset, hget⟩ := hlive
  by_cases htarget : visit.asset = target
  · subst htarget
    rw [if_pos rfl, AssetGraph.incomingOf_of_get? (get?_arrive hget), AssetGraph.incomingOf_of_get? hget]
  · rw [if_neg htarget, List.append_nil]
    unfold arrive
    split
    · rfl
    · unfold AssetGraph.incomingOf
      rw [AssetGraph.get?_update_of_ne (Ne.symm htarget)]

/-- Moving assets notes nothing. -/
theorem incomingOf_relocate (layout : Layout) (asset : Asset) (common : BundleId) (id target : AssetId) :
    (layout.relocate asset common id).graph.incomingOf target = layout.graph.incomingOf target :=
  AssetGraph.incomingOf_update fun _ => rfl

theorem incomingOf_hoist {old common : BundleId} (hne : old ≠ common) (ids : List AssetId) (layout : Layout)
    (target : AssetId) :
    (hoist old common hne ids layout).graph.incomingOf target = layout.graph.incomingOf target := by
  fun_induction hoist old common hne ids layout with
  | case1 layout => rfl
  | case2 id rest layout ih =>
    rw [ih]
    rcases follow_cases old common id layout with ⟨-, heq⟩ | ⟨asset, -, -, heq⟩
    · rw [heq]
    · rw [heq, incomingOf_relocate]

theorem incomingOf_share (layout : Layout) (id : AssetId) (into current : BundleId) (target : AssetId) :
    (layout.share id into current).graph.incomingOf target = layout.graph.incomingOf target := by
  rcases share_cases layout id into current with ⟨heq, -⟩ | ⟨hne, -, heq⟩
  · rw [heq]
  · rw [heq, incomingOf_hoist]

theorem incomingOf_enter (layout : Layout) (id : AssetId) (asset : Asset) (bundle : BundleId)
    (target : AssetId) :
    (layout.enter id asset bundle).graph.incomingOf target = layout.graph.incomingOf target :=
  AssetGraph.incomingOf_update fun _ => rfl

/-! ## Imports that are still to be followed -/

/-- The imports by which an asset is still to be visited. -/
def pendingTo (target : AssetId) (visits : List Visit) : List Dependency :=
  visits.flatMap fun visit => if visit.asset = target then visit.via.toList else []

theorem pendingTo_cons (target : AssetId) (visit : Visit) (rest : List Visit) :
    pendingTo target (visit :: rest) =
      (if visit.asset = target then visit.via.toList else []) ++ pendingTo target rest :=
  List.flatMap_cons

/-- Whoever has been placed follows its imports. -/
theorem pendingTo_links (target : AssetId) (asset : Asset) (bundle : BundleId) (rest : List Visit) :
    pendingTo target ((asset.links.map fun link => ⟨link.2, some link.1, some bundle⟩) ++ rest) =
      asset.importsTo target ++ pendingTo target rest := by
  unfold pendingTo Asset.importsTo
  rw [List.flatMap_append]
  congr 1
  induction asset.links with
  | nil => rfl
  | cons link more ih =>
    rw [List.map_cons, List.flatMap_cons, ih, List.filter_cons]
    by_cases htarget : link.2 = target <;> simp [htarget]

/-! ## The count -/

/-- Whether each import of the assets that have a place is noted with the asset that it leads to, or is still
to be followed.  {lit}`sources` are the assets with a place. -/
structure Counted (graph : AssetGraph) (sources : List AssetId) (visits : List Visit) (layout : Layout) :
    Prop where
  content : graph.SameContent layout.graph
  once : sources.Nodup
  placed : ∀ {id : AssetId}, id ∈ sources ↔ layout.IsPlaced id
  balance : ∀ {target : AssetId}, layout.graph.IsLive target →
    (layout.graph.incomingOf target ++ pendingTo target visits).Perm (graph.importsFrom sources target)

/-- Every visit follows the one import that it was made for. -/
theorem Counted.visit {graph : AssetGraph} {sources : List AssetId} (outDir : Path) {visit : Visit}
    {rest : List Visit} {layout : Layout} (h : Counted graph sources (visit :: rest) layout)
    (hsound : layout.Sound) (hfits : visit.Fits layout.tree) :
    ∃ sources', Counted graph sources' ((layout.visit outDir visit).1 ++ rest)
      (layout.visit outDir visit).2 := by
  have hcontent := sameContent_visit outDir visit layout
  have hplaced := isPlaced_visit outDir hsound hfits
  have hlive : ∀ {target : AssetId}, (layout.visit outDir visit).2.graph.IsLive target →
      layout.graph.IsLive target := fun htarget => (hcontent.isLive_iff _).1 htarget
  -- a visit to an asset that has a place follows one import and adds none
  have hagain : ∀ {current : BundleId}, layout.homeOf visit.asset = some current →
      (layout.visit outDir visit).1 = [] →
        (∀ target, (layout.visit outDir visit).2.graph.incomingOf target =
          (layout.arrive visit).graph.incomingOf target) →
            Counted graph sources ((layout.visit outDir visit).1 ++ rest) (layout.visit outDir visit).2 := by
    intro current hhome hnext hincoming
    have hfound : layout.IsPlaced visit.asset := ⟨current, hhome⟩
    refine ⟨h.content.trans hcontent, h.once, fun {id} => ?_, fun {target} htarget => ?_⟩
    · rw [h.placed, hplaced]
      exact ⟨.inl, fun hid => hid.elim (fun hid => hid) fun hid => hid.1 ▸ hfound⟩
    · have hbalance := h.balance (hlive htarget)
      rw [pendingTo_cons, ← List.append_assoc, ← incomingOf_arrive hfound.isLive] at hbalance
      rw [hnext, List.nil_append, hincoming]
      exact hbalance
  rcases visit_cases outDir visit layout with ⟨hnone, heq⟩ | ⟨asset, current, into, hget, hhome, -, heq⟩ |
    ⟨asset, current, hget, hhome, -, heq⟩ | ⟨asset, bundle, tree, hget, hhome, -, heq⟩
  · refine ⟨sources, ?_⟩
    rw [heq]
    refine ⟨h.content, h.once, h.placed, fun {target} htarget => ?_⟩
    have hne : visit.asset ≠ target := by
      rintro rfl
      obtain ⟨asset, hget⟩ := htarget
      rw [hnone] at hget
      cases hget
    have hbalance := h.balance htarget
    rw [pendingTo_cons, if_neg hne] at hbalance
    exact hbalance
  · refine ⟨sources, hagain ((homeOf_of_get? hget).trans hhome) (by rw [heq]) fun target => ?_⟩
    rw [heq, incomingOf_share]
  · refine ⟨sources, hagain ((homeOf_of_get? hget).trans hhome) (by rw [heq]) fun target => ?_⟩
    rw [heq]
  · have hnowhere : ¬ layout.IsPlaced visit.asset := by
      rintro ⟨home, hfound⟩
      rw [homeOf_of_get? hget, hhome] at hfound
      cases hfound
    have hfound : layout.graph.IsLive visit.asset := ⟨asset, hget⟩
    refine ⟨visit.asset :: sources, h.content.trans hcontent,
      List.nodup_cons.2 ⟨fun hmem => hnowhere (h.placed.1 hmem), h.once⟩, fun {id} => ?_,
      fun {target} htarget => ?_⟩
    · rw [hplaced, List.mem_cons, h.placed, or_comm]
      exact or_congr_right ⟨fun hid => ⟨hid, hid ▸ hfound⟩, And.left⟩
    · have hbalance := h.balance (hlive htarget)
      rw [pendingTo_cons, ← List.append_assoc, ← incomingOf_arrive hfound] at hbalance
      have himports : graph.importsFrom (visit.asset :: sources) target =
          asset.importsTo target ++ graph.importsFrom sources target := by
        unfold AssetGraph.importsFrom
        rw [List.flatMap_cons, AssetGraph.importsOf_of_sameContent h.content hget]
      rw [himports, heq, incomingOf_enter, pendingTo_links]
      exact (List.perm_append_comm_assoc _ _ _).trans (hbalance.append_left _)

/-- Before the first visit nothing is noted and nothing has a place. -/
theorem counted_start (graph : AssetGraph) (start : AssetId) :
    Counted graph [] [Visit.ofEntry start] ⟨graph.updateAll Asset.withoutPlace, .empty⟩ := by
  refine ⟨graph.sameContent_withoutPlace, List.nodup_nil, fun {id} => ?_, fun {target} _ => ?_⟩
  · exact ⟨fun hmem => absurd hmem List.not_mem_nil, fun hid => absurd hid (not_isPlaced_start graph id)⟩
  · have hnone : (graph.updateAll Asset.withoutPlace).incomingOf target = [] := by
      unfold AssetGraph.incomingOf
      rw [AssetGraph.get?_updateAll]
      cases graph.get? target <;> rfl
    have hpending : pendingTo target [Visit.ofEntry start] = [] := by
      simp [pendingTo, Visit.ofEntry]
    rw [hnone, hpending]
    exact .refl _

/-- In a finished layout every import of the assets that have a place is noted. -/
theorem ofGraph_counted (graph : AssetGraph) (outDir : Path) (start : AssetId) :
    ∃ sources, Counted graph sources [] (ofGraph (graph.updateAll Asset.withoutPlace) outDir start) :=
  @ofGraph_visits graph outDir start (fun visits layout => ∃ sources, Counted graph sources visits layout)
    ⟨[], counted_start graph start⟩
    fun _ _ _ hsound hfits _ ⟨_, h⟩ => h.visit outDir hsound hfits

end Layout

/-! ## Stylesheets under media queries -/

namespace Packaging

/-- A stylesheet under media queries. -/
def underMedia (queries : List String) (content : String) : String :=
  "@media " ++ ", ".intercalate queries ++ " \x7b\n" ++ Text.trimString content ++ "\n\x7d\n"

theorem renderStyled_eq (asset : PackagedAsset) : renderStyled asset =
    match mediaQueries asset with
    | some queries => underMedia queries asset.content
    | none => asset.content := rfl

/-- A text that begins with an at sign and ends with a brace and a line break loses that line break only. -/
theorem trim_block (inner : List Char) :
    Text.trim ('@' :: inner ++ ['\x7d', '\n']) = '@' :: inner ++ ['\x7d'] := by
  have hat : Text.isBlank '@' = false := by decide
  have hbrace : Text.isBlank '\x7d' = false := by decide
  have hbreak : Text.isBlank '\n' = true := by decide
  simp [Text.trim, Text.trimStart, Text.trimEnd, hat, hbrace, hbreak]

/-- No stylesheet is the same as itself under media queries. -/
theorem underMedia_ne (queries : List String) (content : String) : content ≠ underMedia queries content := by
  intro heq
  have hlist : content.toList = '@' :: ("media ".toList ++ (", ".intercalate queries).toList ++ " \x7b\n".toList ++
      Text.trim content.toList ++ ['\n']) ++ ['\x7d', '\n'] := by
    conv => lhs; rw [heq]
    simp [underMedia, Text.trimString]
  have htrim := trim_block ("media ".toList ++ (", ".intercalate queries).toList ++ " \x7b\n".toList ++
    Text.trim content.toList ++ ['\n'])
  rw [← hlist] at htrim
  have hlength := congrArg List.length htrim
  simp only [List.length_append, List.length_cons] at hlength
  omega

/-- How a stylesheet is written that is imported by {lit}`imports`. -/
structure IsStyled (imports : List Dependency) (content text : String) : Prop where
  /-- It is put under media queries just if it is imported and each import has one. -/
  wrapped_iff : (∃ queries, text = underMedia queries content) ↔
    imports ≠ [] ∧ ∀ dep ∈ imports, dep.media ≠ none
  /-- The queries are those of the imports, each as often as it occurs. -/
  queries : imports ≠ [] → (∀ dep ∈ imports, dep.media ≠ none) →
    ∃ queries, (queries.map some).Perm (imports.map Dependency.media) ∧ text = underMedia queries content
  plain : ¬ (imports ≠ [] ∧ ∀ dep ∈ imports, dep.media ≠ none) → text = content

theorem mapM_eq_some_iff {α β : Type} {f : α → Option β} {as : List α} {bs : List β} :
    as.mapM f = some bs ↔ as.map f = bs.map some := by
  induction as generalizing bs with
  | nil => cases bs <;> simp
  | cons a rest ih =>
    rw [List.mapM_cons, List.map_cons]
    cases hhead : f a with
    | none => cases bs <;> simp
    | some b =>
      cases bs with
      | nil =>
        cases hrest : rest.mapM f <;> simp
      | cons c more =>
        simp only [Option.bind_eq_bind, Option.bind_some, Option.pure_def, Option.bind_eq_some_iff,
          Option.some.injEq, List.cons.injEq, List.map_cons]
        constructor
        · rintro ⟨tail, htail, rfl, rfl⟩
          exact ⟨rfl, ih.1 htail⟩
        · rintro ⟨rfl, htail⟩
          exact ⟨more, ih.2 htail, rfl, rfl⟩

/-- An asset has media queries just if it is imported and each import has one. -/
theorem mediaQueries_eq_some_iff {asset : PackagedAsset} {queries : List String} :
    mediaQueries asset = some queries ↔
      asset.incoming ≠ [] ∧ asset.incoming.map Dependency.media = queries.map some := by
  unfold mediaQueries
  split
  · rename_i hempty
    simp [List.isEmpty_iff.1 hempty]
  · rename_i hempty
    rw [mapM_eq_some_iff]
    exact (and_iff_right (by simpa using hempty)).symm

theorem exists_mediaQueries_iff {asset : PackagedAsset} :
    (∃ queries, mediaQueries asset = some queries) ↔
      asset.incoming ≠ [] ∧ ∀ dep ∈ asset.incoming, dep.media ≠ none := by
  constructor
  · rintro ⟨queries, h⟩
    obtain ⟨hne, hmedia⟩ := mediaQueries_eq_some_iff.1 h
    refine ⟨hne, fun dep hdep hnone => ?_⟩
    have hmem : none ∈ queries.map some := hmedia ▸ hnone ▸ List.mem_map_of_mem hdep
    simp at hmem
  · rintro ⟨hne, hall⟩
    refine ⟨asset.incoming.filterMap Dependency.media, mediaQueries_eq_some_iff.2 ⟨hne, ?_⟩⟩
    generalize asset.incoming = imports at hall
    induction imports with
    | nil => rfl
    | cons dep rest ih =>
      obtain ⟨hdep, hrest⟩ := List.forall_mem_cons.1 hall
      obtain ⟨media, hmedia⟩ := Option.ne_none_iff_exists'.1 hdep
      rw [List.filterMap_cons_some hmedia, List.map_cons, List.map_cons, hmedia, ih hrest]

/-- What is written for a member of a bundle of the given kind. -/
def styleOf (graph : AssetGraph) (kind : Kind) (id : AssetId) : String :=
  ((graph.get? id).map fun asset => renderStyled (copyOf kind asset)).getD ""

theorem styleOf_of_get? {graph : AssetGraph} {id : AssetId} {asset : Asset} (h : graph.get? id = some asset)
    (kind : Kind) : styleOf graph kind id = renderStyled (copyOf kind asset) := by
  unfold styleOf
  rw [h, Option.map_some, Option.getD_some]

/-- A bundle whose members are all live is written member by member. -/
theorem render_snapshot {graph : AssetGraph} {bundle : Bundle}
    (h : ∀ id ∈ bundle.assets, ∃ asset, graph.get? id = some asset) :
    Packager.stylesheet.render (snapshot graph bundle) =
      "\n".intercalate (bundle.assets.map (styleOf graph bundle.kind)) := by
  have hmembers : ((bundle.assets.filterMap graph.get?).map (copyOf bundle.kind)).map renderStyled =
      bundle.assets.map (styleOf graph bundle.kind) := by
    generalize bundle.assets = ids at h
    induction ids with
    | nil => rfl
    | cons id rest ih =>
      obtain ⟨⟨asset, hget⟩, hrest⟩ := List.forall_mem_cons.1 h
      rw [List.filterMap_cons_some hget, List.map_cons, List.map_cons, List.map_cons, ih hrest,
        styleOf_of_get? hget]
  rw [← hmembers]
  rfl

/-- What is written for an asset follows from what is noted with it, in whatever order. -/
theorem isStyled_renderStyled {asset : PackagedAsset} {imports : List Dependency}
    (h : asset.incoming.Perm imports) : IsStyled imports asset.content (renderStyled asset) := by
  have hcondition : imports ≠ [] ∧ (∀ dep ∈ imports, dep.media ≠ none) ↔
      ∃ queries, mediaQueries asset = some queries := by
    rw [exists_mediaQueries_iff]
    exact and_congr (not_congr ⟨fun hnil => (hnil ▸ h).eq_nil, fun hnil => (hnil ▸ h.symm).eq_nil⟩)
      ⟨fun hall dep hdep => hall dep (h.mem_iff.1 hdep), fun hall dep hdep => hall dep (h.mem_iff.2 hdep)⟩
  have hrender := renderStyled_eq asset
  cases hqueries : mediaQueries asset with
  | some queries =>
    rw [hqueries] at hrender
    have hholds := hcondition.2 ⟨queries, hqueries⟩
    refine ⟨iff_of_true ⟨queries, hrender⟩ hholds, fun _ _ => ⟨queries, ?_, hrender⟩, fun hnot => absurd hholds hnot⟩
    rw [← (mediaQueries_eq_some_iff.1 hqueries).2]
    exact h.map _
  | none =>
    rw [hqueries] at hrender hcondition
    have hfails := mt hcondition.1 (by simp)
    refine ⟨iff_of_false ?_ hfails, fun hne hall => absurd ⟨hne, hall⟩ hfails, fun _ => hrender⟩
    rintro ⟨queries, hwrapped⟩
    exact underMedia_ne queries _ (hrender.symm.trans hwrapped)

end Packaging

namespace Layout

open BundleTree Packaging

/-- In a finished layout every asset with a place has noted the imports of all reachable assets that lead to it,
each once, and every stylesheet is written accordingly. -/
theorem ofGraph_references (graph : AssetGraph) (outDir : Path) (start : AssetId) :
    ∃ sources : List AssetId, sources.Nodup ∧ (∀ id, id ∈ sources ↔ graph.Reaches start id) ∧
      (∀ {target : AssetId} {asset : Asset},
        (ofGraph (graph.updateAll Asset.withoutPlace) outDir start).graph.get? target = some asset →
          asset.home ≠ none → asset.incoming.Perm (graph.importsFrom sources target)) ∧
      ∀ {id : BundleId} {bundle : Bundle},
        (ofGraph (graph.updateAll Asset.withoutPlace) outDir start).tree.get? id = some bundle →
          ∃ text : AssetId → String,
            Packager.stylesheet.render
                (snapshot (ofGraph (graph.updateAll Asset.withoutPlace) outDir start).graph bundle) =
              "\n".intercalate (bundle.assets.map text) ∧
            ∀ target ∈ bundle.assets, ∃ asset,
              (ofGraph (graph.updateAll Asset.withoutPlace) outDir start).graph.get? target = some asset ∧
                asset.home ≠ none ∧
                  IsStyled (graph.importsFrom sources target) (copyOf bundle.kind asset).content
                    (text target) := by
  obtain ⟨sources, hcounted⟩ := ofGraph_counted graph outDir start
  have hexplored := ofGraph_explored graph outDir start
  have harranges := ofGraph_arranges graph outDir start
  have hcontent := graph.sameContent_withoutPlace
  generalize ofGraph (graph.updateAll Asset.withoutPlace) outDir start = layout at hcounted hexplored harranges ⊢
  have hincoming : ∀ {target : AssetId} {asset : Asset}, layout.graph.get? target = some asset →
      asset.incoming.Perm (graph.importsFrom sources target) := by
    intro target asset hget
    have hbalance := hcounted.balance ⟨asset, hget⟩
    rw [AssetGraph.incomingOf_of_get? hget] at hbalance
    simpa [pendingTo] using hbalance
  refine ⟨sources, hcounted.once, fun id => ?_, fun hget _ => hincoming hget, fun {id bundle} hbundle => ?_⟩
  · rw [hcounted.placed, hexplored.isPlaced_iff]
    exact ⟨hcontent.symm.reaches, hcontent.reaches⟩
  · have hmembers : ∀ target ∈ bundle.assets, ∃ asset, layout.graph.get? target = some asset ∧
        asset.home ≠ none := by
      intro target hmem
      rw [← membersOf_of_get? hbundle, harranges.members] at hmem
      obtain ⟨asset, hget, hbundles⟩ := hmem
      refine ⟨asset, hget, fun hnone => ?_⟩
      rw [harranges.nowhere hget hnone] at hbundles
      cases hbundles
    refine ⟨styleOf layout.graph bundle.kind, ?_, fun target hmem => ?_⟩
    · exact render_snapshot fun target hmem => (hmembers target hmem).imp fun _ hfound => hfound.1
    · obtain ⟨asset, hget, hhome⟩ := hmembers target hmem
      refine ⟨asset, hget, hhome, ?_⟩
      rw [styleOf_of_get? hget]
      exact isStyled_renderStyled (hincoming hget)

end Layout
end ModuleBundler
