import ModuleBundler.Proofs.Bundle.Reachability

/-!
# Which imports are loaded in time

An asset that is imported is to be loaded whenever its importer is, unless it is
imported on demand: its bundle is to be the importer's or to lie above it.  This
module follows the bundle in which an asset is placed first, its origin.  The
homes of an asset and of everything that it imports lie on the chain of its
origin, so that one of two such homes is above the other.

Main results:

- Theorem {lit}`Layout.Traced.visit`: a visit keeps homes above origins.
- Theorem {lit}`Layout.static_import_available_iff`: an import is loaded in time unless its importer was
  moved above it.
-/

namespace ModuleBundler
namespace AssetGraph

/-- Whether an asset imports another one other than on demand, and both are live. -/
def ImportsAtOnce (graph : AssetGraph) (id target : AssetId) : Prop :=
  graph.IsLive target ∧ ∃ asset dep, graph.get? id = some asset ∧ (dep, target) ∈ asset.links ∧
    dep.dynamic = false

/-- Whether all assets that are reachable from an entry have the same kind. -/
def OfKind (graph : AssetGraph) (start : AssetId) (kind : Kind) : Prop :=
  ∀ id asset, graph.Reaches start id → graph.get? id = some asset → asset.kind = kind

/-- Graphs with the same content have the same imports at once. -/
theorem SameContent.importsAtOnce {old new : AssetGraph} (h : old.SameContent new) {id target : AssetId}
    (himports : old.ImportsAtOnce id target) : new.ImportsAtOnce id target := by
  obtain ⟨hlive, asset, dep, hget, hlink, hdynamic⟩ := himports
  obtain ⟨asset', hget', hcontent⟩ := h.exists_get? hget
  exact ⟨(h.isLive_iff _).2 hlive, asset', dep, hget',
    by rw [Asset.links_of_withoutPlace hcontent]; exact hlink, hdynamic⟩

end AssetGraph

namespace Layout

open BundleTree

/-! ## Sharing among bundles of one kind -/

/-- Whether all primary bundles of a tree have the same kind. -/
def Uniform (tree : BundleTree) (kind : Kind) : Prop :=
  ∀ bundle, tree.IsPrimary bundle → tree.kindOf bundle = kind

/-- A tree of one kind stays so when no bundle becomes primary. -/
theorem Uniform.grow {old new : BundleTree} {kind : Kind} (h : Uniform old kind)
    (hgrows : old.Extends new) (hprimary : ∀ {bundle}, new.IsPrimary bundle → old.IsPrimary bundle) :
    Uniform new kind := by
  intro bundle hbundle
  have hbefore := hprimary hbundle
  rw [hgrows.kindOf_of_isPrimary hbefore, h bundle hbefore]

/-- Among bundles of one kind, sharing moves an asset to the common ancestor, and whoever moves with it
leaves none of its imports behind. -/
theorem share_moves {layout : Layout} (hsound : layout.Sound) {kind : Kind}
    (huniform : Uniform layout.tree kind) {id : AssetId} {into current : BundleId}
    (hinto : layout.tree.IsPrimary into) (hhome : layout.homeOf id = some current) :
    (layout.share id into current).homeOf id = some (layout.tree.commonAncestor into current) ∧
      ∀ other asset, layout.graph.get? other = some asset → asset.home = some current →
        (layout.share id into current).homeOf other ≠ some current →
          ∀ link ∈ asset.links, (layout.share id into current).homeOf link.2 ≠ some current := by
  have hcurrent := hsound.isPrimary_homeOf hhome
  have hcommon := isPrimary_commonAncestor hsound.tree hinto hcurrent
  rcases share_cases layout id into current with ⟨heq, hsame | hkind⟩ | ⟨hne, hkind, heq⟩
  · rw [heq]
    refine ⟨by rw [hhome, ← hsame], ?_⟩
    intro other asset hget hhome' hleft
    exact absurd ((homeOf_of_get? hget).trans hhome') hleft
  · exact absurd ((huniform _ hcurrent).trans (huniform _ hcommon).symm) hkind
  · rw [heq]
    have hlist := homeOf_hoist_ne hne [id] hsound hcurrent hcommon hkind
    refine ⟨?_, hoist_together hne [id] hsound hcurrent hcommon hkind⟩
    rcases (hoist_hoisted hne [id] hsound hcurrent hcommon hkind).homes id with hsame | ⟨-, hmoved⟩
    · exact absurd (hsame.trans hhome) (hlist id (List.mem_singleton_self id))
    · exact hmoved

/-! ## Origins -/

/-- What is known about an import at once: the target has a home above the origin of the importer, which it
has left only if the importer has left it too, or the visit to it is still to come and the importer has not
moved yet. -/
def Covered (visits : List Visit) (layout : Layout) (origin : BundleId) (id target : AssetId) : Prop :=
  (∃ home, layout.homeOf target = some home ∧ home ∈ layout.tree.chain origin ∧
    (home = origin → layout.homeOf id = some origin)) ∨
  (layout.homeOf id = some origin ∧ ∃ visit ∈ visits, visit.asset = target ∧
    visit.into = some origin ∧ visit.via.any Dependency.dynamic = false)

/-- Whether a later visit comes from the bundle of an earlier one or from above it. -/
def Nested (tree : BundleTree) (first second : Visit) : Prop :=
  ∀ inner outer, first.into = some inner → second.into = some outer → outer ∈ tree.chain inner

/-- Nested visits stay so while the tree grows. -/
theorem nested_grow {old new : BundleTree} (hwf : old.WellFormed) (hgrows : old.Extends new)
    {visits : List Visit}
    (hknown : ∀ next ∈ visits, ∃ bundle, next.into = some bundle ∧ old.IsPrimary bundle)
    (h : visits.Pairwise (Nested old)) : visits.Pairwise (Nested new) := by
  apply h.imp_of_mem
  intro first second hfirst _ hnested inner outer hinner houter
  obtain ⟨bundle, hbundle, hprimary⟩ := hknown first hfirst
  have hsame : inner = bundle := Option.some.inj (hinner.symm.trans hbundle)
  subst hsame
  rw [hgrows.chain_of_isPrimary hwf hprimary]
  exact hnested inner outer hinner houter

/-- A layout of bundles of one kind on the way: visits are nested, homes lie above origins, and imports at
once are covered. -/
structure Traced (graph : AssetGraph) (kind : Kind) (origin : AssetId → BundleId) (visits : List Visit)
    (layout : Layout) : Prop where
  uniform : Uniform layout.tree kind
  nested : visits.Pairwise (Nested layout.tree)
  above : ∀ {id : AssetId} {home : BundleId}, layout.homeOf id = some home →
    layout.tree.IsPrimary (origin id) ∧ home ∈ layout.tree.chain (origin id)
  covered : ∀ {id target : AssetId}, layout.IsPlaced id → graph.ImportsAtOnce id target →
    Covered visits layout (origin id) id target

/-- A noted import changes nothing that is traced. -/
theorem Traced.arrive {graph : AssetGraph} {kind : Kind} {origin : AssetId → BundleId}
    {visits : List Visit} {layout : Layout} (h : Traced graph kind origin visits layout) (visit : Visit) :
    Traced graph kind origin visits (layout.arrive visit) := by
  have htree := tree_arrive layout visit
  have hhome := homeOf_arrive layout visit
  refine ⟨by rw [htree]; exact h.uniform, by rw [htree]; exact h.nested, ?_, ?_⟩
  · intro id home hid
    rw [hhome] at hid
    rw [htree]
    exact h.above hid
  · intro id target hid himports
    have hcovered := h.covered ((isPlaced_arrive layout visit id).1 hid) himports
    unfold Covered at hcovered ⊢
    simpa only [hhome, htree] using hcovered

/-! ## A visit to an asset that is not live -/

/-- A visit that leads nowhere covers nothing. -/
theorem Traced.skip {graph : AssetGraph} {kind : Kind} {origin : AssetId → BundleId} {visit : Visit}
    {rest : List Visit} {layout : Layout} (h : Traced graph kind origin (visit :: rest) layout)
    (hdead : ¬ graph.IsLive visit.asset) : Traced graph kind origin rest layout := by
  refine ⟨h.uniform, (List.pairwise_cons.1 h.nested).2, h.above, ?_⟩
  intro id target hid himports
  rcases h.covered hid himports with hhere | ⟨hhome, coming, hmem, hasset, hcoming⟩
  · exact .inl hhere
  · rcases List.mem_cons.1 hmem with rfl | hrest
    · exact absurd (hasset ▸ himports.1) hdead
    · exact .inr ⟨hhome, coming, hrest, hasset, hcoming⟩

/-! ## A visit to an asset with a home -/

section Share

variable {graph : AssetGraph} {kind : Kind} {origin : AssetId → BundleId} {visit : Visit}
  {rest : List Visit} {layout : Layout} {into current : BundleId}

/-- An importer that still has visits to come is not moved by the visit before them, because that visit
comes from the importer's bundle or from below it. -/
theorem Traced.stays (h : Traced graph kind origin (visit :: rest) layout) (hsound : layout.Sound)
    (hinto : visit.into = some into) (hprimary : layout.tree.IsPrimary into)
    (hhome : layout.homeOf visit.asset = some current) {id : AssetId}
    (hid : layout.homeOf id = some (origin id)) {coming : Visit} (hmem : coming ∈ visit :: rest)
    (hcoming : coming.into = some (origin id)) :
    (layout.share visit.asset into current).homeOf id = some (origin id) := by
  have hbelow : origin id ∈ layout.tree.chain into := by
    rcases List.mem_cons.1 hmem with rfl | hrest
    · rw [hinto, Option.some.injEq] at hcoming
      rw [hcoming]
      exact mem_chain_self _ _
    · exact (List.pairwise_cons.1 h.nested).1 coming hrest into (origin id) hinto hcoming
  have hshared := share_hoisted hsound visit.asset hprimary (hsound.isPrimary_homeOf hhome)
  rcases hshared.homes id with heq | ⟨hcurrent, hcommon⟩
  · rw [heq, hid]
  · -- whoever would move stays, since its bundle is the common ancestor itself
    rw [hid, Option.some.injEq] at hcurrent
    rw [hcommon, ← hcurrent, commonAncestor_of_mem_chain hbelow]

/-- Sharing only moves assets up. -/
theorem share_above (hsound : layout.Sound) (id : AssetId) (hinto : layout.tree.IsPrimary into)
    (hcurrent : layout.tree.IsPrimary current) {other : AssetId} {home bottom : BundleId}
    (hother : layout.homeOf other = some home) (habove : home ∈ layout.tree.chain bottom) :
    ∃ home', (layout.share id into current).homeOf other = some home' ∧
      home' ∈ layout.tree.chain bottom := by
  have hcommon := (commonAncestor_above hsound.tree hinto hcurrent).2
  rcases (share_hoisted hsound id hinto hcurrent).homes other with heq | ⟨hold, hnew⟩
  · exact ⟨home, heq.trans hother, habove⟩
  · have hsame : home = current := Option.some.inj (hother.symm.trans hold)
    subst hsame
    exact ⟨_, hnew, mem_chain_trans habove hcommon⟩

/-- An importer does not move away from its origin while something that it imports at once stays there. -/
theorem Traced.remains (h : Traced graph kind origin (visit :: rest) layout) (hsound : layout.Sound)
    (hcontent : graph.SameContent layout.graph) (hprimary : layout.tree.IsPrimary into)
    (hhome : layout.homeOf visit.asset = some current) {id target : AssetId} {home : BundleId}
    (himports : graph.ImportsAtOnce id target) (htarget : layout.homeOf target = some home)
    (habove : home ∈ layout.tree.chain (origin id))
    (hleft : home = origin id → layout.homeOf id = some (origin id))
    (hend : (layout.share visit.asset into current).homeOf target = some (origin id)) :
    (layout.share visit.asset into current).homeOf id = some (origin id) := by
  have hcurrent := hsound.isPrimary_homeOf hhome
  have hshared := share_hoisted hsound visit.asset hprimary hcurrent
  have hcommon := (commonAncestor_above hsound.tree hprimary hcurrent).2
  -- a target that is at the origin in the end was there before
  have horigin : home = origin id := by
    rcases hshared.homes target with heq | ⟨hold, hnew⟩
    · rw [heq, htarget] at hend
      exact Option.some.inj hend
    · have hsame : home = current := Option.some.inj (htarget.symm.trans hold)
      have hback : layout.tree.commonAncestor into current = origin id :=
        Option.some.inj (hnew.symm.trans hend)
      rw [hback, ← hsame] at hcommon
      exact mem_chain_antisymm hcommon habove
  have hbefore := hleft horigin
  rcases hshared.homes id with heq | ⟨hold, hnew⟩
  · rw [heq, hbefore]
  · have hsame : current = origin id := Option.some.inj (hold.symm.trans hbefore)
    by_cases hstays : layout.tree.commonAncestor into current = current
    · rw [hnew, hstays, hsame]
    · -- an importer that moves takes along what it imports from its bundle
      have hgone : (layout.share visit.asset into current).homeOf id ≠ some current := by
        rw [hnew]
        exact fun heq => hstays (Option.some.inj heq)
      obtain ⟨-, asset, dep, hget, hlink, -⟩ := hcontent.importsAtOnce himports
      have hasset : asset.home = some current := (homeOf_of_get? hget).symm.trans hold
      have htogether := (share_moves hsound h.uniform hprimary hhome).2
      refine absurd ?_ (htogether id asset hget hasset hgone _ hlink)
      rw [hend, hsame]

/-- A visit to an asset with a home keeps imports at once covered. -/
theorem Traced.covered_share (h : Traced graph kind origin (visit :: rest) layout)
    (hsound : layout.Sound) (hcontent : graph.SameContent layout.graph)
    (hinto : visit.into = some into) (hprimary : layout.tree.IsPrimary into)
    (hhome : layout.homeOf visit.asset = some current) {id target : AssetId}
    (hplaced : layout.IsPlaced id) (himports : graph.ImportsAtOnce id target) :
    Covered rest (layout.share visit.asset into current) (origin id) id target := by
  have hcurrent := hsound.isPrimary_homeOf hhome
  have hshared := share_hoisted hsound visit.asset hprimary hcurrent
  have horigin : layout.tree.IsPrimary (origin id) := by
    obtain ⟨home, hid⟩ := hplaced
    exact (h.above hid).1
  have hchain := hshared.grows.chain_of_isPrimary hsound.tree horigin
  rcases h.covered hplaced himports with ⟨above, htarget, habove, hleft⟩ |
    ⟨hstill, coming, hmem, hasset, hcoming, hdynamic⟩
  · -- the target was above the origin before, and it can only have moved up
    obtain ⟨above', htarget', habove'⟩ :=
      share_above hsound visit.asset hprimary hcurrent htarget habove
    refine .inl ⟨above', htarget', by rw [hchain]; exact habove', fun hend => ?_⟩
    rw [hend] at htarget'
    exact h.remains hsound hcontent hprimary hhome himports htarget habove hleft htarget'
  · have hstays := h.stays hsound hinto hprimary hhome hstill hmem hcoming
    rcases List.mem_cons.1 hmem with rfl | hrest
    · -- this visit is the one that was to come
      have hcommon := (commonAncestor_above hsound.tree hprimary hcurrent).1
      have hsame : into = origin id := Option.some.inj (hinto.symm.trans hcoming)
      have htarget : (layout.share coming.asset into current).homeOf target =
          some (layout.tree.commonAncestor into current) := by
        rw [← hasset]
        exact (share_moves hsound h.uniform hprimary hhome).1
      refine .inl ⟨_, htarget, ?_, fun _ => hstays⟩
      rw [hchain, ← hsame]
      exact hcommon
    · exact .inr ⟨hstays, coming, hrest, hasset, hcoming, hdynamic⟩

/-- A visit to an asset with a home keeps homes above origins. -/
theorem Traced.share (h : Traced graph kind origin (visit :: rest) layout) (hsound : layout.Sound)
    (hknown : ∀ next ∈ rest, ∃ bundle, next.into = some bundle ∧ layout.tree.IsPrimary bundle)
    (hcontent : graph.SameContent layout.graph) (hinto : visit.into = some into)
    (hprimary : layout.tree.IsPrimary into) (hhome : layout.homeOf visit.asset = some current) :
    Traced graph kind origin rest (layout.share visit.asset into current) := by
  have hcurrent := hsound.isPrimary_homeOf hhome
  have hshared := share_hoisted hsound visit.asset hprimary hcurrent
  refine ⟨h.uniform.grow hshared.grows hshared.primary, ?_, ?_, ?_⟩
  · exact nested_grow hsound.tree hshared.grows hknown (List.pairwise_cons.1 h.nested).2
  · intro id home hid
    obtain ⟨before, hbefore⟩ := (hshared.isPlaced_iff id).1 ⟨home, hid⟩
    obtain ⟨horigin, habove⟩ := h.above hbefore
    obtain ⟨home', hhome', habove'⟩ :=
      share_above hsound visit.asset hprimary hcurrent hbefore habove
    have hsame : home' = home := Option.some.inj (hhome'.symm.trans hid)
    refine ⟨hshared.grows.isPrimary horigin, ?_⟩
    rw [hshared.grows.chain_of_isPrimary hsound.tree horigin, ← hsame]
    exact habove'
  · intro id target hplaced himports
    have hplaced' := (hshared.isPlaced_iff id).1 hplaced
    exact h.covered_share hsound hcontent hinto hprimary hhome hplaced' himports

end Share

/-! ## A visit to an asset without a home -/

section Enter

variable {graph : AssetGraph} {kind : Kind} {origin : AssetId → BundleId} {visit : Visit}
  {rest : List Visit} {layout entered : Layout} {asset : Asset} {bundle : BundleId}

/-- The visits to what a new asset imports come from the bundle of the asset, and so from below the ones
that were to come before. -/
theorem Traced.nested_enter (h : Traced graph kind origin (visit :: rest) layout)
    (hsound : layout.Sound) (hfits : visit.Fits layout.tree)
    (hknown : ∀ next ∈ rest, ∃ bundle, next.into = some bundle ∧ layout.tree.IsPrimary bundle)
    (henters : Enters visit kind bundle layout entered) (links : List (Dependency × AssetId)) :
    ((links.map fun link => (⟨link.2, some link.1, some bundle⟩ : Visit)) ++ rest).Pairwise
      (Nested entered.tree) := by
  have hfollows := List.pairwise_cons.1 h.nested
  rw [List.pairwise_append]
  refine ⟨?_, nested_grow hsound.tree henters.grows hknown hfollows.2, ?_⟩
  · refine List.pairwise_map.2 (List.pairwise_of_forall fun _ _ inner outer hinner houter => ?_)
    have hsame : inner = outer := Option.some.inj (hinner.symm.trans houter)
    rw [hsame]
    exact mem_chain_self _ _
  · intro first hfirst second hsecond inner outer hinner houter
    obtain ⟨link, -, rfl⟩ := List.mem_map.1 hfirst
    have hsame : bundle = inner := Option.some.inj hinner
    subst hsame
    obtain ⟨known, hknown', hprimary⟩ := hknown second hsecond
    cases hinto : visit.into with
    | none =>
      -- before the first visit there are no bundles
      rw [hfits.root hinto] at hprimary
      exact absurd hprimary (not_isPrimary_empty known)
    | some into =>
      have hchain := henters.grows.chain_of_isPrimary hsound.tree (hfits.into hinto)
      have habove : outer ∈ entered.tree.chain into := by
        rw [hchain]
        exact hfollows.1 second hsecond into outer hinto houter
      exact mem_chain_trans (henters.below hinto) habove

/-- An import at once of an asset that had a home stays covered by a first visit. -/
theorem Traced.covered_enter (h : Traced graph kind origin (visit :: rest) layout)
    (hsound : layout.Sound) (henters : Enters visit kind bundle layout entered)
    {id target : AssetId} (hplaced : layout.IsPlaced id) (himports : graph.ImportsAtOnce id target)
    (more : List Visit) : Covered (more ++ rest) entered (origin id) id target := by
  have horigin : layout.tree.IsPrimary (origin id) := by
    obtain ⟨home, hid⟩ := hplaced
    exact (h.above hid).1
  have hchain := henters.grows.chain_of_isPrimary hsound.tree horigin
  rcases h.covered hplaced himports with ⟨above, htarget, habove, hleft⟩ |
    ⟨hstill, coming, hmem, hasset, hcoming, hdynamic⟩
  · refine .inl ⟨above, (henters.keeps htarget).2, by rw [hchain]; exact habove, fun hsame => ?_⟩
    exact (henters.keeps (hleft hsame)).2
  · have hstays := (henters.keeps hstill).2
    rcases List.mem_cons.1 hmem with rfl | hrest
    · -- the import is placed in the bundle of this importer
      have hbundle := henters.atOnce hcoming hdynamic
      have htarget : entered.homeOf target = some bundle := by
        rw [← hasset]
        exact henters.home
      refine .inl ⟨bundle, htarget, ?_, fun _ => hstays⟩
      rw [hbundle]
      exact mem_chain_self _ _
    · exact .inr ⟨hstays, coming, List.mem_append_right _ hrest, hasset, hcoming, hdynamic⟩

/-- A visit to an asset without a home keeps homes above origins; the origin of the asset is the bundle in
which it is placed. -/
theorem Traced.enter (h : Traced graph kind origin (visit :: rest) layout) (hsound : layout.Sound)
    (hfits : visit.Fits layout.tree)
    (hknown : ∀ next ∈ rest, ∃ bundle, next.into = some bundle ∧ layout.tree.IsPrimary bundle)
    (hcontent : graph.SameContent layout.graph)
    (hget : layout.graph.get? visit.asset = some asset)
    (henters : Enters visit kind bundle layout entered) :
    Traced graph kind (fun id => if id = visit.asset then bundle else origin id)
      ((asset.links.map fun link => ⟨link.2, some link.1, some bundle⟩) ++ rest) entered := by
  refine ⟨?_, h.nested_enter hsound hfits hknown henters _, ?_, ?_⟩
  · intro other hother
    rcases henters.made hother with hold | ⟨value, hvalue, hkind, -⟩
    · rw [henters.grows.kindOf_of_isPrimary hold, h.uniform other hold]
    · rw [kindOf_of_get? hvalue, hkind]
  · intro id home hid
    by_cases hne : id = visit.asset
    · subst hne
      have hsame : bundle = home := Option.some.inj (henters.home.symm.trans hid)
      simp only [if_true, ← hsame]
      exact ⟨henters.primary, mem_chain_self _ _⟩
    · rw [henters.others hne] at hid
      obtain ⟨horigin, habove⟩ := h.above hid
      simp only [if_neg hne]
      refine ⟨henters.grows.isPrimary horigin, ?_⟩
      rw [henters.grows.chain_of_isPrimary hsound.tree horigin]
      exact habove
  · intro id target hplaced himports
    by_cases hne : id = visit.asset
    · -- the visits to what the asset imports are all to come
      subst hne
      obtain ⟨-, found, dep, hfound, hlink, hdynamic⟩ := hcontent.importsAtOnce himports
      have hsame : asset = found := Option.some.inj (hget.symm.trans hfound)
      rw [← hsame] at hlink
      simp only [if_true]
      exact .inr ⟨henters.home, _, List.mem_append_left _ (List.mem_map_of_mem hlink), rfl, rfl,
        hdynamic⟩
    · have hplaced' : layout.IsPlaced id := by
        obtain ⟨home, hid⟩ := hplaced
        exact ⟨home, (henters.others hne).symm.trans hid⟩
      simp only [if_neg hne]
      exact h.covered_enter hsound henters hplaced' himports _

end Enter

/-! ## All visits -/

/-- A visit keeps homes above origins. -/
theorem Traced.visit {graph : AssetGraph} {start : AssetId} {kind : Kind} (hof : graph.OfKind start kind)
    {origin : AssetId → BundleId} (outDir : Path) {visit : Visit} {rest : List Visit} {layout : Layout}
    (h : Traced graph kind origin (visit :: rest) layout) (hsound : layout.Sound)
    (hfits : visit.Fits layout.tree)
    (hknown : ∀ next ∈ rest, ∃ bundle, next.into = some bundle ∧ layout.tree.IsPrimary bundle)
    (hexplored : Explored graph start (visit :: rest) layout) :
    ∃ origin', Traced graph kind origin' ((layout.visit outDir visit).1 ++ rest)
      (layout.visit outDir visit).2 := by
  have harrived := h.arrive visit
  have hsound' := hsound.arrive visit
  have hcontent := hexplored.content.trans (sameContent_arrive layout visit)
  have htree := tree_arrive layout visit
  rcases visit_cases outDir visit layout with ⟨hnone, heq⟩ | ⟨asset, current, into, hget, hhome, hinto, heq⟩ |
    ⟨asset, current, hget, hhome, hinto, heq⟩ | ⟨asset, bundle, tree, hget, hhome, hbundle, heq⟩
  · rw [heq]
    refine ⟨origin, h.skip ?_⟩
    rintro hlive
    obtain ⟨asset, hget⟩ := (hexplored.content.isLive_iff _).2 hlive
    rw [hnone] at hget
    cases hget
  · rw [heq]
    refine ⟨origin, harrived.share hsound' (by rw [htree]; exact hknown) hcontent hinto
      (by rw [htree]; exact hfits.into hinto) ?_⟩
    rw [homeOf_arrive, homeOf_of_get? hget, hhome]
  · -- an asset with a home means that the tree is not empty any more
    have hprimary := hsound.primary hget hhome
    rw [hfits.root hinto] at hprimary
    exact absurd hprimary (not_isPrimary_empty current)
  · rw [heq]
    obtain ⟨before, hbefore, hsame⟩ := hexplored.content.symm.exists_get? hget
    have hreach := hexplored.coming List.mem_cons_self ⟨before, hbefore⟩
    have hkind : asset.kind = kind := by
      rw [← Asset.kind_of_withoutPlace hsame]
      exact hof _ _ hreach hbefore
    rw [htree] at hbundle
    have henters := enter_enters hsound hfits hget hhome hbundle
    rw [hkind] at henters
    exact ⟨_, h.enter hsound hfits hknown hexplored.content hget henters⟩

/-- Before the first visit there is nothing to trace. -/
theorem traced_start (graph reference : AssetGraph) (kind : Kind) (start : AssetId)
    (origin : AssetId → BundleId) :
    Traced reference kind origin [Visit.ofEntry start]
      ⟨graph.updateAll Asset.withoutPlace, .empty⟩ := by
  refine ⟨?_, List.pairwise_singleton _ _, ?_, fun hid => absurd hid (not_isPlaced_start graph _)⟩
  · exact fun bundle hprimary => absurd hprimary (not_isPrimary_empty bundle)
  · exact fun hid => absurd ⟨_, hid⟩ (not_isPlaced_start graph _)

/-- Homes lie above origins in a finished layout of assets of one kind. -/
theorem ofGraph_traced {graph : AssetGraph} {start : AssetId} {kind : Kind}
    (hof : graph.OfKind start kind) (outDir : Path) :
    ∃ origin, Traced (graph.updateAll Asset.withoutPlace) kind origin []
      (ofGraph (graph.updateAll Asset.withoutPlace) outDir start) := by
  have hof' : (graph.updateAll Asset.withoutPlace).OfKind start kind := by
    intro id asset hreach hget
    obtain ⟨before, hbefore, hsame⟩ := graph.sameContent_withoutPlace.symm.exists_get? hget
    rw [← Asset.kind_of_withoutPlace hsame]
    exact hof id before (graph.sameContent_withoutPlace.symm.reaches hreach) hbefore
  have htraced := traced_start graph (graph.updateAll Asset.withoutPlace) kind start fun _ => ⟨0⟩
  have hend := @ofGraph_visits graph outDir start
    (fun visits layout => Explored (graph.updateAll Asset.withoutPlace) start visits layout ∧
      ∃ origin, Traced (graph.updateAll Asset.withoutPlace) kind origin visits layout)
    ⟨explored_start graph start, _, htraced⟩
    fun _ _ _ hsound hfits hknown ⟨hexplored, _, htraced⟩ =>
      ⟨hexplored.visit outDir hsound hfits, htraced.visit hof' outDir hsound hfits hknown hexplored⟩
  exact hend.2

/-! ## Imports that are loaded in time -/

/-- Whether an asset is loaded whenever another one is: its bundle is that one's or lies above it. -/
def LoadedWith (layout : Layout) (target importer : AssetId) : Prop :=
  ∃ above home, layout.homeOf target = some above ∧ layout.homeOf importer = some home ∧
    above ∈ layout.tree.chain home

/-- Whether an importer has been moved past one of its imports: its bundle lies strictly above that of the
import, which in turn lies strictly above some bundle on demand. -/
def Overtakes (layout : Layout) (importer target : AssetId) : Prop :=
  ∃ home between below, layout.homeOf importer = some home ∧ layout.homeOf target = some between ∧
    home ∈ layout.tree.chain between ∧ home ≠ between ∧
    between ∈ layout.tree.chain below ∧ between ≠ below ∧ layout.tree.IsPrimary below

/-- The homes of an importer and of an import at once lie above one bundle, which is the home of the import
only if it is the home of the importer. -/
theorem exists_origin {graph : AssetGraph} {start : AssetId} {kind : Kind}
    (hof : graph.OfKind start kind) (outDir : Path) {importer target : AssetId}
    (hreach : graph.Reaches start importer) (himports : graph.ImportsAtOnce importer target) :
    ∃ home above origin,
      (ofGraph (graph.updateAll Asset.withoutPlace) outDir start).homeOf importer = some home ∧
      (ofGraph (graph.updateAll Asset.withoutPlace) outDir start).homeOf target = some above ∧
      (ofGraph (graph.updateAll Asset.withoutPlace) outDir start).tree.IsPrimary origin ∧
      home ∈ (ofGraph (graph.updateAll Asset.withoutPlace) outDir start).tree.chain origin ∧
      above ∈ (ofGraph (graph.updateAll Asset.withoutPlace) outDir start).tree.chain origin ∧
      (above = origin → home = origin) := by
  obtain ⟨origin, htraced⟩ := ofGraph_traced hof outDir
  have hcontent := graph.sameContent_withoutPlace
  have hplaced := ((ofGraph_explored graph outDir start).isPlaced_iff importer).2
    (hcontent.reaches hreach)
  obtain ⟨home, hhome⟩ := id hplaced
  obtain ⟨horigin, habove⟩ := htraced.above hhome
  rcases htraced.covered hplaced (hcontent.importsAtOnce himports) with ⟨above, htarget, hmem, hleft⟩ |
    ⟨-, coming, hmem, -⟩
  · refine ⟨home, above, origin importer, hhome, htarget, horigin, habove, hmem, fun hsame => ?_⟩
    have hstays := hleft hsame
    rw [hhome, Option.some.injEq] at hstays
    exact hstays
  · cases hmem

/-- Among assets of one kind, an import at once is loaded whenever its importer is, except when the
importer was moved past it. -/
theorem static_import_available_iff {graph : AssetGraph} {start : AssetId} {kind : Kind}
    (hof : graph.OfKind start kind) (outDir : Path) {importer target : AssetId}
    (hreach : graph.Reaches start importer) (himports : graph.ImportsAtOnce importer target) :
    (ofGraph (graph.updateAll Asset.withoutPlace) outDir start).LoadedWith target importer ↔
      ¬ (ofGraph (graph.updateAll Asset.withoutPlace) outDir start).Overtakes importer target := by
  obtain ⟨home, above, origin, hhome, htarget, hprimary, hchain, htargetChain, hsame⟩ :=
    exists_origin hof outDir hreach himports
  constructor
  · rintro ⟨above', home', htarget', hhome', hmem⟩ ⟨home'', between, -, hhome'', hbetween, hover, hne, -⟩
    rw [htarget] at htarget' hbetween
    rw [hhome] at hhome' hhome''
    cases htarget'
    cases hbetween
    cases hhome'
    cases hhome''
    exact hne (mem_chain_antisymm hmem hover)
  · intro hnot
    refine ⟨above, home, htarget, hhome, ?_⟩
    -- of the two homes one lies above the other, and it can only be that of the import
    rcases mem_chain_total htargetChain hchain with hmem | hmem
    · exact hmem
    · by_cases heq : home = above
      · rw [heq]
        exact mem_chain_self _ _
      · have hinner : above ≠ origin := fun h => heq ((hsame h).trans h.symm)
        exact absurd ⟨home, above, origin, hhome, htarget, hmem, heq, htargetChain, hinner, hprimary⟩ hnot

/-! ## Sharing one asset -/

/-- A visit to an asset with a home. -/
theorem visit_of_homeOf (outDir : Path) {visit : Visit} {layout : Layout} {current into : BundleId}
    (hhome : layout.homeOf visit.asset = some current) (hinto : visit.into = some into) :
    layout.visit outDir visit = ([], (layout.arrive visit).share visit.asset into current) := by
  obtain ⟨asset, hget, hcurrent⟩ := exists_get?_of_homeOf hhome
  simp only [Layout.visit, hget, hcurrent, hinto]

/-- Sharing an asset of a bundle of the right kind. -/
theorem share_of_ne {layout : Layout} (id : AssetId) {into current common : BundleId}
    (hcommon : layout.tree.commonAncestor into current = common) (hne : current ≠ common)
    (hkind : layout.tree.kindOf current = layout.tree.kindOf common) :
    layout.share id into current = hoist current common hne [id] layout := by
  subst hcommon
  simp only [share, hne, hkind, ne_eq, not_false_eq_true, dite_true, if_true]

/-! ## An importer that is moved past its import -/

/-- An asset of a small graph: its number and its imports, each with whether it is dynamic. -/
def sampleAsset (number : Nat) (imports : List (String × Bool × Nat)) : Asset :=
  imports.foldl
    (fun asset (specifier, dynamic, target) =>
      (asset.connect specifier ⟨target⟩).declare { specifier, dynamic })
    { id := ⟨number⟩, identity := ⟨"/"⟩, kind := .js, package := {} }

/-- Two pages; the first one imports an asset and has a tab.  The tab and the second page share an asset
that imports the first page's. -/
def pagesAndTab : AssetGraph where
  slots :=
    [some (sampleAsset 0 [("page", true, 1), ("other", true, 3)]),
     some (sampleAsset 1 [("base", false, 5), ("tab", true, 2)]),
     some (sampleAsset 2 [("shared", false, 4)]),
     some (sampleAsset 3 [("shared", false, 4)]),
     some (sampleAsset 4 [("base", false, 5)]),
     some (sampleAsset 5 [])]

/-- The last visit to the graph. -/
def lastVisit : Visit :=
  ⟨⟨4⟩, some { specifier := "shared" }, some ⟨3⟩⟩

/-- The state before the last visit. -/
def beforeLast : List Visit × Layout :=
  steps (Layout.visit ⟨"/"⟩) 7
    ([Visit.ofEntry ⟨0⟩], ⟨pagesAndTab.updateAll Asset.withoutPlace, .empty⟩)

theorem visits_beforeLast : beforeLast.1 = [lastVisit] := by
  decide +kernel

/-- The last visit moves the shared asset up to the main bundle. -/
theorem ofGraph_pagesAndTab :
    ofGraph (pagesAndTab.updateAll Asset.withoutPlace) ⟨"/"⟩ ⟨0⟩ =
      (steps (Layout.follow ⟨2⟩ ⟨0⟩) 3 ([⟨4⟩], beforeLast.2.arrive lastVisit)).2 := by
  have hvisit := @visit_of_homeOf ⟨"/"⟩ lastVisit beforeLast.2 ⟨2⟩ ⟨3⟩ (by decide +kernel) rfl
  have hshare := @share_of_ne (beforeLast.2.arrive lastVisit) ⟨4⟩ ⟨3⟩ ⟨2⟩ ⟨0⟩ (by decide +kernel)
    (by decide) (by decide +kernel)
  have hends : (steps (Layout.follow ⟨2⟩ ⟨0⟩) 3 ([⟨4⟩], beforeLast.2.arrive lastVisit)).1 = [] := by
    decide +kernel
  have hfirst := place_steps ⟨"/"⟩ 7
    ([Visit.ofEntry ⟨0⟩], ⟨pagesAndTab.updateAll Asset.withoutPlace, .empty⟩)
  have hmove := @hoist_steps ⟨2⟩ ⟨0⟩ (by decide) 3 ([⟨4⟩], beforeLast.2.arrive lastVisit)
  unfold ofGraph
  apply hfirst.trans
  change place _ beforeLast.1 beforeLast.2 = _
  rw [visits_beforeLast, place, hvisit, List.append_nil, place]
  change (beforeLast.2.arrive lastVisit).share ⟨4⟩ ⟨3⟩ ⟨2⟩ = _
  rw [hshare, hmove, hends, hoist]

theorem ofKind_pagesAndTab : pagesAndTab.OfKind ⟨0⟩ .js := by
  intro id asset _ hget
  have hall : ∀ slot ∈ pagesAndTab.slots, ∀ asset ∈ slot, asset.kind = Kind.js := by decide
  exact hall _ (List.mem_of_getElem? (Option.join_eq_some_iff.1 hget)) asset rfl

theorem reaches_pagesAndTab : pagesAndTab.Reaches ⟨0⟩ ⟨4⟩ := by
  have hpage : pagesAndTab.Imports ⟨0⟩ ⟨3⟩ :=
    ⟨⟨_, rfl⟩, _, { specifier := "other", dynamic := true }, rfl, by decide⟩
  have hshared : pagesAndTab.Imports ⟨3⟩ ⟨4⟩ :=
    ⟨⟨_, rfl⟩, _, { specifier := "shared" }, rfl, by decide⟩
  exact .step (.step (.entry ⟨_, rfl⟩) hpage) hshared

theorem importsAtOnce_pagesAndTab : pagesAndTab.ImportsAtOnce ⟨4⟩ ⟨5⟩ :=
  ⟨⟨_, rfl⟩, _, { specifier := "base" }, rfl, by decide, rfl⟩

/-- The shared asset is loaded without what it imports. -/
theorem import_of_pagesAndTab_left_behind :
    pagesAndTab.OfKind ⟨0⟩ .js ∧ pagesAndTab.Reaches ⟨0⟩ ⟨4⟩ ∧ pagesAndTab.ImportsAtOnce ⟨4⟩ ⟨5⟩ ∧
      ¬ (ofGraph (pagesAndTab.updateAll Asset.withoutPlace) ⟨"/"⟩ ⟨0⟩).LoadedWith ⟨5⟩ ⟨4⟩ := by
  refine ⟨ofKind_pagesAndTab, reaches_pagesAndTab, importsAtOnce_pagesAndTab, ?_⟩
  rw [ofGraph_pagesAndTab]
  generalize hlast : (steps (Layout.follow ⟨2⟩ ⟨0⟩) 3 ([⟨4⟩], beforeLast.2.arrive lastVisit)).2 = last
  have htarget : last.homeOf ⟨5⟩ = some ⟨1⟩ := by
    rw [← hlast]
    decide +kernel
  have himporter : last.homeOf ⟨4⟩ = some ⟨0⟩ := by
    rw [← hlast]
    decide +kernel
  rintro ⟨above, home, habove, hhome, hmem⟩
  rw [htarget, Option.some.injEq] at habove
  rw [himporter, Option.some.injEq] at hhome
  subst habove hhome
  have hle := index_le_of_mem_chain hmem
  simp at hle

/-- The condition for that import. -/
theorem available_iff_pagesAndTab :
    pagesAndTab.OfKind ⟨0⟩ .js ∧ pagesAndTab.Reaches ⟨0⟩ ⟨4⟩ ∧ pagesAndTab.ImportsAtOnce ⟨4⟩ ⟨5⟩ ∧
      ((ofGraph (pagesAndTab.updateAll Asset.withoutPlace) ⟨"/"⟩ ⟨0⟩).LoadedWith ⟨5⟩ ⟨4⟩ ↔
        ¬ (ofGraph (pagesAndTab.updateAll Asset.withoutPlace) ⟨"/"⟩ ⟨0⟩).Overtakes ⟨4⟩ ⟨5⟩) :=
  ⟨ofKind_pagesAndTab, reaches_pagesAndTab, importsAtOnce_pagesAndTab,
    static_import_available_iff ofKind_pagesAndTab ⟨"/"⟩ reaches_pagesAndTab importsAtOnce_pagesAndTab⟩

end Layout
end ModuleBundler
