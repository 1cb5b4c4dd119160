import ModuleBundler.Bundle.Report
import ModuleBundler.Proofs.Bundle.Matching

/-!
# Reports about matching layouts

A report names assets by their identities, so that layouts which differ only in
the ids of assets lead to the same report.  Placements form a table; the ids of
the assets decide only about its order.

Main results:

- Theorem {lit}`Layout.ofGraph_started`: the asset that a bundle was made for belongs to some bundle.
- Theorem {lit}`Layout.Matches.bundles_eq`: matching layouts have the same bundles in their reports.
- Theorem {lit}`Layout.Matches.placements_perm`: matching layouts have the same placements.
-/

namespace ModuleBundler

namespace BundleTree

/-- A tree that grows without new primary bundles has no new starts. -/
theorem start_of_grow {old new : BundleTree} (hgrows : old.Extends new)
    (hprimary : ∀ {bundle}, new.IsPrimary bundle → old.IsPrimary bundle) {bundle : BundleId}
    {value : Bundle} {id : AssetId} (hget : new.get? bundle = some value) (hstart : value.start = some id) :
    ∃ before, old.get? bundle = some before ∧ before.start = some id := by
  obtain ⟨before, hbefore, -⟩ := hprimary ⟨value, hget, by rw [hstart]; rfl⟩
  obtain ⟨value', hvalue', hcontinues⟩ := hgrows hbefore
  rw [hget, Option.some.injEq] at hvalue'
  exact ⟨before, hbefore, by rw [← hcontinues.start, ← hvalue', hstart]⟩

end BundleTree

namespace Layout

open BundleTree

/-! ## Starts -/

/-- Whether the assets that the bundles were made for have places. -/
def Started (layout : Layout) : Prop :=
  ∀ bundle value id, layout.tree.get? bundle = some value → value.start = some id → layout.IsPlaced id

/-- A visit keeps the starts of bundles in places. -/
theorem Started.visit (outDir : Path) {visit : Visit} {layout : Layout} (h : layout.Started)
    (hsound : layout.Sound) (hfits : visit.Fits layout.tree) :
    (layout.visit outDir visit).2.Started := by
  have hplaced := isPlaced_visit outDir hsound hfits
  rcases visit_spec outDir hsound hfits with ⟨-, heq⟩ | ⟨current, common, -, -, hmoved⟩ |
    ⟨asset, bundle, -, -, henters⟩
  · rw [heq]
    exact h
  · intro other value id hother hstart
    obtain ⟨before, hbefore, hstart'⟩ := start_of_grow hmoved.grows hmoved.primary hother hstart
    exact (hplaced id).2 (.inl (h other before id hbefore hstart'))
  · intro other value id hother hstart
    rcases henters.made ⟨value, hother, by rw [hstart]; rfl⟩ with ⟨before, hbefore, -⟩ |
      ⟨value', hvalue', -, hfor⟩
    · obtain ⟨value', hvalue', hcontinues⟩ := henters.grows hbefore
      have hsame : value = value' := Option.some.inj (hother.symm.trans hvalue')
      refine (hplaced id).2 (.inl (h other before id hbefore ?_))
      rw [← hcontinues.start, ← hsame, hstart]
    · -- the bundle was made for the asset that was visited
      have hsame : value = value' := Option.some.inj (hother.symm.trans hvalue')
      have hid : id = visit.asset := by
        rw [← hsame, hstart] at hfor
        exact Option.some.inj hfor
      rw [hid]
      exact ⟨bundle, henters.home⟩

/-- Before the first visit there are no bundles. -/
theorem started_start (graph : AssetGraph) : Started ⟨graph.updateAll Asset.withoutPlace, .empty⟩ := by
  intro bundle value id hget
  rw [get?_empty] at hget
  cases hget

/-- The asset that a bundle was made for belongs to some bundle. -/
theorem ofGraph_started (graph : AssetGraph) (outDir : Path) (start : AssetId) :
    (ofGraph (graph.updateAll Asset.withoutPlace) outDir start).Started :=
  @ofGraph_visits graph outDir start (fun _ layout => layout.Started) (started_start graph)
    fun _ _ _ hsound hfits _ h => h.visit outDir hsound hfits

/-! ## What a report is about -/

/-- A report calls a bundle by its name. -/
theorem name_infoOf (tree : BundleTree) (graph : AssetGraph) (id : BundleId) :
    (Report.infoOf tree graph id).name = tree.nameOf id := by
  unfold Report.infoOf BundleTree.nameOf
  cases tree.get? id <;> rfl

/-- Whether a graph has kept exactly the assets of a layout that have a place. -/
structure Retains (layout : Layout) (graph : AssetGraph) : Prop where
  kept : ∀ {id : AssetId}, layout.IsPlaced id → graph.get? id = layout.graph.get? id
  placed : ∀ {id : AssetId} {asset : Asset}, graph.get? id = some asset → layout.IsPlaced id

/-- The members of bundles have places. -/
theorem Sound.isPlaced_of_mem {layout : Layout} (h : layout.Sound) {bundle : BundleId} {value : Bundle}
    (hget : layout.tree.get? bundle = some value) {id : AssetId} (hmem : id ∈ value.assets) :
    layout.IsPlaced id := by
  rw [← membersOf_of_get? hget] at hmem
  obtain ⟨asset, hasset, hin⟩ := h.mirror.1 hmem
  cases hhome : asset.home with
  | none =>
    rw [h.unplaced hasset hhome] at hin
    cases hin
  | some home => exact ⟨home, (homeOf_of_get? hasset).trans hhome⟩

/-- Matching lists yield the same where matching entries do. -/
theorem filterMap_forall₂ {α β γ : Type} {R : α → β → Prop} {as : List α} {bs : List β}
    (h : List.Forall₂ R as bs) {f : α → Option γ} {g : β → Option γ}
    (hsame : ∀ a ∈ as, ∀ b, R a b → g b = f a) : bs.filterMap g = as.filterMap f := by
  induction h with
  | nil => rfl
  | cons hab _ ih =>
    rw [List.filterMap_cons, List.filterMap_cons, hsame _ List.mem_cons_self _ hab,
      ih fun a hmem => hsame a (List.mem_cons_of_mem _ hmem)]

theorem map_forall₂ {α β γ : Type} {R : α → β → Prop} {as : List α} {bs : List β}
    (h : List.Forall₂ R as bs) {f : α → γ} {g : β → γ} (hsame : ∀ a ∈ as, ∀ b, R a b → g b = f a) :
    bs.map g = as.map f := by
  rw [← List.filterMap_eq_map, ← List.filterMap_eq_map]
  exact filterMap_forall₂ h fun a hmem b hab => congrArg some (hsame a hmem b hab)

/-- Whether a graph has an asset in a bundle, by names. -/
theorem mem_placementsOf {tree : BundleTree} {graph : AssetGraph} (hindexed : graph.Indexed)
    {identity name : Path} : (identity, name) ∈ Report.placementsOf tree graph ↔
      ∃ id asset home, graph.get? id = some asset ∧ asset.home = some home ∧
        identity = asset.identity ∧ name = tree.nameOf home := by
  unfold Report.placementsOf
  rw [List.mem_filterMap]
  constructor
  · rintro ⟨asset, hlive, hplace⟩
    obtain ⟨home, hhome, heq⟩ := Option.map_eq_some_iff.1 hplace
    cases heq
    exact ⟨asset.id, asset, home, (AssetGraph.mem_live_iff hindexed).1 hlive, hhome, rfl, rfl⟩
  · rintro ⟨id, asset, home, hget, hhome, rfl, rfl⟩
    refine ⟨asset, hindexed.mem_live hget, ?_⟩
    rw [hhome]
    rfl

/-- No asset is placed twice. -/
theorem nodup_placementsOf (tree : BundleTree) {graph : AssetGraph} (hindexed : graph.Indexed) :
    (Report.placementsOf tree graph).Nodup := by
  unfold Report.placementsOf List.Nodup
  rw [List.pairwise_filterMap]
  refine (AssetGraph.pairwise_live hindexed).imp ?_
  intro a b hne place hplace place' hplace' heq
  obtain ⟨home, -, rfl⟩ := Option.map_eq_some_iff.1 hplace
  obtain ⟨home', -, rfl⟩ := Option.map_eq_some_iff.1 hplace'
  exact hne (congrArg Prod.fst heq)

namespace Matches

variable {ρ : AssetId → AssetId → Prop} {a b : Layout}

theorem isPlaced_iff (h : Matches ρ a b) {x y : AssetId} (hxy : ρ x y) :
    b.IsPlaced y ↔ a.IsPlaced x := by
  unfold IsPlaced
  rw [h.homeOf hxy]

section Reports

variable {graphA graphB : AssetGraph}

/-- Corresponding assets with places are kept alike. -/
theorem get?_retained (h : Matches ρ a b) (ha : a.Retains graphA) (hb : b.Retains graphB) {x y : AssetId}
    (hxy : ρ x y) (hplaced : a.IsPlaced x) :
    ∃ v w, graphA.get? x = some v ∧ graphB.get? y = some w ∧ a.graph.get? x = some v ∧
      Asset.Matches ρ v w := by
  have hget := h.graph x y hxy
  rw [ha.kept hplaced, hb.kept ((h.isPlaced_iff hxy).2 hplaced)]
  obtain ⟨v, hv⟩ := hplaced.isLive
  rw [hv] at hget ⊢
  generalize b.graph.get? y = found at hget ⊢
  cases hget with
  | some hvw => exact ⟨v, _, rfl, rfl, rfl, hvw⟩

theorem identityOf_eq (h : Matches ρ a b) (ha : a.Retains graphA) (hb : b.Retains graphB)
    {x y : AssetId} (hxy : ρ x y) (hplaced : a.IsPlaced x) :
    Report.identityOf graphB y = Report.identityOf graphA x := by
  obtain ⟨v, w, hv, hw, -, hvw⟩ := h.get?_retained ha hb hxy hplaced
  simp [Report.identityOf, hv, hw, hvw.identity]

variable (hsound : a.Sound) (hstarted : a.Started)
include hsound hstarted

/-- Matching layouts say the same about a bundle. -/
theorem infoOf_eq (h : Matches ρ a b) (ha : a.Retains graphA) (hb : b.Retains graphB) (id : BundleId) :
    Report.infoOf b.tree graphB id = Report.infoOf a.tree graphA id := by
  have hget := h.tree.get? id
  have hname : b.tree.nameOf = a.tree.nameOf := funext h.tree.nameOf
  have hmembers : ∀ value, a.tree.get? id = some value → ∀ x ∈ value.assets, a.IsPlaced x :=
    fun value hvalue x hmem => hsound.isPlaced_of_mem hvalue hmem
  have hstart := hstarted id
  unfold Report.infoOf BundleTree.fingerprint BundleTree.fingerprintText
  rw [hname]
  generalize a.tree.get? id = v, b.tree.get? id = w at hget hmembers hstart
  cases hget with
  | none => rfl
  | @some v w hvw =>
    have hmembers := hmembers v rfl
    have hidentities : w.assets.filterMap (Report.identityOf graphB) =
        v.assets.filterMap (Report.identityOf graphA) :=
      filterMap_forall₂ hvw.assets fun x hmem y hxy => h.identityOf_eq ha hb hxy (hmembers x hmem)
    have hhashes : (w.assets.map fun asset => ((graphB.get? asset).bind Asset.hash).getD "") =
        v.assets.map fun asset => ((graphA.get? asset).bind Asset.hash).getD "" := by
      refine map_forall₂ hvw.assets fun x hmem y hxy => ?_
      obtain ⟨p, q, hp, hq, -, hpq⟩ := h.get?_retained ha hb hxy (hmembers x hmem)
      rw [hp, hq, Option.bind_some, Option.bind_some, hpq.hash]
    have hstarts : w.start.bind (Report.identityOf graphB) = v.start.bind (Report.identityOf graphA) := by
      have hrel := hvw.start
      have hplaced : ∀ x, v.start = some x → a.IsPlaced x := fun x hx => hstart v x rfl hx
      generalize v.start = p, w.start = q at hrel hplaced
      cases hrel with
      | none => rfl
      | some hxy => exact h.identityOf_eq ha hb hxy (hplaced _ rfl)
    simp only [Option.getD_some, hvw.name, hvw.kind, hvw.parent, hvw.children, hidentities, hhashes,
      hstarts]

/-- Matching layouts have the same bundles in their reports. -/
theorem bundles_eq (h : Matches ρ a b) (ha : a.Retains graphA) (hb : b.Retains graphB)
    (packaged packaged' : List Path) :
    (Report.ofTree b.tree graphB packaged').bundles = (Report.ofTree a.tree graphA packaged).bundles := by
  unfold Report.ofTree
  dsimp only
  rw [h.tree.walk]
  exact List.map_congr_left fun id _ => h.infoOf_eq hsound hstarted ha hb id

omit hsound hstarted in
/-- Matching layouts have the same placements, provided that every asset with a place corresponds to one. -/
theorem placements_perm (h : Matches ρ a b) (ha : a.Retains graphA) (hb : b.Retains graphB)
    (hindexedA : graphA.Indexed) (hindexedB : graphB.Indexed)
    (hleft : ∀ x, a.IsPlaced x → ∃ y, ρ x y) (hright : ∀ y, b.IsPlaced y → ∃ x, ρ x y)
    (packaged packaged' : List Path) :
    (Report.ofTree b.tree graphB packaged').placements.Perm
      (Report.ofTree a.tree graphA packaged).placements := by
  unfold Report.ofTree
  dsimp only
  rw [List.perm_ext_iff_of_nodup (nodup_placementsOf _ hindexedB) (nodup_placementsOf _ hindexedA)]
  rintro ⟨identity, name⟩
  rw [mem_placementsOf hindexedB, mem_placementsOf hindexedA]
  constructor
  · rintro ⟨y, w, home, hw, hhome, rfl, rfl⟩
    obtain ⟨x, hxy⟩ := hright y (hb.placed hw)
    obtain ⟨v, w', hv, hw', -, hvw⟩ :=
      h.get?_retained ha hb hxy ((h.isPlaced_iff hxy).1 (hb.placed hw))
    have hsame : w = w' := Option.some.inj (hw.symm.trans hw')
    subst hsame
    exact ⟨x, v, home, hv, hvw.home ▸ hhome, hvw.identity, h.tree.nameOf home⟩
  · rintro ⟨x, v, home, hv, hhome, rfl, rfl⟩
    obtain ⟨y, hxy⟩ := hleft x (ha.placed hv)
    obtain ⟨v', w, hv', hw, -, hvw⟩ := h.get?_retained ha hb hxy (ha.placed hv)
    have hsame : v = v' := Option.some.inj (hv.symm.trans hv')
    subst hsame
    exact ⟨y, w, home, hw, hvw.home.trans hhome, hvw.identity.symm, (h.tree.nameOf home).symm⟩

end Reports

end Matches
end Layout
end ModuleBundler
