import ModuleBundler.Proofs.Bundle.Ancestry
import ModuleBundler.Proofs.Bundle.Content

/-!
# Members of bundles

At every moment of the making of a layout the places of the assets fit together.
An asset that belongs to a bundle is a member of the bundle of its kind in that
place, and of the bundle itself if it has output for it, and bundles and assets
agree on who is a member.

Main results:

- Theorem {lit}`Layout.exchange_regroups`: exchanging a membership touches only one asset.
- Theorem {lit}`Layout.relocate_sound`: an asset that moves to a bundle of the same kind keeps a layout
  sound.
- Theorem {lit}`Layout.enter_sound`: an asset that is placed keeps a layout sound.
-/

namespace ModuleBundler
namespace BundleTree

/-! ## Memberships of one asset -/

/-- Whether a tree has grown while only the memberships of one asset have changed. -/
structure Regroups (id : AssetId) (old new : BundleTree) : Prop where
  grows : old.Extends new
  wellFormed : new.WellFormed
  primary : ∀ {bundle : BundleId}, new.IsPrimary bundle → old.IsPrimary bundle
  others : ∀ {other : AssetId}, other ≠ id →
    ∀ bundle, other ∈ new.membersOf bundle ↔ other ∈ old.membersOf bundle
  nodup : (∀ bundle, (old.membersOf bundle).Nodup) → ∀ bundle, (new.membersOf bundle).Nodup

namespace Regroups

variable {id : AssetId} {a b c : BundleTree}

/-- A tree that has grown without new members. -/
theorem ofGrowth (hgrows : a.Extends b) (hwf : b.WellFormed)
    (hprimary : ∀ {bundle : BundleId}, b.IsPrimary bundle → a.IsPrimary bundle)
    (hmembers : ∀ bundle, b.membersOf bundle = a.membersOf bundle) : a.Regroups id b where
  grows := hgrows
  wellFormed := hwf
  primary := hprimary
  others _ bundle := by rw [hmembers bundle]
  nodup h bundle := by
    rw [hmembers bundle]
    exact h bundle

theorem trans (hab : a.Regroups id b) (hbc : b.Regroups id c) : a.Regroups id c where
  grows := hab.grows.trans hbc.grows
  wellFormed := hbc.wellFormed
  primary h := hab.primary (hbc.primary h)
  others hother bundle := (hbc.others hother bundle).trans (hab.others hother bundle)
  nodup h := hbc.nodup (hab.nodup h)

end Regroups

/-- Who is a member after one asset has become a member of a bundle. -/
theorem mem_addMember {tree : BundleTree} {bundle : BundleId} {value : Bundle}
    (h : tree.get? bundle = some value) (id other : AssetId) (at_ : BundleId) :
    other ∈ (tree.addMember bundle id).membersOf at_ ↔
      other ∈ tree.membersOf at_ ∨ at_ = bundle ∧ other = id := by
  rw [addMember, membersOf_withAssets h (includeLast id)]
  by_cases hat : at_ = bundle
  · subst hat
    simp
  · simp [hat]

/-- Who is a member after one asset has left a bundle. -/
theorem mem_removeMember {tree : BundleTree} {bundle : BundleId} {value : Bundle}
    (h : tree.get? bundle = some value) (id other : AssetId) (at_ : BundleId) :
    other ∈ (tree.removeMember bundle id).membersOf at_ ↔
      other ∈ tree.membersOf at_ ∧ ¬ (at_ = bundle ∧ other = id) := by
  rw [removeMember, membersOf_withAssets h (List.filter (· != id))]
  by_cases hat : at_ = bundle
  · subst hat
    simp
  · simp [hat]

/-- Adding a member touches only that asset. -/
theorem addMember_regroups {tree : BundleTree} (hwf : tree.WellFormed) {bundle : BundleId}
    {value : Bundle} (h : tree.get? bundle = some value) (id : AssetId) :
    tree.Regroups id (tree.addMember bundle id) where
  grows := tree.extends_withAssets bundle (includeLast id)
  wellFormed := wellFormed_withAssets hwf bundle (includeLast id)
  primary h := isPrimary_of_withAssets h
  others hother at_ := by simp [mem_addMember h, hother]
  nodup hnodup at_ := by
    rw [addMember, membersOf_withAssets h (includeLast id)]
    split
    · exact nodup_includeLast (hnodup bundle) id
    · exact hnodup at_

/-- Make an asset a member of several bundles. -/
def addMembers (tree : BundleTree) (id : AssetId) (places : List BundleId) : BundleTree :=
  places.foldl (fun tree bundle => tree.addMember bundle id) tree

/-- Adding an asset to several bundles touches only that asset, and makes it a member of these bundles. -/
theorem addMembers_regroups {tree : BundleTree} (hwf : tree.WellFormed) (id : AssetId)
    {places : List BundleId} (hknown : ∀ bundle ∈ places, ∃ value, tree.get? bundle = some value) :
    tree.Regroups id (tree.addMembers id places) ∧
      ∀ other, id ∈ (tree.addMembers id places).membersOf other ↔
        id ∈ tree.membersOf other ∨ other ∈ places := by
  induction places generalizing tree with
  | nil =>
    refine ⟨.ofGrowth (.refl tree) hwf (fun h => h) (fun _ => rfl), fun other => ?_⟩
    simp [addMembers]
  | cons bundle rest ih =>
    obtain ⟨value, hvalue⟩ := hknown bundle List.mem_cons_self
    have hadd := addMember_regroups hwf hvalue id
    have hrest : ∀ other ∈ rest, ∃ value, (tree.addMember bundle id).get? other = some value := by
      intro other hother
      obtain ⟨value', hvalue'⟩ := hknown other (List.mem_cons_of_mem _ hother)
      exact hadd.grows.exists_get? hvalue'
    obtain ⟨hregroups, hmembers⟩ := ih hadd.wellFormed hrest
    refine ⟨hadd.trans hregroups, fun other => ?_⟩
    apply (hmembers other).trans
    rw [mem_addMember hvalue, List.mem_cons]
    simp [or_assoc]

/-- Removing a member touches only that asset. -/
theorem removeMember_regroups {tree : BundleTree} (hwf : tree.WellFormed) {bundle : BundleId}
    {value : Bundle} (h : tree.get? bundle = some value) (id : AssetId) :
    tree.Regroups id (tree.removeMember bundle id) where
  grows := tree.extends_withAssets bundle (List.filter (· != id))
  wellFormed := wellFormed_withAssets hwf bundle (List.filter (· != id))
  primary h := isPrimary_of_withAssets h
  others hother at_ := by simp [mem_removeMember h, hother]
  nodup hnodup at_ := by
    rw [removeMember, membersOf_withAssets h (List.filter (· != id))]
    split
    · exact (hnodup bundle).filter _
    · exact hnodup at_

/-! ## The places of an asset -/

/-- The bundles that an asset with a home belongs into: the bundle of its kind there, and the home itself
if that is of another kind and the asset has output for it.  There are none as long as the bundle of the
asset's kind is missing. -/
def placesFor (tree : BundleTree) (asset : Asset) (home : BundleId) : Option (List BundleId) :=
  (tree.beside? home asset.kind).map fun target =>
    target :: if asset.kind ≠ tree.kindOf home ∧ asset.generates (tree.kindOf home) = true then [home]
      else []

/-- The places of an asset depend only on its kind and its output. -/
theorem placesFor_congr {a b : Asset} (hkind : a.kind = b.kind) (hgenerates : a.generates = b.generates)
    (tree : BundleTree) (home : BundleId) : tree.placesFor a home = tree.placesFor b home := by
  simp only [placesFor, hkind, hgenerates]

/-- Growth does not change the places of an asset. -/
theorem Extends.placesFor {old new : BundleTree} (hext : old.Extends new) {asset : Asset}
    {home : BundleId} {places : List BundleId} (h : old.placesFor asset home = some places) :
    new.placesFor asset home = some places := by
  unfold BundleTree.placesFor at h ⊢
  obtain ⟨target, htarget, rfl⟩ := Option.map_eq_some_iff.1 h
  cases hget : old.get? home with
  | none => simp [BundleTree.beside?, hget] at htarget
  | some bundle => rw [hext.beside? htarget, Option.map_some, hext.kindOf hget]

end BundleTree

namespace Layout

open BundleTree

/-! ## Sound layouts -/

/-- What holds at every moment of the making of a layout: the tree is well-formed, the assets of the
bundles are in their places, the others are nowhere, and assets and bundles agree on who is a member. -/
structure Sound (layout : Layout) : Prop where
  tree : layout.tree.WellFormed
  primary : ∀ {id : AssetId} {asset : Asset} {home : BundleId}, layout.graph.get? id = some asset →
    asset.home = some home → layout.tree.IsPrimary home
  places : ∀ {id : AssetId} {asset : Asset} {home : BundleId}, layout.graph.get? id = some asset →
    asset.home = some home → layout.tree.placesFor asset home = some asset.bundles
  unplaced : ∀ {id : AssetId} {asset : Asset}, layout.graph.get? id = some asset →
    asset.home = none → asset.bundles = []
  mirror : ∀ {id : AssetId} {bundle : BundleId}, id ∈ layout.tree.membersOf bundle ↔
    ∃ asset, layout.graph.get? id = some asset ∧ bundle ∈ asset.bundles
  nodup : ∀ bundle, (layout.tree.membersOf bundle).Nodup

/-- A layout stays sound when its tree grows. -/
theorem Sound.grow {layout : Layout} (h : layout.Sound) {tree : BundleTree}
    (hgrows : layout.tree.Extends tree) (hwf : tree.WellFormed)
    (hmembers : ∀ bundle, tree.membersOf bundle = layout.tree.membersOf bundle) :
    Sound ⟨layout.graph, tree⟩ where
  tree := hwf
  primary hget hhome := hgrows.isPrimary (h.primary hget hhome)
  places hget hhome := hgrows.placesFor (h.places hget hhome)
  unplaced hget hhome := h.unplaced hget hhome
  mirror := by
    intro id bundle
    rw [hmembers bundle]
    exact h.mirror
  nodup bundle := by
    rw [hmembers bundle]
    exact h.nodup bundle

/-- A layout stays sound when one asset gets a new place. -/
theorem Sound.settle {layout : Layout} (h : layout.Sound) {id : AssetId} {asset : Asset}
    (hget : layout.graph.get? id = some asset) {tree : BundleTree}
    (hregroups : layout.tree.Regroups id tree) {change : Asset → Asset} {home : BundleId}
    (hhome : (change asset).home = some home) (hprimary : tree.IsPrimary home)
    (hplaces : tree.placesFor (change asset) home = some (change asset).bundles)
    (hmirror : ∀ bundle, id ∈ tree.membersOf bundle ↔ bundle ∈ (change asset).bundles) :
    Sound ⟨layout.graph.update id change, tree⟩ := by
  have hself : (layout.graph.update id change).get? id = some (change asset) := by
    rw [AssetGraph.get?_update_self, hget]
    rfl
  refine ⟨hregroups.wellFormed, ?_, ?_, ?_, ?_, hregroups.nodup h.nodup⟩
  · intro other asset' home' hget' hhome'
    by_cases hother : other = id
    · subst hother
      rw [hself, Option.some.injEq] at hget'
      rw [← hget', hhome, Option.some.injEq] at hhome'
      exact hhome' ▸ hprimary
    · rw [AssetGraph.get?_update_of_ne hother] at hget'
      exact hregroups.grows.isPrimary (h.primary hget' hhome')
  · intro other asset' home' hget' hhome'
    by_cases hother : other = id
    · subst hother
      rw [hself, Option.some.injEq] at hget'
      rw [← hget', hhome, Option.some.injEq] at hhome'
      rw [← hget', ← hhome']
      exact hplaces
    · rw [AssetGraph.get?_update_of_ne hother] at hget'
      exact hregroups.grows.placesFor (h.places hget' hhome')
  · intro other asset' hget' hhome'
    by_cases hother : other = id
    · subst hother
      rw [hself, Option.some.injEq] at hget'
      rw [← hget', hhome] at hhome'
      cases hhome'
    · rw [AssetGraph.get?_update_of_ne hother] at hget'
      exact h.unplaced hget' hhome'
  · intro other bundle
    by_cases hother : other = id
    · subst hother
      rw [hmirror bundle]
      simp [hself]
    · rw [hregroups.others hother, AssetGraph.get?_update_of_ne hother]
      exact h.mirror

/-- A noted import keeps a layout sound. -/
theorem Sound.arrive {layout : Layout} (h : layout.Sound) (visit : Visit) :
    (layout.arrive visit).Sound := by
  unfold Layout.arrive
  cases visit.via with
  | none => exact h
  | some dep =>
    -- an asset after the arrival is an asset from before with one more import
    have hcases : ∀ {id : AssetId} {asset : Asset},
        (layout.graph.update visit.asset fun asset =>
          { asset with incoming := asset.incoming ++ [dep] }).get? id = some asset →
        ∃ before, layout.graph.get? id = some before ∧ asset.home = before.home ∧
          asset.bundles = before.bundles ∧
          ∀ tree : BundleTree, ∀ home, tree.placesFor asset home = tree.placesFor before home := by
      intro id asset hget
      by_cases hid : id = visit.asset
      · subst hid
        rw [AssetGraph.get?_update_self] at hget
        obtain ⟨before, hbefore, rfl⟩ := Option.map_eq_some_iff.1 hget
        exact ⟨before, hbefore, rfl, rfl, fun _ _ => rfl⟩
      · rw [AssetGraph.get?_update_of_ne hid] at hget
        exact ⟨asset, hget, rfl, rfl, fun _ _ => rfl⟩
    refine ⟨h.tree, ?_, ?_, ?_, ?_, h.nodup⟩
    · intro id asset home hget hhome
      obtain ⟨before, hbefore, hhome', -, -⟩ := hcases hget
      exact h.primary hbefore (hhome' ▸ hhome)
    · intro id asset home hget hhome
      obtain ⟨before, hbefore, hhome', hbundles, hplaces⟩ := hcases hget
      rw [hplaces, hbundles]
      exact h.places hbefore (hhome' ▸ hhome)
    · intro id asset hget hhome
      obtain ⟨before, hbefore, hhome', hbundles, -⟩ := hcases hget
      rw [hbundles]
      exact h.unplaced hbefore (hhome' ▸ hhome)
    · intro id bundle
      rw [h.mirror]
      by_cases hid : id = visit.asset
      · subst hid
        rw [AssetGraph.get?_update_self]
        cases layout.graph.get? visit.asset <;> simp
      · rw [AssetGraph.get?_update_of_ne hid]

/-! ## Moving an asset -/

/-- An exchanged membership touches only one asset, and leads to the bundle of the same kind beside the
common one. -/
theorem exchange_regroups {tree : BundleTree} (hwf : tree.WellFormed) {id : AssetId}
    {common bundle : BundleId} (hcommon : tree.IsPrimary common) {value : Bundle}
    (hget : tree.get? bundle = some value) {bundles : List BundleId}
    (hmirror : ∀ other, id ∈ tree.membersOf other ↔ other ∈ bundles) :
    tree.Regroups id (exchange id common (tree, bundles) bundle).1 ∧
      (∀ other, id ∈ (exchange id common (tree, bundles) bundle).1.membersOf other ↔
        other ∈ (exchange id common (tree, bundles) bundle).2) ∧
      ∃ target, (exchange id common (tree, bundles) bundle).1.beside? common (tree.kindOf bundle) =
          some target ∧
        (exchange id common (tree, bundles) bundle).2 =
          includeLast target (bundles.filter (· != bundle)) := by
  have hremove := removeMember_regroups hwf hget id
  have hcommon' := hremove.grows.isPrimary hcommon
  have hsibling := sibling_grows hremove.wellFormed hcommon' (tree.kindOf bundle)
  have hnone := fun other => @isPrimary_of_sibling _ _ hcommon' (tree.kindOf bundle) other
  -- after the asset has left the bundle, its sibling beside the common bundle is found or made
  generalize hfound : (tree.removeMember bundle id).sibling common (tree.kindOf bundle) = found
    at hsibling hnone
  obtain ⟨hgrows, hwf', hbeside, hmembers⟩ := hsibling
  obtain ⟨value', hvalue'⟩ := exists_get?_of_beside? hwf' hbeside
  have hadd := addMember_regroups hwf' hvalue' id
  have heq : exchange id common (tree, bundles) bundle =
      (found.2.addMember found.1 id, includeLast found.1 (bundles.filter (· != bundle))) := by
    simp only [exchange, hfound]
  rw [heq]
  refine ⟨(hremove.trans (.ofGrowth hgrows hwf' (hnone _) hmembers)).trans hadd, ?_, found.1,
    hadd.grows.beside? hbeside, rfl⟩
  intro other
  rw [mem_addMember hvalue', hmembers, mem_removeMember hget, hmirror]
  simp

/-- The kind of the first of an asset's places is the asset's. -/
theorem kindOf_target {tree : BundleTree} (hwf : tree.WellFormed) {asset : Asset} {home : BundleId}
    {places : List BundleId} (h : tree.placesFor asset home = some places) :
    ∃ target value, tree.get? target = some value ∧ tree.kindOf target = asset.kind ∧
      tree.beside? home asset.kind = some target ∧
      places = target :: if asset.kind ≠ tree.kindOf home ∧
        asset.generates (tree.kindOf home) = true then [home] else [] := by
  obtain ⟨target, htarget, rfl⟩ := Option.map_eq_some_iff.1 h
  obtain ⟨value, hvalue⟩ := exists_get?_of_beside? hwf htarget
  exact ⟨target, value, hvalue, kindOf_of_beside? hwf htarget, htarget, rfl⟩

/-- A single membership is exchanged for one beside the common bundle. -/
theorem exchange_one {tree : BundleTree} (hwf : tree.WellFormed) {id : AssetId}
    {common target : BundleId} (hcommon : tree.IsPrimary common) {value : Bundle}
    (hvalue : tree.get? target = some value)
    (hmirror : ∀ other, id ∈ tree.membersOf other ↔ other ∈ [target]) :
    ∃ moved new, exchange id common (tree, [target]) target = (moved, [new]) ∧
      tree.Regroups id moved ∧ (∀ other, id ∈ moved.membersOf other ↔ other ∈ [new]) ∧
      moved.beside? common (tree.kindOf target) = some new := by
  obtain ⟨hregroups, hmirror', new, hnew, hlist⟩ := exchange_regroups hwf hcommon hvalue hmirror
  have hplaces : (exchange id common (tree, [target]) target).2 = [new] := by
    rw [hlist]
    simp [includeLast]
  rw [hplaces] at hmirror'
  exact ⟨_, new, Prod.ext rfl hplaces, hregroups, hmirror', hnew⟩

/-- Of two memberships, the one in a home of another kind is exchanged for one in the common bundle
itself. -/
theorem exchange_two {tree : BundleTree} (hwf : tree.WellFormed) {id : AssetId}
    {common target old : BundleId} (hcommon : tree.IsPrimary common) {value valueOld : Bundle}
    (hvalue : tree.get? target = some value) (hvalueOld : tree.get? old = some valueOld)
    (hne : tree.kindOf target ≠ tree.kindOf old) (hkind : tree.kindOf old = tree.kindOf common)
    (hmirror : ∀ other, id ∈ tree.membersOf other ↔ other ∈ [target, old]) :
    ∃ moved new, [target, old].foldl (exchange id common) (tree, [target, old]) =
        (moved, [new, common]) ∧
      tree.Regroups id moved ∧ (∀ other, id ∈ moved.membersOf other ↔ other ∈ [new, common]) ∧
      moved.beside? common (tree.kindOf target) = some new := by
  obtain ⟨valueC, hvalueC⟩ := hcommon.exists_get?
  obtain ⟨hregroups, hmirror', new, hnew, hlist⟩ := exchange_regroups hwf hcommon hvalue hmirror
  simp only [List.foldl_cons, List.foldl_nil]
  generalize exchange id common (tree, [target, old]) target = one at *
  obtain ⟨valueOld', hvalueOld'⟩ := hregroups.grows.exists_get? hvalueOld
  obtain ⟨hregroups', hmirror'', last, hlast, hlist'⟩ := exchange_regroups hregroups.wellFormed
    (hregroups.grows.isPrimary hcommon) hvalueOld' hmirror'
  have hboth := hregroups.trans hregroups'
  -- the bundle of the old home's kind beside the common bundle is the common bundle
  have hlastCommon : last = common := by
    obtain ⟨valueC', hvalueC'⟩ := hboth.grows.exists_get? hvalueC
    rw [hregroups.grows.kindOf hvalueOld, hkind, ← hboth.grows.kindOf hvalueC,
      beside?_kindOf hvalueC', Option.some.injEq] at hlast
    exact hlast.symm
  have hnewKind : one.1.kindOf new = tree.kindOf target :=
    kindOf_of_beside? hregroups.wellFormed hnew
  have hnewOld : new ≠ old := by
    rintro rfl
    exact hne (by rw [← hnewKind, hregroups.grows.kindOf hvalueOld])
  have hnewCommon : new ≠ common := by
    rintro rfl
    exact hne (by rw [hkind, ← hnewKind, hregroups.grows.kindOf hvalueC])
  have htargetOld : target ≠ old := by
    rintro rfl
    exact hne rfl
  have hplaces : (exchange id common one old).2 = [new, common] := by
    apply hlist'.trans
    rw [hlist, hlastCommon]
    simp [includeLast, htargetOld.symm, hnewOld, hnewCommon.symm]
  refine ⟨_, new, Prod.ext rfl hplaces, hboth, ?_, hregroups'.grows.beside? hnew⟩
  rw [← hplaces]
  exact hmirror''

/-- All memberships of an asset that belongs to a bundle can be exchanged for those beside another
bundle of the same kind. -/
theorem exchange_all {layout : Layout} (h : layout.Sound) {id : AssetId} {asset : Asset}
    (hget : layout.graph.get? id = some asset) {old common : BundleId} (hhome : asset.home = some old)
    (hcommon : layout.tree.IsPrimary common)
    (hkind : layout.tree.kindOf old = layout.tree.kindOf common) :
    ∃ moved bundles,
      asset.bundles.foldl (exchange id common) (layout.tree, asset.bundles) = (moved, bundles) ∧
      layout.tree.Regroups id moved ∧ (∀ bundle, id ∈ moved.membersOf bundle ↔ bundle ∈ bundles) ∧
      moved.placesFor asset common = some bundles := by
  have hmirror : ∀ bundle, id ∈ layout.tree.membersOf bundle ↔ bundle ∈ asset.bundles := by
    intro bundle
    rw [h.mirror]
    simp [hget]
  obtain ⟨target, value, hvalue, htarget, -, hbundles⟩ := kindOf_target h.tree (h.places hget hhome)
  obtain ⟨valueOld, hvalueOld⟩ := (h.primary hget hhome).exists_get?
  obtain ⟨valueC, hvalueC⟩ := hcommon.exists_get?
  by_cases hboth : asset.kind ≠ layout.tree.kindOf old ∧
      asset.generates (layout.tree.kindOf old) = true
  · -- two memberships, of which the second is in the home itself
    rw [if_pos hboth] at hbundles
    rw [hbundles] at hmirror ⊢
    have hne : layout.tree.kindOf target ≠ layout.tree.kindOf old := by
      rw [htarget]
      exact hboth.1
    obtain ⟨moved, new, heq, hregroups, hmirror', hnew⟩ :=
      exchange_two h.tree hcommon hvalue hvalueOld hne hkind hmirror
    refine ⟨moved, [new, common], heq, hregroups, hmirror', ?_⟩
    rw [placesFor, ← htarget, hnew, hregroups.grows.kindOf hvalueC, ← hkind, htarget]
    simp [hboth]
  · -- a single membership
    rw [if_neg hboth] at hbundles
    rw [hbundles] at hmirror ⊢
    obtain ⟨moved, new, heq, hregroups, hmirror', hnew⟩ :=
      exchange_one h.tree hcommon hvalue hmirror
    refine ⟨moved, [new], heq, hregroups, hmirror', ?_⟩
    rw [placesFor, ← htarget, hnew, hregroups.grows.kindOf hvalueC, ← hkind, htarget]
    simp [hboth]

/-- An asset that moves to a bundle of the same kind keeps a layout sound. -/
theorem relocate_sound {layout : Layout} (h : layout.Sound) {id : AssetId} {asset : Asset}
    (hget : layout.graph.get? id = some asset) {old common : BundleId} (hhome : asset.home = some old)
    (hcommon : layout.tree.IsPrimary common)
    (hkind : layout.tree.kindOf old = layout.tree.kindOf common) :
    (layout.relocate asset common id).Sound ∧
      layout.tree.Regroups id (layout.relocate asset common id).tree := by
  obtain ⟨moved, bundles, heq, hregroups, hmirror, hplaces⟩ :=
    exchange_all h hget hhome hcommon hkind
  unfold relocate
  rw [heq]
  exact ⟨h.settle hget hregroups rfl (hregroups.grows.isPrimary hcommon) hplaces hmirror, hregroups⟩

/-! ## Placing an asset -/

/-- The bundle beside a home is the home itself just for an asset of its kind. -/
theorem target_ne_home {tree : BundleTree} (hwf : tree.WellFormed) {home target : BundleId}
    {value : Bundle} (hhome : tree.get? home = some value) {kind : Kind}
    (h : tree.beside? home kind = some target) : target ≠ home ↔ kind ≠ tree.kindOf home := by
  refine not_congr ⟨?_, ?_⟩
  · rintro rfl
    exact (kindOf_of_beside? hwf h).symm
  · rintro rfl
    rw [beside?_kindOf hhome, Option.some.injEq] at h
    exact h.symm

/-- Entering a bundle makes an asset a member of its places there. -/
theorem enter_eq {layout : Layout} {id : AssetId} {asset : Asset} (hbundles : asset.bundles = [])
    {bundle target : BundleId} {tree : BundleTree}
    (hfound : layout.tree.sibling bundle asset.kind = (target, tree)) (hwf : tree.WellFormed)
    (hprimary : tree.IsPrimary bundle) (hbeside : tree.beside? bundle asset.kind = some target) :
    ∃ places, tree.placesFor asset bundle = some places ∧
      (∀ other ∈ places, ∃ value, tree.get? other = some value) ∧
      layout.enter id asset bundle =
        ⟨layout.graph.update id fun asset => { asset with bundles := places, home := some bundle },
          tree.addMembers id places⟩ := by
  obtain ⟨valueT, hvalueT⟩ := exists_get?_of_beside? hwf hbeside
  obtain ⟨valueB, hvalueB⟩ := hprimary.exists_get?
  have hkind : (tree.addMember target id).kindOf bundle = tree.kindOf bundle :=
    (addMember_regroups hwf hvalueT id).grows.kindOf hvalueB
  have htarget := target_ne_home hwf hvalueB hbeside
  unfold enter
  rw [hfound]
  dsimp only
  rw [hkind, hbundles]
  by_cases hboth : asset.kind ≠ tree.kindOf bundle ∧ asset.generates (tree.kindOf bundle) = true
  · -- the asset becomes a member of two bundles
    have hne := htarget.2 hboth.1
    have hlist : includeLast bundle (includeLast target []) = [target, bundle] := by
      simp [includeLast, hne.symm]
    refine ⟨[target, bundle], by simp [placesFor, hbeside, hboth], by simp [hvalueT, hvalueB], ?_⟩
    simp only [bne_iff_ne.2 hne, hboth.2, Bool.and_self, if_true, hlist]
    rfl
  · -- the asset becomes a member of the bundle of its kind only
    have hfalse : (target != bundle && asset.generates (tree.kindOf bundle)) = false := by
      by_cases hkinds : asset.kind = tree.kindOf bundle
      · have heq : target = bundle := Decidable.not_not.1 fun hne => htarget.1 hne hkinds
        simp [heq]
      · have hgenerates : asset.generates (tree.kindOf bundle) = false := by
          simpa [hkinds] using hboth
        simp [hgenerates]
    refine ⟨[target], by simp [placesFor, hbeside, hboth], by simp [hvalueT], ?_⟩
    simp only [hfalse, Bool.false_eq_true, if_false]
    rfl

/-- An asset that is placed in a primary bundle keeps a layout sound. -/
theorem enter_sound {layout : Layout} (h : layout.Sound) {id : AssetId} {current asset : Asset}
    (hget : layout.graph.get? id = some current) (hhome : current.home = none)
    (hbundles : asset.bundles = []) (hcontent : asset.withoutPlace = current.withoutPlace)
    {bundle : BundleId} (hprimary : layout.tree.IsPrimary bundle) :
    (layout.enter id asset bundle).Sound ∧
      layout.tree.Regroups id (layout.enter id asset bundle).tree := by
  obtain ⟨hgrows, hwf, hbeside, hmembers⟩ := sibling_grows h.tree hprimary asset.kind
  have hnone := fun other => @isPrimary_of_sibling _ _ hprimary asset.kind other
  have hprimary' := hgrows.isPrimary hprimary
  have hnowhere : ∀ other, id ∉ layout.tree.membersOf other := by
    intro other hmem
    obtain ⟨found, hfound, hin⟩ := h.mirror.1 hmem
    have hsame : current = found := Option.some.inj (hget.symm.trans hfound)
    rw [← hsame, h.unplaced hget hhome] at hin
    cases hin
  generalize hfound : layout.tree.sibling bundle asset.kind = found at hgrows hwf hbeside hmembers hnone hprimary'
  obtain ⟨target, tree⟩ := found
  obtain ⟨places, hplaces, hknown, heq⟩ := enter_eq hbundles hfound hwf hprimary' hbeside
  obtain ⟨hadd, hmember⟩ := addMembers_regroups hwf id hknown
  have hregroups : layout.tree.Regroups id (tree.addMembers id places) :=
    (Regroups.ofGrowth hgrows hwf (hnone _) hmembers).trans hadd
  rw [heq]
  refine ⟨h.settle hget hregroups rfl (hregroups.grows.isPrimary hprimary) ?_ ?_, hregroups⟩
  · have hkind : current.kind = asset.kind := (Asset.kind_of_withoutPlace hcontent).symm
    have hgenerates := (Asset.generates_of_withoutPlace hcontent).symm
    rw [← hadd.grows.placesFor hplaces]
    exact placesFor_congr hkind hgenerates _ _
  · intro other
    rw [hmember, hmembers]
    simp [hnowhere other]

end Layout
end ModuleBundler
