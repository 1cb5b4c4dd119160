import Mathlib.Data.List.Nodup
import ModuleBundler.Proofs.Bundle.Reporting
import ModuleBundler.Proofs.Path.FileName

/-!
# Names of bundles

A bundle that is made for an asset has a name for that asset, and its siblings have the
same name with other extensions.  So two bundles share a name just if they are of one kind
and were made, or stand beside bundles that were made, for two assets with one stem.
Digests keep assets apart; what has the name of a package or of the entry is not kept
apart from anything.

Main results:

- Theorem {lit}`Layout.ofGraph_named`: every bundle has the name that it is to have.
- Theorem {lit}`Layout.name_eq_iff`: when two bundles of a layout share a name.
- Theorem {lit}`Layout.exists_shared_name`: two bundles of a layout can share a name.
-/

namespace ModuleBundler

/-! ## Digits -/

namespace Blake3

/-- No digit is a slash. -/
theorem hexDigit_ne_slash (n : Nat) : hexDigit n ≠ '/' := by
  have hdigits : ∀ digit < 16, Nat.digitChar digit ≠ '/' := by decide
  exact hdigits _ (Nat.mod_lt n (by decide))

theorem isFlat_hex (input : ByteArray) : Path.IsFlat (hex input) := by
  unfold Path.IsFlat hex hexBytes
  rw [String.toList_ofList]
  intro hmem
  obtain ⟨byte, -, hdigit⟩ := List.mem_flatMap.1 hmem
  simp only [List.mem_cons, List.not_mem_nil, or_false] at hdigit
  rcases hdigit with hdigit | hdigit
  · exact hexDigit_ne_slash _ hdigit.symm
  · exact hexDigit_ne_slash _ hdigit.symm

end Blake3

/-! ## Names of assets -/

namespace Asset

/-- The digits that stand for the identity of an asset. -/
def digits (asset : Asset) : String :=
  String.ofList ((Blake3.hex asset.identity.text.toUTF8).toList.take nameDigits)

/-- Whether an asset is the main module of a package that has a name. -/
def LeadsPackage (asset : Asset) : Prop :=
  ∃ main name, asset.package.mainPath? = some main ∧ asset.package.name = some name ∧
    (main == asset.identity) = true

/-- A bundle is called after the package that the asset leads, after the file, or after its digits. -/
theorem bundleStem_cases (asset : Asset) (isMain : Bool) :
    (∃ name, asset.LeadsPackage ∧ asset.package.name = some name ∧
      asset.bundleStem isMain = flatName name) ∨
    (isMain = true ∧ asset.bundleStem isMain = asset.identity.stem?.getD "index") ∨
    (isMain = false ∧ asset.bundleStem isMain = asset.digits) := by
  unfold bundleStem
  dsimp only
  split
  · rename_i name hnamed
    simp only [Option.bind_eq_bind, Option.bind_eq_some_iff] at hnamed
    obtain ⟨main, hmain, name', hname, hsame⟩ := hnamed
    split at hsame
    · rename_i hidentity
      cases hsame
      exact .inl ⟨name', ⟨main, name', hmain, hname, hidentity⟩, hname, rfl⟩
    · cases hsame
  · cases isMain with
    | true => exact .inr (.inl ⟨rfl, rfl⟩)
    | false => exact .inr (.inr ⟨rfl, rfl⟩)

/-- A bundle on demand whose asset leads no package is called after its digits. -/
theorem bundleStem_of_not_leadsPackage {asset : Asset} (h : ¬ asset.LeadsPackage) :
    asset.bundleStem false = asset.digits := by
  rcases asset.bundleStem_cases false with ⟨name, hleads, -⟩ | ⟨hmain, -⟩ | ⟨-, hdigits⟩
  · exact absurd hleads h
  · cases hmain
  · exact hdigits

theorem isFlat_flatName (name : String) : Path.IsFlat (flatName name) := by
  unfold Path.IsFlat flatName
  rw [String.toList_ofList]
  intro hmem
  obtain ⟨c, -, hc⟩ := List.mem_map.1 hmem
  split at hc
  · cases hc
  · rename_i hne
    exact hne hc

theorem isFlat_stem? {p : Path} {stem : String} (h : p.stem? = some stem) : Path.IsFlat stem := by
  obtain ⟨fileName, hfile, rfl⟩ := Option.map_eq_some_iff.1 h
  exact Path.isFlat_splitName (Path.isFlat_of_fileName? hfile)

/-- What a bundle is called after has no slashes. -/
theorem isFlat_bundleStem (asset : Asset) (isMain : Bool) : Path.IsFlat (asset.bundleStem isMain) := by
  rcases asset.bundleStem_cases isMain with ⟨name, -, -, heq⟩ | ⟨-, heq⟩ | ⟨-, heq⟩
  · rw [heq]
    exact isFlat_flatName name
  · rw [heq]
    cases hstem : asset.identity.stem? with
    | none =>
      unfold Path.IsFlat
      decide
    | some stem => exact isFlat_stem? hstem
  · rw [heq]
    unfold digits Path.IsFlat
    rw [String.toList_ofList]
    exact fun hmem => Blake3.isFlat_hex _ (List.mem_of_mem_take hmem)

end Asset

namespace AssetGraph

/-- The kind and the name of a bundle that is made for an asset, when the layout begins at {lit}`start`. -/
def titleOf (graph : AssetGraph) (outDir : Path) (start id : AssetId) : Option (Kind × Path) :=
  (graph.get? id).map fun asset => (asset.kind, outDir.child (asset.bundleName (decide (id = start))))

theorem titleOf_of_sameContent {graph new : AssetGraph} (h : graph.SameContent new) (outDir : Path)
    (start : AssetId) {id : AssetId} {asset : Asset} (hget : new.get? id = some asset) :
    graph.titleOf outDir start id =
      some (asset.kind, outDir.child (asset.bundleName (decide (id = start)))) := by
  obtain ⟨before, hbefore, hsame⟩ := h.symm.exists_get? hget
  have hname : before.bundleName = asset.bundleName := Asset.eq_of_withoutPlace hsame fun _ => rfl
  unfold titleOf
  rw [hbefore, Option.map_some, Asset.kind_of_withoutPlace hsame, hname]

end AssetGraph

/-! ## Trees with names -/

namespace BundleTree

/-- Whether a bundle has the kind and the name that it is to have.  A bundle that was made for an asset has
those for that asset; any other one is known to the bundle that it belongs to as its sibling and has the name
of that bundle with another extension. -/
structure HasTitle (tree : BundleTree) (title : AssetId → Option (Kind × Path)) (id : BundleId)
    (bundle : Bundle) : Prop where
  own : ∀ {asset : AssetId}, bundle.start = some asset → title asset = some (bundle.kind, bundle.name)
  beside : bundle.start = none → ∃ owner above, bundle.parent = some owner ∧ tree.get? owner = some above ∧
    tree.beside? owner bundle.kind = some id ∧ bundle.name = above.name.withExtension bundle.kind.tag

/-- Whether all bundles are of kinds of assets and have their names, and no two were made for one asset. -/
structure Named (tree : BundleTree) (title : AssetId → Option (Kind × Path)) : Prop where
  kinds : ∀ {id : BundleId} {bundle : Bundle}, tree.get? id = some bundle →
    ∃ asset name, title asset = some (bundle.kind, name)
  titles : ∀ {id : BundleId} {bundle : Bundle}, tree.get? id = some bundle → tree.HasTitle title id bundle
  starts : ∀ {a b : BundleId} {x y : Bundle} {asset : AssetId}, tree.get? a = some x →
    tree.get? b = some y → x.start = some asset → y.start = some asset → a = b

variable {title : AssetId → Option (Kind × Path)}

/-- A bundle keeps its title when the tree grows. -/
theorem HasTitle.grow {old new : BundleTree} {id : BundleId} {before after : Bundle}
    (h : old.HasTitle title id before) (hext : old.Extends new) (hcontinues : before.Continues after) :
    new.HasTitle title id after where
  own hstart := by
    rw [hcontinues.kind, hcontinues.name]
    exact h.own (hcontinues.start.symm.trans hstart)
  beside hstart := by
    obtain ⟨owner, above, hparent, habove, hbeside, hname⟩ := h.beside (hcontinues.start.symm.trans hstart)
    obtain ⟨above', habove', hsame⟩ := hext habove
    refine ⟨owner, above', hcontinues.parent.trans hparent, habove', ?_, ?_⟩
    · rw [hcontinues.kind]
      exact hext.beside? hbeside
    · rw [hcontinues.name, hcontinues.kind, hsame.name]
      exact hname

theorem named_empty : empty.Named title where
  kinds hget := by
    rw [get?_empty] at hget
    cases hget
  titles hget := by
    rw [get?_empty] at hget
    cases hget
  starts hget := by
    rw [get?_empty] at hget
    cases hget

namespace Named

variable {old new tree : BundleTree}

/-- Names stay when a tree grows by one bundle that has its name and for whose asset no other one was made. -/
theorem grow (h : old.Named title) (hext : old.Extends new) (fresh : BundleId)
    (hnew : ∀ {id : BundleId} {bundle : Bundle}, old.get? id = none → new.get? id = some bundle →
      id = fresh ∧ new.HasTitle title id bundle ∧ (∃ asset name, title asset = some (bundle.kind, name)) ∧
        ∀ {asset : AssetId}, bundle.start = some asset → ∀ {other : BundleId} {before : Bundle},
          old.get? other = some before → before.start ≠ some asset) : new.Named title where
  kinds {id bundle} hget := by
    rcases hext.new_or_continues hget with hnone | ⟨before, hbefore, hcontinues⟩
    · exact (hnew hnone hget).2.2.1
    · rw [hcontinues.kind]
      exact h.kinds hbefore
  titles {id bundle} hget := by
    rcases hext.new_or_continues hget with hnone | ⟨before, hbefore, hcontinues⟩
    · exact (hnew hnone hget).2.1
    · exact (h.titles hbefore).grow hext hcontinues
  starts {a b x y asset} hx hy hstartX hstartY := by
    rcases hext.new_or_continues hx with hnoneX | ⟨first, hfirst, hcontinuesX⟩
    · obtain ⟨rfl, -, -, hfresh⟩ := hnew hnoneX hx
      rcases hext.new_or_continues hy with hnoneY | ⟨second, hsecond, hcontinuesY⟩
      · exact (hnew hnoneY hy).1.symm
      · exact absurd (hcontinuesY.start.symm.trans hstartY) (hfresh hstartX hsecond)
    · rcases hext.new_or_continues hy with hnoneY | ⟨second, hsecond, hcontinuesY⟩
      · exact absurd (hcontinuesX.start.symm.trans hstartX) ((hnew hnoneY hy).2.2.2 hstartY hfirst)
      · exact h.starts hfirst hsecond (hcontinuesX.start.symm.trans hstartX)
          (hcontinuesY.start.symm.trans hstartY)

/-- Names do not depend on members. -/
theorem withAssets (h : tree.Named title) (id : BundleId) (f : List AssetId → List AssetId) :
    (tree.update id fun bundle => { bundle with assets := f bundle.assets }).Named title :=
  h.grow (tree.extends_withAssets id f) id fun {other _} hnone hsome => by
    rw [get?_update_of_none hnone] at hsome
    cases hsome

/-- A new bundle for an asset has its name. -/
theorem made (h : tree.Named title) {bundle : Bundle} {asset : AssetId}
    (hparent : ∀ parent, bundle.parent = some parent → parent.index < tree.size)
    (hsame : ∀ id, new.get? id = (tree.push bundle).get? id) (hstart : bundle.start = some asset)
    (htitle : title asset = some (bundle.kind, bundle.name))
    (hfresh : ∀ {other : BundleId} {before : Bundle}, tree.get? other = some before →
      before.start ≠ some asset) : new.Named title := by
  have hext : tree.Extends new := by
    intro id before hget
    rw [hsame]
    exact extends_push hparent hget
  refine h.grow hext ⟨tree.size⟩ fun {id found} hnone hsome => ?_
  rw [hsame] at hsome
  obtain ⟨rfl, rfl⟩ := new_of_push hparent hnone hsome
  refine ⟨rfl, ⟨fun {other} hother => ?_, fun hnone => ?_⟩, ⟨asset, _, htitle⟩, fun {other} hother => ?_⟩
  · rw [hstart] at hother
    cases hother
    exact htitle
  · rw [hstart] at hnone
    cases hnone
  · rw [hstart] at hother
    cases hother
    exact hfresh

/-- A sibling has its name. -/
theorem sibling (h : tree.Named title) (id : BundleId) {kind : Kind}
    (hkind : ∃ asset name, title asset = some (kind, name)) : (tree.sibling id kind).2.Named title := by
  cases hget : tree.get? id with
  | none =>
    simp only [BundleTree.sibling, hget]
    exact h
  | some bundle =>
    rcases sibling_cases hget kind with ⟨-, heq⟩ | ⟨-, found, -, heq⟩ | ⟨hne, hmissing, heq⟩
    · rw [heq]
      exact h
    · rw [heq]
      exact h
    · have hext := tree.extends_sibling id kind
      rw [heq] at hext ⊢
      refine h.grow hext ⟨tree.size⟩ fun {other found} hnone hsome => ?_
      have hother : other ≠ id := by
        rintro rfl
        rw [hget] at hnone
        cases hnone
      rw [withSibling, get?_update_of_ne hother] at hsome
      obtain ⟨rfl, rfl⟩ := new_of_push (parent_lt_size rfl hget) hnone hsome
      obtain ⟨above, habove, hcontinues⟩ := hext hget
      have hname : (newSibling bundle id kind).name = above.name.withExtension kind.tag := by
        rw [hcontinues.name]
        rfl
      refine ⟨rfl, ⟨fun {_} hstart => ?_, fun _ => ?_⟩, hkind, fun {_} hstart => ?_⟩
      · cases hstart
      · exact ⟨id, above, rfl, habove, beside?_withSibling hget hne, hname⟩
      · cases hstart

end Named

/-- Whoever has members is there. -/
theorem exists_get?_of_mem {tree : BundleTree} {bundle : BundleId} {id : AssetId}
    (h : id ∈ tree.membersOf bundle) : ∃ value, tree.get? bundle = some value := by
  cases hget : tree.get? bundle with
  | none =>
    unfold membersOf at h
    rw [hget] at h
    cases h
  | some value => exact ⟨value, rfl⟩

end BundleTree

/-! ## Layouts with names -/

namespace Layout

open BundleTree

variable {title : AssetId → Option (Kind × Path)}

/-- An exchanged membership leaves names alone, also where it takes a new sibling. -/
theorem exchange_named {tree : BundleTree} (h : tree.Named title) (id : AssetId) (common : BundleId)
    (bundles : List BundleId) {bundle : BundleId} {value : Bundle} (hget : tree.get? bundle = some value) :
    (exchange id common (tree, bundles) bundle).1.Named title ∧
      tree.Extends (exchange id common (tree, bundles) bundle).1 := by
  have hkind : ∃ asset name, title asset = some (tree.kindOf bundle, name) := by
    rw [kindOf_of_get? hget]
    exact h.kinds hget
  unfold exchange
  dsimp only
  refine ⟨((h.withAssets bundle _).sibling common hkind).withAssets _ _, ?_⟩
  exact ((tree.extends_withAssets bundle _).trans (extends_sibling _ common _)).trans
    (extends_withAssets _ _ _)

/-- So do the exchanges of several memberships. -/
theorem foldl_exchange_named (id : AssetId) (common : BundleId) {ids : List BundleId}
    {state : BundleTree × List BundleId} (h : state.1.Named title)
    (hknown : ∀ bundle ∈ ids, ∃ value, state.1.get? bundle = some value) :
    (ids.foldl (exchange id common) state).1.Named title := by
  induction ids generalizing state with
  | nil => exact h
  | cons bundle rest ih =>
    obtain ⟨hbundle, hrest⟩ := List.forall_mem_cons.1 hknown
    obtain ⟨value, hvalue⟩ := hbundle
    obtain ⟨hnamed, hext⟩ := exchange_named h id common state.2 hvalue
    refine ih hnamed fun other hmem => ?_
    obtain ⟨before, hbefore⟩ := hrest other hmem
    exact hext.exists_get? hbefore

/-- Moving assets leaves names alone. -/
theorem follow_named {layout : Layout} (hsound : layout.Sound) (h : layout.tree.Named title)
    (old common : BundleId) (id : AssetId) : (layout.follow old common id).2.tree.Named title := by
  rcases follow_cases old common id layout with ⟨-, heq⟩ | ⟨asset, hget, -, heq⟩
  · rw [heq]
    exact h
  · rw [heq]
    exact foldl_exchange_named id common h fun bundle hmem =>
      exists_get?_of_mem (hsound.mirror.2 ⟨asset, hget, hmem⟩)

theorem hoist_named {old common : BundleId} (hne : old ≠ common) (ids : List AssetId) {layout : Layout}
    (hsound : layout.Sound) (hold : layout.tree.IsPrimary old) (hcommon : layout.tree.IsPrimary common)
    (hkind : layout.tree.kindOf old = layout.tree.kindOf common) (h : layout.tree.Named title) :
    (hoist old common hne ids layout).tree.Named title := by
  fun_induction hoist old common hne ids layout with
  | case1 layout => exact h
  | case2 id rest layout ih =>
    have hstep := follow_hoisted hsound hcommon hkind id
    exact ih hstep.sound (hstep.grows.isPrimary hold) (hstep.grows.isPrimary hcommon)
      (kindOf_hoisted hstep hold hcommon hkind) (follow_named hsound h old common id)

theorem share_named {layout : Layout} (hsound : layout.Sound) (id : AssetId) {into current : BundleId}
    (hinto : layout.tree.IsPrimary into) (hcurrent : layout.tree.IsPrimary current)
    (h : layout.tree.Named title) : (layout.share id into current).tree.Named title := by
  rcases share_cases layout id into current with ⟨heq, -⟩ | ⟨hne, hkind, heq⟩
  · rw [heq]
    exact h
  · rw [heq]
    exact hoist_named hne [id] hsound hcurrent (isPrimary_commonAncestor hsound.tree hinto hcurrent) hkind h

/-- Entering a bundle leaves names alone. -/
theorem enter_named {layout : Layout} (h : layout.tree.Named title) (id : AssetId) {asset : Asset}
    (hkind : ∃ other name, title other = some (asset.kind, name)) (bundle : BundleId) :
    (layout.enter id asset bundle).tree.Named title := by
  have hentered := (h.sibling bundle hkind).withAssets (layout.tree.sibling bundle asset.kind).1 (includeLast id)
  unfold enter
  dsimp only
  split
  · exact hentered.withAssets bundle (includeLast id)
  · exact hentered

/-- The bundle for a new asset has its name. -/
theorem bundleFor_named {tree : BundleTree} (h : tree.Named title) (outDir : Path) {visit : Visit}
    (hfits : visit.Fits tree) {asset : Asset}
    (htitle : title visit.asset = some (asset.kind, outDir.child (asset.bundleName visit.into.isNone)))
    (hfresh : ∀ {other : BundleId} {before : Bundle}, tree.get? other = some before →
      before.start ≠ some visit.asset) : (bundleFor tree outDir visit asset).2.Named title := by
  rcases bundleFor_cases tree outDir visit asset with ⟨hinto, heq⟩ | ⟨parent, hinto, -, heq⟩ |
    ⟨parent, hinto, -, heq⟩
  · rw [hinto] at htitle
    rw [heq]
    refine h.made ?_ (fun _ => rfl) rfl htitle hfresh
    exact nofun
  · obtain ⟨above, habove⟩ := (hfits.into hinto).exists_get?
    rw [hinto] at htitle
    rw [heq]
    exact h.made (parent_lt_size rfl habove) (fun _ => rfl) rfl htitle hfresh
  · rw [heq]
    exact h

/-- After a visit bundles have their names. -/
theorem visit_named (outDir : Path) {visit : Visit} {layout : Layout} (hsound : layout.Sound)
    (hfits : visit.Fits layout.tree) (hstarted : layout.Started) (h : layout.tree.Named title)
    (htitle : ∀ {asset : Asset}, layout.graph.get? visit.asset = some asset → asset.home = none →
      title visit.asset = some (asset.kind, outDir.child (asset.bundleName visit.into.isNone))) :
    (layout.visit outDir visit).2.tree.Named title := by
  have harrived : (layout.arrive visit).tree.Named title := by
    rw [tree_arrive]
    exact h
  rcases visit_cases outDir visit layout with ⟨-, heq⟩ | ⟨asset, current, into, hget, hhome, hinto, heq⟩ |
    ⟨asset, current, -, -, -, heq⟩ | ⟨asset, bundle, tree, hget, hhome, hbundle, heq⟩
  · rw [heq]
    exact h
  · rw [heq]
    refine share_named (hsound.arrive visit) visit.asset ?_ ?_ harrived
    · rw [tree_arrive]
      exact hfits.into hinto
    · rw [tree_arrive]
      exact hsound.primary hget hhome
  · rw [heq]
    exact harrived
  · -- no bundle was made for the asset before, since it has no place
    have hfresh : ∀ {other : BundleId} {before : Bundle}, layout.tree.get? other = some before →
        before.start ≠ some visit.asset := by
      intro other before hbefore hstart
      obtain ⟨home, hplaced⟩ := hstarted other before _ hbefore hstart
      rw [homeOf_of_get? hget, hhome] at hplaced
      cases hplaced
    have htitle' := htitle hget hhome
    have hmade := bundleFor_named h outDir hfits htitle' hfresh
    rw [tree_arrive] at hbundle
    rw [hbundle] at hmade
    rw [heq]
    exact @enter_named _ ⟨(layout.arrive visit).graph, tree⟩ hmade visit.asset asset ⟨_, _, htitle'⟩ bundle

/-- Whether all bundles have their names, and the entry has a place before any other asset is visited, so
that no other main bundle is made. -/
structure Naming (graph : AssetGraph) (outDir : Path) (start : AssetId) (visits : List Visit)
    (layout : Layout) : Prop where
  content : graph.SameContent layout.graph
  started : layout.Started
  named : layout.tree.Named (graph.titleOf outDir start)
  entered : ∀ visit ∈ visits, visit = Visit.ofEntry start ∨
    visit.into.isNone = false ∧ layout.IsPlaced start

/-- The name for the bundle of an asset without a place. -/
theorem Naming.titleOf_eq {graph : AssetGraph} {outDir : Path} {start : AssetId} {visit : Visit}
    {rest : List Visit} {layout : Layout} (h : Naming graph outDir start (visit :: rest) layout)
    {asset : Asset} (hget : layout.graph.get? visit.asset = some asset) (hhome : asset.home = none) :
    graph.titleOf outDir start visit.asset =
      some (asset.kind, outDir.child (asset.bundleName visit.into.isNone)) := by
  have htitle := AssetGraph.titleOf_of_sameContent h.content outDir start hget
  rcases h.entered visit List.mem_cons_self with rfl | ⟨hinto, home, hplaced⟩
  · rwa [decide_eq_true (show (Visit.ofEntry start).asset = start from rfl)] at htitle
  · have hne : visit.asset ≠ start := by
      rintro rfl
      rw [homeOf_of_get? hget, hhome] at hplaced
      cases hplaced
    rw [hinto]
    rwa [decide_eq_false hne] at htitle

/-- A visit keeps names. -/
theorem Naming.visit {graph : AssetGraph} {outDir : Path} {start : AssetId} {visit : Visit}
    {rest : List Visit} {layout : Layout} (h : Naming graph outDir start (visit :: rest) layout)
    (hsound : layout.Sound) (hfits : visit.Fits layout.tree) :
    Naming graph outDir start ((layout.visit outDir visit).1 ++ rest) (layout.visit outDir visit).2 := by
  have hplaced := isPlaced_visit outDir hsound hfits start
  refine ⟨h.content.trans (sameContent_visit outDir visit layout), h.started.visit outDir hsound hfits,
    visit_named outDir hsound hfits h.started h.named h.titleOf_eq, fun next hmem => ?_⟩
  rcases List.mem_append.1 hmem with hnew | hrest
  · -- the asset that was visited is live, so the entry has a place if it was the entry
    obtain ⟨-, -, hnext⟩ := visit_sound outDir hsound hfits
    obtain ⟨bundle, hinto, -⟩ := hnext next hnew
    obtain ⟨asset, -, hget, -⟩ := imports_of_mem_visit outDir hnew
    refine .inr ⟨by rw [hinto]; rfl, hplaced.2 ?_⟩
    rcases h.entered visit List.mem_cons_self with rfl | ⟨-, hstart⟩
    · exact .inr ⟨rfl, asset, hget⟩
    · exact .inl hstart
  · exact (h.entered next (List.mem_cons_of_mem _ hrest)).imp_right
      (And.imp_right fun hstart => hplaced.2 (.inl hstart))

/-- Every bundle of a finished layout has the name that it is to have. -/
theorem ofGraph_named (graph : AssetGraph) (outDir : Path) (start : AssetId) :
    (ofGraph (graph.updateAll Asset.withoutPlace) outDir start).tree.Named (graph.titleOf outDir start) := by
  have hstart : Naming graph outDir start [Visit.ofEntry start]
      ⟨graph.updateAll Asset.withoutPlace, .empty⟩ := by
    refine ⟨graph.sameContent_withoutPlace, started_start graph, named_empty, fun visit hmem => ?_⟩
    exact .inl (List.mem_singleton.1 hmem)
  exact (ofGraph_visits hstart fun _ _ _ hsound hfits _ h => h.visit hsound hfits).named

end Layout

/-! ## Names that are shared -/

namespace AssetGraph

/-- Whether the assets can give names to bundles: their kinds are extensions, and no bundle is called after
nothing or after a dot. -/
structure Nameable (graph : AssetGraph) (start : AssetId) : Prop where
  extension : ∀ {id : AssetId} {asset : Asset}, graph.get? id = some asset → Path.IsExtension asset.kind.tag
  ne_empty : ∀ {id : AssetId} {asset : Asset}, graph.get? id = some asset →
    asset.bundleStem (decide (id = start)) ≠ ""
  ne_here : ∀ {id : AssetId} {asset : Asset}, graph.get? id = some asset →
    asset.bundleStem (decide (id = start)) ≠ "."

/-- Whether assets of different identities have different digits. -/
def DigitsDiffer (graph : AssetGraph) : Prop :=
  ∀ {a b : AssetId} {first second : Asset}, graph.get? a = some first → graph.get? b = some second →
    (first.identity == second.identity) = false → first.digits ≠ second.digits

/-- Whether bundles that are made for two assets are called by one stem.  One of the two is the entry or leads a
package. -/
def Homonymous (graph : AssetGraph) (start a b : AssetId) : Prop :=
  a ≠ b ∧ ∃ first second, graph.get? a = some first ∧ graph.get? b = some second ∧
    first.bundleStem (decide (a = start)) = second.bundleStem (decide (b = start)) ∧
      (a = start ∨ b = start ∨ first.LeadsPackage ∨ second.LeadsPackage)

/-- Digits keep bundles apart that are called after them. -/
theorem homonymous_of_bundleStem {graph : AssetGraph} (hindexed : graph.Indexed) (hdigits : graph.DigitsDiffer)
    {start a b : AssetId} {first second : Asset} (hne : a ≠ b) (hfirst : graph.get? a = some first)
    (hsecond : graph.get? b = some second)
    (hstem : first.bundleStem (decide (a = start)) = second.bundleStem (decide (b = start))) :
    graph.Homonymous start a b := by
  refine ⟨hne, first, second, hfirst, hsecond, hstem, ?_⟩
  by_contra hnone
  obtain ⟨ha, hb, hleadsA, hleadsB⟩ : a ≠ start ∧ b ≠ start ∧ ¬ first.LeadsPackage ∧ ¬ second.LeadsPackage := by
    tauto
  rw [decide_eq_false ha, decide_eq_false hb, Asset.bundleStem_of_not_leadsPackage hleadsA,
    Asset.bundleStem_of_not_leadsPackage hleadsB] at hstem
  refine hdigits hfirst hsecond ?_ hstem
  rw [← Bool.not_eq_true]
  exact fun hsame => hne (hindexed.eq_of_same hfirst hsecond hsame)

end AssetGraph

namespace BundleTree

/-- The asset that a bundle, or the one that it is a sibling of, was made for. -/
def leaderOf (tree : BundleTree) (id : BundleId) : Option AssetId :=
  (tree.get? id).bind fun bundle => bundle.start <|> (bundle.parent.bind tree.get?).bind Bundle.start

/-- Every bundle stands beside one that was made for its leader, and has its name up to the extension. -/
theorem Named.exists_owner {tree : BundleTree} (hwf : tree.WellFormed)
    {title : AssetId → Option (Kind × Path)} (h : tree.Named title) {id : BundleId} {bundle : Bundle}
    (hget : tree.get? id = some bundle) :
    ∃ leader owner above, tree.leaderOf id = some leader ∧ tree.get? owner = some above ∧
      above.start = some leader ∧ tree.beside? owner bundle.kind = some id ∧
        (bundle = above ∨ bundle.name = above.name.withExtension bundle.kind.tag) := by
  cases hstart : bundle.start with
  | some leader =>
    refine ⟨leader, id, bundle, ?_, hget, hstart, ?_, .inl rfl⟩
    · simp [leaderOf, hget, hstart]
    · rw [← kindOf_of_get? hget]
      exact beside?_kindOf hget
  | none =>
    obtain ⟨owner, above, hparent, habove, hbeside, hname⟩ := (h.titles hget).beside hstart
    obtain ⟨above', habove', hprimary⟩ := hwf.parent_primary hget hparent
    cases habove.symm.trans habove'
    obtain ⟨leader, hleader⟩ := Option.isSome_iff_exists.1 hprimary
    exact ⟨leader, owner, above, by simp [leaderOf, hget, hstart, hparent, habove, hleader], habove, hleader,
      hbeside, .inr hname⟩

end BundleTree

namespace Layout

open BundleTree

variable {graph : AssetGraph} {start : AssetId}

/-- Every bundle is of the kind of an asset. -/
theorem exists_kind_of_bundle (graph : AssetGraph) (outDir : Path) (start : AssetId) {id : BundleId}
    {bundle : Bundle}
    (hget : (ofGraph (graph.updateAll Asset.withoutPlace) outDir start).tree.get? id = some bundle) :
    ∃ other asset, graph.get? other = some asset ∧ asset.kind = bundle.kind := by
  obtain ⟨other, name, htitle⟩ := (ofGraph_named graph outDir start).kinds hget
  obtain ⟨asset, hasset, hsame⟩ := Option.map_eq_some_iff.1 htitle
  exact ⟨other, asset, hasset, (Prod.mk.inj hsame).1⟩

/-- A bundle that was made for its leader is called after it, and any other one has the name of such a bundle
with its own extension. -/
theorem name_cases (graph : AssetGraph) (outDir : Path) (start : AssetId) {id : BundleId} {bundle : Bundle}
    (hget : (ofGraph (graph.updateAll Asset.withoutPlace) outDir start).tree.get? id = some bundle) :
    ∃ leader asset,
      (ofGraph (graph.updateAll Asset.withoutPlace) outDir start).tree.leaderOf id = some leader ∧
        graph.get? leader = some asset ∧
          (bundle.start = some leader ∧ bundle.name =
              outDir.child (asset.bundleStem (decide (leader = start)) ++ "." ++ bundle.kind.tag) ∨
            bundle.start = none ∧ bundle.name =
              (outDir.child (asset.bundleStem (decide (leader = start)) ++ "." ++ asset.kind.tag)).withExtension
                bundle.kind.tag) := by
  have hwf := (ofGraph_sound graph outDir start).tree
  have hnamed := ofGraph_named graph outDir start
  generalize (ofGraph (graph.updateAll Asset.withoutPlace) outDir start).tree = tree at hget hwf hnamed ⊢
  obtain ⟨leader, owner, above, hleader, howner, hstart, -, hname⟩ := hnamed.exists_owner hwf hget
  obtain ⟨asset, hasset, hsame⟩ := Option.map_eq_some_iff.1 ((hnamed.titles howner).own hstart)
  obtain ⟨hkind, htitle⟩ := Prod.mk.inj hsame
  refine ⟨leader, asset, hleader, hasset, ?_⟩
  cases hown : bundle.start with
  | some asset' =>
    have hself : leader = asset' := by
      simpa [leaderOf, hget, hown] using hleader.symm
    subst hself
    have htitle' := (hnamed.titles hget).own hown
    rw [(hnamed.titles howner).own hstart, Option.some.injEq] at htitle'
    obtain ⟨hkinds, hnames⟩ := Prod.mk.inj htitle'
    refine .inl ⟨rfl, ?_⟩
    rw [← hnames, ← hkinds, ← htitle, ← hkind]
    rfl
  | none =>
    rcases hname with rfl | hname
    · rw [hown] at hstart
      cases hstart
    · refine .inr ⟨rfl, ?_⟩
      rw [hname, ← htitle]
      rfl

/-- A bundle is called after its leader, and its extension is its kind. -/
theorem name_eq_child (hnameable : graph.Nameable start) (outDir : Path) {id : BundleId} {bundle : Bundle}
    (hget : (ofGraph (graph.updateAll Asset.withoutPlace) outDir start).tree.get? id = some bundle) :
    ∃ leader asset,
      (ofGraph (graph.updateAll Asset.withoutPlace) outDir start).tree.leaderOf id = some leader ∧
        graph.get? leader = some asset ∧ Path.IsStem (asset.bundleStem (decide (leader = start))) ∧
          Path.IsExtension bundle.kind.tag ∧
            bundle.name = outDir.child
              (asset.bundleStem (decide (leader = start)) ++ "." ++ bundle.kind.tag) := by
  obtain ⟨leader, asset, hleader, hasset, hname⟩ := name_cases graph outDir start hget
  obtain ⟨other, owner, howner, hkind⟩ := exists_kind_of_bundle graph outDir start hget
  have hextension : Path.IsExtension bundle.kind.tag := hkind ▸ hnameable.extension howner
  have hstem : Path.IsStem (asset.bundleStem (decide (leader = start))) :=
    ⟨asset.isFlat_bundleStem _, hnameable.ne_empty hasset, hnameable.ne_here hasset⟩
  refine ⟨leader, asset, hleader, hasset, hstem, hextension, ?_⟩
  rcases hname with ⟨-, hname⟩ | ⟨-, hname⟩
  · exact hname
  · rw [hname, outDir.withExtension_child hstem (hnameable.extension hasset) hextension]

/-- Bundles of one kind that have the same leader are one bundle. -/
theorem eq_of_leaderOf (outDir : Path) {a b : BundleId} {x y : Bundle} {leader : AssetId}
    (hx : (ofGraph (graph.updateAll Asset.withoutPlace) outDir start).tree.get? a = some x)
    (hy : (ofGraph (graph.updateAll Asset.withoutPlace) outDir start).tree.get? b = some y)
    (hkind : x.kind = y.kind)
    (ha : (ofGraph (graph.updateAll Asset.withoutPlace) outDir start).tree.leaderOf a = some leader)
    (hb : (ofGraph (graph.updateAll Asset.withoutPlace) outDir start).tree.leaderOf b = some leader) :
    a = b := by
  have hwf := (ofGraph_sound graph outDir start).tree
  have hnamed := ofGraph_named graph outDir start
  obtain ⟨leaderA, ownerA, aboveA, hleaderA, howner, hstart, hbeside, -⟩ := hnamed.exists_owner hwf hx
  obtain ⟨leaderB, ownerB, aboveB, hleaderB, howner', hstart', hbeside', -⟩ := hnamed.exists_owner hwf hy
  cases ha.symm.trans hleaderA
  cases hb.symm.trans hleaderB
  have hsame := hnamed.starts howner howner' hstart hstart'
  rw [hsame, hkind] at hbeside
  exact Option.some.inj (hbeside.symm.trans hbeside')

/-- When the digits of different identities differ, two bundles of a layout share a name just if they are of
one kind and stand beside bundles for two assets that share a stem.  Such assets are not kept apart: one of
them is the entry or leads a package. -/
theorem name_eq_iff (hindexed : graph.Indexed) (hnameable : graph.Nameable start)
    (hdigits : graph.DigitsDiffer) (outDir : Path) {a b : BundleId} {x y : Bundle}
    (hx : (ofGraph (graph.updateAll Asset.withoutPlace) outDir start).tree.get? a = some x)
    (hy : (ofGraph (graph.updateAll Asset.withoutPlace) outDir start).tree.get? b = some y) :
    (x.name == y.name) = true ↔ a = b ∨ x.kind = y.kind ∧ ∃ p q,
      (ofGraph (graph.updateAll Asset.withoutPlace) outDir start).tree.leaderOf a = some p ∧
        (ofGraph (graph.updateAll Asset.withoutPlace) outDir start).tree.leaderOf b = some q ∧
          graph.Homonymous start p q := by
  obtain ⟨p, first, hp, hfirst, hstem, hextension, hname⟩ := name_eq_child hnameable outDir hx
  obtain ⟨q, second, hq, hsecond, hstem', hextension', hname'⟩ := name_eq_child hnameable outDir hy
  constructor
  · intro hsame
    -- the file names are taken apart at their last dots
    have hfile := Path.fileName?_congr hsame
    rw [hname, hname', outDir.fileName?_child (Path.isFileName_append hstem.flat hextension),
      outDir.fileName?_child (Path.isFileName_append hstem'.flat hextension')] at hfile
    have hparts := congrArg Path.splitName (Option.some.inj hfile)
    rw [Path.splitName_append hstem.ne_empty hextension.dotless,
      Path.splitName_append hstem'.ne_empty hextension'.dotless] at hparts
    obtain ⟨hstems, htags⟩ := Prod.mk.inj hparts
    have hkind : x.kind = y.kind := congrArg Kind.mk (Option.some.inj htags)
    by_cases hleaders : p = q
    · exact .inl (eq_of_leaderOf outDir hx hy hkind hp (hleaders ▸ hq))
    · exact .inr ⟨hkind, p, q, hp, hq,
        AssetGraph.homonymous_of_bundleStem hindexed hdigits hleaders hfirst hsecond hstems⟩
  · rintro (rfl | ⟨hkind, p', q', hp', hq', -, first', second', hfirst', hsecond', hstems, -⟩)
    · cases hx.symm.trans hy
      exact Path.beq_refl _
    · cases hp.symm.trans hp'
      cases hq.symm.trans hq'
      cases hfirst.symm.trans hfirst'
      cases hsecond.symm.trans hsecond'
      rw [hname, hname', hstems, hkind]
      exact Path.beq_refl _

/-! ## An entry and a package of one name -/

/-- A package that is called {lit}`widgets`. -/
def widgetsPackage : Package where
  name := some "widgets"
  main := some "index.js"
  manifest := some ⟨"/s/lib/package.json"⟩

/-- The entry {lit}`widgets.js`, which imports that package on demand.  Both have a stylesheet. -/
def widgetsGraph : AssetGraph :=
  [(⟨"/s/widgets.js"⟩, Kind.js, {}), (⟨"/s/widgets.css"⟩, Kind.css, {}),
      (⟨"/s/lib/index.js"⟩, Kind.js, widgetsPackage), (⟨"/s/lib/index.css"⟩, Kind.css, widgetsPackage)].foldl
      (fun graph (identity, kind, package) => (graph.insert identity kind package).2) AssetGraph.empty
    |>.update ⟨0⟩ (fun asset => (asset.connect "css" ⟨1⟩).declare { specifier := "css" })
    |>.update ⟨0⟩ (fun asset => (asset.connect "lib" ⟨2⟩).declare { specifier := "lib", dynamic := true })
    |>.update ⟨2⟩ (fun asset => (asset.connect "css" ⟨3⟩).declare { specifier := "css" })

/-- Its bundles are called by two names. -/
theorem names_widgetsGraph :
    (ofGraph (widgetsGraph.updateAll Asset.withoutPlace) ⟨"/dist"⟩ ⟨0⟩).tree.bundles.map
        (fun bundle => (bundle.kind, bundle.name)) =
      [(.js, ⟨"/dist/widgets.js"⟩), (.css, ⟨"/dist/widgets.css"⟩),
        (.js, ⟨"/dist/widgets.js"⟩), (.css, ⟨"/dist/widgets.css"⟩)] := by
  rw [@ofGraph_of_steps _ _ _ 4 (by decide)]
  decide

theorem get?_widgetsGraph {index : Nat} {kind : Kind} {name : Path}
    (h : [(Kind.js, Path.mk "/dist/widgets.js"), (Kind.css, Path.mk "/dist/widgets.css"),
      (Kind.js, Path.mk "/dist/widgets.js"), (Kind.css, Path.mk "/dist/widgets.css")][index]? =
        some (kind, name)) :
    ∃ bundle, (ofGraph (widgetsGraph.updateAll Asset.withoutPlace) ⟨"/dist"⟩ ⟨0⟩).tree.get? ⟨index⟩ =
      some bundle ∧ bundle.kind = kind ∧ bundle.name = name := by
  rw [← names_widgetsGraph, List.getElem?_map] at h
  obtain ⟨bundle, hget, hsame⟩ := Option.map_eq_some_iff.1 h
  exact ⟨bundle, hget, Prod.mk.inj hsame⟩

theorem indexed_widgetsGraph : widgetsGraph.Indexed := by
  have hmodule : ∀ (specifier : String) (target : AssetId) (dep : Dependency),
      Asset.KeepsModule fun asset => (asset.connect specifier target).declare dep := fun _ _ _ => {}
  unfold widgetsGraph
  refine AssetGraph.indexed_update (AssetGraph.indexed_update (AssetGraph.indexed_update ?_ _ (hmodule _ _ _)) _
    (hmodule _ _ _)) _ (hmodule _ _ _)
  simp only [List.foldl_cons, List.foldl_nil]
  exact AssetGraph.indexed_insert (AssetGraph.indexed_insert (AssetGraph.indexed_insert
    (AssetGraph.indexed_insert AssetGraph.indexed_empty _ _ _) _ _ _) _ _ _) _ _ _

theorem digits_widgetsGraph : widgetsGraph.live.map Asset.digits =
    ["a073b2c78241dfa2", "5e7f3a809d97a76e", "d1355977ef6e529f", "aaad9b29ba2e94ff"] := by
  decide +kernel

theorem two_le_length_widgetsGraph {asset : Asset} (hlive : asset ∈ widgetsGraph.live) (isMain : Bool) :
    2 ≤ (asset.bundleStem isMain).toList.length := by
  have hnames : ∀ asset ∈ widgetsGraph.live,
      (∀ name ∈ asset.package.name, 2 ≤ (Asset.flatName name).toList.length) ∧
        2 ≤ (asset.identity.stem?.getD "index").toList.length := by
    decide
  have hdigits : ∀ digits ∈ widgetsGraph.live.map Asset.digits, 2 ≤ digits.toList.length := by
    rw [digits_widgetsGraph]
    decide
  rcases asset.bundleStem_cases isMain with ⟨name, -, hname, heq⟩ | ⟨-, heq⟩ | ⟨-, heq⟩
  · rw [heq]
    exact (hnames asset hlive).1 name hname
  · rw [heq]
    exact (hnames asset hlive).2
  · rw [heq]
    exact hdigits _ (List.mem_map_of_mem hlive)

theorem nameable_widgetsGraph : widgetsGraph.Nameable ⟨0⟩ := by
  have hextensions : ∀ asset ∈ widgetsGraph.live, Path.IsExtension asset.kind.tag := by
    decide
  have hlength {id : AssetId} {asset : Asset} (h : widgetsGraph.get? id = some asset) :=
    two_le_length_widgetsGraph (indexed_widgetsGraph.mem_live h) (decide (id = ⟨0⟩))
  refine ⟨fun h => hextensions _ (indexed_widgetsGraph.mem_live h), fun h hstem => ?_, fun h hstem => ?_⟩
  · have hshort := hlength h
    rw [hstem] at hshort
    exact absurd hshort (by decide)
  · have hshort := hlength h
    rw [hstem] at hshort
    exact absurd hshort (by decide)

theorem digitsDiffer_widgetsGraph : widgetsGraph.DigitsDiffer := by
  have hnodup : (widgetsGraph.live.map Asset.digits).Nodup := by
    rw [digits_widgetsGraph]
    decide
  intro a b first second ha hb hdifferent hsame
  have heq := List.inj_on_of_nodup_map hnodup (indexed_widgetsGraph.mem_live ha)
    (indexed_widgetsGraph.mem_live hb) hsame
  rw [heq, Path.beq_refl] at hdifferent
  cases hdifferent

/-- The stylesheets of the entry and of the package share a name as well. -/
theorem name_eq_widgetsGraph : ∃ x y,
    (ofGraph (widgetsGraph.updateAll Asset.withoutPlace) ⟨"/dist"⟩ ⟨0⟩).tree.get? ⟨1⟩ = some x ∧
      (ofGraph (widgetsGraph.updateAll Asset.withoutPlace) ⟨"/dist"⟩ ⟨0⟩).tree.get? ⟨3⟩ = some y ∧
        (x.name == y.name) = true ∧
          ((⟨1⟩ : BundleId) = ⟨3⟩ ∨ x.kind = y.kind ∧ ∃ p q,
            (ofGraph (widgetsGraph.updateAll Asset.withoutPlace) ⟨"/dist"⟩ ⟨0⟩).tree.leaderOf ⟨1⟩ = some p ∧
              (ofGraph (widgetsGraph.updateAll Asset.withoutPlace) ⟨"/dist"⟩ ⟨0⟩).tree.leaderOf ⟨3⟩ = some q ∧
                widgetsGraph.Homonymous ⟨0⟩ p q) := by
  obtain ⟨x, hx, -, hname⟩ := @get?_widgetsGraph 1 _ _ rfl
  obtain ⟨y, hy, -, hname'⟩ := @get?_widgetsGraph 3 _ _ rfl
  have hsame : (x.name == y.name) = true := by
    rw [hname, hname']
    exact Path.beq_refl _
  exact ⟨x, y, hx, hy, hsame,
    (name_eq_iff indexed_widgetsGraph nameable_widgetsGraph digitsDiffer_widgetsGraph ⟨"/dist"⟩ hx hy).1 hsame⟩

/-- Two bundles of a layout can share a name although the digits of all assets differ. -/
theorem exists_shared_name :
    ¬ ∀ (graph : AssetGraph) (outDir : Path) (start : AssetId) (a b : BundleId) (x y : Bundle),
      graph.Indexed → graph.Nameable start → graph.DigitsDiffer →
        (ofGraph (graph.updateAll Asset.withoutPlace) outDir start).tree.get? a = some x →
          (ofGraph (graph.updateAll Asset.withoutPlace) outDir start).tree.get? b = some y →
            (x.name == y.name) = true → a = b := by
  intro hclaim
  obtain ⟨x, hx, -, hname⟩ := @get?_widgetsGraph 0 _ _ rfl
  obtain ⟨y, hy, -, hname'⟩ := @get?_widgetsGraph 2 _ _ rfl
  have hsame : (x.name == y.name) = true := by
    rw [hname, hname']
    exact Path.beq_refl _
  have heq := hclaim widgetsGraph ⟨"/dist"⟩ ⟨0⟩ ⟨0⟩ ⟨2⟩ x y indexed_widgetsGraph nameable_widgetsGraph
    digitsDiffer_widgetsGraph hx hy hsame
  cases heq

end Layout
end ModuleBundler
