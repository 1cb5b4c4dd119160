import Mathlib.Data.List.Basic
import Mathlib.Data.List.Flatten
import Mathlib.Data.List.Pairwise
import ModuleBundler.Bundle.Packagers
import ModuleBundler.Proofs.Bundle.Placement

/-!
# Skipping unchanged bundles

A bundle is not written again if its fingerprint is the one that it had the last
time.  The fingerprint is that of the members' fingerprints, so it fixes what the
members contribute.  It does not fix under which media queries they are imported:
these are the importers' affair, and a stylesheet does not show in its output
under which query it imports another one.

Main results:

- Theorem {lit}`Packaging.mem_changed_plan`: which bundles are planned as changed.
- Theorem {lit}`Packaging.changed_eq_nil`: bundles whose fingerprints are remembered are not planned again.
- Theorem {lit}`Packaging.exists_of_skipped`: a bundle that is skipped was planned before, with the same
  fingerprint.
- Theorem {lit}`Packaging.contents_eq`: equal fingerprints mean equal contents, in the same order.
- Theorem {lit}`Packaging.render_eq_of_skipped`: a bundle that is skipped would be written as before, unless it
  is a stylesheet with a member that is imported under other media queries than before.
-/

namespace ModuleBundler
namespace Packaging

/-! ## Plans -/

section

variable {tree : BundleTree} {graph : AssetGraph} {previous : Option Fingerprints}

/-- Only a bundle with members is planned: its fingerprint is noted, and it is written again unless it had
that fingerprint before. -/
theorem planBundle_cases (plan : Plan) (id : BundleId) :
    ((∀ bundle, tree.get? id = some bundle → bundle.assets = []) ∧
      planBundle tree graph previous plan id = plan) ∨
    ∃ bundle, tree.get? id = some bundle ∧ bundle.assets ≠ [] ∧
      (planBundle tree graph previous plan id).hashes =
        plan.hashes.put bundle.name (tree.fingerprint id graph) ∧
      (planBundle tree graph previous plan id).changed =
        if isUnchanged previous bundle.name (tree.fingerprint id graph) then plan.changed
        else plan.changed ++ [snapshot graph bundle] := by
  unfold planBundle
  cases hget : tree.get? id with
  | none => exact .inl ⟨nofun, rfl⟩
  | some bundle =>
    by_cases hassets : bundle.assets = []
    · refine .inl ⟨?_, by simp [hassets]⟩
      rintro other ⟨⟩
      exact hassets
    · exact .inr ⟨bundle, rfl, hassets, by simp [hassets], by simp [hassets]⟩

/-- Whether a bundle with members has another fingerprint than before, and the copy is its copy. -/
def Changed (tree : BundleTree) (graph : AssetGraph) (previous : Option Fingerprints) (copy : PackagedBundle)
    (id : BundleId) : Prop :=
  ∃ bundle, tree.get? id = some bundle ∧ bundle.assets ≠ [] ∧
    isUnchanged previous bundle.name (tree.fingerprint id graph) = false ∧ copy = snapshot graph bundle

theorem mem_changed_planBundle {plan : Plan} {id : BundleId} {copy : PackagedBundle} :
    copy ∈ (planBundle tree graph previous plan id).changed ↔
      copy ∈ plan.changed ∨ Changed tree graph previous copy id := by
  rcases @planBundle_cases tree graph previous plan id with ⟨hnone, heq⟩ |
    ⟨bundle, hget, hassets, -, heq⟩
  · rw [heq]
    refine ⟨.inl, fun h => h.resolve_right ?_⟩
    rintro ⟨bundle, hget, hassets, -⟩
    exact hassets (hnone bundle hget)
  · rw [heq]
    unfold Changed
    cases hunchanged : isUnchanged previous bundle.name (tree.fingerprint id graph) <;>
      simp [hget, hassets, hunchanged]

/-- Planned as changed are the copies of the bundles with members that have another fingerprint than
before. -/
theorem mem_changed_plan {copy : PackagedBundle} :
    copy ∈ (plan tree graph previous).changed ↔ ∃ id ∈ tree.walk, Changed tree graph previous copy id := by
  have hfold : ∀ (ids : List BundleId) (start : Plan),
      copy ∈ (ids.foldl (planBundle tree graph previous) start).changed ↔
        copy ∈ start.changed ∨ ∃ id ∈ ids, Changed tree graph previous copy id := by
    intro ids
    induction ids with
    | nil => simp
    | cons id rest ih =>
      intro start
      rw [List.foldl_cons, ih, mem_changed_planBundle, or_assoc, List.exists_mem_cons_iff]
  unfold plan
  rw [hfold]
  exact or_iff_right List.not_mem_nil

/-- A bundle with members is planned as changed, unless it had its fingerprint before. -/
theorem isUnchanged_of_not_mem {id : BundleId} {bundle : Bundle} (hid : id ∈ tree.walk)
    (hbundle : tree.get? id = some bundle) (hassets : bundle.assets ≠ [])
    (h : snapshot graph bundle ∉ (plan tree graph previous).changed) :
    isUnchanged previous bundle.name (tree.fingerprint id graph) = true := by
  rw [← Bool.not_eq_false]
  exact fun hchanged => h (mem_changed_plan.2 ⟨id, hid, bundle, hbundle, hassets, hchanged, rfl⟩)

/-- If all bundles with members have the fingerprints that they had before, none of them is planned as
changed. -/
theorem changed_eq_nil (h : ∀ id ∈ tree.walk, ∀ bundle, tree.get? id = some bundle → bundle.assets ≠ [] →
    isUnchanged previous bundle.name (tree.fingerprint id graph) = true) :
    (plan tree graph previous).changed = [] := by
  refine List.eq_nil_iff_forall_not_mem.2 fun copy hcopy => ?_
  obtain ⟨id, hid, bundle, hbundle, hassets, hchanged, -⟩ := mem_changed_plan.1 hcopy
  rw [h id hid bundle hbundle hassets] at hchanged
  cases hchanged

/-- Whether a bundle with members has the name. -/
def Listed (tree : BundleTree) (name : Path) (id : BundleId) : Prop :=
  ∃ bundle, tree.get? id = some bundle ∧ bundle.assets ≠ [] ∧ (bundle.name == name) = true

/-- A name has the fingerprint that is noted for it in this step, or the one that it had. -/
theorem hashes_planBundle_cases (plan : Plan) (id : BundleId) (name : Path) :
    (¬ Listed tree name id ∧
      (planBundle tree graph previous plan id).hashes.get? name = plan.hashes.get? name) ∨
    (Listed tree name id ∧
      (planBundle tree graph previous plan id).hashes.get? name = some (tree.fingerprint id graph)) := by
  rcases @planBundle_cases tree graph previous plan id with ⟨hnone, heq⟩ |
    ⟨bundle, hget, hassets, heq, -⟩
  · refine .inl ⟨?_, by rw [heq]⟩
    rintro ⟨bundle, hget, hassets, -⟩
    exact hassets (hnone bundle hget)
  · rw [heq]
    cases hname : bundle.name == name with
    | false =>
      refine .inl ⟨?_, Path.Map.get?_put_of_ne hname _ _⟩
      rintro ⟨other, hother, -, hsame⟩
      rw [Option.some.inj (hget.symm.trans hother), hsame] at hname
      cases hname
    | true => exact .inr ⟨⟨bundle, hget, hassets, hname⟩, Path.Map.get?_put_self hname _ _⟩

/-- A planned fingerprint is that of a bundle with members, which has the name. -/
theorem exists_of_get?_hashes {name : Path} {hash : String}
    (h : (plan tree graph previous).hashes.get? name = some hash) :
    ∃ id ∈ tree.walk, Listed tree name id ∧ tree.fingerprint id graph = hash := by
  refine @List.foldlRecOn _ _ (fun planned : Plan => planned.hashes.get? name = some hash →
    ∃ id ∈ tree.walk, Listed tree name id ∧ tree.fingerprint id graph = hash) tree.walk _ ⟨[], .empty⟩ nofun
    (fun planned ih id hid h => ?_) h
  rcases @hashes_planBundle_cases tree graph previous planned id name with ⟨-, heq⟩ | ⟨hlisted, heq⟩
  · exact ih (heq ▸ h)
  · exact ⟨id, hid, hlisted, Option.some.inj (heq.symm.trans h)⟩

/-- Every bundle with members has a planned fingerprint. -/
theorem has_hashes_of_mem {name : Path} {id : BundleId} (hid : id ∈ tree.walk)
    (hlisted : Listed tree name id) : (plan tree graph previous).hashes.has name = true := by
  have hkeep : ∀ (ids : List BundleId) (start : Plan),
      start.hashes.has name = true ∨ (∃ id ∈ ids, Listed tree name id) →
        (ids.foldl (planBundle tree graph previous) start).hashes.has name = true := by
    intro ids
    induction ids with
    | nil => exact fun start h => h.resolve_right (by simp)
    | cons id rest ih =>
      intro start h
      apply ih
      unfold Path.Map.has at h ⊢
      rw [List.exists_mem_cons_iff] at h
      rcases @hashes_planBundle_cases tree graph previous start id name with ⟨hnot, heq⟩ | ⟨-, heq⟩
      · rw [heq]
        exact h.imp_right fun h => h.resolve_left hnot
      · rw [heq]
        exact .inl rfl
  exact hkeep tree.walk _ (.inr ⟨id, hid, hlisted⟩)

end

section

variable {first second : BundleTree} {before after : AssetGraph} {previous : Option Fingerprints}

/-- A bundle that is skipped was planned before, with the same fingerprint. -/
theorem exists_of_skipped {id : BundleId} {bundle : Bundle} (hid : id ∈ second.walk)
    (hbundle : second.get? id = some bundle) (hassets : bundle.assets ≠ [])
    (hskipped : snapshot after bundle ∉
      (plan second after (some (plan first before previous).hashes)).changed) :
    ∃ id' ∈ first.walk, ∃ other, first.get? id' = some other ∧ other.assets ≠ [] ∧
      (other.name == bundle.name) = true ∧ first.fingerprint id' before = second.fingerprint id after := by
  have hunchanged := isUnchanged_of_not_mem hid hbundle hassets hskipped
  have hget : (plan first before previous).hashes.get? bundle.name =
      some (second.fingerprint id after) := by
    unfold isUnchanged at hunchanged
    exact eq_of_beq hunchanged
  obtain ⟨other, hother, ⟨found, hfound, hmembers, hname⟩, hsame⟩ := exists_of_get?_hashes hget
  exact ⟨other, hother, found, hfound, hmembers, hname, hsame⟩

/-! ## Contents -/

/-- The live members of a bundle. -/
def members (graph : AssetGraph) (bundle : Bundle) : List Asset :=
  bundle.assets.filterMap graph.get?

theorem mem_live_of_mem_members {graph : AssetGraph} {bundle : Bundle} {asset : Asset}
    (h : asset ∈ members graph bundle) : asset ∈ graph.live := by
  obtain ⟨id, -, hget⟩ := List.mem_filterMap.1 h
  have hslot : graph.slots[id.index]? = some (some asset) := by
    unfold AssetGraph.get? at hget
    exact Option.join_eq_some_iff.1 hget
  exact List.mem_filterMap.2 ⟨some asset, List.mem_of_getElem? hslot, rfl⟩

/-- Whether all assets have fingerprints of the given length. -/
def HashedBy (length : Nat) (graph : AssetGraph) : Prop :=
  ∀ asset ∈ graph.live, asset.hash.map String.length = some length

/-- Whether assets with the same fingerprint have the same output. -/
def HashedApart (before after : AssetGraph) : Prop :=
  ∀ a ∈ before.live, ∀ b ∈ after.live, a.hash = b.hash → a.compiled = b.compiled

/-- The text that stands for the members consists of the fingerprints of those that are live. -/
theorem fingerprintText_eq {tree : BundleTree} {graph : AssetGraph} {id : BundleId} {bundle : Bundle}
    (h : tree.get? id = some bundle) :
    tree.fingerprintText id graph =
      String.join ((members graph bundle).map fun asset => asset.hash.getD "") := by
  have hjoin : ∀ ids : List AssetId,
      (ids.map fun id => ((graph.get? id).bind Asset.hash).getD "").flatMap String.toList =
        ((ids.filterMap graph.get?).map fun asset => asset.hash.getD "").flatMap String.toList := by
    intro ids
    induction ids with
    | nil => rfl
    | cons id rest ih =>
      cases hget : graph.get? id with
      | none => simpa [hget] using ih
      | some asset => simpa [hget] using ih
  unfold BundleTree.fingerprintText members
  rw [h]
  apply String.toList_injective
  rw [String.toList_join, String.toList_join]
  exact hjoin bundle.assets

/-- Texts of one positive length can be told apart after they were joined. -/
theorem join_injective {length : Nat} (hpos : 0 < length) {as bs : List String}
    (has : ∀ a ∈ as, a.length = length) (hbs : ∀ b ∈ bs, b.length = length)
    (h : String.join as = String.join bs) : as = bs := by
  have hlengths : ∀ texts : List String, (∀ text ∈ texts, text.length = length) →
      (texts.map String.toList).map List.length = List.replicate texts.length length := by
    intro texts htexts
    rw [List.map_map, List.eq_replicate_iff]
    refine ⟨by simp, ?_⟩
    intro n hn
    obtain ⟨text, htext, rfl⟩ := List.mem_map.1 hn
    exact htexts text htext
  have hflat : (as.map String.toList).flatten = (bs.map String.toList).flatten := by
    have hlists := congrArg String.toList h
    rwa [String.toList_join, String.toList_join, List.flatMap_def, List.flatMap_def] at hlists
  have hcount : as.length = bs.length := by
    have hsum := congrArg List.length hflat
    rw [List.length_flatten, List.length_flatten, hlengths as has, hlengths bs hbs, List.sum_replicate_nat,
      List.sum_replicate_nat] at hsum
    exact Nat.eq_of_mul_eq_mul_right hpos hsum
  have heq : as.map String.toList = bs.map String.toList := by
    apply List.eq_iff_flatten_eq.2
    refine ⟨hflat, ?_⟩
    rw [hlengths as has, hlengths bs hbs, hcount]
  exact (List.map_inj_right fun _ _ hlists => String.toList_injective hlists).1 heq

/-- Elements that are told apart by one function need to be told apart by no other. -/
theorem map_eq_map {α β γ : Type} {f : α → β} {g : α → γ} {as bs : List α} (h : as.map f = bs.map f)
    (hfg : ∀ a ∈ as, ∀ b ∈ bs, f a = f b → g a = g b) : as.map g = bs.map g := by
  induction as generalizing bs with
  | nil => rw [List.map_eq_nil_iff.1 h.symm]
  | cons a rest ih =>
    cases bs with
    | nil => cases h
    | cons b bs =>
      obtain ⟨hhead, hrest⟩ := List.cons.inj h
      have hg := hfg a List.mem_cons_self b List.mem_cons_self hhead
      have hgs := ih hrest fun a ha b hb =>
        hfg a (List.mem_cons_of_mem _ ha) b (List.mem_cons_of_mem _ hb)
      rw [List.map_cons, List.map_cons, hg, hgs]

/-- Equal fingerprints mean equal contents, in the same order. -/
theorem contents_eq {length : Nat} (hpos : 0 < length) (hbefore : HashedBy length before)
    (hafter : HashedBy length after)
    (houtput : HashedApart before after)
    {id id' : BundleId} {bundle other : Bundle} (hbundle : second.get? id = some bundle)
    (hother : first.get? id' = some other) (hkind : other.kind = bundle.kind)
    (htext : first.fingerprintText id' before = second.fingerprintText id after) :
    (snapshot before other).assets.map PackagedAsset.content =
      (snapshot after bundle).assets.map PackagedAsset.content := by
  have hhashed : ∀ {graph : AssetGraph}, HashedBy length graph → ∀ (bundle : Bundle),
      ∀ asset ∈ members graph bundle, ∃ hash, asset.hash = some hash ∧ hash.length = length := by
    intro graph hgraph bundle asset hasset
    exact Option.map_eq_some_iff.1 (hgraph asset (mem_live_of_mem_members hasset))
  have hlength : ∀ {graph : AssetGraph}, HashedBy length graph → ∀ (bundle : Bundle),
      ∀ hash ∈ (members graph bundle).map (fun asset => asset.hash.getD ""), hash.length = length := by
    intro graph hgraph bundle hash hmem
    obtain ⟨asset, hasset, rfl⟩ := List.mem_map.1 hmem
    obtain ⟨hash, hhash, hlength⟩ := hhashed hgraph bundle asset hasset
    rw [hhash]
    exact hlength
  rw [fingerprintText_eq hother, fingerprintText_eq hbundle] at htext
  have hhashes := join_injective hpos (hlength hbefore other) (hlength hafter bundle) htext
  unfold snapshot
  rw [hkind, List.map_map, List.map_map]
  refine map_eq_map hhashes fun a ha b hb heq => ?_
  -- members with the same fingerprint have the same output
  obtain ⟨hash, hhash, -⟩ := hhashed hbefore other a ha
  obtain ⟨hash', hhash', -⟩ := hhashed hafter bundle b hb
  simp only [hhash, hhash', Option.getD_some] at heq
  have hcompiled := houtput a (mem_live_of_mem_members ha) b (mem_live_of_mem_members hb)
    (by rw [hhash, hhash', heq])
  simp only [Function.comp_apply, copyOf, hcompiled]

/-! ## Texts -/

/-- A stylesheet is written from its content and its media queries. -/
theorem renderStyled_congr {a b : PackagedAsset} (hcontent : a.content = b.content)
    (hmedia : mediaQueries a = mediaQueries b) : renderStyled a = renderStyled b := by
  unfold renderStyled
  rw [hmedia, hcontent]

/-- A packager writes bundles with the same contents alike; stylesheets also have to be imported under the
same media queries. -/
theorem render_congr (packager : Packager) {a b : PackagedBundle}
    (hcontents : a.assets.map PackagedAsset.content = b.assets.map PackagedAsset.content)
    (hmedia : packager = .stylesheet → a.assets.map mediaQueries = b.assets.map mediaQueries) :
    packager.render a = packager.render b := by
  cases packager with
  | plain => exact congrArg ("\n".intercalate ·) hcontents
  | stylesheet =>
    have hstyled : ∀ {as bs : List PackagedAsset},
        as.map PackagedAsset.content = bs.map PackagedAsset.content →
          as.map mediaQueries = bs.map mediaQueries → as.map renderStyled = bs.map renderStyled := by
      intro as
      induction as with
      | nil =>
        intro bs hcontents _
        rw [List.map_eq_nil_iff.1 hcontents.symm]
      | cons a rest ih =>
        intro bs hcontents hmedia
        cases bs with
        | nil => cases hcontents
        | cons b bs =>
          obtain ⟨hhead, hrest⟩ := List.cons.inj hcontents
          obtain ⟨hhead', hrest'⟩ := List.cons.inj hmedia
          rw [List.map_cons, List.map_cons, renderStyled_congr hhead hhead', ih hrest hrest']
    exact congrArg ("\n".intercalate ·) (hstyled hcontents (hmedia rfl))

/-- A bundle that is skipped would be written as the bundle of its name and kind was before, unless it is a
stylesheet and some member is imported under other media queries than before.  The fingerprints of assets
are supposed to be digests of one length that are equal for equal output only, and those of bundles not to
collide. -/
theorem render_eq_of_skipped
    (hnames : first.walk.Pairwise fun x y => (first.nameOf x == first.nameOf y) = false)
    {length : Nat} (hpos : 0 < length) (hbefore : HashedBy length before)
    (hafter : HashedBy length after)
    (houtput : HashedApart before after)
    (hcollide : ∀ x ∈ first.walk, ∀ y ∈ second.walk,
      first.fingerprint x before = second.fingerprint y after →
        first.fingerprintText x before = second.fingerprintText y after)
    {id : BundleId} {bundle : Bundle} (hid : id ∈ second.walk) (hbundle : second.get? id = some bundle)
    (hassets : bundle.assets ≠ [])
    (hskipped : snapshot after bundle ∉
      (plan second after (some (plan first before previous).hashes)).changed) :
    ∃ id' other, first.get? id' = some other ∧
      (∀ x ∈ first.walk, (first.nameOf x == bundle.name) = true ↔ x = id') ∧
        (other.kind = bundle.kind → ∀ packager : Packager,
          (packager = .stylesheet → (snapshot before other).assets.map mediaQueries =
            (snapshot after bundle).assets.map mediaQueries) →
              packager.render (snapshot after bundle) = packager.render (snapshot before other)) := by
  obtain ⟨id', hid', other, hother, -, hname, hfingerprint⟩ :=
    exists_of_skipped hid hbundle hassets hskipped
  have hname' : first.nameOf id' = other.name := by simp [BundleTree.nameOf, hother]
  have hsymm : Std.Symm fun x y => (first.nameOf x == first.nameOf y) = false := by
    refine ⟨fun x y hxy => ?_⟩
    cases hyx : first.nameOf y == first.nameOf x with
    | false => rfl
    | true => rwa [Path.beq_symm hyx] at hxy
  refine ⟨id', other, hother, fun x hx => ⟨fun hsame => ?_, ?_⟩, fun hkind packager hmedia => ?_⟩
  · by_cases hne : x = id'
    · exact hne
    · -- names are different in pairs
      have hdifferent := hnames.forall hx hid' hne
      rw [hname', Path.beq_trans hsame (Path.beq_symm hname)] at hdifferent
      cases hdifferent
  · rintro rfl
    rwa [hname']
  · have htext := hcollide id' hid' id hid hfingerprint
    have hcontents := contents_eq hpos hbefore hafter houtput hbundle hother hkind htext
    exact (render_congr packager hcontents hmedia).symm

end

/-! ## A stylesheet that is imported under another query -/

/-- A graph of two stylesheets, the first of which imports the second one under a media query. -/
def styledGraph (query : String) : AssetGraph :=
  let compiled (text : String) (asset : Asset) : Asset :=
    { asset with compiled := some (.single "css" text), hash := some text, dirty := false }
  let graph := (AssetGraph.empty.add ⟨"/a.css"⟩ .css {}).add ⟨"/c.css"⟩ .css {}
  ((graph.update ⟨0⟩ (compiled "a")).update ⟨1⟩ (compiled "c")).link ⟨0⟩
    { specifier := "./c.css", media := some query } (some ⟨1⟩)

/-- The layout of the graph. -/
def styledLayout (query : String) : Layout :=
  Layout.ofGraph ((styledGraph query).updateAll Asset.withoutPlace) ⟨"/dist"⟩ ⟨0⟩

/-- The layout of the graph, found in two visits. -/
def styledSteps (query : String) : List Layout.Visit × Layout :=
  Layout.steps (Layout.visit ⟨"/dist"⟩) 2
    ([Layout.Visit.ofEntry ⟨0⟩], ⟨(styledGraph query).updateAll Asset.withoutPlace, .empty⟩)

theorem styledLayout_eq {query : String} (h : (styledSteps query).1 = []) :
    styledLayout query = (styledSteps query).2 :=
  Layout.ofGraph_of_steps h

/-- The only bundle of the layout. -/
def styledBundle : Bundle where
  kind := .css
  name := ⟨"/dist/a.css"⟩
  start := some ⟨0⟩
  assets := [⟨0⟩, ⟨1⟩]

/-- What matters of the layouts under two queries: they have the same bundle, whose file is skipped when the
query has changed. -/
theorem styledLayouts :
    (∀ query ∈ ["print", "screen"], (styledLayout query).tree.walk = [⟨0⟩] ∧
      (styledLayout query).tree.get? ⟨0⟩ = some styledBundle ∧
        HashedBy 1 (styledLayout query).graph ∧
          (styledLayout query).tree.fingerprintText ⟨0⟩ (styledLayout query).graph = "ac") ∧
    HashedApart (styledLayout "print").graph (styledLayout "screen").graph ∧
    (plan (styledLayout "screen").tree (styledLayout "screen").graph
      (some (plan (styledLayout "print").tree (styledLayout "print").graph none).hashes)).changed = [] := by
  have hprint : styledLayout "print" = (styledSteps "print").2 := styledLayout_eq (by decide)
  have hscreen : styledLayout "screen" = (styledSteps "screen").2 := styledLayout_eq (by decide)
  simp only [List.forall_mem_cons, List.not_mem_nil, false_imp_iff, implies_true, and_true, hprint, hscreen]
  unfold HashedBy HashedApart
  decide +kernel

/-- A stylesheet can be skipped although it would be written in another way: the query under which one of its
members is imported has changed. -/
theorem exists_skipped_stylesheet :
    ¬ ∀ (before after : AssetGraph) (outDir : Path) (start start' : AssetId)
        (previous : Option Fingerprints) (first second : Layout) (id id' : BundleId)
        (bundle other : Bundle),
      first = Layout.ofGraph (before.updateAll Asset.withoutPlace) outDir start →
      second = Layout.ofGraph (after.updateAll Asset.withoutPlace) outDir start' →
      first.tree.walk.Pairwise (fun x y => (first.tree.nameOf x == first.tree.nameOf y) = false) →
      second.tree.walk.Pairwise (fun x y => (second.tree.nameOf x == second.tree.nameOf y) = false) →
      HashedApart first.graph second.graph →
      (∀ x ∈ first.tree.walk, ∀ y ∈ second.tree.walk,
        first.tree.fingerprint x first.graph = second.tree.fingerprint y second.graph →
          first.tree.fingerprintText x first.graph = second.tree.fingerprintText y second.graph) →
      id ∈ second.tree.walk → second.tree.get? id = some bundle → bundle.assets ≠ [] →
      snapshot second.graph bundle ∉ (plan second.tree second.graph
        (some (plan first.tree first.graph previous).hashes)).changed →
      id' ∈ first.tree.walk → first.tree.get? id' = some other → (other.name == bundle.name) = true →
        (Packagers.standard.packagerFor bundle.kind).render (snapshot second.graph bundle) =
          (Packagers.standard.packagerFor other.kind).render (snapshot first.graph other) := by
  intro hclaim
  obtain ⟨hlayouts, hapart, hchanged⟩ := styledLayouts
  obtain ⟨hwalk, hget, -, htext⟩ := hlayouts "print" (by decide)
  obtain ⟨hwalk', hget', -, htext'⟩ := hlayouts "screen" (by decide)
  have hrender := hclaim (styledGraph "print") (styledGraph "screen") ⟨"/dist"⟩ ⟨0⟩ ⟨0⟩ none
    (styledLayout "print") (styledLayout "screen") ⟨0⟩ ⟨0⟩ styledBundle styledBundle rfl rfl
    (by rw [hwalk]; simp) (by rw [hwalk']; simp) hapart
    (by rw [hwalk, hwalk']; simp [htext, htext']) (by rw [hwalk']; simp) hget' (by decide)
    (by rw [hchanged]; simp) (by rw [hwalk]; simp) hget (by decide)
  have hprint : styledLayout "print" = (styledSteps "print").2 := styledLayout_eq (by decide)
  have hscreen : styledLayout "screen" = (styledSteps "screen").2 := styledLayout_eq (by decide)
  rw [hprint, hscreen] at hrender
  revert hrender
  decide +kernel

/-- For the two stylesheets, the contents that are written one after another stay the same. -/
theorem render_eq_of_skipped_styledLayout :
    ∃ id' other, (styledLayout "print").tree.get? id' = some other ∧
      (∀ x ∈ (styledLayout "print").tree.walk,
        ((styledLayout "print").tree.nameOf x == styledBundle.name) = true ↔ x = id') ∧
        (other.kind = styledBundle.kind → ∀ packager : Packager,
          (packager = .stylesheet →
            (snapshot (styledLayout "print").graph other).assets.map mediaQueries =
              (snapshot (styledLayout "screen").graph styledBundle).assets.map mediaQueries) →
            packager.render (snapshot (styledLayout "screen").graph styledBundle) =
              packager.render (snapshot (styledLayout "print").graph other)) := by
  obtain ⟨hlayouts, hapart, hchanged⟩ := styledLayouts
  obtain ⟨hwalk, -, hhashed, htext⟩ := hlayouts "print" (by decide)
  obtain ⟨hwalk', hget', hhashed', htext'⟩ := hlayouts "screen" (by decide)
  exact render_eq_of_skipped (by rw [hwalk]; simp) Nat.one_pos hhashed hhashed' hapart
    (by rw [hwalk, hwalk']; simp [htext, htext']) (by rw [hwalk']; simp) hget' (by decide)
    (by rw [hchanged]; simp)

end Packaging
end ModuleBundler
