import ModuleBundler.Proofs.Asset.Extension
import ModuleBundler.Proofs.Bundle.Naming
import ModuleBundler.Proofs.Path.Directory

/-!
# Where bundles are written

Bundles are called after packages and files, and a sibling takes the name of its neighbour
with another extension.  Whatever those are called, every bundle lies in the output
directory itself, and its name is that of a file, with one exception: a sibling of a bundle
whose stem is a single dot.  Such a bundle is called by a dot and an extension behind
another dot, and without the extension no name is left; its siblings are called by two
dots, which stand for the directory above.

Main results:

- Theorem {lit}`Layout.isEntryOf_outDir`: every bundle lies in the output directory, and which ones are files there.
- Theorem {lit}`Layout.exists_sibling_astray`: a sibling can be called by two dots.
-/

namespace ModuleBundler

/-! ## Names with extensions -/

namespace Path

theorem innerComponent?_up : innerComponent? ".." = some .up := rfl

/-- No file is called by two dots. -/
theorem fileName?_child_up (p : Path) : (p.child "..").fileName? = none := by
  have hflat : IsFlat ".." := by decide
  unfold fileName? lastComponent?
  rw [components_child p hflat innerComponent?_up, List.getLast?_concat]

/-- The name without its extension is a dot just if the name was made of a dot. -/
theorem splitName_append_eq_here_iff {stem extension : String} (hextension : IsExtension extension) :
    (splitName (stem ++ "." ++ extension)).1 = "." ↔ stem = "." := by
  rw [splitName_eq hextension.dotless]
  split
  · rename_i hempty
    subst hempty
    have hne : "." ++ extension ≠ "." := fun hdot =>
      hextension.ne_empty (String.append_right_inj "." |>.1 (hdot.trans (String.append_empty).symm))
    exact ⟨fun hdot => absurd hdot hne, fun hdot => absurd hdot (by decide)⟩
  · rfl

/-- A file lies in the directory that it was named in. -/
theorem isEntryOf_of_isFileName (p : Path) {name : String} (h : IsFileName name) :
    (p.child name).IsEntryOf p :=
  isEntryOf_child p h.flat (innerComponent?_of_isFileName h)

/-- A file with another extension lies where it lay, and it is called by two dots if its stem was a dot. -/
theorem withExtension_child_cases (p : Path) {stem old new : String} (hstem : IsFlat stem)
    (hold : IsExtension old) (hnew : IsExtension new) :
    ((p.child (stem ++ "." ++ old)).withExtension new).IsEntryOf p ∧
      (((p.child (stem ++ "." ++ old)).withExtension new).fileName? = none ↔ stem = ".") := by
  have hname := isFileName_append hstem hold
  rw [withExtension_child_eq p hname hnew]
  by_cases hdot : stem = "."
  · rw [if_pos ((splitName_append_eq_here_iff hold).2 hdot)]
    refine ⟨isEntryOf_child p (by decide) innerComponent?_up, fun _ => hdot, fun _ => p.fileName?_child_up⟩
  · rw [if_neg fun hcut => hdot ((splitName_append_eq_here_iff hold).1 hcut)]
    have hnew' := isFileName_append (isFlat_splitName hname.flat) hnew
    refine ⟨p.isEntryOf_of_isFileName hnew', fun hnone => ?_, fun heq => absurd heq hdot⟩
    rw [p.fileName?_child hnew'] at hnone
    cases hnone

end Path

namespace AssetGraph

variable {κ : Type}

/-- Whether the kinds of all assets are kinds of files. -/
def KindsOf (types : AssetTypes κ) (graph : AssetGraph) : Prop :=
  ∀ {id : AssetId} {asset : Asset}, graph.get? id = some asset → ∃ p, asset.kind = types.kindOf p

theorem KindsOf.isExtension {compiler : κ} {graph : AssetGraph} (h : graph.KindsOf (.ofFallback compiler))
    {id : AssetId} {asset : Asset} (hget : graph.get? id = some asset) : Path.IsExtension asset.kind.tag := by
  obtain ⟨p, hkind⟩ := h hget
  rw [hkind]
  exact AssetTypes.isExtension_kindOf compiler p

/-- What the bundle that is made for an asset is called, when the layout begins at {lit}`start`. -/
def stemOf? (graph : AssetGraph) (start id : AssetId) : Option String :=
  (graph.get? id).map fun asset => asset.bundleStem (decide (id = start))

end AssetGraph

namespace Layout

open BundleTree

variable {κ : Type} {graph : AssetGraph} {start : AssetId}

/-- Every bundle lies in the output directory, and it is a file there unless it stands beside a bundle whose
stem is a dot. -/
theorem isEntryOf_outDir {compiler : κ} (hkinds : graph.KindsOf (.ofFallback compiler)) (outDir : Path)
    {id : BundleId} {bundle : Bundle}
    (hget : (ofGraph (graph.updateAll Asset.withoutPlace) outDir start).tree.get? id = some bundle) :
    bundle.name.IsEntryOf outDir ∧
      (bundle.name.fileName? = none ↔ bundle.start = none ∧
        ((ofGraph (graph.updateAll Asset.withoutPlace) outDir start).tree.leaderOf id).bind
          (graph.stemOf? start) = some ".") := by
  obtain ⟨leader, asset, hleader, hasset, hname⟩ := name_cases graph outDir start hget
  obtain ⟨other, owner, howner, hkind⟩ := exists_kind_of_bundle graph outDir start hget
  have hextension := hkinds.isExtension howner
  rw [hkind] at hextension
  have hflat := asset.isFlat_bundleStem (decide (leader = start))
  have hstem : graph.stemOf? start leader = some (asset.bundleStem (decide (leader = start))) := by
    unfold AssetGraph.stemOf?
    rw [hasset, Option.map_some]
  rw [hleader, Option.bind_some, hstem, Option.some.injEq]
  rcases hname with ⟨hmade, hname⟩ | ⟨hbeside, hname⟩
  · have hfile := Path.isFileName_append hflat hextension
    rw [hname, hmade, outDir.fileName?_child hfile]
    exact ⟨outDir.isEntryOf_of_isFileName hfile, nofun, nofun⟩
  · obtain ⟨hentry, hastray⟩ := outDir.withExtension_child_cases hflat (hkinds.isExtension hasset) hextension
    rw [hname]
    exact ⟨hentry, hastray.trans ⟨fun hdot => ⟨hbeside, hdot⟩, And.right⟩⟩

/-! ## A package that is called by a dot -/

/-- A package whose name is a single dot. -/
def dotPackage : Package where
  name := some "."
  main := some "m.js"
  manifest := some ⟨"/p/package.json"⟩

/-- The main module of that package, which imports a stylesheet. -/
def dotGraph : AssetGraph :=
  [(⟨"/p/m.js"⟩, Kind.js, dotPackage), (⟨"/p/a.css"⟩, Kind.css, {})].foldl
      (fun graph (identity, kind, package) => (graph.insert identity kind package).2) AssetGraph.empty
    |>.update ⟨0⟩ (fun asset => (asset.connect "/p/a.css" ⟨1⟩).declare { specifier := "/p/a.css" })

/-- The bundle of the module is called by a dot and its extension, that of the stylesheet by two dots. -/
theorem names_dotGraph :
    (ofGraph (dotGraph.updateAll Asset.withoutPlace) ⟨"/dist"⟩ ⟨0⟩).tree.bundles.map
        (fun bundle => (bundle.start, bundle.name)) =
      [(some ⟨0⟩, ⟨"/dist/..js"⟩), (none, ⟨"/dist/.."⟩)] := by
  rw [@ofGraph_of_steps _ _ _ 2 (by decide)]
  decide

theorem get?_dotGraph {index : Nat} {made : Option AssetId} {name : Path}
    (h : [(some ⟨0⟩, Path.mk "/dist/..js"), (none, Path.mk "/dist/..")][index]? = some (made, name)) :
    ∃ bundle, (ofGraph (dotGraph.updateAll Asset.withoutPlace) ⟨"/dist"⟩ ⟨0⟩).tree.get? ⟨index⟩ =
      some bundle ∧ bundle.start = made ∧ bundle.name = name := by
  rw [← names_dotGraph, List.getElem?_map] at h
  obtain ⟨bundle, hget, hsame⟩ := Option.map_eq_some_iff.1 h
  exact ⟨bundle, hget, Prod.mk.inj hsame⟩

theorem kindsOf_dotGraph : dotGraph.KindsOf (.ofFallback ()) := by
  have hall : ∀ slot ∈ dotGraph.slots, ∀ asset ∈ slot,
      asset.kind = (AssetTypes.ofFallback ()).kindOf asset.identity := by
    decide
  intro id asset hget
  have hslot : dotGraph.slots[id.index]? = some (some asset) := Option.join_eq_some_iff.1 hget
  exact ⟨asset.identity, hall _ (List.mem_of_getElem? hslot) asset rfl⟩

/-- Both bundles lie in the output directory; the stylesheet's is no file there. -/
theorem isEntryOf_dotGraph : ∃ script style,
    (ofGraph (dotGraph.updateAll Asset.withoutPlace) ⟨"/dist"⟩ ⟨0⟩).tree.get? ⟨0⟩ = some script ∧
      (ofGraph (dotGraph.updateAll Asset.withoutPlace) ⟨"/dist"⟩ ⟨0⟩).tree.get? ⟨1⟩ = some style ∧
        script.name.IsEntryOf ⟨"/dist"⟩ ∧ script.name.fileName? ≠ none ∧
          style.name.IsEntryOf ⟨"/dist"⟩ ∧ style.start = none ∧
            ((ofGraph (dotGraph.updateAll Asset.withoutPlace) ⟨"/dist"⟩ ⟨0⟩).tree.leaderOf ⟨1⟩).bind
              (dotGraph.stemOf? ⟨0⟩) = some "." := by
  obtain ⟨script, hscript, hmade, hname⟩ := @get?_dotGraph 0 _ _ rfl
  obtain ⟨style, hstyle, hbeside, hname'⟩ := @get?_dotGraph 1 _ _ rfl
  obtain ⟨hentry, hfile⟩ := isEntryOf_outDir kindsOf_dotGraph ⟨"/dist"⟩ hscript
  obtain ⟨hentry', hfile'⟩ := isEntryOf_outDir kindsOf_dotGraph ⟨"/dist"⟩ hstyle
  refine ⟨script, style, hscript, hstyle, hentry, fun hnone => ?_, hentry', hfile'.1 ?_⟩
  · rw [(hfile.1 hnone).1] at hmade
    cases hmade
  · rw [hname']
    exact Path.fileName?_child_up ⟨"/dist"⟩

/-- A sibling can be called by two dots, which is the name of no file. -/
theorem exists_sibling_astray :
    ¬ ∀ (graph : AssetGraph) (outDir : Path) (start : AssetId) (id : BundleId) (bundle : Bundle),
      graph.KindsOf (.ofFallback ()) →
        (ofGraph (graph.updateAll Asset.withoutPlace) outDir start).tree.get? id = some bundle →
          bundle.name.IsEntryOf outDir ∧ ∃ file, bundle.name.fileName? = some file := by
  intro hclaim
  obtain ⟨style, hstyle, -, hname⟩ := @get?_dotGraph 1 _ _ rfl
  obtain ⟨-, file, hfile⟩ := hclaim dotGraph ⟨"/dist"⟩ ⟨0⟩ ⟨1⟩ style kindsOf_dotGraph hstyle
  rw [hname, show (Path.mk "/dist/..").fileName? = none from Path.fileName?_child_up ⟨"/dist"⟩] at hfile
  cases hfile

end Layout
end ModuleBundler
