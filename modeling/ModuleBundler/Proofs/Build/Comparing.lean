import ModuleBundler.Proofs.Build.Finishing

/-!
# Comparing builds

Fresh assets are determined by the texts of their files.  So if all assets of two
builds over the same texts are fresh, an asset of one build has the same content as
the asset of the other one that stands for the same module, and both import the same
modules.  The layouts match, and the reports say the same.

Main results:

- Theorem {lit}`Rules.Makes.matches`: fresh assets of the same module match.
- Theorem {lit}`Pass.Delivers.agree`: reports on layouts of fresh assets agree.
-/

namespace ModuleBundler

/-- Lists that come of the same list match if what becomes of each entry does. -/
theorem forall₂_filterMap {α β γ : Type} {R : β → γ → Prop} {as : List α} {f : α → Option β}
    {g : α → Option γ} (h : ∀ a ∈ as, ∃ b c, f a = some b ∧ g a = some c ∧ R b c) :
    List.Forall₂ R (as.filterMap f) (as.filterMap g) := by
  induction as with
  | nil => exact .nil
  | cons a rest ih =>
    obtain ⟨b, c, hb, hc, hbc⟩ := h a List.mem_cons_self
    rw [List.filterMap_cons_some hb, List.filterMap_cons_some hc]
    exact .cons hbc (ih fun other hmem => h other (List.mem_cons_of_mem _ hmem))

namespace Build

variable {κ π σ τ : Type}

/-- Whether assets of two graphs stand for the same module. -/
def SameModule (a b : AssetGraph) (x y : AssetId) : Prop :=
  ∃ v w, a.get? x = some v ∧ b.get? y = some w ∧ w.identity = v.identity

/-- In graphs that are indexed assets correspond to each other one to one. -/
theorem biUnique_sameModule {a b : AssetGraph} (ha : a.Indexed) (hb : b.Indexed) :
    Relator.BiUnique (SameModule a b) := by
  have hrefl := Path.beq_refl
  constructor
  · rintro x x' y ⟨v, w, hv, hw, hsame⟩ ⟨v', w', hv', hw', hsame'⟩
    have heq : w = w' := Option.some.inj (hw.symm.trans hw')
    exact ha.eq_of_same hv hv' (by rw [← hsame, heq, hsame']; exact hrefl _)
  · rintro x y y' ⟨v, w, hv, hw, hsame⟩ ⟨v', w', hv', hw', hsame'⟩
    have heq : v = v' := Option.some.inj (hv.symm.trans hv')
    exact hb.eq_of_same hw hw' (by rw [hsame, heq, ← hsame']; exact hrefl _)

/-- Assets that stand for one module stand for the same module. -/
theorem sameModule_of_holds {a b : AssetGraph} {x y : AssetId} {module : Lookup.Modules.Resolved}
    (hx : a.Holds x module) (hy : b.Holds y module) : SameModule a b x y := by
  obtain ⟨v, hv, hidentity, -⟩ := hx
  obtain ⟨w, hw, hidentity', -⟩ := hy
  exact ⟨v, w, hv, hw, hidentity'.trans hidentity.symm⟩

/-- Fresh assets of the same module match. -/
theorem Rules.Makes.matches {rules : Rules κ τ} {types : AssetTypes κ} {texts : Path → τ}
    (hcanonical : rules.Canonical) {a b : AssetGraph} {v w : Asset} {unit unit' : CompiledUnit}
    (hv : rules.Sources types v) (hw : rules.Sources types w) (hsame : w.identity = v.identity)
    (h : rules.Makes types texts a v unit) (h' : rules.Makes types texts b w unit') :
    Asset.Matches (SameModule a b) v.withoutPlace w.withoutPlace := by
  obtain ⟨hkind, specifier, importer, hfind⟩ := hv
  obtain ⟨hkind', specifier', importer', hfind'⟩ := hw
  have hmodule := hcanonical hfind' hfind (by rw [hsame]; exact Path.beq_refl _)
  have hpackage : w.package = v.package := congrArg Lookup.Modules.Resolved.package hmodule
  have hunit : unit' = unit := by
    have htranslated := h'.translated
    rw [hsame, hpackage, h.translated, Except.ok.injEq] at htranslated
    exact htranslated.symm
  subst hunit
  refine ⟨hsame, ?_, hpackage, h'.compiled.trans h.compiled.symm, h'.hash.trans h.hash.symm, rfl, rfl, ?_⟩
  · exact hkind'.trans (hsame ▸ hkind.symm)
  · -- both assets declare the same imports, which lead to the same modules
    have hlinks : List.Forall₂ (fun x y => y.1 = x.1 ∧ SameModule a b x.2 y.2) v.links w.links := by
      unfold Asset.links
      rw [h'.dependencies, h.dependencies]
      refine forall₂_filterMap fun dep hdep => ?_
      have hdeclared := (Asset.mem_putDependencies hdep).resolve_right List.not_mem_nil
      obtain ⟨module, hmodule, target, hresolved, hholds⟩ := h.leads dep hdeclared
      obtain ⟨module', hmodule', target', hresolved', hholds'⟩ := h'.leads dep hdeclared
      rw [hsame, hmodule, Except.ok.injEq] at hmodule'
      subst hmodule'
      exact ⟨(dep, target), (dep, target'), by rw [hresolved]; rfl, by rw [hresolved']; rfl, rfl,
        sameModule_of_holds hholds hholds'⟩
    exact hlinks

namespace Pass

variable {rules : Rules κ τ} {setup : Setup κ π} {texts : Path → τ} {report report' : Report}
  {before before' : State} {start start' : AssetId} {graph graph' : AssetGraph}

/-- The assets of which two reports are match. -/
theorem Delivers.matches (hcanonical : rules.Canonical)
    (h : Delivers rules setup texts report before start graph)
    (h' : Delivers rules setup texts report' before' start' graph') :
    AssetGraph.Matches (SameModule before.graph before'.graph)
      (before.graph.updateAll Asset.withoutPlace) (before'.graph.updateAll Asset.withoutPlace) := by
  rintro x y ⟨v, w, hv, hw, hsame⟩
  rw [AssetGraph.get?_updateAll, AssetGraph.get?_updateAll, hv, hw]
  obtain ⟨unit, hunit⟩ := h.upToDate.current.fresh h.queue hv
  obtain ⟨unit', hunit'⟩ := h'.upToDate.current.fresh h'.queue hw
  exact .some (hunit.matches hcanonical (h.upToDate.current.sourced hv) (h'.upToDate.current.sourced hw)
    hsame hunit')

/-- Reports on layouts of fresh assets over the same texts agree. -/
theorem Delivers.agree (hcanonical : rules.Canonical)
    (h : Delivers rules setup texts report before start graph)
    (h' : Delivers rules setup texts report' before' start' graph') :
    report'.bundles = report.bundles ∧ report'.placements.Perm report.placements := by
  obtain ⟨packaged, rfl⟩ := h.reports
  obtain ⟨packaged', rfl⟩ := h'.reports
  have hone := biUnique_sameModule h.upToDate.current.indexed h'.upToDate.current.indexed
  have hmatches := h.matches hcanonical h'
  have hstart : SameModule before.graph before'.graph start start' := by
    obtain ⟨-, entry, hfind, hholds⟩ := h.upToDate.current.entered h.entry
    obtain ⟨-, entry', hfind', hholds'⟩ := h'.upToDate.current.entered h'.entry
    rw [hfind, Except.ok.injEq] at hfind'
    subst hfind'
    exact sameModule_of_holds hholds hholds'
  have hlayouts : Layout.Matches (SameModule before.graph before'.graph)
      (before.layout setup.outDir start) (before'.layout setup.outDir start') :=
    Layout.ofGraph_matches hone hmatches setup.outDir hstart
  have hexplored := Layout.ofGraph_explored before.graph setup.outDir start
  have hexplored' := Layout.ofGraph_explored before'.graph setup.outDir start'
  have hsound := Layout.ofGraph_sound before.graph setup.outDir start
  refine ⟨hlayouts.bundles_eq ?_ (Layout.ofGraph_started before.graph setup.outDir start) h.retains
    h'.retains packaged packaged', hlayouts.placements_perm h.retains h'.retains h.indexed h'.indexed ?_ ?_
      packaged packaged'⟩
  · exact hsound
  · exact fun x hx => hmatches.exists_of_reaches hstart (hexplored.reached hx)
  · exact fun y hy => hmatches.symm.exists_of_reaches hstart (hexplored'.reached hy)

end Pass
end Build
end ModuleBundler
