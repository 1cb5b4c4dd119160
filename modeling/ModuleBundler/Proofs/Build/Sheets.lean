import ModuleBundler.Proofs.Build.Assembling
import ModuleBundler.Proofs.Build.Making
import ModuleBundler.Proofs.Build.Rehearsal
import ModuleBundler.Proofs.Build.Stepping
import ModuleBundler.Proofs.Bundle.Sequence
import ModuleBundler.Proofs.Source.Extent
import ModuleBundler.Proofs.Source.Kinds

/-!
# Stylesheets in order

A stylesheet that imports others loses its import rules, and the sheets that it imports are put
into the bundle beside it.  Which of them comes first decides what a page looks like, since of two
rules that contradict each other the later one counts.  In a build of stylesheets alone there is one
bundle.  Its members are in the order of a walk that meets a sheet before the ones that it imports
({lit}`Session.exists_walk`).  So the bundle begins with the entry, and the rules of an imported sheet come
behind those of a sheet that has imported it.

Main results:

- Theorem {lit}`Source.sheet_of_compileFile`: what a stylesheet is compiled to.
- Theorem {lit}`Session.sheets_importedFirst_iff`: imported sheets come first only if nothing is imported.
- Theorem {lit}`Session.exists_importer_first`: a sheet can come before one that it imports.
-/

namespace ModuleBundler

/-! ## Compiled sheets -/

namespace Source

/-- What is left of a stylesheet when it was compiled. -/
def sheetOutput (minify : Bool) (source : String) : String :=
  if minify then Text.minifyString (Stylesheet.withoutLocalImports source)
  else Stylesheet.withoutLocalImports source

variable {path : Path} (hsheet : extensionOf path = "css")
include hsheet

theorem dependencies_sheet (source : String) :
    dependencies path source = (Stylesheet.imports source).map (styleDependency false) := by
  unfold dependencies
  rw [hsheet]
  rfl

/-- A stylesheet is compiled to the rules that are its own, and it imports the other sheets at once. -/
theorem sheet_of_compileFile {minify : Bool} {content : Except FileFault String} {unit : CompiledUnit}
    (h : compileFile path minify content = .ok unit) :
    ∃ source, content = .ok source ∧ unit.generated.ofKind .css = some (sheetOutput minify source) ∧
      unit.dependencies = dependencies path source ∧
      ∀ dep ∈ unit.dependencies, dep.inlined = false ∧ dep.dynamic = false := by
  obtain ⟨source, text, rfl, htext, hgenerated⟩ := generated_of_compileFile h
  have hdependencies : unit.dependencies = dependencies path source := dependencies_compile h
  have hown : text = Stylesheet.withoutLocalImports source := by
    unfold output at htext
    rw [hsheet] at htext
    exact (Except.ok.inj htext).symm
  have hkind : Kind.css = kindOf path := by
    unfold kindOf
    rw [hsheet]
    decide
  refine ⟨source, rfl, ?_, hdependencies, fun dep hdep => ?_⟩
  · rw [hgenerated, ofKind_generatedFor, if_pos hkind, hown]
    rfl
  · rw [hdependencies, dependencies_sheet hsheet] at hdep
    obtain ⟨site, -, rfl⟩ := List.mem_map.1 hdep
    exact ⟨rfl, rfl⟩

/-- The assets of stylesheets are stylesheets. -/
theorem kind_sheet {κ : Type} (compiler : κ) : (AssetTypes.ofFallback compiler).kindOf path = .css := by
  have hextension : path.HasExtension := by
    refine Decidable.byContradiction fun hnot => ?_
    rw [extensionOf_eq_empty_iff.2 hnot] at hsheet
    exact absurd hsheet (by decide)
  rw [← (kindOf_eq_iff compiler).2 hextension]
  unfold kindOf
  rw [hsheet]
  decide

end Source

namespace AssetGraph

/-- The identity of an asset. -/
def nameOf (graph : AssetGraph) (id : AssetId) : Path :=
  (Report.identityOf graph id).getD ⟨""⟩

theorem nameOf_of_get? {graph : AssetGraph} {id : AssetId} {asset : Asset} (h : graph.get? id = some asset) :
    graph.nameOf id = asset.identity := by
  simp [nameOf, Report.identityOf, h]

/-- The identities of live assets are their names. -/
theorem filterMap_identityOf {graph : AssetGraph} {ids : List AssetId} (h : ∀ id ∈ ids, graph.IsLive id) :
    ids.filterMap (Report.identityOf graph) = ids.map graph.nameOf := by
  rw [← List.filterMap_eq_map]
  refine List.filterMap_congr fun id hid => ?_
  obtain ⟨asset, hget⟩ := h id hid
  simp [nameOf, Report.identityOf, hget]

/-- Places have nothing to do with names. -/
theorem SameContent.nameOf_eq {old new : AssetGraph} (h : old.SameContent new) (id : AssetId) :
    new.nameOf id = old.nameOf id := by
  cases hget : old.get? id with
  | none =>
    have hnone := h.assets id
    rw [hget, Option.map_none, Option.map_eq_none_iff] at hnone
    simp [nameOf, Report.identityOf, hget, hnone]
  | some asset =>
    obtain ⟨after, hafter, hsame⟩ := h.exists_get? hget
    rw [nameOf_of_get? hget, nameOf_of_get? hafter]
    exact Asset.eq_of_withoutPlace hsame fun _ => rfl

end AssetGraph

theorem Packaging.identities_snapshot {graph : AssetGraph} {bundle : Bundle}
    (h : ∀ id ∈ bundle.assets, graph.IsLive id) :
    (snapshot graph bundle).assets.map PackagedAsset.identity = bundle.assets.map graph.nameOf := by
  unfold snapshot
  rw [← AssetGraph.filterMap_identityOf h, List.map_map, List.map_filterMap]
  rfl

namespace Build

variable {κ π σ : Type}

/-! ## Sheets in a graph -/

namespace Answers

/-- The sheets that a sheet imports, in the order of their first rules: one for each specifier. -/
def sheetImports (answers : Answers κ) (text : Path → Except FileFault String) (p : Path) : Option (List Path) :=
  (text p).toOption.map fun source =>
    (Asset.putDependencies (Source.dependencies p source) []).filterMap fun dep =>
      (answers.find dep.specifier (some p)).toOption.map Lookup.Modules.Resolved.path

/-- Whether answers compile files from their texts, as sources are compiled, and imply no imports of
stylesheets. -/
structure Standard (answers : Answers κ) (minify : Bool) (text : Path → Except FileFault String) : Prop where
  translate : ∀ compiler p package, answers.translate compiler p package = Source.compileFile p minify (text p)
  implied : ∀ p, answers.implied p .css = .ok []

variable {answers : Answers κ} {minify : Bool} {text : Path → Except FileFault String} {types : AssetTypes κ}
  {graph : AssetGraph}

/-- Whoever stands for a module that was found has the name of the module. -/
theorem Grounds.nameOf_eq (hcanonical : answers.Canonical) {late : List AssetId}
    (h : answers.Grounds types late graph) {specifier : String} {importer : Option Path}
    {module : Lookup.Modules.Resolved} (hfind : answers.find specifier importer = .ok module) {id : AssetId}
    (hstands : graph.StandsFor id module.path) : graph.nameOf id = module.path := by
  obtain ⟨asset, hget, hsame⟩ := hstands
  obtain ⟨specifier', importer', hfound⟩ := h.found hget
  rw [AssetGraph.nameOf_of_get? hget]
  exact congrArg Lookup.Modules.Resolved.path (hcanonical hfound hfind hsame)

/-- What a sheet makes of its asset: its output, and the imports of the sheet. -/
theorem Makes.sheet (hstandard : answers.Standard minify text) (hcanonical : answers.Canonical)
    {late : List AssetId} (hgrounds : answers.Grounds types late graph) {asset : Asset} {unit : CompiledUnit}
    {modules : List (Dependency × Lookup.Modules.Resolved)} (h : answers.Makes types graph asset unit modules)
    (hkind : asset.kind = .css) (hsheet : Source.extensionOf asset.identity = "css") :
    (∃ source, text asset.identity = .ok source ∧
      (asset.compiled.bind fun generated => generated.ofKind .css) = some (Source.sheetOutput minify source)) ∧
    (∀ link ∈ asset.links, link.1.dynamic = false ∧ graph.IsLive link.2) ∧
    answers.sheetImports text asset.identity = some ((asset.links.map Prod.snd).map graph.nameOf) := by
  have hunit := h.readies.translated
  rw [hstandard.translate] at hunit
  obtain ⟨source, htext, houtput, hdependencies, hplain⟩ := Source.sheet_of_compileFile hsheet hunit
  obtain ⟨implied, himplied, hleads⟩ := h.readies.leads
  rw [hkind, hstandard.implied] at himplied
  cases himplied
  rw [List.append_nil] at hleads
  -- no import of a sheet is put into it
  have hseparate : ∀ link ∈ modules, link.1.inlined = false :=
    fun link hlink => (hplain _ (hleads.mem_dependencies hlink)).1
  have hdeclared : separate modules = Source.dependencies asset.identity source := by
    rw [← hdependencies, ← hleads.declared]
    exact congrArg (List.map Prod.fst) (List.filter_eq_self.2 fun link hlink => by simp [hseparate link hlink])
  have himports : ∀ dep ∈ asset.dependencies, dep.dynamic = false ∧ ∃ target module,
      asset.resolved.get? dep.specifier = some target ∧ graph.IsLive target ∧
        answers.find dep.specifier (some asset.identity) = .ok module ∧ graph.nameOf target = module.path := by
    intro dep hdep
    rw [h.dependencies] at hdep
    obtain ⟨link, hlink, -, rfl⟩ :=
      mem_separate_iff.1 ((Asset.mem_putDependencies hdep).resolve_right List.not_mem_nil)
    obtain ⟨target, hresolved, hstands⟩ := h.leads link hlink (hseparate link hlink)
    have hfind := hleads.found link hlink
    have hname := hgrounds.nameOf_eq hcanonical hfind hstands
    obtain ⟨other, hother, -⟩ := hstands
    exact ⟨(hplain _ (hleads.mem_dependencies hlink)).2, target, link.2, hresolved, ⟨other, hother⟩, hfind, hname⟩
  refine ⟨⟨source, htext, by rw [h.compiled]; exact houtput⟩, fun link hlink => ?_, ?_⟩
  · obtain ⟨dep, hdep, hlink⟩ := List.mem_filterMap.1 hlink
    obtain ⟨found, hfound, rfl⟩ := Option.map_eq_some_iff.1 hlink
    obtain ⟨hstatic, target, -, hresolved, hlive, -⟩ := himports dep hdep
    obtain rfl := Option.some.inj (hfound.symm.trans hresolved)
    exact ⟨hstatic, hlive⟩
  · unfold sheetImports
    rw [htext]
    refine congrArg some ?_
    dsimp only
    rw [← hdeclared, ← h.dependencies, List.map_map, Asset.links, List.map_filterMap]
    refine List.filterMap_congr fun dep hdep => ?_
    obtain ⟨-, target, module, hresolved, -, hfind, hname⟩ := himports dep hdep
    rw [hresolved, hfind]
    exact congrArg some hname.symm

/-- Whether all files that can be reached from one by the imports of sheets are sheets. -/
def SheetsOnly (answers : Answers κ) (text : Path → Except FileFault String) (entry : Path) : Prop :=
  ∀ p, Relation.ReflTransGen (Includes (answers.sheetImports text)) entry p → Source.extensionOf p = "css"

/-- What a first pass over sheets has assembled. -/
structure Sheets (answers : Answers κ) (minify : Bool) (text : Path → Except FileFault String)
    (types : AssetTypes κ) (graph : AssetGraph) (start : AssetId) (entry : Path) : Prop where
  grounds : answers.Grounds types [] graph
  makes : ∀ id asset, graph.get? id = some asset → ∃ unit modules, answers.Makes types graph asset unit modules
  starts : graph.IsLive start ∧ graph.nameOf start = entry
  only : answers.SheetsOnly text entry

section

variable {compiler : κ} {start : AssetId} {entry : Path} (hstandard : answers.Standard minify text)
  (hcanonical : answers.Canonical) (h : answers.Sheets minify text (.ofFallback compiler) graph start entry)
include hstandard hcanonical h

/-- What can be reached in the graph can be reached by the imports of sheets. -/
theorem Sheets.reaches {id : AssetId} (hreach : graph.Reaches start id) :
    Relation.ReflTransGen (Includes (answers.sheetImports text)) entry (graph.nameOf id) := by
  induction hreach with
  | entry _ =>
    rw [h.starts.2]
  | @step importer target _ himports ih =>
    obtain ⟨-, asset, dep, hget, hlink⟩ := himports
    obtain ⟨unit, modules, hmakes⟩ := h.makes importer asset hget
    rw [AssetGraph.nameOf_of_get? hget] at ih
    have hsheet := h.only _ ih
    have hkind := (h.grounds.typed importer asset hget).trans (Source.kind_sheet hsheet compiler)
    obtain ⟨-, -, hsame⟩ := hmakes.sheet hstandard hcanonical h.grounds hkind hsheet
    exact ih.tail ⟨_, hsame, List.mem_map_of_mem (List.mem_map_of_mem hlink)⟩

/-- What can be reached is a sheet. -/
theorem Sheets.sheet {id : AssetId} {asset : Asset} (hreach : graph.Reaches start id)
    (hget : graph.get? id = some asset) : asset.kind = .css ∧
      (∃ source, text asset.identity = .ok source ∧
        (asset.compiled.bind fun generated => generated.ofKind .css) =
          some (Source.sheetOutput minify source)) ∧
      (∀ link ∈ asset.links, link.1.dynamic = false ∧ graph.IsLive link.2) ∧
      answers.sheetImports text asset.identity = some ((asset.links.map Prod.snd).map graph.nameOf) := by
  have hreached := h.reaches hstandard hcanonical hreach
  rw [AssetGraph.nameOf_of_get? hget] at hreached
  have hsheet := h.only _ hreached
  have hkind := (h.grounds.typed id asset hget).trans (Source.kind_sheet hsheet compiler)
  obtain ⟨unit, modules, hmakes⟩ := h.makes id asset hget
  exact ⟨hkind, hmakes.sheet hstandard hcanonical h.grounds hkind hsheet⟩

/-- A walk through the graph is a walk along the imports of the sheets. -/
theorem Sheets.walks {members : List AssetId} (hwalks : Walks graph.targetsOf [] [start] members) :
    Walks (answers.sheetImports text) [] [entry] (members.map graph.nameOf) := by
  have hmapped := @Walks.map AssetId Path graph.targetsOf [] [start] members (answers.sheetImports text)
    graph.nameOf (graph.Reaches start) ?_ ?_ ?_ (List.forall_mem_nil _)
    (List.forall_mem_singleton.2 (.entry h.starts.1)) hwalks
  · rw [← h.starts.2]
    exact hmapped
  · rintro id target hreach ⟨targets, himports, htarget⟩
    obtain ⟨asset, hget, rfl⟩ := Option.map_eq_some_iff.1 himports
    obtain ⟨link, hlink, rfl⟩ := List.mem_map.1 htarget
    obtain ⟨-, -, hlive, -⟩ := h.sheet hstandard hcanonical hreach hget
    exact .step hreach ⟨(hlive link hlink).2, asset, link.1, hget, hlink⟩
  · intro id hreach
    obtain ⟨asset, hget⟩ := hreach.isLive
    obtain ⟨-, -, -, hsame⟩ := h.sheet hstandard hcanonical hreach hget
    rw [AssetGraph.nameOf_of_get? hget, hsame, AssetGraph.targetsOf_of_get? hget]
    rfl
  · intro a b ha hb hname
    obtain ⟨assetA, hgetA⟩ := ha.isLive
    obtain ⟨assetB, hgetB⟩ := hb.isLive
    rw [AssetGraph.nameOf_of_get? hgetA, AssetGraph.nameOf_of_get? hgetB] at hname
    exact h.grounds.indexed.eq_of_same hgetA hgetB (by rw [hname]; exact Path.beq_refl _)

/-- The entry can be read. -/
theorem Sheets.exists_imports : ∃ targets, answers.sheetImports text entry = some targets := by
  obtain ⟨⟨asset, hget⟩, hname⟩ := h.starts
  obtain ⟨-, -, -, hsame⟩ := h.sheet hstandard hcanonical (.entry ⟨asset, hget⟩) hget
  rw [← AssetGraph.nameOf_of_get? hget, hname] at hsame
  exact ⟨_, hsame⟩

theorem Sheets.plain : graph.Plain start .css where
  kind hreach hget := (h.sheet hstandard hcanonical hreach hget).1
  static hreach hget link hlink := ((h.sheet hstandard hcanonical hreach hget).2.2.1 link hlink).1

end

end Answers

/-! ## Passes over sheets -/

/-- Nothing is remembered of bundles while assets are assembled. -/
theorem Step.fingerprints {tools : Toolset κ π σ} {outside : Outside σ} {work : Work σ} {moment : Moment σ}
    (h : Step tools outside work moment) (hdeed : moment.deed.Assembles) :
    moment.work.state.fingerprints = work.state.fingerprints := by
  cases h with
  | begun _ _ => exact hdeed.elim
  | asked hstate _ => rw [hstate]
  | noticed p => exact (work.notices_notify p).fingerprints
  | taken invalidate => rfl
  | claimed hclaim =>
    obtain ⟨-, -, hclaimed⟩ := State.of_claim (Load.of_claim hclaim).1
    rw [hclaimed]
  | kept unit _ => rfl
  | recorded types modules _ =>
    obtain ⟨graph, hstate⟩ := Work.state_recordAll tools types _ modules work
    have hrecorded := congrArg State.fingerprints hstate
    exact hrecorded
  | returned _ => rfl
  | entered types module =>
    have hentered := congrArg State.fingerprints (work.enter_eq tools types module).2
    exact hentered
  | sent assets => rfl
  | laidOut _ _ => exact hdeed.elim
  | written _ => exact hdeed.elim
  | finished _ => exact hdeed.elim
  | edited _ => exact hdeed.elim
  | closed _ => exact hdeed.elim

namespace Pass

variable {tools : Toolset κ π σ} {setup : Setup κ π} {depth : Nat} {work next assembled : Work σ}
  {start : AssetId}

theorem fingerprints_assemble {result : Except Failure AssetId}
    (h : assemble tools setup depth work = some (result, next)) :
    next.state.fingerprints = work.state.fingerprints :=
  ((linked_assemble tools .anything setup h).always
    (fun after => after.state.fingerprints = work.state.fingerprints) Deed.Assembles
    (fun hwork hstep hdeed => (hstep.fingerprints hdeed).trans hwork)
    (assembles_assembleTrail tools setup depth work) rfl).2

/-- A pass that has assembled the assets writes the bundles that are planned. -/
theorem exists_written_of_assemble (h : assemble tools setup depth work = some (.ok start, assembled)) :
    ∃ moment ∈ runTrail tools setup depth work,
      moment.deed = .written (planned setup.outDir start assembled).changed := by
  unfold runTrail
  rw [h]
  exact ⟨_, List.mem_append_right _ (List.mem_cons_of_mem _ (List.mem_append_left _ List.mem_cons_self)), rfl⟩

section

variable {answers : Answers κ} {minify : Bool} {text : Path → Except FileFault String} {compiler : κ}
  {entry : Path} (hstandard : answers.Standard minify text) (hcanonical : answers.Canonical)
  (hsheets : answers.Sheets minify text (.ofFallback compiler) assembled.state.graph start entry)
include hstandard hcanonical hsheets

/-- Sheets are laid out in one bundle, in the order of a walk along their imports. -/
theorem layout_sheets (outDir : Path) : ∃ bundle, (assembled.state.layout outDir start).tree = .lone bundle ∧
    bundle.children = [] ∧ bundle.kind = .css ∧ bundle.assets ≠ [] ∧
      Walks (answers.sheetImports text) [] [entry] (bundle.assets.map assembled.state.graph.nameOf) ∧
        ∀ id ∈ bundle.assets, (assembled.state.layout outDir start).IsPlaced id ∧
          assembled.state.graph.Reaches start id := by
  have hplain := hsheets.plain hstandard hcanonical
  obtain ⟨asset, hget⟩ := hsheets.starts.1
  have hkind : asset.kind = .css := hplain.kind (.entry ⟨asset, hget⟩) hget
  obtain ⟨members, hwalks, hgathered⟩ := Layout.ofGraph_gathered outDir hget (hkind ▸ hplain)
  obtain ⟨others, hmembers⟩ := hwalks.head? (AssetGraph.targetsOf_of_get? hget)
  refine ⟨_, hgathered.tree, rfl, hkind, by simp [hmembers], hsheets.walks hstandard hcanonical hwalks, ?_⟩
  intro id hid
  have hplaced := (hgathered.mem_iff id).1 hid
  exact ⟨hplaced, assembled.state.graph.sameContent_withoutPlace.symm.reaches
    ((Layout.ofGraph_explored _ outDir start).reached hplaced)⟩

/-- When a first pass over sheets ends, it has written one bundle, with the sheets in the order of a walk. -/
theorem finish_sheets (hnone : assembled.state.fingerprints = none) {report : Report}
    (hfinish : finish tools setup start assembled = (.ok report, next)) : ∃ names bundle info,
    Walks (answers.sheetImports text) [] [entry] names ∧
      (planned setup.outDir start assembled).changed = [bundle] ∧ report.bundles = [info] ∧
      bundle.kind = .css ∧ bundle.assets.map PackagedAsset.identity = names ∧ info.assets = names ∧
      ∀ copy ∈ bundle.assets, ∃ source, text copy.identity = .ok source ∧
        copy.content = Source.sheetOutput minify source := by
  have hretains := finish_retains hsheets.grounds.indexed hfinish
  have hcontent := assembled.state.sameContent_layout setup.outDir start
  have hplan : planned setup.outDir start assembled =
      Packaging.plan (assembled.state.layout setup.outDir start).tree
        (assembled.state.layout setup.outDir start).graph none := by
    rw [← hnone]
    rfl
  have hreport : ∃ packaged, report =
      Report.ofTree (assembled.state.layout setup.outDir start).tree next.state.graph packaged := by
    rcases finish_cases tools setup start assembled with ⟨failure, heq, -⟩ | ⟨last, heq, -, -⟩
    · cases (Prod.mk.inj (hfinish.symm.trans heq)).1
    · obtain ⟨hok, rfl⟩ := Prod.mk.inj (hfinish.symm.trans heq)
      exact ⟨_, Except.ok.inj hok⟩
  obtain ⟨bundle, htree, hchildren, hkind, hmembers, hwalks, hreached⟩ :=
    layout_sheets hstandard hcanonical hsheets setup.outDir
  generalize assembled.state.layout setup.outDir start = layout at *
  rw [htree] at hplan hreport
  obtain ⟨packaged, rfl⟩ := hreport
  refine ⟨_, Packaging.snapshot layout.graph bundle, _, hwalks, ?_, Report.bundles_lone hchildren _ _, hkind,
    ?_, ?_, ?_⟩
  · rw [hplan]
    exact Packaging.changed_plan_lone hchildren hmembers layout.graph
  · rw [Packaging.identities_snapshot fun id hid => (hreached id hid).1.isLive]
    exact List.map_congr_left fun id _ => hcontent.nameOf_eq id
  · -- what has a place is kept with its name
    have hkept : ∀ id ∈ bundle.assets, Report.identityOf next.state.graph id = Report.identityOf layout.graph id :=
      fun id hid => congrArg (Option.map Asset.identity) (hretains.kept (hreached id hid).1)
    refine (List.filterMap_congr hkept).trans ?_
    rw [AssetGraph.filterMap_identityOf fun id hid => (hreached id hid).1.isLive]
    exact List.map_congr_left fun id _ => hcontent.nameOf_eq id
  · intro copy hcopy
    obtain ⟨laid, hlaid, rfl⟩ := List.mem_map.1 hcopy
    obtain ⟨id, hid, hget⟩ := List.mem_filterMap.1 hlaid
    obtain ⟨before, hbefore, hsame⟩ := hcontent.symm.exists_get? hget
    obtain ⟨-, ⟨source, htext, houtput⟩, -, -⟩ := hsheets.sheet hstandard hcanonical (hreached id hid).2 hbefore
    have hunit : (before.identity, before.compiled) = (laid.identity, laid.compiled) :=
      Asset.eq_of_withoutPlace (f := fun asset => (asset.identity, asset.compiled)) hsame fun _ => rfl
    obtain ⟨hidentity, hcompiled⟩ := Prod.mk.inj hunit
    refine ⟨source, by rw [← htext, hidentity]; rfl, ?_⟩
    unfold Packaging.copyOf
    dsimp only
    rw [hkind, ← hcompiled, houtput, Option.getD_some]

end

end Pass

namespace Session

section

variable {tools : Toolset κ π σ} {now : σ → Prop} {answers : Answers κ}
  (hanswering : Answering tools now answers) {minify : Bool} {text : Path → Except FileFault String}
  (hstandard : answers.Standard minify text) (hcanonical : answers.Canonical) {settings : Settings}
  {entry : Path} {compiler : κ} {packagers : Packagers π} {world : σ} (hnow : now world)
  {module : Lookup.Modules.Resolved} (hentry : answers.find entry.text none = .ok module)
  (honly : answers.SheetsOnly text module.path) {depth : Nat} {report : Report} {session' : Session κ π σ}
  (hbundle : (Session.new settings entry (.ofFallback compiler) packagers tools world).bundle? depth =
    some (.ok report, session'))
include hanswering hstandard hcanonical hnow hentry honly hbundle

/-- A first pass over sheets writes one bundle, with the sheets in the order of a walk. -/
theorem exists_walk : (∃ targets, answers.sheetImports text module.path = some targets) ∧
    ∃ names bundle info, Walks (answers.sheetImports text) [] [module.path] names ∧
      (∃ moment ∈ (Session.new settings entry (.ofFallback compiler) packagers tools world).passTrail depth,
        moment.deed = .written [bundle]) ∧
      report.bundles = [info] ∧ bundle.kind = .css ∧ bundle.assets.map PackagedAsset.identity = names ∧
      info.assets = names ∧ ∀ copy ∈ bundle.assets, ∃ source, text copy.identity = .ok source ∧
        copy.content = Source.sheetOutput minify source := by
  obtain ⟨next, hrun, -⟩ := state_bundle? hbundle
  obtain ⟨start, assembled, hassemble, hfinish⟩ := Pass.run_ok_cases hrun
  obtain ⟨hmakes, found, hfound, hstands⟩ := Pass.assemble_makes hanswering hnow rfl hassemble
  obtain ⟨hgrounds, -⟩ := Pass.assemble_grounds hanswering hcanonical hnow rfl hassemble
  obtain rfl : module = found := Except.ok.inj (hentry.symm.trans hfound)
  have hlive : assembled.state.graph.IsLive start := by
    obtain ⟨asset, hget, -⟩ := hstands
    exact ⟨asset, hget⟩
  have hsheets : answers.Sheets minify text (.ofFallback compiler) assembled.state.graph start module.path :=
    ⟨hgrounds, hmakes, ⟨hlive, hgrounds.nameOf_eq hcanonical hentry hstands⟩, honly⟩
  obtain ⟨names, bundle, info, hwalks, hchanged, hrest⟩ :=
    Pass.finish_sheets hstandard hcanonical hsheets (Pass.fingerprints_assemble hassemble) hfinish
  obtain ⟨moment, hmoment, hdeed⟩ := Pass.exists_written_of_assemble hassemble
  rw [hchanged] at hdeed
  exact ⟨hsheets.exists_imports hstandard hcanonical, names, bundle, info, hwalks,
    ⟨moment, List.mem_cons_of_mem _ (List.mem_append_left _ hmoment), hdeed⟩, hrest⟩

/-- A first pass over sheets writes one bundle, in which every sheet stands as it was compiled.  The sheets are
in the order of a walk, in which every sheet but the entry comes after one that imports it.  So the ones that
are imported come before the ones that import them only if nothing is imported. -/
theorem sheets_importedFirst_iff : ∃ names bundle info, Walks (answers.sheetImports text) [] [module.path] names ∧
    Led (answers.sheetImports text) module.path names ∧
    (∃ moment ∈ (Session.new settings entry (.ofFallback compiler) packagers tools world).passTrail depth,
      moment.deed = .written [bundle]) ∧
    report.bundles = [info] ∧ bundle.kind = .css ∧ bundle.assets.map PackagedAsset.identity = names ∧
    info.assets = names ∧ (∀ copy ∈ bundle.assets, ∃ source, text copy.identity = .ok source ∧
      copy.content = Source.sheetOutput minify source) ∧
    (ImportedFirst (answers.sheetImports text) names ↔ answers.sheetImports text module.path = some []) := by
  obtain ⟨⟨targets, htargets⟩, names, bundle, info, hwalks, hwritten, hreport, hkind, hmembers, hinfo, hcopies⟩ :=
    exists_walk hanswering hstandard hcanonical hnow hentry honly hbundle
  refine ⟨names, bundle, info, hwalks, hwalks.led_start, hwritten, hreport, hkind, hmembers, hinfo, hcopies, ?_⟩
  rw [hwalks.importedFirst_iff htargets, htargets, Option.some.injEq]

end

/-! ## A project of two sheets -/

/-- The rules of a project whose files are compiled by default. -/
def defaultRules (find : String → Option Path → Except Failure Lookup.Modules.Resolved) (minify : Bool) :
    Rules Unit (Except FileFault String) where
  find := find
  translate _ p _ content := Source.compileFile p minify content
  prepared _ := .ok ()

/-- What is answered about the files with the given texts. -/
def defaultAnswers (find : String → Option Path → Except Failure Lookup.Modules.Resolved) (minify : Bool)
    (text : Path → Except FileFault String) : Answers Unit :=
  (defaultRules find minify).answers text

/-- A session for the project. -/
def defaultSession (find : String → Option Path → Except Failure Lookup.Modules.Resolved) (minify : Bool)
    (text : Path → Except FileFault String) (entry : Path) : Session Unit Unit Unit :=
  Session.new (.ofRequest ⟨"/"⟩ false {}) entry (.ofFallback ()) (.ofFallback ())
    (Toolset.ofRules (defaultRules find minify) fun _ => text) ()

section

variable (find : String → Option Path → Except Failure Lookup.Modules.Resolved) (minify : Bool)
  (text : Path → Except FileFault String)

theorem answering_default : Answering (Toolset.ofRules (defaultRules find minify) fun _ : Unit => text)
    (fun _ => True) (defaultAnswers find minify text) where
  resolve _ _ _ _ := ⟨rfl, trivial⟩
  compile _ _ _ _ _ := ⟨rfl, trivial⟩
  implied _ _ _ _ := ⟨rfl, trivial⟩
  arrivals _ _ := ⟨rfl, trivial⟩
  retrieve _ _ _ := ⟨rfl, trivial⟩
  prepare _ _ _ := ⟨rfl, trivial⟩
  write _ _ _ _ := ⟨rfl, trivial⟩
  remember _ _ _ _ _ := trivial
  forget _ _ _ := trivial
  watch _ _ _ := trivial
  update _ _ _ := trivial

theorem standard_default : (defaultAnswers find minify text).Standard minify text where
  translate _ _ _ := rfl
  implied _ := rfl

end

/-- The resolver of a project of two sheets. -/
def findSheet (specifier : String) (_ : Option Path) : Except Failure Lookup.Modules.Resolved :=
  .ok ⟨if specifier = "./b.css" then ⟨"/b.css"⟩ else ⟨"/a.css"⟩, {}⟩

/-- The texts of the two sheets.  The first one imports the other one. -/
def sheetText (p : Path) : Except FileFault String :=
  .ok (if p = ⟨"/a.css"⟩ then "@import \"./b.css\"; p" else "q")

theorem canonical_findSheet : (defaultAnswers findSheet false sheetText).Canonical := by
  intro specifier specifier' importer importer' module module' h h' hsame
  have hne : (Path.mk "/a.css" == ⟨"/b.css"⟩) = false ∧ (Path.mk "/b.css" == ⟨"/a.css"⟩) = false := by
    decide +kernel
  simp only [defaultAnswers, Rules.answers, defaultRules, findSheet, Except.ok.injEq] at h h'
  subst h h'
  dsimp only at hsame
  split at hsame <;> split at hsame <;> simp_all

theorem find_findSheet : (defaultAnswers findSheet false sheetText).find (Path.mk "/a.css").text none =
    .ok ⟨⟨"/a.css"⟩, {}⟩ := rfl

theorem sheetImports_findSheet :
    (defaultAnswers findSheet false sheetText).sheetImports sheetText ⟨"/a.css"⟩ = some [⟨"/b.css"⟩] ∧
      (defaultAnswers findSheet false sheetText).sheetImports sheetText ⟨"/b.css"⟩ = some [] := by
  decide +kernel

/-- From the first sheet only the two can be reached. -/
theorem includes_findSheet {p q : Path}
    (h : Includes ((defaultAnswers findSheet false sheetText).sheetImports sheetText) p q)
    (hp : p = ⟨"/a.css"⟩ ∨ p = ⟨"/b.css"⟩) : p = ⟨"/a.css"⟩ ∧ q = ⟨"/b.css"⟩ := by
  obtain ⟨hfirst, hsecond⟩ := sheetImports_findSheet
  obtain ⟨targets, htargets, hmem⟩ := h
  rcases hp with rfl | rfl
  · rw [hfirst, Option.some.injEq] at htargets
    subst htargets
    exact ⟨rfl, List.mem_singleton.1 hmem⟩
  · rw [hsecond, Option.some.injEq] at htargets
    subst htargets
    cases hmem

/-- From the first sheet only the two can be reached. -/
theorem reaches_findSheet {p : Path} (h : Relation.ReflTransGen
    (Includes ((defaultAnswers findSheet false sheetText).sheetImports sheetText)) ⟨"/a.css"⟩ p) :
    p = ⟨"/a.css"⟩ ∨ p = ⟨"/b.css"⟩ := by
  induction h with
  | refl => exact .inl rfl
  | tail _ himports ih => exact .inr (includes_findSheet himports ih).2

theorem sheetsOnly_findSheet : (defaultAnswers findSheet false sheetText).SheetsOnly sheetText ⟨"/a.css"⟩ := by
  intro p hreach
  have hextensions : Source.extensionOf ⟨"/a.css"⟩ = "css" ∧ Source.extensionOf ⟨"/b.css"⟩ = "css" := by
    decide +kernel
  rcases reaches_findSheet hreach with rfl | rfl
  · exact hextensions.1
  · exact hextensions.2

/-- The first pass over the two sheets succeeds. -/
theorem bundle?_findSheet : ∃ report, (defaultSession findSheet false sheetText ⟨"/a.css"⟩).bundle? 3 =
    some (.ok report, (defaultSession findSheet false sheetText ⟨"/a.css"⟩).rehearsed 3 3) :=
  exists_report_of_rehearse (by decide +kernel)

/-- In the bundle of the two sheets, the first sheet is not preceded by the one that it imports. -/
theorem sheets_importedFirst_iff_findSheet :
    ∃ (report : Report) (names : List Path) (bundle : PackagedBundle) (info : BundleInfo),
      Walks ((defaultAnswers findSheet false sheetText).sheetImports sheetText) [] [⟨"/a.css"⟩] names ∧
      Led ((defaultAnswers findSheet false sheetText).sheetImports sheetText) ⟨"/a.css"⟩ names ∧
      (∃ moment ∈ (defaultSession findSheet false sheetText ⟨"/a.css"⟩).passTrail 3,
        moment.deed = .written [bundle]) ∧
      report.bundles = [info] ∧ bundle.kind = .css ∧ bundle.assets.map PackagedAsset.identity = names ∧
      info.assets = names ∧ (∀ copy ∈ bundle.assets, ∃ source, sheetText copy.identity = .ok source ∧
        copy.content = Source.sheetOutput false source) ∧
      ¬ ImportedFirst ((defaultAnswers findSheet false sheetText).sheetImports sheetText) names := by
  have hanswering := answering_default findSheet false sheetText
  have hstandard := standard_default findSheet false sheetText
  obtain ⟨report, hbundle⟩ := bundle?_findSheet
  obtain ⟨names, bundle, info, hwalks, hled, hwritten, hreport, hkind, hmembers, hinfo, hcopies, hfirst⟩ :=
    sheets_importedFirst_iff hanswering hstandard canonical_findSheet trivial find_findSheet sheetsOnly_findSheet
      hbundle
  refine ⟨report, names, bundle, info, hwalks, hled, hwritten, hreport, hkind, hmembers, hinfo, hcopies, ?_⟩
  rw [hfirst, sheetImports_findSheet.1]
  exact fun h => absurd (Option.some.inj h) (List.cons_ne_nil _ _)

/-- A sheet can come before one that it imports, also where no sheet leads back to itself. -/
theorem exists_importer_first :
    ¬ ∀ (find : String → Option Path → Except Failure Lookup.Modules.Resolved) (minify : Bool)
        (text : Path → Except FileFault String) (entry : Path) (module : Lookup.Modules.Resolved) (depth : Nat)
        (report : Report) (session' : Session Unit Unit Unit) (moment : Moment Unit)
        (bundles : List PackagedBundle) (bundle : PackagedBundle),
      let answers := defaultAnswers find minify text
      let session := defaultSession find minify text entry
      answers.Canonical → find entry.text none = .ok module → answers.SheetsOnly text module.path →
        (∃ rank : Path → Nat, ∀ p q, Relation.ReflTransGen (Includes (answers.sheetImports text)) module.path p →
          Includes (answers.sheetImports text) p q → rank q < rank p) →
        session.bundle? depth = some (.ok report, session') → moment ∈ session.passTrail depth →
        moment.deed = .written bundles → bundle ∈ bundles → bundle.kind = .css →
          ImportedFirst (answers.sheetImports text) (bundle.assets.map PackagedAsset.identity) := by
  intro hclaim
  obtain ⟨report, hbundle⟩ := bundle?_findSheet
  obtain ⟨-, names, bundle, info, hwalks, ⟨moment, hmoment, hdeed⟩, -, hkind, hmembers, -, -⟩ :=
    exists_walk (answering_default findSheet false sheetText) (standard_default findSheet false sheetText)
      canonical_findSheet trivial find_findSheet sheetsOnly_findSheet hbundle
  have hrank : ∃ rank : Path → Nat, ∀ p q, Relation.ReflTransGen
      (Includes ((defaultAnswers findSheet false sheetText).sheetImports sheetText)) ⟨"/a.css"⟩ p →
        Includes ((defaultAnswers findSheet false sheetText).sheetImports sheetText) p q → rank q < rank p := by
    refine ⟨fun p => if p = ⟨"/a.css"⟩ then 1 else 0, fun p q hreach himports => ?_⟩
    obtain ⟨rfl, rfl⟩ := includes_findSheet himports (reaches_findSheet hreach)
    decide
  have hfirst := hclaim findSheet false sheetText ⟨"/a.css"⟩ ⟨⟨"/a.css"⟩, {}⟩ 3 report _ moment [bundle] bundle
    canonical_findSheet rfl sheetsOnly_findSheet hrank hbundle hmoment hdeed (List.mem_singleton.2 rfl) hkind
  rw [hmembers, hwalks.importedFirst_iff sheetImports_findSheet.1] at hfirst
  cases hfirst

end Session

end Build
end ModuleBundler
