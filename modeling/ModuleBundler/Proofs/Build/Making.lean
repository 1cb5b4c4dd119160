import ModuleBundler.Proofs.Build.Declaring
import ModuleBundler.Proofs.Build.Ending
import ModuleBundler.Proofs.Build.Recovery

/-!
# What a first pass makes

A first pass that does not fail loads every asset once and from scratch, while its tools
give the same answers all the time.  So an asset that is live when the bundles are laid out
is what its file makes of it: it has the output of the unit to which its file is compiled,
it declares the imports that are not put into it, one for each specifier, and they lead to
the modules that the resolver finds.

Main results:

- Theorem {lit}`Work.get?_recordAll`: what an asset declares when its imports were recorded.
- Theorem {lit}`Answers.Making.ready`: an asset that becomes ready is what its file makes of it.
- Theorem {lit}`Pass.assemble_makes`: so are all assets that a first pass lays out.
-/

namespace ModuleBundler
namespace Build

variable {κ π σ : Type}

/-- The imports that are not put into the importing asset. -/
def separate (modules : List (Dependency × Lookup.Modules.Resolved)) : List Dependency :=
  (modules.filter fun link => !link.1.inlined).map Prod.fst

theorem mem_separate_iff {modules : List (Dependency × Lookup.Modules.Resolved)} {dep : Dependency} :
    dep ∈ separate modules ↔ ∃ link ∈ modules, link.1.inlined = false ∧ link.1 = dep := by
  simp [separate, and_assoc]

namespace Answers

/-- Whether an asset is what a unit and the modules of its imports make of it. -/
structure Makes (answers : Answers κ) (types : AssetTypes κ) (graph : AssetGraph) (asset : Asset)
    (unit : CompiledUnit) (modules : List (Dependency × Lookup.Modules.Resolved)) : Prop where
  clean : asset.dirty = false
  readies : answers.Readies types asset unit modules
  compiled : asset.compiled = some unit.generated
  hash : asset.hash = some unit.hash
  dependencies : asset.dependencies = Asset.putDependencies (separate modules) []
  leads : ∀ link ∈ modules, link.1.inlined = false → ∃ target,
    asset.resolved.get? link.1.specifier = some target ∧ graph.StandsFor target link.2.path

/-- Whether each asset is what its file makes of it, or was not loaded yet. -/
structure Making (answers : Answers κ) (types : AssetTypes κ) (graph : AssetGraph) : Prop where
  indexed : graph.Indexed
  distinct : graph.Distinct
  stage : ∀ {id : AssetId} {asset : Asset}, graph.get? id = some asset →
    asset.Pristine ∨ ∃ unit modules, answers.Makes types graph asset unit modules

variable {answers : Answers κ} {types : AssetTypes κ}

theorem Makes.mono {old new : AssetGraph} {asset : Asset} {unit : CompiledUnit}
    {modules : List (Dependency × Lookup.Modules.Resolved)} (h : answers.Makes types old asset unit modules)
    (hstands : ∀ id p, old.StandsFor id p → new.StandsFor id p) :
    answers.Makes types new asset unit modules where
  clean := h.clean
  readies := h.readies
  compiled := h.compiled
  hash := h.hash
  dependencies := h.dependencies
  leads link hlink hseparate := by
    obtain ⟨target, hresolved, htarget⟩ := h.leads link hlink hseparate
    exact ⟨target, hresolved, hstands _ _ htarget⟩

theorem making_empty (answers : Answers κ) (types : AssetTypes κ) : answers.Making types .empty where
  indexed := AssetGraph.indexed_empty
  distinct _ _ hget := by cases hget
  stage hget := by cases hget

end Answers

end Build

/-- Inserting leaves assets as they are, apart from one that is made. -/
theorem AssetGraph.pristine_of_get?_insert {graph : AssetGraph} {p : Path} {kind : Kind} {package : Package}
    {id : AssetId} {asset : Asset} (h : (graph.insert p kind package).2.get? id = some asset) :
    graph.get? id = some asset ∨ asset.Pristine := by
  unfold insert at h
  split at h
  · exact .inl h
  · rw [get?_add] at h
    split at h
    · cases h
      exact .inr ⟨rfl, rfl⟩
    · exact .inl h

namespace Build

variable {κ π σ : Type}

/-! ## Recording imports -/

namespace Work

variable (tools : Toolset κ π σ) (types : AssetTypes κ) {id : AssetId}
  (modules : List (Dependency × Lookup.Modules.Resolved)) {work : Work σ}

/-- When the imports of an asset were recorded, it declares those that were not put into it. -/
theorem get?_recordAll {importer : Asset} (hget : work.state.graph.get? id = some importer) :
    ∃ resolved, (recordAll tools types id modules work).2.state.graph.get? id =
      some { importer with
        dependencies := Asset.putDependencies (separate modules) importer.dependencies, resolved } := by
  induction modules generalizing work importer with
  | nil => exact ⟨importer.resolved, hget⟩
  | cons found rest ih =>
    rcases record_cases tools types id found work with ⟨hinlined, hstate⟩ | ⟨hinlined, -⟩
    · have hstays : (work.record tools types id found).2.state.graph.get? id = some importer := by
        rw [hstate]
        exact (AssetGraph.get?_makeAlias _ _ _ _).trans hget
      have hrest : separate (found :: rest) = separate rest := by simp [separate, hinlined]
      rw [hrest]
      exact ih hstays
    · have hrest : separate (found :: rest) = found.1 :: separate rest := by simp [separate, hinlined]
      rw [hrest]
      exact ih (get?_record hget hinlined)

/-- Recording the imports of an asset makes assets and leaves the other ones as they are. -/
theorem pristine_of_get?_recordAll {other : AssetId} (hother : other ≠ id) {found : Asset}
    (hget : (recordAll tools types id modules work).2.state.graph.get? other = some found) :
    work.state.graph.get? other = some found ∨ found.Pristine := by
  refine @recordAll_preserves _ _ _ types (fun graph => ∀ found, graph.get? other = some found →
    work.state.graph.get? other = some found ∨ found.Pristine) tools id modules ?_ ?_ ?_ work
    (fun _ => .inl) found hget
  · intro graph change _ h found hget
    rw [AssetGraph.get?_update_of_ne hother] at hget
    exact h found hget
  · intro _ _ graph h found hget
    rcases AssetGraph.pristine_of_get?_insert hget with hget | hpristine
    · exact h found hget
    · exact .inr hpristine
  · intro graph p h found hget
    rw [AssetGraph.get?_makeAlias] at hget
    exact h found hget

theorem recordAll_indexed (h : work.state.graph.Indexed) :
    (recordAll tools types id modules work).2.state.graph.Indexed :=
  @recordAll_preserves _ _ _ types AssetGraph.Indexed tools id modules
    (fun hmodule h => AssetGraph.indexed_update h id hmodule) (fun _ _ _ h => AssetGraph.indexed_insert h _ _ _)
    (fun p h => AssetGraph.indexed_makeAlias h p id) work h

variable {modules}

/-- When the imports of an asset were recorded, those that were not put into it lead to their modules. -/
theorem leads_recordAll {find : String → Option Path → Except Failure Lookup.Modules.Resolved} {p : Path}
    (hfind : ∀ link ∈ modules, find link.1.specifier (some p) = .ok link.2)
    (hindexed : work.state.graph.Indexed) (hdistinct : work.state.graph.Distinct)
    (hlive : work.state.graph.IsLive id) {link : Dependency × Lookup.Modules.Resolved} (hlink : link ∈ modules)
    (hseparate : link.1.inlined = false) {importer : Asset}
    (hget : (recordAll tools types id modules work).2.state.graph.get? id = some importer) :
    ∃ target, importer.resolved.get? link.1.specifier = some target ∧
      (recordAll tools types id modules work).2.state.graph.StandsFor target link.2.path := by
  obtain ⟨last, hlast⟩ := exists_lastImport hlink hseparate
  obtain ⟨other, target, hother, hlinks, hstands⟩ := @recordAll_isLeft κ π σ tools types id link.1.specifier last
    work modules none hindexed hdistinct hlive (fun _ h => by cases h) (by rw [hlast]; rfl)
  obtain rfl := Option.some.inj (hget.symm.trans hother)
  -- the last import of the specifier leads to the same module
  obtain ⟨hmem, hcounts⟩ := List.mem_filter.1 (List.mem_of_getLast? hlast)
  have hspecifier : last.1.specifier = link.1.specifier := by
    rw [Bool.and_eq_true, decide_eq_true_eq] at hcounts
    exact hcounts.2
  have hsame : last.2 = link.2 := by
    have hfound := hfind last hmem
    rw [hspecifier, hfind link hlink] at hfound
    exact (Except.ok.inj hfound).symm
  have hleft : (last.1, target) ∈ importer.linksOf link.1.specifier := by
    rw [hlinks]
    exact List.mem_singleton_self _
  obtain ⟨dep, -, hdep⟩ := List.mem_filterMap.1 (List.mem_filter.1 hleft).1
  obtain ⟨found, hfound, heq⟩ := Option.map_eq_some_iff.1 hdep
  obtain ⟨rfl, rfl⟩ := Prod.mk.inj heq
  rw [hspecifier] at hfound
  rw [hsame] at hstands
  exact ⟨found, hfound, hstands⟩

end Work

/-! ## Loading -/

section

variable {tools : Toolset κ π σ} {now : σ → Prop} {answers : Answers κ}
  (hanswering : Answering tools now answers) {types : AssetTypes κ}
include hanswering

/-- An asset that becomes ready is what its file makes of it. -/
theorem Answers.Making.ready {work claimed next : Work σ} {id : AssetId} {asset : Asset}
    {children : List AssetId} (hnow : now work.world) (h : answers.Making types work.state.graph)
    (hclaim : Load.claim work id = some (asset, claimed))
    (hprepare : claimed.prepare tools types id asset = (.ready children, next)) :
    now next.world ∧ answers.Making types next.state.graph := by
  obtain ⟨hget, hdirty, -⟩ := State.of_claim (Load.of_claim hclaim).1
  obtain ⟨hnext, unit, modules, before, hreadies, hbefore, hself, -, rfl⟩ :=
    Load.ready_spec hanswering hnow hclaim hprepare
  have hkeeps := Asset.keepsModule_withOutput unit
  have hindexed : before.state.graph.Indexed := by
    rw [hbefore]
    exact AssetGraph.indexed_update h.indexed id hkeeps
  have hdistinct : before.state.graph.Distinct := by
    rw [hbefore]
    exact h.distinct.update id fun _ hasset => hasset
  have hstands : ∀ other p, work.state.graph.StandsFor other p →
      (Work.recordAll tools types id modules before).2.state.graph.StandsFor other p := by
    intro other p h
    have hgrowing := AssetGraph.growing_standsFor types other p
    refine Work.recordAll_growing hgrowing tools id modules ?_
    rw [hbefore]
    exact hgrowing.update id hkeeps h
  refine ⟨hnext, Work.recordAll_indexed tools types modules hindexed,
    Work.recordAll_distinct tools types id modules hdistinct, fun {other found} hfound => ?_⟩
  by_cases hother : other = id
  · subst hother
    -- the asset is dirty, so that it was not loaded before
    have hpristine : asset.Pristine := by
      rcases h.stage hget with hpristine | ⟨_, _, hmakes⟩
      · exact hpristine
      · cases hdirty.symm.trans hmakes.clean
    obtain ⟨implied, himplied, hleads⟩ := hreadies.leads
    have hlive : before.state.graph.IsLive other := ⟨_, hself⟩
    obtain ⟨resolved, hafter⟩ := Work.get?_recordAll tools types modules hself
    have hend := fun link hlink hseparate => @Work.leads_recordAll _ _ _ tools types other modules before _ _
      hleads.found hindexed hdistinct hlive link hlink hseparate found hfound
    obtain rfl := Option.some.inj (hafter.symm.trans hfound)
    refine .inr ⟨unit, modules, rfl, ⟨hreadies.translated, implied, himplied, hleads⟩, rfl, rfl, ?_, hend⟩
    dsimp only [Asset.withOutput]
    rw [hpristine.undeclared]
  · rcases Work.pristine_of_get?_recordAll tools types modules hother hfound with hstays | hpristine
    · rw [hbefore] at hstays
      have hsame : work.state.graph.get? other = some found :=
        (AssetGraph.get?_update_of_ne hother _ _).symm.trans hstays
      exact (h.stage hsame).imp_right fun ⟨unit, modules, hmakes⟩ => ⟨unit, modules, hmakes.mono hstands⟩
    · exact .inl hpristine

/-- A batch that is loaded without failure is what its files make of it. -/
theorem Load.batch_making {depth : Nat} {ids : List AssetId} {work next : Work σ} (hnow : now work.world)
    (h : answers.Making types work.state.graph)
    (hbatch : batch tools types depth ids work = some (none, next)) :
    now next.world ∧ answers.Making types next.state.graph := by
  exact @batch_induction κ π σ tools types (fun after => now after.world ∧ answers.Making types after.state.graph)
    (fun h hclaim hprepare => h.2.ready hanswering h.1 hclaim hprepare) depth ids work next ⟨hnow, h⟩ hbatch

namespace Pass

/-- If a first pass loads all that waits, then every asset is what its file makes of it. -/
theorem drain_making {depth batches : Nat} {loaded ids : List AssetId} {work next : Work σ}
    (hnow : now work.world) (h : answers.Making types work.state.graph)
    (hdrain : drain tools types true depth batches loaded work = some (.ok ids, next)) :
    now next.world ∧ answers.Making types next.state.graph := by
  induction batches generalizing loaded work with
  | zero => cases hdrain
  | succ batches ih =>
    rcases drain_cases hdrain with ⟨-, -, rfl⟩ | ⟨failure, -, hfailure, -⟩ | ⟨after, -, hbatch, hrest⟩
    · exact ⟨hnow, h⟩
    · cases hfailure
    · obtain ⟨hnow', hmaking⟩ := @Load.batch_making _ _ _ _ _ _ hanswering _ _ _ (begin tools true work) _ hnow h
        hbatch
      exact ih hnow' hmaking hrest

/-- If a first pass comes to lay out bundles, then every asset is what its file makes of it, and the build
starts from the asset of the entry. -/
theorem assemble_makes {setup : Setup κ π} {depth : Nat} {work next : Work σ} {start : AssetId}
    (hnow : now work.world) (hempty : work.state = {})
    (h : assemble tools setup depth work = some (.ok start, next)) :
    (∀ id asset, next.state.graph.get? id = some asset →
      ∃ unit modules, answers.Makes setup.types next.state.graph asset unit modules) ∧
    ∃ entry, answers.find setup.entry.text none = .ok entry ∧ next.state.graph.StandsFor start entry.path := by
  have horderly : work.state.Orderly [] [] := by
    rw [hempty]
    exact State.orderly_empty
  have hclean := (assemble_orderly horderly h).2 start rfl
  have hstart := start_assemble h
  obtain ⟨entered, entry, loaded, hentered, -, hfind, hbegun, hgather, hdrain⟩ :=
    assemble_empty_cases hanswering hnow hempty h
  have hgraph : entered.state.graph =
      (AssetGraph.empty.insert entry.path (setup.types.kindOf entry.path) entry.package).2 :=
    congrArg State.graph hbegun
  have hmaking : answers.Making setup.types entered.state.graph := by
    have hnothing := answers.making_empty setup.types
    rw [hgraph]
    refine ⟨AssetGraph.indexed_insert hnothing.indexed _ _ _, hnothing.distinct.insert _ _ _, fun hget => ?_⟩
    rcases AssetGraph.pristine_of_get?_insert hget with hget | hpristine
    · cases hget
    · exact .inl hpristine
  have hstands : next.state.graph.StandsFor start entry.path := by
    have hbegins : entered.state.start = some start := (start_gather hgather).symm.trans hstart
    refine gather_growing (AssetGraph.growing_standsFor setup.types start entry.path) ?_ hgather
    rw [hbegun] at hbegins
    cases hbegins
    rw [hgraph]
    exact AssetGraph.standsFor_insert AssetGraph.indexed_empty _ _ _
  refine ⟨fun id asset hget => ?_, entry, hfind, hstands⟩
  obtain ⟨-, hmade⟩ := drain_making hanswering hentered hmaking hdrain
  rcases hmade.stage hget with hpristine | hmakes
  · cases hpristine.dirty.symm.trans (hclean id asset hget)
  · exact hmakes

end Pass

end

end Build
end ModuleBundler
