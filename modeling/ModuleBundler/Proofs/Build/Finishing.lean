import ModuleBundler.Proofs.Build.Rebuilding
import ModuleBundler.Proofs.Bundle.Reporting

/-!
# The end of a pass over steady tools

When everything is loaded, the assets are laid out in bundles, the bundles are
written and the assets without a home are unloaded.  With steady tools that leads to
a report, and the assets that are left are as fresh as they were.

Main results:

- Theorem {lit}`State.Current.unload`: unloading keeps a build current.
- Theorem {lit}`Pass.finish_reports`: with steady tools the end of a pass leads to a report.
- Theorem {lit}`Pass.run_upToDate`: a pass keeps a build up to date and reports on a layout of fresh assets.
-/

namespace ModuleBundler
namespace Build

variable {κ π σ τ : Type}

/-! ## Unloading -/

namespace State

variable {rules : Rules κ τ} {setup : Setup κ π} {text : Path → τ} {state : State}

/-- Unloading keeps a build current, provided that the build's start has a home and that no asset with a
home imports one without. -/
theorem Current.unload (h : state.Current rules setup text [] []) (hqueue : state.queue = [])
    (hstart : ∀ id, state.start = some id → id ∉ state.graph.orphans)
    (hclosed : ∀ {id target : AssetId} {asset : Asset} {specifier : String},
      state.graph.get? id = some asset → id ∉ state.graph.orphans →
        asset.resolved.get? specifier = some target → target ∉ state.graph.orphans) :
    state.unload.2.Current rules setup text [] [] := by
  obtain ⟨hindexed, hget, -, hstarted, -⟩ := unload_spec h.indexed
  have hbefore : ∀ {id : AssetId} {asset : Asset}, state.unload.2.graph.get? id = some asset →
      id ∉ state.graph.orphans ∧ state.graph.get? id = some asset := by
    intro id asset h
    rw [hget] at h
    split at h
    · cases h
    · rename_i hid
      exact ⟨hid, h⟩
  have hkept : ∀ {id : AssetId} {module : Lookup.Modules.Resolved}, id ∉ state.graph.orphans →
      state.graph.Holds id module → state.unload.2.graph.Holds id module := by
    rintro id module hid ⟨asset, hasset, hmodule⟩
    exact ⟨asset, by rw [hget, if_neg hid, hasset], hmodule⟩
  refine ⟨hindexed, fun h' => h.sourced (hbefore h').2, ?_, ?_⟩
  · intro id hid
    rw [hstarted] at hid
    obtain ⟨hprepared, entry, hfind, hholds⟩ := h.entered hid
    exact ⟨hprepared, entry, hfind, hkept (hstart id hid) hholds⟩
  · intro id asset h'
    obtain ⟨hid, h'⟩ := hbefore h'
    obtain ⟨unit, hunit⟩ := h.fresh hqueue h'
    refine .inr (.inr (.inr ⟨unit, hunit.clean, hunit.translated, hunit.compiled, hunit.hash,
      hunit.dependencies, fun dep hdep => ?_⟩))
    obtain ⟨module, hfind, target, hresolved, hholds⟩ := hunit.leads dep hdep
    exact ⟨module, hfind, target, hresolved, hkept (hclosed h' hid hresolved) hholds⟩

/-- The layout of the assets of a state. -/
def layout (state : State) (outDir : Path) (start : AssetId) : Layout :=
  Layout.ofGraph (state.graph.updateAll Asset.withoutPlace) outDir start

theorem sameContent_layout (state : State) (outDir : Path) (start : AssetId) :
    state.graph.SameContent (state.layout outDir start).graph :=
  state.graph.sameContent_withoutPlace.trans
    (Layout.sameContent_ofGraph (state.graph.updateAll Asset.withoutPlace) outDir start)

end State

/-! ## Writing and reporting -/

namespace Pass

variable {tools : Toolset κ π σ} {text : σ → Path → τ} {rules : Rules κ τ} {setup : Setup κ π}

/-- With steady tools the bundles are written. -/
theorem write_spec (hsteady : Steady tools text rules) (packagers : Packagers π)
    (bundles : List PackagedBundle) (work : Work σ) :
    (write tools packagers bundles work).1 = .ok () ∧
      Work.Quiet text work (write tools packagers bundles work).2 := by
  obtain ⟨hok, world, htext, hwritten⟩ :=
    @write_ok κ π σ tools (fun world => text world = text work.world) (fun packager bundle world h =>
      ⟨(hsteady.write packager bundle world).1, (hsteady.write packager bundle world).2.trans h⟩)
      packagers bundles work rfl
  refine ⟨hok, ?_⟩
  rw [hwritten]
  exact hsteady.ask work htext

theorem state_unload (tools : Toolset κ π σ) (work : Work σ) :
    (unload tools work).state = work.state.unload.2 := rfl

/-- With steady tools the end of a pass leads to a report: the assets are laid out, and those without a home
are unloaded. -/
theorem finish_reports (hsteady : Steady tools text rules) (start : AssetId) (work : Work σ) :
    ∃ packaged next, finish tools setup start work =
        (.ok (Report.ofTree (work.state.layout setup.outDir start).tree next.state.graph packaged), next) ∧
      text next.world = text work.world ∧
        ∃ fingerprints, next.state = (State.unload
          { work.state with graph := (work.state.layout setup.outDir start).graph, fingerprints }).2 := by
  have hlayout : layOut setup.outDir start work = ((work.state.layout setup.outDir start).tree,
      { work with state := { work.state with graph := (work.state.layout setup.outDir start).graph } }) :=
    rfl
  unfold finish
  rw [hlayout]
  generalize work.state.layout setup.outDir start = layout
  dsimp only
  generalize Packaging.plan layout.tree layout.graph work.state.fingerprints = plan
  obtain ⟨hok, hquiet⟩ := write_spec hsteady setup.packagers plan.changed
    { work with state := { work.state with graph := layout.graph } }
  generalize write tools setup.packagers plan.changed
    { work with state := { work.state with graph := layout.graph } } = written at hok hquiet
  obtain ⟨result, written⟩ := written
  dsimp only at hok hquiet
  subst hok
  refine ⟨_, _, rfl, (world_unload text hsteady.unwatch _).trans hquiet.text, some plan.hashes, ?_⟩
  rw [state_unload, hquiet.state]

/-- The asset that a build starts from has a place in the layout. -/
theorem isPlaced_start {texts : Path → τ} {state : State} {start : AssetId}
    (h : state.Current rules setup texts [] []) (hstart : state.start = some start) :
    (state.layout setup.outDir start).IsPlaced start := by
  obtain ⟨-, -, -, asset, hget, -⟩ := h.entered hstart
  have hlive := (state.graph.sameContent_withoutPlace.isLive_iff start).2 ⟨asset, hget⟩
  exact ((Layout.ofGraph_explored _ setup.outDir start).isPlaced_iff start).2 (.entry hlive)

/-- Unloading keeps exactly the assets that have a place in a layout. -/
theorem retains_unload {layout : Layout} {state : State} (hgraph : state.graph = layout.graph)
    (hindexed : layout.graph.Indexed) : layout.Retains state.unload.2.graph := by
  have hplaced := @Layout.isPlaced_iff_not_mem_orphans layout hindexed
  rw [← hgraph] at hindexed hplaced
  obtain ⟨-, hget, -⟩ := State.unload_spec hindexed
  refine ⟨fun {id} hid => ?_, fun {id asset} hid => ?_⟩
  · rw [hget, if_neg ((hplaced id).1 hid).2, hgraph]
  · rw [hget] at hid
    split at hid
    · cases hid
    · rename_i hnot
      exact (hplaced id).2 ⟨⟨asset, hid⟩, hnot⟩

/-- Whether a report is about a layout of fresh assets, of which a graph has kept those with a place. -/
structure Delivers (rules : Rules κ τ) (setup : Setup κ π) (texts : Path → τ) (report : Report)
    (before : State) (start : AssetId) (graph : AssetGraph) : Prop where
  upToDate : before.UpToDate rules setup texts
  queue : before.queue = []
  entry : before.start = some start
  indexed : graph.Indexed
  retains : (before.layout setup.outDir start).Retains graph
  reports : ∃ packaged, report = Report.ofTree (before.layout setup.outDir start).tree graph packaged

/-- The end of a pass keeps a build up to date and leads to a report. -/
theorem finish_upToDate (hsteady : Steady tools text rules) {texts : Path → τ} {work : Work σ}
    {start : AssetId} (htext : text work.world = texts) (h : work.state.UpToDate rules setup texts)
    (hqueue : work.state.queue = []) (hstart : work.state.start = some start) :
    ∃ report next, finish tools setup start work = (.ok report, next) ∧ text next.world = texts ∧
      next.state.UpToDate rules setup texts ∧ next.state.queue = [] ∧ next.state.start = some start ∧
      Delivers rules setup texts report work.state start next.state.graph := by
  obtain ⟨packaged, next, hfinish, htext', fingerprints, hstate⟩ := finish_reports hsteady start work
  have horderly := finish_orderly tools setup start h.orderly
  rw [hfinish] at horderly
  have hcontent := h.current.content (work.state.sameContent_layout setup.outDir start)
  have hlaid : State.Current rules setup texts [] [] { work.state with
      graph := (work.state.layout setup.outDir start).graph, fingerprints } :=
    ⟨hcontent.indexed, hcontent.sourced, hcontent.entered, hcontent.stage⟩
  have hplaced := @Layout.isPlaced_iff_not_mem_orphans (work.state.layout setup.outDir start)
    hlaid.indexed start
  have hstarts : ∀ id, work.state.start = some id →
      id ∉ (work.state.layout setup.outDir start).graph.orphans := by
    intro id hid
    have hsame : start = id := Option.some.inj (hstart.symm.trans hid)
    rw [← hsame]
    exact (hplaced.1 (isPlaced_start h.current hstart)).2
  have hunloaded := hlaid.unload hqueue hstarts (layout_closed h.orderly setup.outDir start)
  have hretains := @retains_unload (work.state.layout setup.outDir start) { work.state with
    graph := (work.state.layout setup.outDir start).graph, fingerprints } rfl hlaid.indexed
  obtain ⟨hindexed, -, hleft, hstarted, -⟩ := State.unload_spec hlaid.indexed
  rw [← hstate] at hunloaded hretains hindexed hleft hstarted
  have hstart' : next.state.start = some start := hstarted.trans hstart
  have hqueue' : next.state.queue = [] := by
    rw [List.eq_nil_iff_forall_not_mem]
    intro id hmem
    have hwaits := ((hleft id).1 hmem).1
    rw [hqueue] at hwaits
    cases hwaits
  have huntouched : next.state.start = none →
      next.state.queue = [] ∧ ∀ id, next.state.graph.get? id = none := by
    intro hnone
    rw [hstart'] at hnone
    cases hnone
  exact ⟨_, next, hfinish, htext'.trans htext, ⟨hunloaded, horderly, huntouched⟩, hqueue', hstart',
    h, hqueue, hstart, hindexed, hretains, packaged, rfl⟩

/-- A pass keeps a build up to date, and a report of it is about a layout of fresh assets. -/
theorem run_upToDate (hsteady : Steady tools text rules) (hcanonical : rules.Canonical) {depth : Nat}
    {work next : Work σ} {result : Except Failure Report} {texts : Path → τ}
    (htext : text work.world = texts) (h : work.state.UpToDate rules setup texts)
    (hrun : run tools setup depth work = some (result, next)) :
    text next.world = texts ∧ next.state.UpToDate rules setup texts ∧
      ∀ report, result = .ok report → next.state.queue = [] ∧ ∃ before start,
        next.state.start = some start ∧
          Delivers rules setup texts report before start next.state.graph := by
  rcases run_cases hrun with ⟨failure, rfl, hassemble⟩ | ⟨start, assembled, hassemble, hend⟩
  · obtain ⟨htext', hupToDate, -⟩ := assemble_upToDate hsteady hcanonical htext h hassemble
    exact ⟨htext', hupToDate, nofun⟩
  · obtain ⟨htext', hupToDate, hloaded⟩ := assemble_upToDate hsteady hcanonical htext h hassemble
    obtain ⟨hstart, hqueue⟩ := hloaded start rfl
    obtain ⟨report, finished, hfinish, htext'', hupToDate', hqueue', hstart', hdelivers⟩ :=
      finish_upToDate hsteady htext' hupToDate hqueue hstart
    cases hend.symm.trans hfinish
    refine ⟨htext'', hupToDate', fun other hok => ?_⟩
    cases hok
    exact ⟨hqueue', _, _, hstart', hdelivers⟩

end Pass
end Build
end ModuleBundler
