import ModuleBundler.Proofs.Build.Compiling
import ModuleBundler.Proofs.Build.Outputs
import ModuleBundler.Proofs.Bundle.Repetition

/-!
# Passes with nothing to do

After a successful pass everything is laid out, written and remembered.  If nothing
waits, the next pass finds nothing to load, sends an update without assets, lays out the
assets as they were laid out, and has no bundle to write and no asset to unload.  So it
succeeds whatever the tools answer, and reports what was reported.

The fingerprints are remembered by the names of the bundles.  That is why the names have
to be different: of two bundles with the same name only the fingerprint of one is
remembered, and the other one is written again and again.

Main results:

- Theorem {lit}`Pass.finish_settled`: what a successful pass leaves is settled.
- Theorem {lit}`Pass.assemble_settled`: in a settled state there is nothing to load.
- Theorem {lit}`Pass.finish_again`: and nothing to write.
- Theorem {lit}`Session.Reported.repeats`: a pass with nothing to do repeats the report of the latest one.
-/

namespace ModuleBundler
namespace Build

variable {κ π σ : Type}

/-! ## Settled states -/

namespace State

/-- Whether a state is as a successful pass has left it: its assets are what was kept of a layout, whose
bundles were reported and are remembered. -/
structure Settled (outDir : Path) (report : Report) (content : AssetGraph) (start : AssetId)
    (state : State) : Prop where
  entry : state.start = some start
  indexed : state.graph.Indexed
  retains : (Layout.anew content outDir start).Retains state.graph
  reports : ∃ packaged, report = Report.ofTree (Layout.anew content outDir start).tree state.graph packaged
  remembers : ∀ info ∈ report.bundles, info.assets ≠ [] →
    Packaging.isUnchanged state.fingerprints info.name info.hash = true

variable {outDir : Path} {report : Report} {content : AssetGraph} {start : AssetId} {state : State}

/-- Taking note of changes leaves a state settled. -/
theorem Settled.notices (h : state.Settled outDir report content start) {next : State}
    (hnotices : state.Notices next) : next.Settled outDir report content start where
  entry := hnotices.start.trans h.entry
  indexed := hnotices.graph ▸ h.indexed
  retains := hnotices.graph ▸ h.retains
  reports := hnotices.graph ▸ h.reports
  remembers := hnotices.fingerprints ▸ h.remembers

/-- In a settled state every asset has a home. -/
theorem Settled.orphans (h : state.Settled outDir report content start) : state.graph.orphans = [] := by
  refine List.eq_nil_iff_forall_not_mem.2 fun id hmem => ?_
  obtain ⟨asset, hget, hhome⟩ := (AssetGraph.mem_orphans_iff h.indexed).1 hmem
  have hplaced := h.retains.placed hget
  have hkept := (h.retains.kept hplaced).symm.trans hget
  obtain ⟨home, hplace⟩ := hplaced
  rw [Layout.homeOf_of_get? hkept, hhome] at hplace
  cases hplace

/-- A second layout of a settled state is reported as the first one was. -/
theorem Settled.report_again (h : state.Settled outDir report content start) :
    Report.ofTree (Layout.anew state.graph outDir start).tree
      (Layout.anew state.graph outDir start).graph [] = { report with packaged := [] } := by
  obtain ⟨packaged, rfl⟩ := h.reports
  exact congrArg₂ (fun bundles placements => Report.mk bundles placements [])
    (h.retains.bundles_again packaged []) h.retains.placements_again

/-- In a second layout of a settled state no bundle has changed. -/
theorem Settled.changed_again (h : state.Settled outDir report content start) :
    (Packaging.plan (Layout.anew state.graph outDir start).tree (Layout.anew state.graph outDir start).graph
      state.fingerprints).changed = [] := by
  refine Packaging.changed_eq_nil fun id hid bundle hbundle hassets => ?_
  have hinfo : Report.infoOf (Layout.anew state.graph outDir start).tree
      (Layout.anew state.graph outDir start).graph id ∈ report.bundles := by
    have hagain := congrArg Report.bundles h.report_again
    rw [← show _ = report.bundles from hagain]
    exact List.mem_map_of_mem hid
  have hmembers : (Report.infoOf (Layout.anew state.graph outDir start).tree
      (Layout.anew state.graph outDir start).graph id).assets ≠ [] := by
    -- a member of the bundle is live, and so its identity is reported
    obtain ⟨member, hmember⟩ := List.exists_mem_of_ne_nil _ hassets
    have hsound := Layout.ofGraph_sound state.graph outDir start
    obtain ⟨asset, hget⟩ := (hsound.isPlaced_of_mem hbundle hmember).isLive
    have hreported : asset.identity ∈ (Report.infoOf (Layout.anew state.graph outDir start).tree
        (Layout.anew state.graph outDir start).graph id).assets := by
      refine List.mem_filterMap.2 ⟨member, ?_, by simp [Report.identityOf, hget]⟩
      rw [hbundle]
      exact hmember
    exact List.ne_nil_of_mem hreported
  have hremembered := h.remembers _ hinfo hmembers
  rw [Layout.name_infoOf, show (Layout.anew state.graph outDir start).tree.nameOf id = bundle.name by
    simp [BundleTree.nameOf, hbundle]] at hremembered
  exact hremembered

/-- Where every asset has a home, none is unloaded. -/
theorem unload_of_orphans (h : state.graph.orphans = []) : state.unload = ([], state) := by
  rw [unload_eq, h]
  rfl

end State

/-! ## Deeds from which nothing comes -/

/-- Whether nothing comes of what was done: no asset is loaded, made or given back, the live update has no
assets, and there are no bundles to be written. -/
def Deed.Vacuous : Deed → Prop
  | .begun first => first = false
  | .asked | .noticed _ | .laidOut _ | .finished | .closed => True
  | .taken ids => ids = []
  | .sent assets => assets = []
  | .written bundles => bundles = []
  | _ => False

theorem Deed.ambient_vacuous : Deed.Ambient Deed.Vacuous :=
  ⟨trivial, fun _ => trivial⟩

namespace Pass

variable {tools : Toolset κ π σ} {setup : Setup κ π} {start : AssetId} {report : Report} {work next : Work σ}

/-! ## The end of a successful pass -/

/-- What a successful pass leaves is settled, provided that the bundles have different names. -/
theorem finish_settled (horderly : work.state.Orderly [] []) (hstart : work.state.start = some start)
    (h : finish tools setup start work = (.ok report, next))
    (hnames : report.bundles.Pairwise fun a b => (a.name == b.name) = false) :
    next.state.Settled setup.outDir report work.state.graph start := by
  have hnext := finish_orderly tools setup start horderly
  have hstarted := start_finish tools setup start work
  have hretains := finish_retains horderly.indexed h
  have hreports : ∃ packaged, report =
      Report.ofTree (Layout.anew work.state.graph setup.outDir start).tree next.state.graph packaged := by
    rcases finish_cases tools setup start work with ⟨failure, heq, -⟩ | ⟨last, heq, -⟩
    · rw [h] at heq
      cases (Prod.mk.inj heq).1
    · obtain ⟨hreport, rfl⟩ := Prod.mk.inj (h.symm.trans heq)
      exact ⟨_, Except.ok.inj hreport⟩
  rw [h] at hnext hstarted
  refine ⟨hstarted.trans hstart, hnext.indexed, hretains, hreports, fun info hinfo hassets => ?_⟩
  have hdifferent : (work.state.layout setup.outDir start).tree.walk.Pairwise fun x y =>
      ((work.state.layout setup.outDir start).tree.nameOf x ==
        (work.state.layout setup.outDir start).tree.nameOf y) = false := by
    obtain ⟨packaged, rfl⟩ := hreports
    refine (List.pairwise_map.1 hnames).imp fun {x y} hne => ?_
    rwa [Layout.name_infoOf, Layout.name_infoOf] at hne
  obtain ⟨hashes, hhashes, hget⟩ := finish_remembers horderly.indexed hdifferent h hinfo hassets
  simp [Packaging.isUnchanged, hhashes, hget]

/-! ## A pass in a settled state -/

/-- In a settled state in which nothing waits there is nothing to load: the update that is sent has no
assets. -/
theorem assemble_settled (tools : Toolset κ π σ) {content : AssetGraph}
    (h : work.state.Settled setup.outDir report content start) (hqueue : work.state.queue = []) (depth : Nat) :
    assemble tools setup (depth + 1) work =
        some (.ok start, ({ work with world := tools.update [] work.world } : Work σ).listen tools) ∧
      assembleTrail tools setup (depth + 1) work = ⟨.taken [], work⟩ :: ⟨.sent [],
        { work with world := tools.update [] work.world }⟩ ::
          ({ work with world := tools.update [] work.world } : Work σ).listenTrail tools := by
  have hdrain := State.drain_of_empty hqueue true
  have hsome : work.state.start.isNone = false := by rw [h.entry]; rfl
  have hnotices := work.notices_ask tools (tools.update [] work.world)
  have hsend : sendUpdate tools [] work =
      ({ work with world := tools.update [] work.world } : Work σ).listen tools := by
    simp [sendUpdate, h.orphans]
  constructor
  · simp only [assemble, hsome, gather, drain, Bool.not_false, hdrain, List.isEmpty_nil, if_true, hsend]
    simp [hnotices.start, h.entry]
  · simp [assembleTrail, hsome, gatherTrail, drainTrail, drain, hdrain, sendTrail, h.orphans]

/-- Where there is nothing to write, writing succeeds. -/
theorem write_nil (tools : Toolset κ π σ) (packagers : Packagers π) (work : Work σ) :
    write tools packagers [] work = (.ok (), work.listen tools) := by
  unfold write
  cases tools.writesOn <;> rfl

/-- In a settled state the end of a pass writes nothing and unloads nothing; it leads to the report that was
there. -/
theorem finish_again (tools : Toolset κ π σ) {content : AssetGraph}
    (h : work.state.Settled setup.outDir report content start) :
    (∃ next, finish tools setup start work = (.ok { report with packaged := [] }, next) ∧
      work.state.graph.SameContent next.state.graph) ∧
    ∀ moment ∈ finishTrail tools setup start work, moment.deed.Vacuous := by
  have hchanged : (planned setup.outDir start work).changed = [] := h.changed_again
  have hwrite : write tools setup.packagers (planned setup.outDir start work).changed
      (layOut setup.outDir start work).2 = (.ok (), (layOut setup.outDir start work).2.listen tools) := by
    rw [hchanged, write_nil]
  have hgraph : (written tools setup start work).state.graph =
      (Layout.anew work.state.graph setup.outDir start).graph :=
    (notices_written tools setup start work).graph
  constructor
  · rcases finish_cases tools setup start work with ⟨failure, -, hfailed⟩ | ⟨next, hfinish, -, hnext⟩
    · rw [hwrite] at hfailed
      cases hfailed
    · have horphans : (written tools setup start work).state.graph.orphans = [] := by
        rw [hgraph]
        exact h.retains.orphans_again h.indexed
      let packaged := { (written tools setup start work).state with
        fingerprints := some (planned setup.outDir start work).hashes }
      have hunload : packaged.unload = ([], packaged) := State.unload_of_orphans horphans
      have hleft : next.state.graph = (Layout.anew work.state.graph setup.outDir start).graph := by
        rw [hnext, state_unload]
        exact (congrArg (fun unloaded => unloaded.2.graph) hunload).trans hgraph
      refine ⟨next, ?_, hleft ▸ Layout.sameContent_anew _ _ _⟩
      rw [hfinish, hchanged, hleft]
      exact congrArg (fun report => (Except.ok report, next)) h.report_again
  · have hwriting : ∀ moment ∈ writeTrail tools setup.packagers (planned setup.outDir start work).changed
        (layOut setup.outDir start work).2, moment.deed.Vacuous := by
      rw [hchanged]
      exact List.forall_mem_cons.2 ⟨rfl, Work.forall_listenTrail Deed.ambient_vacuous tools _⟩
    refine List.forall_mem_cons.2 ⟨trivial, List.forall_mem_append.2 ⟨hwriting, ?_⟩⟩
    split
    · exact fun _ hmem => by cases hmem
    · exact List.forall_mem_singleton.2 trivial

/-- In a settled state in which nothing waits a pass leads to the report that was there, and nothing comes of
it. -/
theorem run_settled (tools : Toolset κ π σ) {content : AssetGraph}
    (h : work.state.Settled setup.outDir report content start)
    (hqueue : work.state.queue = []) (depth : Nat) :
    (∃ next, run tools setup (depth + 1) work = some (.ok { report with packaged := [] }, next) ∧
      work.state.graph.SameContent next.state.graph) ∧
    (∀ moment ∈ runTrail tools setup (depth + 1) work, moment.deed.Vacuous) ∧
    ∃ moment ∈ runTrail tools setup (depth + 1) work, moment.deed = .sent [] := by
  obtain ⟨hassemble, htrail⟩ := assemble_settled tools h hqueue depth
  have hnotices := work.notices_ask tools (tools.update [] work.world)
  obtain ⟨⟨next, hfinish, hcontent⟩, hfinishing⟩ := finish_again tools (h.notices hnotices)
  unfold run runTrail
  rw [hassemble, htrail]
  refine ⟨⟨next, congrArg some hfinish, hnotices.graph ▸ hcontent⟩, ?_, ?_⟩
  · have hlisten := Work.forall_listenTrail Deed.ambient_vacuous tools
      { work with world := tools.update [] work.world }
    exact List.forall_mem_append.2
      ⟨List.forall_mem_cons.2 ⟨rfl, List.forall_mem_cons.2 ⟨rfl, hlisten⟩⟩, hfinishing⟩
  · exact ⟨_, List.mem_append_left _ (List.mem_cons_of_mem _ List.mem_cons_self), rfl⟩

end Pass

/-! ## Sessions -/

namespace Session

/-- The sessions that can come about in which the latest pass has succeeded, with its report.  Since then the
world can have changed in any way, changes can have been reported, and the session can have been stopped; it is
started, so that it takes no more asset types and packagers. -/
inductive Reported : Session κ π σ → Report → Prop where
  | pass {session session' : Session κ π σ} {depth : Nat} {report : Report} :
      session.History → session.bundle? depth = some (.ok report, session') → Reported session' report
  | edit {session : Session κ π σ} {report : Report} (world : σ) :
      Reported session report → Reported { session with work := { session.work with world } } report
  | change {session : Session κ π σ} {report : Report} (p : Path) :
      Reported session report → Reported (session.queueChange p).2 report
  | stop {session : Session κ π σ} {report : Report} : Reported session report → Reported session.stop report

/-- When the latest pass has succeeded, the state is settled, provided that the bundles have different
names. -/
theorem Reported.settled {session : Session κ π σ} {report : Report} (h : session.Reported report)
    (hnames : report.bundles.Pairwise fun a b => (a.name == b.name) = false) :
    ∃ content start, session.work.state.Settled session.setup.outDir report content start := by
  induction h with
  | @pass session session' depth report hhistory hbundle =>
    obtain ⟨next, hrun, hstate⟩ := state_bundle? hbundle
    obtain ⟨start, assembled, hassemble, hfinish⟩ := Pass.run_ok_cases hrun
    have hopening : (session.work.tell .started).state.Orderly [] [] := hhistory.orderly
    have horderly := (Pass.assemble_orderly hopening hassemble).1
    rw [hstate, (started_bundle? hbundle).2]
    exact ⟨_, _, Pass.finish_settled horderly (Pass.start_assemble hassemble) hfinish hnames⟩
  | edit world _ ih => exact ih hnames
  | @change session report p _ ih =>
    obtain ⟨content, start, hsettled⟩ := ih hnames
    exact ⟨content, start, hsettled.notices (session.work.notices_notify p)⟩
  | stop _ ih => exact ih hnames

/-- If nothing comes of the run of a later pass, nothing comes of the pass. -/
theorem vacuous_passTrail {session : Session κ π σ} {start : AssetId}
    (hstart : session.opening.state.start = some start) {depth : Nat}
    (h : ∀ moment ∈ Pass.runTrail session.tools session.setup depth session.opening, moment.deed.Vacuous) :
    ∀ moment ∈ session.passTrail depth, moment.deed.Vacuous := by
  refine List.forall_mem_cons.2 ⟨by simp [Deed.Vacuous, hstart], List.forall_mem_append.2 ⟨h, ?_⟩⟩
  split
  · exact fun _ hmem => by cases hmem
  · refine List.forall_mem_cons.2 ⟨trivial, ?_⟩
    split
    · exact List.forall_mem_singleton.2 trivial
    · exact fun _ hmem => by cases hmem

/-- A pass of which nothing comes compiles nothing: what is not claimed is not compiled. -/
theorem not_started_of_vacuous {session : Session κ π σ} {depth : Nat}
    (h : ∀ moment ∈ session.passTrail depth, moment.deed.Vacuous) (id : AssetId) :
    .started id ∉ session.passEvents depth := by
  have hnever : (Deed.claimed id).times (session.passTrail depth) = 0 :=
    Deed.times_of_never fun moment hmem hclaimed => by
      have hnothing := h moment hmem
      rw [hclaimed] at hnothing
      exact hnothing
  have hcount := related_pass (compares_le session.tools session.setup.types) depth id
  rw [hnever] at hcount
  exact fun hstarted => Nat.not_lt.2 hcount (List.count_pos_iff.2 hstarted)

/-- When the latest pass has succeeded, its bundles have different names, and nothing waits, then the next pass
succeeds whatever the tools answer.  It leaves the same assets, compiles nothing, sends an update without
assets, writes no bundles, and reports what was reported. -/
theorem Reported.repeats {session : Session κ π σ} {report : Report} (h : session.Reported report)
    (hnames : report.bundles.Pairwise fun a b => (a.name == b.name) = false)
    (hqueue : session.work.state.queue = []) (depth : Nat) :
    ∃ session', session.bundle? (depth + 1) = some (.ok { report with packaged := [] }, session') ∧
      session.work.state.graph.SameContent session'.work.state.graph ∧
      (∀ id, .started id ∉ session.passEvents (depth + 1)) ∧
      (∀ moment ∈ session.passTrail (depth + 1), moment.deed.Vacuous) ∧
      ∃ moment ∈ session.passTrail (depth + 1), moment.deed = .sent [] := by
  obtain ⟨content, start, hsettled⟩ := h.settled hnames
  have hopening : session.opening.state.Settled session.setup.outDir report content start := hsettled
  obtain ⟨⟨next, hrun, hcontent⟩, hvacuous, moment, hmem, hsent⟩ :=
    Pass.run_settled session.tools hopening hqueue depth
  obtain ⟨session', hbundle⟩ := bundle?_of_run hrun
  obtain ⟨next', hrun', hstate⟩ := state_bundle? hbundle
  obtain rfl : next = next' := (Prod.mk.inj (Option.some.inj (hrun.symm.trans hrun'))).2
  have hpass := vacuous_passTrail hopening.entry hvacuous
  exact ⟨session', hbundle, hstate ▸ hcontent, not_started_of_vacuous hpass, hpass, moment,
    List.mem_cons_of_mem _ (List.mem_append_left _ hmem), hsent⟩

/-- The first pass over the project with a stylesheet succeeds; its bundles have different names, and nothing
waits after it. -/
theorem rehearse_sheetSession :
    ((sheetSession.rehearse 4 3).bind fun result => result.1.toOption.map fun report =>
      (result.2.work.state.queue, report.bundles.map BundleInfo.name)) =
      some ([], [⟨"/dist/main.js"⟩, ⟨"/dist/main.css"⟩]) := by
  decide +kernel

/-- The second pass over the project repeats the report of the first one. -/
theorem repeats_sheetSession : ∃ report session',
    (sheetSession.rehearsed 4 3).Reported report ∧
      (report.bundles.Pairwise fun a b => (a.name == b.name) = false) ∧
      (sheetSession.rehearsed 4 3).work.state.queue = [] ∧
      (sheetSession.rehearsed 4 3).bundle? 1 = some (.ok { report with packaged := [] }, session') := by
  obtain ⟨⟨result, passed⟩, hrehearse, hresult⟩ := Option.bind_eq_some_iff.1 rehearse_sheetSession
  cases result with
  | error failure => cases hresult
  | ok report =>
    obtain ⟨hqueue, hnamed⟩ := Prod.mk.inj (Option.some.inj hresult)
    have hpassed : sheetSession.rehearsed 4 3 = passed := by
      unfold rehearsed
      rw [hrehearse]
      rfl
    have hnew : sheetSession.History := .new _ _ _ _ _ _
    have hreported : passed.Reported report := .pass hnew (bundle?_of_rehearse hrehearse)
    have hnames : report.bundles.Pairwise fun a b => (a.name == b.name) = false := by
      have hdifferent : [Path.mk "/dist/main.js", ⟨"/dist/main.css"⟩].Pairwise fun p q => (p == q) = false := by
        decide
      exact List.pairwise_map.1 (hnamed ▸ hdifferent)
    obtain ⟨session', hbundle, -⟩ := hreported.repeats hnames hqueue 0
    rw [hpassed]
    exact ⟨report, session', hreported, hnames, hqueue, hbundle⟩

end Session
end Build
end ModuleBundler
