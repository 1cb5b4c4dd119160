import ModuleBundler.Proofs.Build.Delivery
import ModuleBundler.Proofs.Build.Finishing

/-!
# The end of successful passes

What a successful pass leaves behind, whatever the tools answer: it has laid out the
assets, all bundles that it had planned are written, and it has unloaded the assets
without a home.  So exactly the assets that can be reached from the entry are left.

Main results:

- Theorem {lit}`Pass.finish_cases`: the end of a pass fails while bundles are written, or it leads to a
  report.
- Theorem {lit}`Layout.Retains.isLive_iff`: what is kept of a layout is what can be reached in it.
- Theorem {lit}`Session.History.reached`: after a successful pass exactly the assets that the entry reaches
  are live.
-/

namespace ModuleBundler

/-! ## What is kept of a layout -/

namespace Layout

variable {content graph : AssetGraph} {start : AssetId} {layout : Layout}

/-- What can be reached in a layout can also be reached in what is kept of it. -/
theorem Retains.reaches (h : layout.Retains graph) (hexplored : layout.Explored content start [])
    {id : AssetId} (hreach : layout.graph.Reaches start id) : graph.Reaches start id := by
  have hkept : ∀ {id : AssetId}, layout.IsPlaced id → graph.IsLive id := by
    intro id hplaced
    obtain ⟨asset, hget⟩ := hplaced.isLive
    exact ⟨asset, (h.kept hplaced).trans hget⟩
  have hplaced : ∀ {id : AssetId}, layout.graph.Reaches start id → layout.IsPlaced id :=
    fun hreach => (hexplored.isPlaced_iff _).2 (hexplored.content.symm.reaches hreach)
  induction hreach with
  | entry hlive => exact .entry (hkept (hplaced (.entry hlive)))
  | step hreach himports ih =>
    have htarget := hkept (hplaced (.step hreach himports))
    obtain ⟨-, asset, dep, hget, hlink⟩ := himports
    exact .step ih ⟨htarget, asset, dep, (h.kept (hplaced hreach)).trans hget, hlink⟩

/-- What is kept of a layout is what can be reached in it. -/
theorem Retains.isLive_iff (h : layout.Retains graph) (hexplored : Explored content start [] layout)
    (id : AssetId) : graph.IsLive id ↔ graph.Reaches start id := by
  constructor
  · rintro ⟨asset, hget⟩
    have hreach := (hexplored.isPlaced_iff id).1 (h.placed hget)
    exact h.reaches hexplored (hexplored.content.reaches hreach)
  · exact AssetGraph.Reaches.isLive

end Layout

namespace Build

variable {κ π σ : Type}

/-! ## Passes -/

namespace Pass

/-- The plan for the bundles of a pass. -/
def planned (outDir : Path) (start : AssetId) (work : Work σ) : Packaging.Plan :=
  let laid := layOut outDir start work
  Packaging.plan laid.1 laid.2.state.graph laid.2.state.fingerprints

/-- The work after the bundles of a pass were written, with or without success. -/
def written (tools : Toolset κ π σ) (setup : Setup κ π) (start : AssetId) (work : Work σ) : Work σ :=
  (write tools setup.packagers (planned setup.outDir start work).changed
    (layOut setup.outDir start work).2).2

/-- The end of a pass fails while bundles are written, or it leads to a report on the layout: the
fingerprints of the bundles are kept then, and what has no home is unloaded. -/
theorem finish_cases (tools : Toolset κ π σ) (setup : Setup κ π) (start : AssetId) (work : Work σ) :
    (∃ failure, finish tools setup start work = (.error failure, written tools setup start work) ∧
      (write tools setup.packagers (planned setup.outDir start work).changed
        (layOut setup.outDir start work).2).1 = .error failure) ∨
    ∃ next, finish tools setup start work =
        (.ok (Report.ofTree (work.state.layout setup.outDir start).tree next.state.graph
          ((planned setup.outDir start work).changed.map PackagedBundle.name)), next) ∧
      (write tools setup.packagers (planned setup.outDir start work).changed
        (layOut setup.outDir start work).2).1 = .ok () ∧
      next = unload tools { written tools setup start work with
        state := { (written tools setup start work).state with
          fingerprints := some (planned setup.outDir start work).hashes } } := by
  unfold finish written planned
  dsimp only
  generalize hwrite : write tools setup.packagers
    (Packaging.plan (layOut setup.outDir start work).1 (layOut setup.outDir start work).2.state.graph
      (layOut setup.outDir start work).2.state.fingerprints).changed
    (layOut setup.outDir start work).2 = result
  obtain ⟨result, after⟩ := result
  cases result with
  | error failure => exact .inl ⟨failure, rfl, rfl⟩
  | ok done => exact .inr ⟨_, rfl, rfl, rfl⟩

/-- While bundles are written, changes can be reported, and that is all that happens to the state. -/
theorem notices_written (tools : Toolset κ π σ) (setup : Setup κ π) (start : AssetId) (work : Work σ) :
    (layOut setup.outDir start work).2.state.Notices (written tools setup start work).state :=
  notices_write _ _ _ _

/-- A successful pass keeps what has a place in its layout, and nothing else. -/
theorem finish_retains {tools : Toolset κ π σ} {setup : Setup κ π} {start : AssetId} {work next : Work σ}
    {report : Report} (hindexed : work.state.graph.Indexed)
    (h : finish tools setup start work = (.ok report, next)) :
    (work.state.layout setup.outDir start).Retains next.state.graph := by
  rcases finish_cases tools setup start work with ⟨failure, heq, -⟩ | ⟨last, heq, -, hlast⟩
  · rw [h] at heq
    cases (Prod.mk.inj heq).1
  · rw [h] at heq
    rw [(Prod.mk.inj heq).2, hlast, state_unload]
    have hgraph := (notices_written tools setup start work).graph
    exact retains_unload hgraph ((work.state.sameContent_layout setup.outDir start).indexed hindexed)

/-- A pass that lays out bundles starts from the asset that the build starts from. -/
theorem start_assemble {tools : Toolset κ π σ} {setup : Setup κ π} {depth : Nat} {work next : Work σ}
    {start : AssetId} (h : assemble tools setup depth work = some (.ok start, next)) :
    next.state.start = some start := by
  have hgather {first : Bool} {work : Work σ}
      (h : gather tools setup.types first depth work = some (.ok start, next)) :
      next.state.start = some start := by
    rcases gather_cases h with ⟨failure, hfailure, -⟩ | ⟨loaded, drained, -, -, hstart⟩
    · cases hfailure
    · exact hstart start rfl
  rcases assemble_cases h with ⟨failure, -, hfailure, -⟩ | ⟨entered, -, -, h⟩ | ⟨origin, -, h⟩
  · cases hfailure
  · exact hgather h
  · exact hgather h

/-- A successful pass has loaded all that waits and has then laid out and written bundles. -/
theorem run_ok_cases {tools : Toolset κ π σ} {setup : Setup κ π} {depth : Nat} {work next : Work σ}
    {report : Report} (h : run tools setup depth work = some (.ok report, next)) :
    ∃ start assembled, assemble tools setup depth work = some (.ok start, assembled) ∧
      finish tools setup start assembled = (.ok report, next) := by
  rcases run_cases h with ⟨failure, hfailure, -⟩ | hcases
  · cases hfailure
  · exact hcases

end Pass

/-! ## Sessions -/

/-- After a successful pass exactly the assets are live that can be reached from the asset that the build
starts from. -/
theorem Session.History.reached {session session' : Session κ π σ} (h : session.History) {depth : Nat}
    {report : Report} (hbundle : session.bundle? depth = some (.ok report, session')) :
    ∃ start, session'.work.state.start = some start ∧ ∀ id,
      session'.work.state.graph.IsLive id ↔ session'.work.state.graph.Reaches start id := by
  obtain ⟨next, hrun, hstate⟩ := state_bundle? hbundle
  obtain ⟨start, assembled, hassemble, hfinish⟩ := Pass.run_ok_cases hrun
  have horderly : (session.work.tell .started).state.Orderly [] [] := h.orderly
  have hindexed := (Pass.assemble_orderly horderly hassemble).1.indexed
  have hstart := Pass.start_finish session.tools session.setup start assembled
  rw [hfinish, Pass.start_assemble hassemble] at hstart
  rw [hstate]
  exact ⟨start, hstart, (Pass.finish_retains hindexed hfinish).isLive_iff
    (Layout.ofGraph_explored _ _ _)⟩

end Build
end ModuleBundler
