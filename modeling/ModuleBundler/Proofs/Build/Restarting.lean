import ModuleBundler.Proofs.Build.Finishing
import ModuleBundler.Proofs.Build.Grounded

/-!
# Builds from scratch

If all assets of some build over the same texts are fresh, then whatever a build
from scratch comes to load can be compiled, and all its imports lead somewhere.  So
the build from scratch does not fail.  It claims no module twice, which bounds the
depth that it needs by the number of modules.

Main results:

- Theorem {lit}`Rules.Fresh.grounded`: a fresh asset is grounded.
- Theorem {lit}`Load.batch_covered`: loading modules of a build does not fail.
- Theorem {lit}`Pass.run_succeeds`: a build from scratch does not fail.
-/

namespace ModuleBundler

/-! ## Covered graphs -/

namespace AssetGraph

/-- Whether every asset of a graph stands for a module of another one. -/
def Covers (goal graph : AssetGraph) : Prop :=
  ∀ id asset, graph.get? id = some asset → ∃ other, goal.Holds other ⟨asset.identity, asset.package⟩

theorem Covers.insert {goal graph : AssetGraph} (h : goal.Covers graph) {module : Lookup.Modules.Resolved}
    {owner : AssetId} (hholds : goal.Holds owner module) (kind : Kind) :
    goal.Covers (graph.insert module.path kind module.package).2 := by
  unfold AssetGraph.insert
  split
  · exact h
  · intro id asset hget
    rw [get?_add] at hget
    split at hget
    · cases hget
      exact ⟨owner, hholds⟩
    · exact h id asset hget

/-- Then above all its dirty assets do. -/
theorem Covers.backs {goal graph : AssetGraph} (h : goal.Covers graph) : goal.Backs graph :=
  fun id asset hget _ => h id asset hget

end AssetGraph

namespace Build

variable {κ π σ τ : Type}

/-! ## Loading what is covered -/

section

variable {tools : Toolset κ π σ} {text : σ → Path → τ} {rules : Rules κ τ} {setup : Setup κ π}
  {texts : Path → τ} {goal : AssetGraph}

/-- A fresh asset is grounded. -/
theorem Rules.Fresh.grounded {asset : Asset} (h : rules.Fresh setup.types texts goal asset) :
    (rules.answers texts).Grounded setup.types goal asset := by
  obtain ⟨unit, hunit⟩ := h
  obtain ⟨modules, hleads⟩ := hunit.exists_leads
  refine ⟨unit, modules, ⟨hunit.translated, [], rfl, ?_⟩, fun link hlink _ => hunit.holds hleads link hlink⟩
  rw [List.append_nil]
  exact hleads

/-- Loading modules of a build does not fail if it may go deeper than there are modules. -/
theorem Load.batch_covered (hsteady : Steady tools text rules) (hgoal : goal.Indexed)
    (htyped : goal.Typed setup.types)
    (hfresh : ∀ {id : AssetId} {asset : Asset}, goal.get? id = some asset →
      rules.Fresh setup.types texts goal asset)
    {depth : Nat} (ids : List AssetId) {work : Work σ} (htext : text work.world = texts)
    (hindexed : work.state.graph.Indexed) (htypedWork : work.state.graph.Typed setup.types)
    (hcovers : goal.Covers work.state.graph) (hdepth : goal.live.length < depth) :
    ∃ next, batch tools setup.types depth ids work = some (none, next) := by
  obtain ⟨next, hbatch, -⟩ := batch_backed (hsteady.answering texts) hgoal htyped
    (fun hget => (hfresh hget).grounded) ids htext ⟨hindexed, htypedWork, hcovers.backs⟩ hdepth
  exact ⟨next, hbatch⟩

end

/-! ## Whole passes -/

namespace State

/-- The assets of a current build have the kinds of their identities. -/
theorem Current.typed {rules : Rules κ τ} {setup : Setup κ π} {texts : Path → τ}
    {late pending : List AssetId} {state : State} (h : state.Current rules setup texts late pending) :
    state.graph.Typed setup.types :=
  fun _ _ hget => (h.sourced hget).kind

variable {rules : Rules κ τ} {setup : Setup κ π} {texts : Path → τ}

/-- A build without assets is up to date. -/
theorem upToDate_empty (rules : Rules κ τ) (setup : Setup κ π) (texts : Path → τ) :
    UpToDate rules setup texts {} where
  current :=
    { indexed := AssetGraph.indexed_empty
      sourced := fun h => by simp [AssetGraph.empty, AssetGraph.get?] at h
      entered := fun h => by cases h
      stage := fun h => by simp [AssetGraph.empty, AssetGraph.get?] at h }
  orderly := orderly_empty
  untouched _ := ⟨rfl, fun id => by simp [AssetGraph.empty, AssetGraph.get?]⟩

end State

namespace Pass

variable {tools : Toolset κ π σ} {text : σ → Path → τ} {rules : Rules κ τ} {setup : Setup κ π}
  {texts : Path → τ} {goal : State} {entry : AssetId}

/-- When the first batch is loaded without failure and nothing has come to wait, all is loaded. -/
theorem drain_succeeds {types : AssetTypes κ} {first : Bool} {depth batches : Nat} {loaded : List AssetId}
    {work after : Work σ}
    (hbatch : Load.batch tools types depth (work.state.drain (!first)).1 (begin tools first work) =
      some (none, after)) (hqueue : after.state.queue = []) :
    ∃ loaded' next, drain tools types first depth (batches + 2) loaded work = some (.ok loaded', next) ∧
      (next.world = work.world ∨ next.world = after.world) := by
  rw [drain]
  dsimp only
  split
  · exact ⟨_, _, rfl, .inl rfl⟩
  · unfold begin at hbatch
    dsimp only at hbatch
    rw [hbatch]
    dsimp only
    rw [drain]
    dsimp only
    rw [if_pos (by simp [State.drain, hqueue])]
    exact ⟨_, _, rfl, .inr rfl⟩

/-- Unless loading fails, a first pass whose entry has been found comes to lay out bundles. -/
theorem gather_succeeds (hsteady : Steady tools text rules) (hcanonical : rules.Canonical) {depth : Nat}
    {work after : Work σ} (htext : text work.world = texts)
    (h : (work.state.drain false).2.Current rules setup texts [] (work.state.drain false).1)
    (hstart : work.state.start = some entry)
    (hbatch : Load.batch tools setup.types (depth + 2) (work.state.drain false).1 (begin tools true work) =
      some (none, after)) :
    ∃ next, gather tools setup.types true (depth + 2) work = some (.ok entry, next) := by
  have hqueue : after.state.queue = [] := Load.queue_batch hsteady hbatch
  obtain ⟨loaded, next, hdrain, -⟩ := drain_succeeds hbatch hqueue
  obtain ⟨-, hstart', -⟩ := drain_current hsteady hcanonical htext rfl h hdrain
  refine ⟨next, ?_⟩
  unfold gather
  rw [hdrain]
  dsimp only
  rw [if_pos rfl, hstart', hstart]

/-- If the entry is a module of a build over the same texts whose assets are all fresh, a first pass comes
to lay out bundles. -/
theorem assemble_succeeds (hsteady : Steady tools text rules) (hcanonical : rules.Canonical)
    (hgoal : goal.Current rules setup texts [] []) (hqueue : goal.queue = [])
    (hprepared : rules.prepared setup.outDir = .ok ()) {module : Lookup.Modules.Resolved}
    (hfind : rules.find setup.entry.text none = .ok module) (hholds : goal.graph.Holds entry module)
    {depth : Nat} (hdepth : goal.graph.live.length < depth + 2) {work : Work σ}
    (htext : text work.world = texts) (hempty : work.state = {}) :
    ∃ start next, assemble tools setup (depth + 2) work = some (.ok start, next) := by
  have hcurrent : work.state.Current rules setup texts [] [] := by
    rw [hempty]
    exact (State.upToDate_empty rules setup texts).current
  have hwaiting : work.state.queue = [] := by
    rw [hempty]
  obtain ⟨hentered, hcases⟩ := @enter_spec κ π σ τ tools text rules setup hsteady work
  rcases hcases with ⟨-, -, -, hnone⟩ | ⟨module', hok, -, hfind', hbegun⟩
  · exact absurd hfind (hnone module hprepared)
  have hsame : module = module' := Except.ok.inj (hfind.symm.trans hfind')
  subst hsame
  have hdrained := hcurrent.begun hcanonical hwaiting hprepared hfind
  have hcovers : goal.graph.Covers (work.state.begun setup.types module).graph := by
    refine AssetGraph.Covers.insert (fun id asset hget => ?_) hholds _
    rw [hempty] at hget
    simp [AssetGraph.empty, AssetGraph.get?] at hget
  unfold assemble
  rw [if_pos (by rw [hempty]; rfl)]
  generalize enter tools setup work = entered at hentered hok hbegun
  obtain ⟨result, entered⟩ := entered
  dsimp only at hentered hok hbegun
  subst hok
  rw [← hbegun] at hdrained hcovers
  have hbegintext : text (begin tools true entered).world = texts := hentered.trans htext
  obtain ⟨after, hbatch⟩ := Load.batch_covered hsteady hgoal.indexed hgoal.typed
    (fun hget => hgoal.fresh hqueue hget) (entered.state.drain false).1 hbegintext hdrained.indexed
    hdrained.typed hcovers hdepth
  obtain ⟨next, hnext⟩ := gather_succeeds hsteady hcanonical (hentered.trans htext) hdrained
    (congrArg State.start hbegun) hbatch
  exact ⟨_, next, hnext⟩

/-- When all assets of some build over the same texts are fresh, a build from scratch does not fail. -/
theorem run_succeeds (hsteady : Steady tools text rules) (hcanonical : rules.Canonical)
    (hgoal : goal.Current rules setup texts [] []) (hqueue : goal.queue = [])
    (hstart : goal.start = some entry) {depth : Nat} (hdepth : goal.graph.live.length < depth)
    {work : Work σ} (htext : text work.world = texts) (hempty : work.state = {}) :
    ∃ report next, run tools setup depth work = some (.ok report, next) := by
  have hupToDate : work.state.UpToDate rules setup texts := by
    rw [hempty]
    exact State.upToDate_empty rules setup texts
  obtain ⟨hprepared, module, hfind, hholds⟩ := hgoal.entered hstart
  -- the entry is one of the modules, so that there may be two batches
  have hpositive : 0 < goal.graph.live.length := by
    obtain ⟨asset, hget, -⟩ := hholds
    exact List.length_pos_of_mem (hgoal.indexed.mem_live hget)
  obtain ⟨more, rfl⟩ : ∃ more, depth = more + 2 := ⟨depth - 2, by omega⟩
  obtain ⟨start, assembled, hassemble⟩ :=
    assemble_succeeds hsteady hcanonical hgoal hqueue hprepared hfind hholds hdepth htext hempty
  obtain ⟨htext', hupToDate', hend⟩ := assemble_upToDate hsteady hcanonical htext hupToDate hassemble
  obtain ⟨hstart', hqueue''⟩ := hend start rfl
  obtain ⟨report, next, hfinish, -⟩ := finish_upToDate hsteady htext' hupToDate' hqueue'' hstart'
  refine ⟨report, next, ?_⟩
  unfold run
  rw [hassemble]
  exact congrArg some hfinish

end Pass
end Build
end ModuleBundler
