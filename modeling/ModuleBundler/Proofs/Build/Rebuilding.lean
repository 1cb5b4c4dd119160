import ModuleBundler.Proofs.Build.Recording

/-!
# Passes over steady tools

A pass takes everything off the queue and loads it from scratch.  If that does not
fail, nothing waits any more, so that all assets are fresh when the bundles are laid
out.  Whatever happens, a build is up to date between its passes: every asset is
fresh or waits ({lit}`State.UpToDate`).

Main results:

- Theorem {lit}`Pass.drain_current`: loading what waits keeps a build current.
- Theorem {lit}`Pass.assemble_upToDate`: unless it fails, a pass comes to lay out fresh assets.
-/

namespace ModuleBundler
namespace Build

variable {κ π σ τ : Type}

/-! ## Batches -/

/-- When nothing waits, nothing is taken off the queue. -/
theorem State.drain_of_empty {state : State} (h : state.queue = []) (invalidate : Bool) :
    state.drain invalidate = ([], state) := by
  obtain ⟨graph, queue, start, fingerprints⟩ := state
  dsimp only at h
  subst h
  cases invalidate <;> rfl

namespace Work

theorem queue_recordAll (tools : Toolset κ π σ) (types : AssetTypes κ) (id : AssetId)
    (modules : List (Dependency × Lookup.Modules.Resolved)) (work : Work σ) :
    (recordAll tools types id modules work).2.state.queue = work.state.queue := by
  obtain ⟨graph, hstate⟩ := state_recordAll tools types id modules work
  rw [hstate]

end Work

section

variable {tools : Toolset κ π σ} {text : σ → Path → τ} {rules : Rules κ τ} {setup : Setup κ π}

namespace Load

/-- With steady tools nothing comes to wait when an asset becomes ready. -/
theorem queue_of_ready (hsteady : Steady tools text rules) {id : AssetId} {asset : Asset}
    {work claimed next : Work σ} {children : List AssetId} (hclaim : claim work id = some (asset, claimed))
    (hprepare : claimed.prepare tools setup.types id asset = (.ready children, next)) :
    next.state.queue = work.state.queue := by
  obtain ⟨-, unit, modules, before, -, hbefore, -, -, rfl⟩ :=
    ready_spec (hsteady.answering (text work.world)) rfl hclaim hprepare
  rw [Work.queue_recordAll, hbefore]

/-- With steady tools nothing comes to wait when a batch is loaded without failure. -/
theorem queue_batch (hsteady : Steady tools text rules) {depth : Nat} {ids : List AssetId}
    {work next : Work σ} (hbatch : batch tools setup.types depth ids work = some (none, next)) :
    next.state.queue = work.state.queue := by
  exact @batch_induction κ π σ tools setup.types (fun after => after.state.queue = work.state.queue)
    (fun h hclaim hprepare => (queue_of_ready hsteady hclaim hprepare).trans h) depth ids work next rfl hbatch

end Load

namespace Pass

section

variable {now : σ → Prop} {answers : Answers κ} (hanswering : Answering tools now answers)
include hanswering

theorem forgetAll_still (ids : List AssetId) {work : Work σ} (hnow : now work.world) :
    Work.Still now work (forgetAll tools ids work) := by
  have hforget : ∀ (paths : List Path) (world : σ), now world →
      now (paths.foldl (fun world p => tools.forget p world) world) := by
    intro paths
    induction paths with
    | nil => exact fun _ h => h
    | cons p rest ih => exact fun world h => ih _ (hanswering.forget p world h)
  exact hanswering.ask work (hforget _ _ hnow)

theorem sendUpdate_still (loaded : List AssetId) {work : Work σ} (hnow : now work.world) :
    Work.Still now work (sendUpdate tools loaded work) :=
  hanswering.ask work (hanswering.update _ _ hnow)

end

theorem forgetAll_quiet (hsteady : Steady tools text rules) (ids : List AssetId) (work : Work σ) :
    Work.Quiet text work (forgetAll tools ids work) := by
  have hstill := @forgetAll_still _ _ _ _ _ _ (hsteady.answering (text work.world)) ids work rfl
  exact ⟨hstill.state, hstill.now⟩

/-- Loading what waits keeps a build current; unless it fails, nothing waits in the end. -/
theorem drain_current (hsteady : Steady tools text rules) (hcanonical : rules.Canonical)
    {texts : Path → τ} {start : Option AssetId} {first : Bool} {depth batches : Nat}
    {loaded : List AssetId} {work next : Work σ} {result : Except Failure (List AssetId)}
    (htext : text work.world = texts) (hstart : work.state.start = start)
    (h : (work.state.drain (!first)).2.Current rules setup texts [] (work.state.drain (!first)).1)
    (hdrain : drain tools setup.types first depth batches loaded work = some (result, next)) :
    text next.world = texts ∧ next.state.start = start ∧ next.state.Current rules setup texts [] [] ∧
      ∀ ids, result = .ok ids → next.state.queue = [] := by
  induction batches generalizing loaded work with
  | zero => simp [drain] at hdrain
  | succ batches ih =>
    have hinv := Load.current_invariant hsteady hcanonical setup texts start
    have hbegun : Work.Quiet text { work with state := (work.state.drain (!first)).2 }
        (begin tools first work) := by
      unfold begin
      split
      · exact .refl _
      · exact forgetAll_quiet hsteady _ _
    have hloaded : ∀ {failure? : Option Failure} {after : Work σ},
        Load.batch tools setup.types depth (work.state.drain (!first)).1 (begin tools first work) =
          some (failure?, after) →
        text after.world = texts ∧ after.state.start = start ∧
          after.state.Current rules setup texts [] [] :=
      Load.batch_invariant hinv
        ⟨hbegun.text.trans htext, by rw [hbegun.state]; exact hstart, by rw [hbegun.state]; exact h⟩
    rcases drain_cases hdrain with ⟨hempty, -, rfl⟩ | ⟨failure, -, rfl, hbatch⟩ | ⟨after, -, hbatch, hrest⟩
    · rw [hempty] at h
      exact ⟨htext, hstart, h, fun _ _ => rfl⟩
    · obtain ⟨htext', hstart', hcurrent⟩ := hloaded hbatch
      exact ⟨htext', hstart', hcurrent, fun _ hok => by cases hok⟩
    · obtain ⟨htext', hstart', hcurrent⟩ := hloaded hbatch
      -- nothing has come to wait, so the next batch is empty
      have hqueue : after.state.queue = [] := by
        rw [Load.queue_batch hsteady hbatch, hbegun.state]
        rfl
      refine ih htext' hstart' ?_ hrest
      rw [State.drain_of_empty hqueue]
      exact hcurrent

theorem sendUpdate_quiet (hsteady : Steady tools text rules) (loaded : List AssetId) (work : Work σ) :
    Work.Quiet text work (sendUpdate tools loaded work) :=
  hsteady.ask work (hsteady.update _ _)

theorem sent_quiet (hsteady : Steady tools text rules) (first : Bool) (loaded : List AssetId)
    (work : Work σ) : Work.Quiet text work (sent tools first loaded work) := by
  unfold sent
  split
  · exact .refl _
  · exact sendUpdate_quiet hsteady loaded work

/-- Loading what waits keeps a build current; unless it fails, nothing waits in the end and the asset that
the build starts from is known. -/
theorem gather_current (hsteady : Steady tools text rules) (hcanonical : rules.Canonical)
    {texts : Path → τ} {start : Option AssetId} {first : Bool} {depth : Nat} {work next : Work σ}
    {result : Except Failure AssetId} (htext : text work.world = texts) (hstart : work.state.start = start)
    (h : (work.state.drain (!first)).2.Current rules setup texts [] (work.state.drain (!first)).1)
    (hgather : gather tools setup.types first depth work = some (result, next)) :
    text next.world = texts ∧ next.state.start = start ∧ next.state.Current rules setup texts [] [] ∧
      ∀ id, result = .ok id → next.state.start = some id ∧ next.state.queue = [] := by
  rcases gather_cases hgather with ⟨failure, rfl, hdrain⟩ | ⟨loaded, drained, hdrain, rfl, hid⟩
  · obtain ⟨htext', hstart', hcurrent, -⟩ := drain_current hsteady hcanonical htext hstart h hdrain
    exact ⟨htext', hstart', hcurrent, nofun⟩
  · obtain ⟨htext', hstart', hcurrent, hqueue⟩ := drain_current hsteady hcanonical htext hstart h hdrain
    have hsent := sent_quiet hsteady first loaded drained
    rw [← hsent.state] at hstart' hcurrent hqueue
    rw [← hsent.text] at htext'
    exact ⟨htext', hstart', hcurrent, fun id hok => ⟨hid id hok, hqueue _ rfl⟩⟩

end Pass
end

/-! ## The entry -/

namespace State

/-- The state in which the entry has been found. -/
def begun (types : AssetTypes κ) (state : State) (entry : Lookup.Modules.Resolved) : State :=
  let inserted := state.graph.insert entry.path (types.kindOf entry.path) entry.package
  enqueue { state with graph := inserted.2, start := some inserted.1.1 } inserted.1.1

/-- Once the entry has been found, it is still to be loaded. -/
theorem Current.begun {rules : Rules κ τ} {setup : Setup κ π} {text : Path → τ} {state : State}
    (hcanonical : rules.Canonical) (h : state.Current rules setup text [] [])
    (hqueue : state.queue = []) (hprepared : rules.prepared setup.outDir = .ok ())
    {entry : Lookup.Modules.Resolved} (hfind : rules.find setup.entry.text none = .ok entry) :
    ((state.begun setup.types entry).drain false).2.Current rules setup text []
      ((state.begun setup.types entry).drain false).1 := by
  obtain ⟨hinserted, hholds⟩ := h.insert hcanonical hfind
  have hdrain : (state.begun setup.types entry).drain false =
      ([(state.graph.insert entry.path (setup.types.kindOf entry.path) entry.package).1.1],
        { state.begun setup.types entry with queue := [] }) := by
    obtain ⟨asset, hget, -⟩ := hholds
    unfold State.drain State.begun enqueue
    rw [hqueue]
    simp [includeLast, hget]
  rw [hdrain]
  refine ⟨hinserted.indexed, hinserted.sourced, ?_, ?_⟩
  · intro id hstart
    cases hstart
    exact ⟨hprepared, entry, hfind, hholds⟩
  · intro id asset hget
    have hstage := hinserted.stage hget
    rw [show ({ state with graph := _ } : State).queue = [] from hqueue] at hstage
    exact hstage

/-- What holds between the passes of a build over steady tools: every asset is fresh or waits. -/
structure UpToDate (rules : Rules κ τ) (setup : Setup κ π) (text : Path → τ) (state : State) : Prop where
  current : state.Current rules setup text [] []
  orderly : state.Orderly [] []
  untouched : state.start = none → state.queue = [] ∧ ∀ id, state.graph.get? id = none

end State

namespace Pass

variable {tools : Toolset κ π σ} {text : σ → Path → τ} {rules : Rules κ τ} {setup : Setup κ π}

/-- The entry is found just if the output directory can be made and the resolver finds it. -/
theorem enter_answered {now : σ → Prop} {answers : Answers κ} (hanswering : Answering tools now answers)
    {work : Work σ} (hnow : now work.world) :
    now (enter tools setup work).2.world ∧
      ((∃ failure, (enter tools setup work).1 = .error failure ∧
          (enter tools setup work).2.state = work.state ∧
          ∀ entry, answers.prepared setup.outDir = .ok () →
            answers.find setup.entry.text none ≠ .ok entry) ∨
        ∃ entry, (enter tools setup work).1 = .ok () ∧ answers.prepared setup.outDir = .ok () ∧
          answers.find setup.entry.text none = .ok entry ∧
          (enter tools setup work).2.state = work.state.begun setup.types entry) := by
  have hprepare := hanswering.prepare setup.outDir work.world hnow
  unfold enter
  dsimp only
  rw [show (work.tell (.opened setup.entry setup.outDir)).world = work.world from rfl]
  generalize tools.prepare setup.outDir work.world = made at hprepare
  obtain ⟨result, world⟩ := made
  obtain ⟨hresult, hworld⟩ := hprepare
  dsimp only at hresult hworld
  rw [← hresult]
  have hprepared := hanswering.ask (work.tell (.opened setup.entry setup.outDir)) hworld
  cases result with
  | error failure => exact ⟨hprepared.now, .inl ⟨failure, rfl, hprepared.state, fun _ h => by cases h⟩⟩
  | ok done =>
    dsimp only
    generalize Work.listen tools ({ work.tell (.opened setup.entry setup.outDir) with world } : Work σ) =
      prepared at hprepared
    obtain ⟨hfind, hfound⟩ := hanswering.resolve setup.entry.text none prepared.world hprepared.now
    have hlisten := @Answering.listen _ _ _ _ _ _ hanswering
      (({ prepared with world := (tools.resolve setup.entry.text none prepared.world).2 } : Work σ).warn
        (tools.resolve setup.entry.text none prepared.world).1.warnings) hfound
    have hresolved := hprepared.trans ⟨hlisten.state, hlisten.now⟩
    generalize Work.listen tools (({ prepared with
        world := (tools.resolve setup.entry.text none prepared.world).2 } : Work σ).warn
          (tools.resolve setup.entry.text none prepared.world).1.warnings) = resolved at hresolved
    split
    · rename_i failure heq
      refine ⟨hresolved.now, .inl ⟨failure, rfl, hresolved.state, fun entry _ hfound => ?_⟩⟩
      rw [← hfind, heq] at hfound
      cases hfound
    · rename_i entry heq
      obtain ⟨hid, hstate⟩ := resolved.enter_eq tools setup.types entry
      refine ⟨Work.now_enter hanswering.watch setup.types hresolved.now entry, .inr ⟨entry, rfl, rfl,
        hfind.symm.trans heq, ?_⟩⟩
      dsimp only
      rw [hid, hstate, hresolved.state]
      rfl

/-- If a first pass comes to the layout, then it has found the entry and loaded all that waits since. -/
theorem assemble_empty_cases {now : σ → Prop} {answers : Answers κ} (hanswering : Answering tools now answers)
    {depth : Nat} {work next : Work σ} {start : AssetId} (hnow : now work.world) (hempty : work.state = {})
    (h : assemble tools setup depth work = some (.ok start, next)) :
    ∃ entered entry loaded, now entered.world ∧ answers.prepared setup.outDir = .ok () ∧
      answers.find setup.entry.text none = .ok entry ∧ entered.state = State.begun setup.types {} entry ∧
      gather tools setup.types true depth entered = some (.ok start, next) ∧
      drain tools setup.types true depth depth [] entered = some (.ok loaded, next) := by
  obtain ⟨hentered, hcases⟩ := @enter_answered κ π σ tools setup now answers hanswering work hnow
  rcases assemble_cases h with ⟨failure, -, hfailure, -⟩ | ⟨entered, -, henter, hgather⟩ | ⟨origin, hstart, -⟩
  · cases hfailure
  · rw [henter] at hentered
    rw [henter, hempty] at hcases
    rcases hcases with ⟨failure, herror, -⟩ | ⟨entry, -, hprepared, hfind, hbegun⟩
    · cases herror
    · rcases gather_cases hgather with ⟨failure, hfailure, -⟩ | ⟨loaded, drained, hdrain, rfl, -⟩
      · cases hfailure
      · exact ⟨entered, entry, loaded, hentered, hprepared, hfind, hbegun, hgather, hdrain⟩
  · rw [hempty] at hstart
    cases hstart

/-- With steady tools the entry is found just if the output directory can be made and the resolver finds
it. -/
theorem enter_spec (hsteady : Steady tools text rules) (work : Work σ) :
    text (enter tools setup work).2.world = text work.world ∧
      ((∃ failure, (enter tools setup work).1 = .error failure ∧
          (enter tools setup work).2.state = work.state ∧
          ∀ entry, rules.prepared setup.outDir = .ok () →
            rules.find setup.entry.text none ≠ .ok entry) ∨
        ∃ entry, (enter tools setup work).1 = .ok () ∧ rules.prepared setup.outDir = .ok () ∧
          rules.find setup.entry.text none = .ok entry ∧
          (enter tools setup work).2.state = work.state.begun setup.types entry) :=
  enter_answered (hsteady.answering (text work.world)) rfl

/-- A pass up to the layout keeps a build up to date; unless it fails, nothing waits in the end and the
asset that the build starts from is known. -/
theorem assemble_upToDate (hsteady : Steady tools text rules) (hcanonical : rules.Canonical)
    {depth : Nat} {work next : Work σ} {result : Except Failure AssetId} {texts : Path → τ}
    (htext : text work.world = texts) (h : work.state.UpToDate rules setup texts)
    (hassemble : assemble tools setup depth work = some (result, next)) :
    text next.world = texts ∧ next.state.UpToDate rules setup texts ∧
      ∀ start, result = .ok start → next.state.start = some start ∧ next.state.queue = [] := by
  have horderly := (assemble_orderly h.orderly hassemble).1
  rcases assemble_cases hassemble with ⟨failure, -, rfl, henter⟩ | ⟨entered, hstart, henter, hgather⟩ |
    ⟨start, hstart, hgather⟩
  · obtain ⟨hentered, hcases⟩ := @enter_spec κ π σ τ tools text rules setup hsteady work
    rw [henter] at hentered hcases
    rcases hcases with ⟨-, -, hsame, -⟩ | ⟨entry, hok, -⟩
    · dsimp only at hsame hentered
      rw [hsame]
      exact ⟨hentered.trans htext, h, nofun⟩
    · cases hok
  · obtain ⟨hentered, hcases⟩ := @enter_spec κ π σ τ tools text rules setup hsteady work
    rw [henter] at hentered hcases
    rcases hcases with ⟨failure, herror, -⟩ | ⟨entry, -, hprepared, hfind, hbegun⟩
    · cases herror
    · dsimp only at hbegun hentered
      have hdrained := h.current.begun hcanonical (h.untouched hstart).1 hprepared hfind
      rw [← hbegun] at hdrained
      obtain ⟨htext', hstart', hcurrent, hend⟩ :=
        gather_current hsteady hcanonical (hentered.trans htext) rfl hdrained hgather
      refine ⟨htext', ⟨hcurrent, horderly, fun hnone => ?_⟩, hend⟩
      rw [hstart', hbegun] at hnone
      cases hnone
  · obtain ⟨htext', hstart', hcurrent, hend⟩ :=
      gather_current hsteady hcanonical htext hstart h.current.drain hgather
    refine ⟨htext', ⟨hcurrent, horderly, fun hnone => ?_⟩, hend⟩
    rw [hstart'] at hnone
    cases hnone

end Pass

end Build
end ModuleBundler
