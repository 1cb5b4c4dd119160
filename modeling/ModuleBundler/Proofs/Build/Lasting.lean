import ModuleBundler.Proofs.Build.Consistency

/-!
# What lasts

Some properties of an asset graph survive whatever loading does to it: changes of an
asset that leave its module alone, new assets and aliases ({lit}`AssetGraph.Growing`).
Others survive what comes after that, layouts and removals ({lit}`AssetGraph.Shrinking`).
A property of both kinds lasts from one pass to the next, whether they fail or not.
One of these is that assets have the kinds that belong to their identities.

Main results:

- Theorem {lit}`Pass.assemble_growing`: a pass up to the layout preserves what survives growth.
- Theorem {lit}`Pass.finish_shrinking`: the end of a pass preserves what survives shrinking.
- Theorem {lit}`Session.History.typed`: assets have the kinds of their identities.
-/

namespace ModuleBundler

/-- Whether a property survives whatever loading does to a graph. -/
structure AssetGraph.Growing {κ : Type} (types : AssetTypes κ) (holds : AssetGraph → Prop) : Prop where
  update : ∀ {graph : AssetGraph} (id : AssetId) {change : Asset → Asset}, Asset.KeepsModule change →
    holds graph → holds (graph.update id change)
  insert : ∀ {graph : AssetGraph} (p : Path) (package : Package),
    holds graph → holds (graph.insert p (types.kindOf p) package).2
  makeAlias : ∀ {graph : AssetGraph} (p : Path) (owner : AssetId),
    holds graph → holds (graph.makeAlias p owner).2

/-- Whether a property survives what comes after loading. -/
structure AssetGraph.Shrinking (holds : AssetGraph → Prop) : Prop where
  remove : ∀ {graph : AssetGraph} (id : AssetId), holds graph → holds (graph.remove id).2
  content : ∀ {old new : AssetGraph}, old.SameContent new → holds old → holds new

namespace Build

variable {κ π σ : Type} {types : AssetTypes κ} {holds : AssetGraph → Prop}

/-! ## Loading -/

/-- Recording the imports of an asset preserves what changes of the asset, aliases and the modules that were
found preserve. -/
theorem Work.recordAll_preserves (tools : Toolset κ π σ) (id : AssetId)
    {modules : List (Dependency × Lookup.Modules.Resolved)}
    (hupdate : ∀ {graph : AssetGraph} {change : Asset → Asset}, Asset.KeepsModule change →
      holds graph → holds (graph.update id change))
    (hinsert : ∀ found ∈ modules, ∀ {graph : AssetGraph}, holds graph →
      holds (graph.insert found.2.path (types.kindOf found.2.path) found.2.package).2)
    (halias : ∀ {graph : AssetGraph} (p : Path), holds graph → holds (graph.makeAlias p id).2)
    {work : Work σ} (h : holds work.state.graph) :
    holds (recordAll tools types id modules work).2.state.graph := by
  induction modules generalizing work with
  | nil => exact h
  | cons found rest ih =>
    obtain ⟨hfound, hrest⟩ := List.forall_mem_cons.1 hinsert
    have hrecord : holds (work.record tools types id found).2.state.graph := by
      rcases record_cases tools types id found work with ⟨-, hstate⟩ | ⟨-, hstate⟩
      · rw [hstate]
        exact halias _ h
      · rw [hstate]
        exact hupdate {} (hfound h)
    exact ih hrest hrecord

/-- Recording the imports of an asset preserves what survives growth. -/
theorem Work.recordAll_growing (hgrowing : AssetGraph.Growing types holds) (tools : Toolset κ π σ)
    (id : AssetId) (modules : List (Dependency × Lookup.Modules.Resolved)) {work : Work σ}
    (h : holds work.state.graph) : holds (recordAll tools types id modules work).2.state.graph :=
  recordAll_preserves tools id (hgrowing.update id) (fun _ _ _ h => hgrowing.insert _ _ h)
    (fun _ h => hgrowing.makeAlias _ _ h) h

/-- Loading preserves what survives growth. -/
theorem Load.growing_invariant (hgrowing : AssetGraph.Growing types holds) (tools : Toolset κ π σ) :
    Invariant tools types fun _ _ work => holds work.state.graph := by
  refine .of_state (fun state => holds state.graph) ?_ ?_ ?_ ?_ ?_
  · intro old new hnotices h
    rw [hnotices.graph]
    exact h
  · intro old new id asset hclaim h
    obtain ⟨-, -, rfl⟩ := State.of_claim hclaim
    exact hgrowing.update id {} h
  · exact fun id _ h => hgrowing.update id {} h
  · exact fun id modules h => Work.recordAll_growing hgrowing tools id modules h
  · exact fun id h => hgrowing.update id {} h

/-! ## Whole passes -/

namespace Pass

variable {tools : Toolset κ π σ} {setup : Setup κ π} {depth : Nat} {work next : Work σ}

/-- Taking a batch off the queue preserves what survives growth. -/
theorem drain_growing (hgrowing : AssetGraph.Growing types holds) (invalidate : Bool) {state : State}
    (h : holds state.graph) : holds (state.drain invalidate).2.graph :=
  State.graph_drain holds invalidate (fun id _ h => hgrowing.update id {} h) h

/-- Loading what waits preserves what survives growth. -/
theorem gather_growing (hgrowing : AssetGraph.Growing types holds) {first : Bool}
    {result : Except Failure AssetId} (h : holds work.state.graph)
    (hgather : gather tools types first depth work = some (result, next)) : holds next.state.graph := by
  have hdrain : ∀ {outcome : Except Failure (List AssetId)} {drained : Work σ},
      drain tools types first depth depth [] work = some (outcome, drained) →
        holds drained.state.graph := by
    intro outcome drained hdrain
    refine (drain_invariant (Load.growing_invariant hgrowing tools) ?_ ?_ h hdrain).1
    · exact fun h => drain_growing hgrowing (!first) h
    · intro _ before ids h
      rw [(notices_forgetAll tools ids before).graph]
      exact h
  rcases gather_cases hgather with ⟨failure, -, heq⟩ | ⟨loaded, drained, heq, rfl, -⟩
  · exact hdrain heq
  · rw [(notices_sent tools first loaded drained).graph]
    exact hdrain heq

/-- Finding the entry preserves what survives growth. -/
theorem enter_growing (hgrowing : AssetGraph.Growing setup.types holds) (tools : Toolset κ π σ)
    (h : holds work.state.graph) : holds (enter tools setup work).2.state.graph := by
  rcases enter_cases tools setup work with ⟨failure, next, heq, hnotices⟩ | ⟨found, module, hnotices, heq⟩
  · rw [heq, hnotices.graph]
    exact h
  · rw [heq]
    have hentered := hgrowing.insert module.path module.package h
    rw [← hnotices.graph] at hentered
    have hgraph : (found.enter tools setup.types module).2.state.graph = _ :=
      congrArg State.graph (found.enter_eq tools setup.types module).2
    exact hgraph ▸ hentered

/-- The end of a pass preserves what survives shrinking. -/
theorem finish_shrinking (hshrinking : AssetGraph.Shrinking holds) (tools : Toolset κ π σ)
    (setup : Setup κ π) (start : AssetId) (h : holds work.state.graph) :
    holds (finish tools setup start work).2.state.graph := by
  have hcontent := work.state.graph.sameContent_withoutPlace.trans
    (Layout.sameContent_ofGraph (work.state.graph.updateAll Asset.withoutPlace) setup.outDir start)
  have hlaid : holds (layOut setup.outDir start work).2.state.graph := hshrinking.content hcontent h
  obtain ⟨written, hwritten, hstate | ⟨fingerprints, hstate⟩⟩ := state_finish_cases tools setup start work
  · rw [hstate, hwritten.graph]
    exact hlaid
  · rw [hstate]
    refine State.unload_invariant (fun state => holds state.graph) (fun id h => hshrinking.remove id h) ?_
    rw [show ({ written with fingerprints } : State).graph = _ from hwritten.graph]
    exact hlaid

/-- A pass up to the layout preserves what survives growth. -/
theorem assemble_growing (hgrowing : AssetGraph.Growing setup.types holds) {result : Except Failure AssetId}
    (h : holds work.state.graph) (hassemble : assemble tools setup depth work = some (result, next)) :
    holds next.state.graph := by
  have hentered := enter_growing hgrowing tools h
  rcases assemble_cases hassemble with ⟨failure, -, -, henter⟩ | ⟨entered, -, henter, hgather⟩ |
    ⟨start, -, hgather⟩
  · rwa [henter] at hentered
  · rw [henter] at hentered
    exact gather_growing hgrowing hentered hgather
  · exact gather_growing hgrowing h hgather

/-- A pass preserves what survives both growth and shrinking. -/
theorem run_lasting (hgrowing : AssetGraph.Growing setup.types holds)
    (hshrinking : AssetGraph.Shrinking holds) {result : Except Failure Report}
    (h : holds work.state.graph) (hrun : run tools setup depth work = some (result, next)) :
    holds next.state.graph := by
  rcases run_cases hrun with ⟨failure, -, hassemble⟩ | ⟨start, assembled, hassemble, hfinish⟩
  · exact assemble_growing hgrowing h hassemble
  · have hfinished := finish_shrinking hshrinking tools setup start (assemble_growing hgrowing h hassemble)
    rwa [hfinish] at hfinished

end Pass

/-! ## Kinds -/

end Build

/-- Whether the kinds of assets are those of their identities. -/
def AssetGraph.Typed {κ : Type} (graph : AssetGraph) (types : AssetTypes κ) : Prop :=
  ∀ id asset, graph.get? id = some asset → asset.kind = types.kindOf asset.identity

theorem AssetGraph.growing_typed {κ : Type} (types : AssetTypes κ) :
    Growing types fun graph => graph.Typed types where
  update id _ hmodule h := by
    intro other asset hget
    rcases get?_update_cases hget with ⟨-, hget⟩ | ⟨before, rfl, hbefore, rfl⟩
    · exact h other asset hget
    · rw [hmodule.kind, hmodule.identity]
      exact h other before hbefore
  insert p package h := by
    intro id asset hget
    unfold AssetGraph.insert at hget
    split at hget
    · exact h id asset hget
    · rw [get?_add] at hget
      split at hget
      · cases hget
        rfl
      · exact h id asset hget
  makeAlias p owner h := by
    intro id asset hget
    rw [get?_makeAlias] at hget
    exact h id asset hget

theorem AssetGraph.shrinking_typed {κ : Type} (types : AssetTypes κ) :
    Shrinking fun graph => graph.Typed types where
  remove removed h := by
    intro id asset hget
    by_cases hid : id = removed
    · rw [hid, get?_remove_self] at hget
      cases hget
    · rw [get?_remove_of_ne hid] at hget
      exact h id asset hget
  content hcontent h := by
    intro id asset hget
    obtain ⟨before, hbefore, hsame⟩ := hcontent.symm.exists_get? hget
    exact (Asset.iff_of_withoutPlace hsame
      (p := fun asset => asset.kind = types.kindOf asset.identity) fun _ => Iff.rfl).1 (h id before hbefore)

namespace Build

variable {κ π σ : Type}

/-- Assets have the kinds of their identities.  The asset types can be changed only as long as there are no
assets. -/
theorem Session.History.typed {session : Session κ π σ} (h : session.History) :
    session.work.state.graph.Typed session.setup.types ∧
      (session.started = false → ∀ id, session.work.state.graph.get? id = none) := by
  induction h with
  | new =>
    refine ⟨fun id asset hget => ?_, fun _ id => ?_⟩
    · simp [Session.new, AssetGraph.empty, AssetGraph.get?] at hget
    · simp [Session.new, AssetGraph.empty, AssetGraph.get?]
  | addType _ hadd ih =>
    obtain ⟨hstarted, rfl⟩ := addType_cases hadd
    have hnone := ih.2 hstarted
    refine ⟨fun id asset hget => ?_, fun _ => hnone⟩
    rw [hnone id] at hget
    cases hget
  | addPackager _ hadd ih =>
    obtain ⟨-, rfl⟩ := addPackager_cases hadd
    exact ih
  | edit _ _ ih => exact ih
  | @change session p _ ih =>
    have hgraph := (session.work.notices_notify p).graph
    refine ⟨fun id asset hget => ih.1 id asset ?_, fun hstarted id => ?_⟩
    · rwa [← hgraph]
    · exact (congrArg (·.get? id) hgraph).trans (ih.2 hstarted id)
  | @pass session session' depth result _ hbundle ih =>
    obtain ⟨next, hrun, hstate⟩ := state_bundle? hbundle
    obtain ⟨hstarted, hsetup⟩ := started_bundle? hbundle
    rw [hstate, hsetup]
    have hbefore : (session.work.tell .started).state.graph.Typed session.setup.types := ih.1
    refine ⟨Pass.run_lasting (AssetGraph.growing_typed _) (AssetGraph.shrinking_typed _)
      hbefore hrun, fun hnot => ?_⟩
    rw [hstarted] at hnot
    cases hnot
  | stop _ ih => exact ih

end Build
end ModuleBundler
