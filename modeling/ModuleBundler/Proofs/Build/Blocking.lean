import ModuleBundler.Proofs.Build.Rebuilding

/-!
# Assets that cannot be made ready

An asset cannot be made ready if its file is not compiled, for instance because it
was deleted, or if one of its imports leads nowhere.  After the first pass such an
asset makes every pass fail in whose batches it is, whether it is imported or not,
and then it waits for the next one.  Only a pass that succeeds unloads assets, so
that it is not got rid of.

Main results:

- Theorem {lit}`Load.blocked_invariant`: loading does not get over an asset that cannot be made ready.
- Theorem {lit}`Pass.run_blocked`: a pass fails if such an asset waits, and then it still waits.
-/

namespace ModuleBundler
namespace Build

variable {κ π σ : Type}

/-! ## Blocked builds -/

/-- Whether an asset cannot be made ready. -/
def Answers.Unready (answers : Answers κ) (types : AssetTypes κ) (asset : Asset) : Prop :=
  ∀ unit modules, ¬ answers.Readies types asset unit modules

theorem Answers.Unready.change {answers : Answers κ} {types : AssetTypes κ} {asset : Asset}
    (h : answers.Unready types asset) {change : Asset → Asset} (hmodule : Asset.KeepsModule change) :
    answers.Unready types (change asset) := by
  rintro unit modules ⟨hunit, implied, himplied, hleads⟩
  rw [hmodule.identity] at hunit himplied hleads
  rw [hmodule.package] at hunit
  rw [hmodule.kind] at himplied
  exact h unit modules ⟨hunit, implied, himplied, hleads⟩

/-- Whether an asset that cannot be made ready is dirty, late or waits. -/
def State.Blocked (answers : Answers κ) (types : AssetTypes κ) (id : AssetId) (late : List AssetId)
    (state : State) : Prop :=
  ∃ asset, state.graph.get? id = some asset ∧ answers.Unready types asset ∧
    (asset.dirty = true ∨ id ∈ late ∨ id ∈ state.queue)

namespace State.Blocked

variable {answers : Answers κ} {types : AssetTypes κ} {id : AssetId} {late late' : List AssetId}
  {state : State}

/-- A change of an asset only has to leave it dirty or late. -/
theorem update (h : state.Blocked answers types id late) (other : AssetId) {change : Asset → Asset}
    (hmodule : Asset.KeepsModule change) (hlate : ∀ x ∈ late, x ≠ other → x ∈ late')
    (hself : (∀ asset, (change asset).dirty = true) ∨ other ∈ late') :
    State.Blocked answers types id late' { state with graph := state.graph.update other change } := by
  obtain ⟨asset, hget, hunready, hwaits⟩ := h
  by_cases hother : id = other
  · subst hother
    refine ⟨change asset, by rw [AssetGraph.get?_update_self, hget]; rfl, hunready.change hmodule, ?_⟩
    rcases hself with hdirty | hmem
    · exact .inl (hdirty asset)
    · exact .inr (.inl hmem)
  · refine ⟨asset, by rw [AssetGraph.get?_update_of_ne hother, hget], hunready, ?_⟩
    rcases hwaits with hdirty | hmem | hqueue
    · exact .inl hdirty
    · exact .inr (.inl (hlate id hmem hother))
    · exact .inr (.inr hqueue)

/-- More can wait. -/
theorem wait {queue : List AssetId} (h : state.Blocked answers types id late)
    (hqueue : ∀ x ∈ state.queue, x ∈ queue) :
    State.Blocked answers types id late { state with queue } := by
  obtain ⟨asset, hget, hunready, hwaits⟩ := h
  exact ⟨asset, hget, hunready, hwaits.imp_right (Or.imp_right (hqueue id))⟩

/-- An asset that is taken off the queue to be compiled anew is dirty. -/
theorem drain (h : state.Blocked answers types id []) :
    (state.drain true).2.Blocked answers types id [] := by
  obtain ⟨asset, hget, hunready, hwaits⟩ := h
  have hinvalidate : ∀ (ids : List AssetId) (graph : AssetGraph) (asset : Asset),
      graph.get? id = some asset → answers.Unready types asset → asset.dirty = true ∨ id ∈ ids →
        ∃ after, (ids.foldl (fun graph id => graph.update id Asset.invalidate) graph).get? id =
          some after ∧ answers.Unready types after ∧ after.dirty = true := by
    intro ids
    induction ids with
    | nil => exact fun graph asset hget hunready hdirty =>
        ⟨asset, hget, hunready, hdirty.resolve_right List.not_mem_nil⟩
    | cons first rest ih =>
      intro graph asset hget hunready hdirty
      by_cases hfirst : id = first
      · subst hfirst
        exact ih _ asset.invalidate (by rw [AssetGraph.get?_update_self, hget]; rfl)
          (hunready.change {}) (.inl rfl)
      · refine ih _ asset (by rw [AssetGraph.get?_update_of_ne hfirst, hget]) hunready ?_
        exact hdirty.imp_right fun hmem => (List.mem_cons.1 hmem).resolve_left hfirst
  have hbatch : asset.dirty = true ∨ id ∈ (state.drain true).1 := by
    rcases hwaits with hdirty | hmem | hqueue
    · exact .inl hdirty
    · cases hmem
    · exact .inr (List.mem_filter.2 ⟨hqueue, by rw [hget]; rfl⟩)
  obtain ⟨after, hafter, hunready', hdirty⟩ := hinvalidate _ _ asset hget hunready hbatch
  exact ⟨after, hafter, hunready', .inl hdirty⟩

end State.Blocked

/-- Recording the imports of an asset does not touch the others. -/
theorem Work.get?_recordAll_of_ne (tools : Toolset κ π σ) (types : AssetTypes κ) {id other : AssetId}
    (hother : other ≠ id) (modules : List (Dependency × Lookup.Modules.Resolved)) {work : Work σ}
    {asset : Asset} (hget : work.state.graph.get? other = some asset) :
    (recordAll tools types id modules work).2.state.graph.get? other = some asset := by
  induction modules generalizing work with
  | nil => exact hget
  | cons found rest ih =>
    have hrecord : (work.record tools types id found).2.state.graph.get? other = some asset := by
      rcases record_cases tools types id found work with ⟨-, hstate⟩ | ⟨-, hstate⟩
      · rw [hstate]
        exact (AssetGraph.get?_makeAlias _ _ _ _).trans hget
      · rw [hstate]
        exact (AssetGraph.get?_update_of_ne hother _ _).trans (AssetGraph.get?_insert_of_get? hget _ _ _)
    exact ih hrecord

section

variable {tools : Toolset κ π σ} {now : σ → Prop} {answers : Answers κ} {types : AssetTypes κ}

/-- Loading does not get over an asset that cannot be made ready. -/
theorem Load.blocked_invariant (hanswering : Answering tools now answers) (id : AssetId) :
    Invariant tools types fun late _ work =>
      now work.world ∧ work.state.Blocked answers types id late where
  mono hlate := by
    rintro ⟨hnow, asset, hget, hunready, hwaits⟩
    exact ⟨hnow, asset, hget, hunready, hwaits.imp_right (Or.imp_left (hlate id))⟩
  pass h _ := h
  unready := by
    rintro late pending other asset work claimed ⟨hnow, h⟩ hclaim hunready
    obtain ⟨hnext, change, hmodule, hafter⟩ := unready_spec hanswering hnow hclaim hunready
    rw [hafter]
    exact ⟨hnext, h.update other hmodule (fun _ hmem _ => List.mem_cons_of_mem _ hmem)
      (.inr List.mem_cons_self)⟩
  ready := by
    rintro late pending children other asset work claimed next ⟨hnow, h⟩ hclaim hprepare
    obtain ⟨hget, -, -⟩ := State.of_claim (of_claim hclaim).1
    obtain ⟨hnext, unit, modules, before, hreadies, hbefore, -, -, rfl⟩ :=
      ready_spec hanswering hnow hclaim hprepare
    obtain ⟨blocked, hblocked, hnever, hwaits⟩ := h
    -- it is another asset that has become ready
    have hother : id ≠ other := by
      rintro rfl
      obtain rfl : blocked = asset := Option.some.inj (hblocked.symm.trans hget)
      exact hnever unit modules hreadies
    have hstays : before.state.graph.get? id = some blocked := by
      rw [hbefore]
      exact (AssetGraph.get?_update_of_ne hother _ _).trans hblocked
    refine ⟨hnext, blocked, Work.get?_recordAll_of_ne tools types hother modules hstays, hnever, ?_⟩
    rw [Work.queue_recordAll, hbefore]
    exact hwaits
  back h :=
    ⟨h.1, (h.2.update _ {} (fun _ hmem _ => hmem) (.inl fun _ => rfl)).wait
      fun _ hmem => mem_includeLast_iff.2 (.inl hmem)⟩
  settle h :=
    ⟨h.1, (h.2.update _ {} (fun _ hmem hne => (List.mem_cons.1 hmem).resolve_left hne)
      (.inl fun _ => rfl)).wait fun _ hmem => mem_includeLast_iff.2 (.inl hmem)⟩

end

namespace Pass

variable {tools : Toolset κ π σ} {now : σ → Prop} {answers : Answers κ} {setup : Setup κ π}

/-- Loading what waits fails if an asset waits that cannot be made ready. -/
theorem drain_blocked (hanswering : Answering tools now answers) {depth batches : Nat} {work drained : Work σ}
    {loaded : List AssetId} {result : Except Failure (List AssetId)} (hnow : now work.world)
    (h : work.state.Orderly [] []) {id : AssetId} (hblocked : work.state.Blocked answers setup.types id [])
    (hdrain : drain tools setup.types false depth batches loaded work = some (result, drained)) :
    (∃ failure, result = .error failure) ∧ drained.state.Blocked answers setup.types id [] := by
  have hpreserved : (now drained.world ∧ drained.state.Blocked answers setup.types id []) ∧
      ∀ ids, result = .ok ids → drained.state.queue = [] := by
    refine drain_invariant (Load.blocked_invariant hanswering id) ?_ ?_ ⟨hnow, hblocked⟩ hdrain
    · exact fun h => ⟨h.1, h.2.drain⟩
    · intro pending before ids h
      have hstill := forgetAll_still hanswering ids h.1
      rw [hstill.state]
      exact ⟨hstill.now, h.2⟩
  obtain ⟨⟨-, hend⟩, hqueue⟩ := hpreserved
  refine ⟨?_, hend⟩
  cases result with
  | error failure => exact ⟨failure, rfl⟩
  | ok ids =>
    -- nothing would be dirty and nothing would wait
    obtain ⟨asset, hget, -, hdirty | hlate | hwaits⟩ := hend
    · rw [(drain_orderly h hdrain).1.clean (hqueue ids rfl) id asset hget] at hdirty
      cases hdirty
    · cases hlate
    · rw [hqueue ids rfl] at hwaits
      cases hwaits

/-- A pass after the first one does not come to the layout then. -/
theorem assemble_blocked (hanswering : Answering tools now answers) {depth : Nat} {work next : Work σ}
    {result : Except Failure AssetId} (hnow : now work.world) (h : work.state.Orderly [] [])
    {start : AssetId} (hstart : work.state.start = some start) {id : AssetId}
    (hblocked : work.state.Blocked answers setup.types id [])
    (hassemble : assemble tools setup depth work = some (result, next)) :
    (∃ failure, result = .error failure) ∧ next.state.Blocked answers setup.types id [] := by
  rcases assemble_cases hassemble with ⟨-, hnone, -⟩ | ⟨-, hnone, -⟩ | ⟨-, -, hgather⟩
  · cases hstart.symm.trans hnone
  · cases hstart.symm.trans hnone
  · rcases gather_cases hgather with ⟨failure, rfl, hdrain⟩ | ⟨loaded, drained, hdrain, -⟩
    · exact ⟨⟨failure, rfl⟩, (drain_blocked hanswering hnow h hblocked hdrain).2⟩
    · obtain ⟨⟨failure, hfailure⟩, -⟩ := drain_blocked hanswering hnow h hblocked hdrain
      cases hfailure

/-- A pass after the first one fails if an asset waits that cannot be made ready, and then it still waits. -/
theorem run_blocked (hanswering : Answering tools now answers) {depth : Nat} {work next : Work σ}
    {result : Except Failure Report} (hnow : now work.world) (h : work.state.Orderly [] [])
    {start : AssetId} (hstart : work.state.start = some start) {id : AssetId}
    (hblocked : work.state.Blocked answers setup.types id [])
    (hrun : run tools setup depth work = some (result, next)) :
    (∃ failure, result = .error failure) ∧ id ∈ next.state.queue ∧
      next.state.Blocked answers setup.types id [] := by
  have hend : (∃ failure, result = .error failure) ∧ next.state.Blocked answers setup.types id [] := by
    rcases run_cases hrun with ⟨failure, rfl, hassemble⟩ | ⟨origin, assembled, hassemble, -⟩
    · exact ⟨⟨failure, rfl⟩, (assemble_blocked hanswering hnow h hstart hblocked hassemble).2⟩
    · obtain ⟨⟨failure, hfailure⟩, -⟩ := assemble_blocked hanswering hnow h hstart hblocked hassemble
      cases hfailure
  refine ⟨hend.1, ?_, hend.2⟩
  obtain ⟨asset, hget, -, hdirty | hlate | hwaits⟩ := hend.2
  · exact ((run_orderly h hrun).waits hget hdirty).resolve_right List.not_mem_nil
  · cases hlate
  · exact hwaits

end Pass

end Build
end ModuleBundler
