import ModuleBundler.Proofs.Build.Chronicle

/-!
# Progress of loading

As long as nothing fails, each compilation that is started turns one asset that is
not loaded into one that is ({lit}`State.Progress`).  So one can count: whatever
was not loaded before and is loaded afterwards was compiled in between, once.

Main results:

- Theorem {lit}`Load.batch_progress`: a batch that does not fail compiles whatever it finds dirty, once.
- Theorem {lit}`Pass.drain_answers`: after the first pass, a batch that was taken off the queue is compiled.
- Theorem {lit}`Pass.drain_progress`: the first pass makes progress all the time.
-/

namespace ModuleBundler
namespace Build

/-! ## Progress -/

namespace State

/-- Whether an asset is live and need not be compiled. -/
def isLoaded (state : State) (id : AssetId) : Bool :=
  (state.graph.get? id).any fun asset => !asset.dirty

theorem isLoaded_iff {state : State} {id : AssetId} :
    state.isLoaded id = true ↔ ∃ asset, state.graph.get? id = some asset ∧ asset.dirty = false := by
  unfold isLoaded
  cases state.graph.get? id <;> simp

theorem isLoaded_congr {old new : State} {id : AssetId} (h : new.graph.get? id = old.graph.get? id) :
    new.isLoaded id = old.isLoaded id := by
  simp only [isLoaded, h]

/-- Whether assets stay live and each compilation that was started has made one asset loaded that was not
loaded before. -/
structure Progress (old : State) (events : List Event) (new : State) : Prop where
  live : ∀ id, old.graph.IsLive id → new.graph.IsLive id
  tally : ∀ id, (new.isLoaded id).toNat = (old.isLoaded id).toNat + events.count (.started id)

namespace Progress

theorem trans {a b c : State} {events more : List Event} (hab : a.Progress events b)
    (hbc : b.Progress more c) : a.Progress (events ++ more) c where
  live id h := hbc.live id (hab.live id h)
  tally id := by
    have h₁ := hab.tally id
    have h₂ := hbc.tally id
    rw [List.count_append]
    omega

/-- Where only changes were accepted and no asset has become loaded, there is progress. -/
theorem of_quiet {old new : State} {events : List Event} (hquiet : Event.Quiet events)
    (hlive : ∀ id, old.graph.IsLive id → new.graph.IsLive id)
    (hloaded : ∀ id, new.isLoaded id = old.isLoaded id) : old.Progress events new where
  live := hlive
  tally id := by rw [hquiet.count_started, hloaded, Nat.add_zero]

theorem of_graph_eq {old new : State} {events : List Event} (hquiet : Event.Quiet events)
    (hgraph : new.graph = old.graph) : old.Progress events new := by
  refine of_quiet hquiet ?_ ?_
  · intro id hlive
    rwa [hgraph]
  · intro id
    exact isLoaded_congr (by rw [hgraph])

theorem refl (state : State) : state.Progress [] state :=
  of_graph_eq Event.quiet_nil rfl

/-- What is loaded stays loaded. -/
theorem isLoaded {old new : State} {events : List Event} (h : old.Progress events new) {id : AssetId}
    (hloaded : old.isLoaded id = true) : new.isLoaded id = true := by
  have htally := h.tally id
  rw [hloaded] at htally
  cases hnew : new.isLoaded id with
  | true => rfl
  | false =>
    rw [hnew, Bool.toNat_true, Bool.toNat_false] at htally
    omega

/-- What was not loaded and is loaded now was compiled. -/
theorem started {old new : State} {events : List Event} (h : old.Progress events new) {id : AssetId}
    (hbefore : old.isLoaded id = false) (hafter : new.isLoaded id = true) : .started id ∈ events := by
  have htally := h.tally id
  rw [hbefore, hafter] at htally
  apply List.count_pos_iff.1
  simp only [Bool.toNat_true, Bool.toNat_false] at htally
  omega

end Progress
end State

/-! ## Making an asset ready -/

namespace Work

variable {κ π σ : Type}

/-- Entering a module does not make an asset loaded. -/
theorem progress_enter (tools : Toolset κ π σ) (types : AssetTypes κ) (work : Work σ)
    (module : Lookup.Modules.Resolved) :
    work.state.Progress [] (work.enter tools types module).2.state := by
  have hgraph : (work.enter tools types module).2.state.graph =
      (work.state.graph.insert module.path (types.kindOf module.path) module.package).2 := by
    rw [(work.enter_eq tools types module).2]
  refine .of_quiet Event.quiet_nil ?_ ?_
  · rintro id ⟨asset, hget⟩
    exact ⟨asset, by rw [hgraph]; exact AssetGraph.get?_insert_of_get? hget _ _ _⟩
  · intro id
    unfold State.isLoaded
    rw [hgraph]
    cases hget : work.state.graph.get? id with
    | some asset => rw [AssetGraph.get?_insert_of_get? hget]
    | none =>
      -- an asset that was made just now is dirty
      unfold AssetGraph.insert
      split
      · simp [hget]
      · simp only [AssetGraph.get?_add, hget]
        split <;> rfl

/-- Recording an import does not make an asset loaded. -/
theorem progress_record (tools : Toolset κ π σ) (types : AssetTypes κ) (id : AssetId)
    (found : Dependency × Lookup.Modules.Resolved) (work : Work σ) :
    work.state.Progress [] (work.record tools types id found).2.state := by
  unfold record
  split
  · refine .of_quiet Event.quiet_nil ?_ ?_
    · rintro other ⟨asset, hget⟩
      exact ⟨asset, by rw [inline_eq]; simpa [AssetGraph.get?_makeAlias] using hget⟩
    · intro other
      apply State.isLoaded_congr
      rw [inline_eq]
      exact AssetGraph.get?_makeAlias _ _ _ _
  · refine (work.progress_enter tools types found.2).trans (.of_quiet Event.quiet_nil ?_ ?_)
    · intro other hlive
      exact (AssetGraph.isLive_update _ _ _ _).2 hlive
    · intro other
      unfold State.isLoaded State.connect
      by_cases hother : other = id
      · subst hother
        simp only [AssetGraph.get?_update_self, Option.any_map]
        rfl
      · simp only [AssetGraph.get?_update_of_ne hother]

theorem progress_recordAll (tools : Toolset κ π σ) (types : AssetTypes κ) (id : AssetId)
    (modules : List (Dependency × Lookup.Modules.Resolved)) (work : Work σ) :
    work.state.Progress [] (recordAll tools types id modules work).2.state := by
  induction modules generalizing work with
  | nil => exact .refl _
  | cons found rest ih => exact (work.progress_record tools types id found).trans (ih _)

theorem start_recordAll (tools : Toolset κ π σ) (types : AssetTypes κ) (id : AssetId)
    (modules : List (Dependency × Lookup.Modules.Resolved)) (work : Work σ) :
    (recordAll tools types id modules work).2.state.start = work.state.start := by
  obtain ⟨graph, hstate⟩ := state_recordAll tools types id modules work
  rw [hstate]

end Work

namespace State

/-- Keeping the output of a compilation does not make an asset loaded. -/
theorem progress_keep (state : State) (id : AssetId) (unit : CompiledUnit) :
    state.Progress [] (state.keep id unit) := by
  refine .of_quiet Event.quiet_nil ?_ ?_
  · intro other hlive
    exact (AssetGraph.isLive_update _ _ _ _).2 hlive
  · intro other
    unfold isLoaded keep
    by_cases hother : other = id
    · subst hother
      simp only [AssetGraph.get?_update_self, Option.any_map]
    · simp only [AssetGraph.get?_update_of_ne hother]

theorem progress_notices {old new : State} (h : old.Notices new) : old.Progress [] new :=
  .of_graph_eq Event.quiet_nil h.graph

end State

/-! ## Loading -/

namespace Load

variable {κ π σ : Type} {tools : Toolset κ π σ} {types : AssetTypes κ}

end Load

/-! ## Batches -/

namespace Event

/-- Whether every batch was taken off the queue by the first pass or by a later one, as given, and in the
latter case all of it was compiled afterwards. -/
def Answered (first : Bool) (events : List Event) : Prop :=
  ∀ (taker : Bool) (ids : List AssetId) (before after : List Event),
    events = before ++ .taken taker ids :: after →
      taker = first ∧ (first = false → ∀ id ∈ ids, .started id ∈ after)

theorem answered_of_not_taken (first : Bool) {events : List Event}
    (h : ∀ taker ids, taken taker ids ∉ events) : Answered first events := by
  intro taker ids before after heq
  exact absurd (by simp [heq]) (h taker ids)

theorem Answered.append {first : Bool} {events more : List Event} (h : Answered first events)
    (hmore : Answered first more) : Answered first (events ++ more) := by
  intro taker ids before after heq
  rcases List.append_eq_append_iff.1 heq with ⟨between, hbefore, hrest⟩ | ⟨between, hevents, hrest⟩
  · exact hmore taker ids between after hrest
  · cases between with
    | nil =>
      rw [List.nil_append] at hrest
      exact hmore taker ids [] after hrest.symm
    | cons event between =>
      obtain ⟨rfl, rfl⟩ := List.cons.inj hrest
      obtain ⟨htaker, hstarted⟩ := h taker ids before between hevents
      refine ⟨htaker, fun hlater id hid => List.mem_append_left _ (hstarted hlater id hid)⟩

theorem Answered.cons {first : Bool} {ids : List AssetId} {events : List Event}
    (h : Answered first events) (hstarted : first = false → ∀ id ∈ ids, .started id ∈ events) :
    Answered first (.taken first ids :: events) := by
  intro taker taken before after heq
  cases before with
  | nil =>
    obtain ⟨hhead, rfl⟩ := List.cons.inj heq
    cases hhead
    exact ⟨rfl, hstarted⟩
  | cons event before =>
    obtain ⟨-, hrest⟩ := List.cons.inj heq
    exact h taker taken before after hrest

end Event

namespace Load

variable {κ π σ : Type} {tools : Toolset κ π σ} {types : AssetTypes κ}

end Load

namespace State

/-- What was invalidated is dirty. -/
theorem dirty_foldl_invalidate {id : AssetId} (ids : List AssetId) {graph : AssetGraph}
    (h : id ∈ ids ∨ ∀ asset, graph.get? id = some asset → asset.dirty = true) :
    ∀ asset, (ids.foldl (fun graph id => graph.update id Asset.invalidate) graph).get? id = some asset →
      asset.dirty = true := by
  induction ids generalizing graph with
  | nil => exact h.resolve_left List.not_mem_nil
  | cons other rest ih =>
    apply ih
    by_cases hother : id = other
    · subst hother
      right
      intro asset hget
      rw [AssetGraph.get?_update_self] at hget
      obtain ⟨before, -, rfl⟩ := Option.map_eq_some_iff.1 hget
      rfl
    · refine h.imp (fun hmem => (List.mem_cons.1 hmem).resolve_left hother) fun hdirty asset hget => ?_
      rw [AssetGraph.get?_update_of_ne hother] at hget
      exact hdirty asset hget

/-- After the first pass, nothing in a batch is loaded. -/
theorem isLoaded_drain {state : State} {id : AssetId} (h : id ∈ (state.drain true).1) :
    (state.drain true).2.isLoaded id = false := by
  unfold isLoaded
  cases hget : (state.drain true).2.graph.get? id with
  | none => rfl
  | some asset => simp [dirty_foldl_invalidate (state.drain true).1 (.inl h) asset hget]

end State

namespace Pass

variable {κ π σ : Type} {tools : Toolset κ π σ} {types : AssetTypes κ}

end Pass
end Build
end ModuleBundler
