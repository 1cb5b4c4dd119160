import ModuleBundler.Proofs.Build.Stepping

/-!
# Where paths lead

The index of the asset graph leads from a path to the asset that has to be loaded
again when the file changes: the path is the identity of that asset, or its file was
put into it.  Every step of a build keeps the index in order: each path in it leads
to a live asset, and only live assets wait in the queue.  When assets are unloaded,
exactly the paths that led to them are released.

Main results:

- Theorem {lit}`AssetGraph.released_iff`: a removed asset releases the paths that led to it.
- Theorem {lit}`State.unload_releases`: unloading releases the paths that led to orphans.
- Theorem {lit}`Step.routed`: every step keeps the index in order.
- Theorem {lit}`Session.Trail.routed`: the index is in order at every moment of a session.
-/

namespace ModuleBundler

namespace AssetGraph

/-! ## Graphs -/

/-- Whether every path in the index leads to a live asset. -/
def Routed (graph : AssetGraph) : Prop :=
  ∀ p id, graph.index.get? p = some id → graph.IsLive id

theorem routed_empty : empty.Routed := by
  intro p id h
  cases h

/-- A graph with the same index and the same live assets is routed as well. -/
theorem Routed.of_same {old new : AssetGraph} (h : old.Routed) (hindex : new.index = old.index)
    (hlive : ∀ id, old.IsLive id → new.IsLive id) : new.Routed := by
  intro p id hget
  rw [hindex] at hget
  exact hlive id (h p id hget)

theorem Routed.update {graph : AssetGraph} (h : graph.Routed) (id : AssetId) (change : Asset → Asset) :
    (graph.update id change).Routed :=
  h.of_same rfl fun _ => (isLive_update _ _ _ _).2

/-- A new asset is live, and so is whatever a path has led to before. -/
theorem Routed.insert {graph : AssetGraph} (h : graph.Routed) (p : Path) (kind : Kind)
    (package : Package) : (graph.insert p kind package).2.Routed := by
  unfold AssetGraph.insert
  split
  · exact h
  · intro q id hget
    cases hsame : p == q with
    | true =>
      rw [show (graph.add p kind package).index.get? q = some ⟨graph.size⟩ from
        Path.Map.get?_put_self hsame graph.index _] at hget
      cases hget
      exact ⟨_, by rw [get?_add, if_pos rfl]⟩
    | false =>
      rw [show (graph.add p kind package).index.get? q = graph.index.get? q from
        Path.Map.get?_put_of_ne hsame graph.index _] at hget
      obtain ⟨asset, hasset⟩ := h _ _ hget
      have hlt := lt_size_of_get? hasset
      exact ⟨asset, by rw [get?_add, if_neg (by omega), hasset]⟩

/-- An alias leads to its owner. -/
theorem Routed.makeAlias {graph : AssetGraph} (h : graph.Routed) (p : Path) {owner : AssetId}
    (hlive : graph.IsLive owner) : (graph.makeAlias p owner).2.Routed := by
  have hkeep : ∀ id, graph.IsLive id → (graph.makeAlias p owner).2.IsLive id :=
    fun id ⟨asset, hget⟩ => ⟨asset, by rw [get?_makeAlias, hget]⟩
  intro q id hget
  apply hkeep
  unfold AssetGraph.makeAlias at hget
  split at hget
  · exact h q id hget
  · cases hsame : p == q with
    | true =>
      rw [Path.Map.get?_put_self hsame] at hget
      cases hget
      exact hlive
    | false =>
      rw [Path.Map.get?_put_of_ne hsame] at hget
      exact h q id hget

/-- After a removal the paths that led to the asset lead nowhere, and all others lead where they led. -/
theorem Routed.index_remove {graph : AssetGraph} (h : graph.Routed) (id : AssetId) (q : Path) :
    (graph.remove id).2.index.get? q = (graph.index.get? q).filter (· != id) := by
  cases hlive : graph.get? id with
  | some asset => exact index_remove_of_isLive ⟨asset, hlive⟩ q
  | none =>
    rw [remove_of_get?_none hlive]
    cases hget : graph.index.get? q with
    | none => rfl
    | some other =>
      have hne : other ≠ id := by
        rintro rfl
        obtain ⟨asset, hasset⟩ := h _ _ hget
        rw [hlive] at hasset
        cases hasset
      simp [Option.filter, hne]

theorem Routed.remove {graph : AssetGraph} (h : graph.Routed) (id : AssetId) :
    (graph.remove id).2.Routed := by
  intro q other hget
  rw [h.index_remove] at hget
  obtain ⟨hget, hne⟩ := Option.filter_eq_some_iff.1 hget
  obtain ⟨asset, hasset⟩ := h _ _ hget
  exact ⟨asset, by rw [get?_remove_of_ne (by simpa using hne), hasset]⟩

/-- A removed asset releases exactly the paths that led to it. -/
theorem released_iff {graph : AssetGraph} (h : graph.Routed) (id : AssetId) (q : Path) :
    (∃ p ∈ (graph.remove id).1, (p == q) = true) ↔ graph.index.get? q = some id := by
  cases hlive : graph.get? id with
  | some asset => exact released_iff_of_isLive ⟨asset, hlive⟩ q
  | none =>
    rw [remove_of_get?_none hlive]
    simp only [List.not_mem_nil, false_and, exists_false, false_iff]
    intro hget
    obtain ⟨asset, hasset⟩ := h _ _ hget
    rw [hlive] at hasset
    cases hasset

end AssetGraph

namespace Build

variable {κ π σ : Type}

/-! ## States -/

namespace State

/-- Whether the index of a state is in order. -/
structure Routed (state : State) : Prop where
  indexed : state.graph.Indexed
  /-- Every path leads to a live asset. -/
  routed : state.graph.Routed
  /-- Only live assets wait. -/
  waiting : ∀ id ∈ state.queue, state.graph.IsLive id

theorem routed_empty : Routed {} where
  indexed := AssetGraph.indexed_empty
  routed := AssetGraph.routed_empty
  waiting _ h := by cases h

/-- Changes of assets that leave their modules alone keep the index in order. -/
theorem Routed.update {state : State} (h : state.Routed) (id : AssetId) {change : Asset → Asset}
    (hmodule : Asset.KeepsModule change) :
    Routed { state with graph := state.graph.update id change } where
  indexed := AssetGraph.indexed_update h.indexed id hmodule
  routed := h.routed.update id change
  waiting other hmem := (AssetGraph.isLive_update _ _ _ _).2 (h.waiting other hmem)

/-- An asset that is live can wait. -/
theorem Routed.enqueue {state : State} (h : state.Routed) {id : AssetId} (hlive : state.graph.IsLive id) :
    (state.enqueue id).Routed where
  indexed := h.indexed
  routed := h.routed
  waiting other hmem := by
    rcases mem_includeLast_iff.1 hmem with hmem | rfl
    · exact h.waiting other hmem
    · exact hlive

theorem Routed.notify {state : State} (h : state.Routed) (p : Path) : (state.notify p).2.Routed := by
  unfold State.notify
  split
  · rename_i id howner
    refine h.enqueue ?_
    exact AssetGraph.isLive_iff_isSome.2 (Option.filter_eq_some_iff.1 howner).2
  · exact h

/-- Taking everything off the queue keeps the index in order. -/
theorem Routed.drain {state : State} (h : state.Routed) (invalidate : Bool) :
    (state.drain invalidate).2.Routed := by
  have hempty : Routed { state with queue := [] } :=
    ⟨h.indexed, h.routed, fun _ hmem => by cases hmem⟩
  exact State.graph_drain (fun graph => Routed { state with graph, queue := [] }) invalidate
    (fun id _ h => h.update id {}) hempty

theorem Routed.insert {state : State} (h : state.Routed) (p : Path) (kind : Kind) (package : Package) :
    Routed { state with graph := (state.graph.insert p kind package).2 } where
  indexed := AssetGraph.indexed_insert h.indexed p kind package
  routed := h.routed.insert p kind package
  waiting id hmem := by
    obtain ⟨asset, hget⟩ := h.waiting id hmem
    exact ⟨asset, AssetGraph.get?_insert_of_get? hget _ _ _⟩

theorem Routed.makeAlias {state : State} (h : state.Routed) (p : Path) {owner : AssetId}
    (hlive : state.graph.IsLive owner) :
    Routed { state with graph := (state.graph.makeAlias p owner).2 } where
  indexed := AssetGraph.indexed_makeAlias h.indexed p owner
  routed := h.routed.makeAlias p hlive
  waiting id hmem := by
    obtain ⟨asset, hget⟩ := h.waiting id hmem
    exact ⟨asset, by rw [AssetGraph.get?_makeAlias, hget]⟩

/-- A graph with the same content is in the same order. -/
theorem Routed.content {state : State} (h : state.Routed) {graph : AssetGraph}
    (hcontent : state.graph.SameContent graph) : Routed { state with graph } where
  indexed := hcontent.indexed h.indexed
  routed := h.routed.of_same hcontent.index fun id => (hcontent.isLive_iff id).2
  waiting id hmem := (hcontent.isLive_iff id).2 (h.waiting id hmem)

/-- Unloading one asset keeps the index in order. -/
theorem Routed.discard {unloaded : List Path × State} (h : unloaded.2.Routed) (id : AssetId) :
    (State.discard unloaded id).2.Routed where
  indexed := AssetGraph.indexed_remove h.indexed id
  routed := h.routed.remove id
  waiting other hmem := by
    obtain ⟨hmem, hne⟩ := List.mem_filter.1 hmem
    obtain ⟨asset, hget⟩ := h.waiting other hmem
    exact ⟨asset, by
      rw [State.discard, AssetGraph.get?_remove_of_ne (by simpa using hne), hget]⟩

/-- What has been released while assets were unloaded one after another, and what is left of the index. -/
theorem foldl_discard_releases (ids : List AssetId) {unloaded : List Path × State}
    (h : unloaded.2.Routed) (q : Path) :
    (ids.foldl discard unloaded).2.Routed ∧
      ((∃ p ∈ (ids.foldl discard unloaded).1, (p == q) = true) ↔
        (∃ p ∈ unloaded.1, (p == q) = true) ∨ ∃ id ∈ ids, unloaded.2.graph.index.get? q = some id) ∧
      (ids.foldl discard unloaded).2.graph.index.get? q =
        (unloaded.2.graph.index.get? q).filter (· ∉ ids) := by
  induction ids generalizing unloaded with
  | nil =>
    refine ⟨h, by simp, ?_⟩
    cases hget : unloaded.2.graph.index.get? q <;> simp [Option.filter, hget]
  | cons id rest ih =>
    obtain ⟨hrouted, hreleased, hindex⟩ := ih (h.discard id)
    have hfirst : (discard unloaded id).2.graph.index.get? q =
        (unloaded.2.graph.index.get? q).filter (· != id) := h.routed.index_remove id q
    have hpaths : (∃ p ∈ (discard unloaded id).1, (p == q) = true) ↔
        (∃ p ∈ unloaded.1, (p == q) = true) ∨ unloaded.2.graph.index.get? q = some id := by
      rw [← AssetGraph.released_iff h.routed id q]
      simp only [discard, List.mem_append, or_and_right, exists_or]
    refine ⟨hrouted, ?_, ?_⟩
    · rw [List.foldl_cons, hreleased, hpaths, hfirst]
      cases hget : unloaded.2.graph.index.get? q with
      | none => simp
      | some other =>
        by_cases hother : other = id
        · simp [Option.filter, hother]
        · simp [Option.filter, hother]
    · rw [List.foldl_cons, hindex, hfirst]
      cases hget : unloaded.2.graph.index.get? q with
      | none => simp
      | some other =>
        by_cases hother : other = id
        · simp [Option.filter, hother]
        · simp [Option.filter, hother]

/-- Unloading releases exactly the paths that led to orphans; all others lead where they led. -/
theorem unload_releases {state : State} (h : state.Routed) (q : Path) :
    state.unload.2.Routed ∧
      ((∃ p ∈ state.unload.1, (p == q) = true) ↔
        ∃ id ∈ state.graph.orphans, state.graph.index.get? q = some id) ∧
      state.unload.2.graph.index.get? q = (state.graph.index.get? q).filter (· ∉ state.graph.orphans) := by
  have hstart : State.Routed (([], state) : List Path × State).2 := h
  have hunload := foldl_discard_releases state.graph.orphans hstart q
  rw [← unload_eq] at hunload
  refine ⟨hunload.1, ?_, hunload.2.2⟩
  rw [hunload.2.1]
  simp

end State

/-! ## Recording imports -/

namespace Work

/-- Recording the imports of a live asset keeps the index in order. -/
theorem recordAll_routed (tools : Toolset κ π σ) (types : AssetTypes κ) {id : AssetId}
    (modules : List (Dependency × Lookup.Modules.Resolved)) {work : Work σ} (h : work.state.Routed)
    (hlive : work.state.graph.IsLive id) :
    (recordAll tools types id modules work).2.state.Routed := by
  induction modules generalizing work with
  | nil => exact h
  | cons found rest ih =>
    have hrecord : (work.record tools types id found).2.state.Routed := by
      rcases record_cases tools types id found work with ⟨-, hstate⟩ | ⟨-, hstate⟩
      · rw [hstate]
        exact h.makeAlias _ hlive
      · rw [hstate]
        exact (h.insert _ _ _).update id {}
    exact ih hrecord (recordAll_growing (AssetGraph.growing_isLive types id) tools id [found] hlive)

end Work

/-! ## Steps -/

/-- Every step keeps the index in order. -/
theorem Step.routed {tools : Toolset κ π σ} {outside : Outside σ} {work : Work σ} {moment : Moment σ}
    (h : Step tools outside work moment) (hrouted : work.state.Routed) : moment.work.state.Routed := by
  cases h with
  | begun hstate _ => exact hstate ▸ hrouted
  | asked hstate _ => exact hstate ▸ hrouted
  | noticed p =>
    have hnotify := hrouted.notify p
    show (work.notify p).2.state.Routed
    unfold Work.notify
    cases hcase : work.state.notify p with
    | mk accepted state =>
      rw [hcase] at hnotify
      cases accepted with
      | none => exact hrouted
      | some id => exact hnotify
  | taken invalidate => exact hrouted.drain invalidate
  | claimed hclaim =>
    obtain ⟨-, -, hclaimed⟩ := State.of_claim (Load.of_claim hclaim).1
    rw [hclaimed]
    exact hrouted.update _ {}
  | kept unit _ => exact hrouted.update _ {}
  | recorded types modules hlive => exact Work.recordAll_routed tools types modules hrouted hlive
  | returned hlive =>
    exact (hrouted.update _ {}).enqueue ((AssetGraph.isLive_update _ _ _ _).2 hlive)
  | entered types module =>
    obtain ⟨hid, hstate⟩ := work.enter_eq tools types module
    have hinserted := hrouted.insert module.path (types.kindOf module.path) module.package
    rw [← hstate] at hinserted
    have hlive : (work.enter tools types module).2.state.graph.IsLive
        (work.enter tools types module).1 := by
      rw [hid, hstate]
      rcases AssetGraph.insert_cases hrouted.indexed module.path (types.kindOf module.path) module.package
        with ⟨id, asset, hget, -, heq⟩ | ⟨-, heq⟩
      · rw [heq]
        exact ⟨asset, hget⟩
      · rw [heq]
        exact ⟨_, by rw [AssetGraph.get?_add, if_pos rfl]⟩
    have hstarted : State.Routed { (work.enter tools types module).2.state with
        start := some (work.enter tools types module).1 } :=
      ⟨hinserted.indexed, hinserted.routed, hinserted.waiting⟩
    exact hstarted.enqueue hlive
  | sent assets => exact hrouted
  | laidOut outDir start =>
    exact hrouted.content (work.state.graph.sameContent_withoutPlace.trans
      (Layout.sameContent_ofGraph (work.state.graph.updateAll Asset.withoutPlace) outDir start))
  | written _ => exact hrouted
  | finished hashes =>
    have hremembered : State.Routed { work.state with fingerprints := some hashes } :=
      ⟨hrouted.indexed, hrouted.routed, hrouted.waiting⟩
    exact (State.unload_releases hremembered ⟨""⟩).1
  | edited _ => exact hrouted
  | closed _ => exact hrouted

/-- The index is in order at every moment of a session. -/
theorem Session.Trail.routed {outside : Outside σ} {session : Session κ π σ} {trail : List (Moment σ)}
    (h : session.Trail outside trail) :
    (∀ moment ∈ trail, moment.work.state.Routed) ∧ session.work.state.Routed := by
  obtain ⟨world, -, hlinked⟩ := h.linked
  exact hlinked.always (fun work => work.state.Routed) (fun _ => True)
    (fun hwork hstep _ => hstep.routed hwork) (fun _ _ => trivial) State.routed_empty

end Build
end ModuleBundler
