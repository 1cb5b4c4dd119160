import ModuleBundler.Build.Session
import ModuleBundler.Proofs.Build.Loading
import ModuleBundler.Proofs.Build.Order
import ModuleBundler.Proofs.Build.Steady
import ModuleBundler.Proofs.Bundle.Reachability

/-!
# Consistency of builds

Between two passes the assets of a build are in order: whoever is dirty waits in
the queue, whoever is not has output, and imports lead to live assets.  That holds
however the passes ended and whenever changes were reported, because every step
of a pass keeps the assets in order.

Main results:

- Theorem {lit}`Load.orderly_invariant`: loading keeps the assets in order.
- Theorem {lit}`State.Orderly.unload`: unloading leaves no import that leads nowhere.
- Theorem {lit}`Session.History.consistent`: every session is consistent between passes, and no asset is
  dirty when bundles are laid out.
-/

namespace ModuleBundler
namespace Build

/-! ## Loading -/

namespace Work

variable {κ π σ : Type}

/-- Entering a module inserts it into the graph. -/
theorem enter_eq (tools : Toolset κ π σ) (types : AssetTypes κ) (work : Work σ)
    (module : Lookup.Modules.Resolved) :
    (work.enter tools types module).1 =
        (work.state.graph.insert module.path (types.kindOf module.path) module.package).1.1 ∧
      (work.enter tools types module).2.state =
        { work.state with
          graph := (work.state.graph.insert module.path (types.kindOf module.path) module.package).2 } := by
  unfold enter
  split
  · rename_i id graph heq
    simp [heq]
  · rename_i id graph heq
    simp [heq]

/-- Putting a file into an asset makes at most an alias. -/
theorem inline_eq (tools : Toolset κ π σ) (work : Work σ) (id : AssetId) (p : Path) :
    (work.inline tools id p).state =
      { work.state with graph := (work.state.graph.makeAlias p id).2 } := by
  unfold inline
  cases hnamed : work.state.graph.named? p with
  | some asset => simp [AssetGraph.makeAlias, hnamed]
  | none => simp [AssetGraph.makeAlias, hnamed]

/-- Recording an import enters its module, to which the specifier leads from then on. -/
theorem record_eq (tools : Toolset κ π σ) (types : AssetTypes κ) (id : AssetId)
    {link : Dependency × Lookup.Modules.Resolved} (hseparate : link.1.inlined = false) (work : Work σ) :
    (work.record tools types id link).1 =
        [(work.state.graph.insert link.2.path (types.kindOf link.2.path) link.2.package).1.1] ∧
      (work.record tools types id link).2.state = State.connect
        { work.state with
          graph := (work.state.graph.insert link.2.path (types.kindOf link.2.path) link.2.package).2 }
        id link.1 (work.state.graph.insert link.2.path (types.kindOf link.2.path) link.2.package).1.1 := by
  obtain ⟨hid, hstate⟩ := work.enter_eq tools types link.2
  unfold record
  simp only [hseparate, Bool.false_eq_true, if_false]
  rw [hid, hstate]
  exact ⟨rfl, rfl⟩

/-- Recording an import makes at most an alias if the file is put into the asset, and enters its module
otherwise. -/
theorem record_cases (tools : Toolset κ π σ) (types : AssetTypes κ) (id : AssetId)
    (link : Dependency × Lookup.Modules.Resolved) (work : Work σ) :
    (link.1.inlined = true ∧ (work.record tools types id link).2.state =
      { work.state with graph := (work.state.graph.makeAlias link.2.path id).2 }) ∨
    (link.1.inlined = false ∧ (work.record tools types id link).2.state = State.connect
      { work.state with
        graph := (work.state.graph.insert link.2.path (types.kindOf link.2.path) link.2.package).2 }
      id link.1 (work.state.graph.insert link.2.path (types.kindOf link.2.path) link.2.package).1.1) := by
  cases hinlined : link.1.inlined with
  | true =>
    unfold record
    rw [if_pos hinlined]
    exact .inl ⟨rfl, inline_eq _ _ _ _⟩
  | false => exact .inr ⟨rfl, (record_eq tools types id hinlined work).2⟩

/-- Recording imports changes nothing but the graph. -/
theorem state_recordAll (tools : Toolset κ π σ) (types : AssetTypes κ) (id : AssetId)
    (modules : List (Dependency × Lookup.Modules.Resolved)) (work : Work σ) :
    ∃ graph, (recordAll tools types id modules work).2.state = { work.state with graph } := by
  have hrecord : ∀ (found : Dependency × Lookup.Modules.Resolved) (work : Work σ),
      ∃ graph, (work.record tools types id found).2.state = { work.state with graph } := by
    intro found work
    rcases record_cases tools types id found work with ⟨-, hstate⟩ | ⟨-, hstate⟩
    · exact ⟨_, hstate⟩
    · exact ⟨_, hstate⟩
  induction modules generalizing work with
  | nil => exact ⟨_, rfl⟩
  | cons found rest ih =>
    obtain ⟨first, hfirst⟩ := hrecord found work
    obtain ⟨last, hlast⟩ := ih (work.record tools types id found).2
    refine ⟨last, hlast.trans ?_⟩
    rw [hfirst]

/-- Recording an import keeps the assets in order; the child is still to be loaded. -/
theorem record_orderly (tools : Toolset κ π σ) (types : AssetTypes κ) (id : AssetId)
    (found : Dependency × Lookup.Modules.Resolved) {late pending : List AssetId} {work : Work σ}
    (h : work.state.Orderly late pending) :
    (work.record tools types id found).2.state.Orderly late
      ((work.record tools types id found).1 ++ pending) := by
  unfold record
  split
  · rw [List.nil_append, inline_eq]
    exact h.makeAlias _ _
  · obtain ⟨horderly, hlive⟩ :=
      h.insert found.2.path (types.kindOf found.2.path) found.2.package
    obtain ⟨hid, hstate⟩ := work.enter_eq tools types found.2
    rw [← hid, ← hstate] at horderly
    rw [← hid] at hlive
    have hlive' : (work.enter tools types found.2).2.state.graph.IsLive
        (work.enter tools types found.2).1 := by
      rw [hstate]
      exact hlive
    exact horderly.connect id found.1 hlive'

/-- Recording the imports of an asset keeps the assets in order; the children are still to be loaded. -/
theorem recordAll_orderly (tools : Toolset κ π σ) (types : AssetTypes κ) (id : AssetId)
    (modules : List (Dependency × Lookup.Modules.Resolved)) {late pending : List AssetId} {work : Work σ}
    (h : work.state.Orderly late pending) :
    (recordAll tools types id modules work).2.state.Orderly late
      ((recordAll tools types id modules work).1 ++ pending) := by
  induction modules generalizing work pending with
  | nil => exact h
  | cons found rest ih =>
    have hrest := ih (work.record_orderly tools types id found h)
    refine hrest.mono (fun _ hmem => hmem) fun other hmem => ?_
    simp only [recordAll, List.mem_append] at hmem ⊢
    rcases hmem with hchildren | hchild | hpending
    · exact .inl (.inr hchildren)
    · exact .inl (.inl hchild)
    · exact .inr hpending

end Work

namespace Load

variable {κ π σ : Type}

/-- Claiming an asset claims it in the state, and does nothing to the world. -/
theorem of_claim {work claimed : Work σ} {id : AssetId} {asset : Asset}
    (h : claim work id = some (asset, claimed)) :
    work.state.claim id = some (asset, claimed.state) ∧ claimed.world = work.world := by
  obtain ⟨⟨asset', state'⟩, hstate, heq⟩ := Option.map_eq_some_iff.1 h
  cases heq
  exact ⟨hstate, rfl⟩

section

variable {tools : Toolset κ π σ} {now : σ → Prop} {answers : Answers κ} (hanswering : Answering tools now answers)
  {types : AssetTypes κ} {work claimed : Work σ} {id : AssetId} {asset : Asset} (hnow : now work.world)
  (hclaim : claim work id = some (asset, claimed))
include hanswering hnow hclaim

/-- An asset that was claimed and does not become ready stands for the same module as before, and the other
assets are left alone. -/
theorem unready_spec (hunready : ∀ children, (claimed.prepare tools types id asset).1 ≠ .ready children) :
    now (claimed.prepare tools types id asset).2.world ∧ ∃ change, Asset.KeepsModule change ∧
      (claimed.prepare tools types id asset).2.state =
        { work.state with graph := work.state.graph.update id change } := by
  obtain ⟨hstate, hworld⟩ := of_claim hclaim
  obtain ⟨-, -, hclaimed⟩ := State.of_claim hstate
  obtain ⟨hnext, hcases⟩ := hanswering.prepare_spec types (hworld ▸ hnow) id asset
  refine ⟨hnext, ?_⟩
  rcases hcases with ⟨unit, modules, before, -, -, -, hready⟩ | ⟨-, hsame | ⟨unit, hkept⟩, -⟩
  · rw [hready] at hunready
    exact absurd rfl (hunready _)
  · exact ⟨_, {}, hsame.trans hclaimed⟩
  · refine ⟨_, Asset.keepsModule_withOutput unit, hkept.trans ?_⟩
    rw [hclaimed, State.keep, AssetGraph.update_update]
    rfl

/-- An asset becomes ready if it compiles and its imports lead somewhere. -/
theorem exists_ready {unit : CompiledUnit} {modules : List (Dependency × Lookup.Modules.Resolved)}
    (hreadies : answers.Readies types asset unit modules) :
    ∃ children next, claimed.prepare tools types id asset = (.ready children, next) := by
  obtain ⟨-, hworld⟩ := of_claim hclaim
  obtain ⟨-, hcases⟩ := hanswering.prepare_spec types (hworld ▸ hnow) id asset
  rcases hcases with ⟨unit', modules', before, -, -, -, hready⟩ | ⟨-, -, hnever⟩
  · exact ⟨_, _, hready⟩
  · exact absurd hreadies (hnever unit modules)

/-- An asset that was claimed and becomes ready has its output, and then its imports are recorded. -/
theorem ready_spec {next : Work σ} {children : List AssetId}
    (hprepare : claimed.prepare tools types id asset = (.ready children, next)) :
    now next.world ∧ ∃ unit modules before, answers.Readies types asset unit modules ∧
      before.state = { work.state with graph := work.state.graph.update id (Asset.withOutput unit) } ∧
        before.state.graph.get? id = some (asset.withOutput unit) ∧
          (Work.recordAll tools types id modules before).1 = children ∧
            (Work.recordAll tools types id modules before).2 = next := by
  obtain ⟨hstate, hworld⟩ := of_claim hclaim
  obtain ⟨hget, -, hclaimed⟩ := State.of_claim hstate
  obtain ⟨hnext, hcases⟩ := hanswering.prepare_spec types (hworld ▸ hnow) id asset
  rw [hprepare] at hnext hcases
  refine ⟨hnext, ?_⟩
  rcases hcases with ⟨unit, modules, before, hreadies, hkept, -, hready⟩ | ⟨hunready, -⟩
  · have hbefore : before.state =
        { work.state with graph := work.state.graph.update id (Asset.withOutput unit) } := by
      rw [hkept, hclaimed, State.keep, AssetGraph.update_update]
      rfl
    refine ⟨unit, modules, before, hreadies, hbefore, ?_, ?_, ?_⟩
    · rw [hbefore, AssetGraph.get?_update_self, hget]
      rfl
    · exact (Work.Preparation.ready.inj (congrArg Prod.fst hready)).symm
    · exact (congrArg Prod.snd hready).symm
  · exact absurd rfl (hunready _)

end

/-- What holds of a state and is preserved by all that loading does to it is an invariant. -/
theorem Invariant.of_state {tools : Toolset κ π σ} {types : AssetTypes κ} (holds : State → Prop)
    (hnotices : ∀ {old new : State}, old.Notices new → holds old → holds new)
    (hclaim : ∀ {old new : State} {id : AssetId} {asset : Asset}, old.claim id = some (asset, new) →
      holds old → holds new)
    (hkeep : ∀ {state : State} (id : AssetId) (unit : CompiledUnit), holds state → holds (state.keep id unit))
    (hrecord : ∀ {work : Work σ} (id : AssetId) (modules : List (Dependency × Lookup.Modules.Resolved)),
      holds work.state → holds (Work.recordAll tools types id modules work).2.state)
    (hback : ∀ {state : State} (id : AssetId), holds state → holds (state.giveBack id)) :
    Invariant tools types fun _ _ work => holds work.state where
  mono _ h := h
  pass h _ := h
  unready h hclaimed hunready := by
    have hholds := hclaim (of_claim hclaimed).1 h
    rcases Work.prepare_unready_cases hunready with hafter | ⟨state, unit, hbefore, hafter⟩
    · exact hnotices hafter hholds
    · exact hnotices hafter (hkeep _ unit (hnotices hbefore hholds))
  ready {_ _ _ id _ _ _ _} h hclaimed hprepare := by
    have hholds := hclaim (of_claim hclaimed).1 h
    obtain ⟨state, unit, modules, found, hbefore, hafter, hrecorded⟩ := Work.prepare_ready_cases hprepare
    have hall := hrecord id modules (hnotices hafter (hkeep id unit (hnotices hbefore hholds)))
    rwa [hrecorded] at hall
  back h := hback _ h
  settle h := hback _ h

/-- Loading keeps the assets in order. -/
theorem orderly_invariant (tools : Toolset κ π σ) (types : AssetTypes κ) :
    Invariant tools types fun late pending work => work.state.Orderly late pending where
  mono hlate h := h.mono hlate fun _ hmem => hmem
  pass h hclaim := h.pass (by simpa [claim] using hclaim)
  unready h hclaim hunready := by
    have hclaimed := h.claim (of_claim hclaim).1
    rcases Work.prepare_unready_cases hunready with hnotices | ⟨state, unit, hbefore, hafter⟩
    · exact hclaimed.notices hnotices
    · refine ((hclaimed.notices hbefore).keep unit).notices hafter |>.mono ?_ fun _ hmem => hmem
      exact fun _ hmem => List.mem_cons_of_mem _ hmem
  ready {_ _ _ id _ _ _ _} h hclaim hprepare := by
    have hclaimed := h.claim (of_claim hclaim).1
    obtain ⟨state, unit, modules, found, hbefore, hafter, hrecorded⟩ := Work.prepare_ready_cases hprepare
    have horderly := Work.recordAll_orderly tools types id modules
      (((hclaimed.notices hbefore).keep unit).notices hafter)
    rwa [hrecorded] at horderly
  back h := (h.mono (fun _ hmem => List.mem_cons_of_mem _ hmem) fun _ hmem => hmem).giveBack
  settle h := h.giveBack

end Load

/-! ## Taking batches off the queue -/

namespace State

/-- Whether no live asset is dirty. -/
def Clean (state : State) : Prop :=
  ∀ id asset, state.graph.get? id = some asset → asset.dirty = false

theorem Clean.notices {state state' : State} (h : state.Clean) (hnotices : state.Notices state') :
    state'.Clean := by
  intro id asset hget
  rw [hnotices.graph] at hget
  exact h id asset hget

/-- When nothing waits and nothing is to be loaded, nothing is dirty. -/
theorem Orderly.clean {state : State} {late : List AssetId} (h : state.Orderly late [])
    (hqueue : state.queue = []) : state.Clean := by
  intro id asset hget
  cases hdirty : asset.dirty with
  | false => rfl
  | true =>
    rcases h.waits hget hdirty with hmem | hmem
    · rw [hqueue] at hmem
      cases hmem
    · cases hmem

/-- What holds of a graph and is preserved when an asset of a batch is invalidated holds when the batch was
taken off the queue. -/
theorem graph_drain (holds : AssetGraph → Prop) {state : State} (invalidate : Bool)
    (hinvalidate : ∀ {graph : AssetGraph}, ∀ id ∈ (state.drain invalidate).1, holds graph →
      holds (graph.update id Asset.invalidate))
    (h : holds state.graph) : holds (state.drain invalidate).2.graph := by
  have hfold : ∀ (ids : List AssetId) {graph : AssetGraph}, (∀ id ∈ ids, id ∈ (state.drain invalidate).1) →
      holds graph → holds (ids.foldl (fun graph id => graph.update id Asset.invalidate) graph) := by
    intro ids
    induction ids with
    | nil => exact fun _ h => h
    | cons id rest ih =>
      exact fun hids h => ih (fun other hmem => hids other (List.mem_cons_of_mem _ hmem))
        (hinvalidate id (hids id List.mem_cons_self) h)
  unfold State.drain at hfold ⊢
  cases invalidate with
  | false => exact h
  | true => exact hfold _ (fun _ hmem => hmem) h

/-- The assets of a batch are still to be loaded. -/
theorem Orderly.drain {state : State} (h : state.Orderly [] []) (invalidate : Bool) :
    (state.drain invalidate).2.Orderly [] (state.drain invalidate).1 := by
  have htaken : Orderly [] (state.drain invalidate).1 { state with queue := [] } := by
    refine ⟨h.indexed, ?_, h.made, h.leads, h.declared⟩
    intro id asset hget hdirty
    rcases h.waits hget hdirty with hmem | hmem
    · refine .inr (List.mem_filter.2 ⟨hmem, ?_⟩)
      rw [hget]
      rfl
    · cases hmem
  refine graph_drain (fun graph => Orderly [] (state.drain invalidate).1 { state with graph, queue := [] })
    invalidate (fun id hid h => ?_) htaken
  refine h.update id {} (fun _ hmem _ => hmem) (fun _ hmem _ => hmem) ?_ ?_ ?_
  · exact fun _ _ _ => .inr hid
  · intro asset _ hclean
    cases hclean
  · intro asset specifier target _ hresolved
    cases hresolved

end State

namespace Pass

variable {κ π σ : Type}

theorem notices_forgetAll (tools : Toolset κ π σ) (ids : List AssetId) (work : Work σ) :
    work.state.Notices (forgetAll tools ids work).state :=
  Work.notices_ask tools work _

theorem notices_sendUpdate (tools : Toolset κ π σ) (loaded : List AssetId) (work : Work σ) :
    work.state.Notices (sendUpdate tools loaded work).state :=
  Work.notices_ask tools work _

/-- Sending what was loaded changes nothing but the world and the queue. -/
theorem notices_sent (tools : Toolset κ π σ) (first : Bool) (loaded : List AssetId) (work : Work σ) :
    work.state.Notices (sent tools first loaded work).state := by
  unfold sent
  split
  · exact .refl _
  · exact notices_sendUpdate tools loaded work

/-- Loading batches keeps the assets in order; unless it fails, the queue is empty in the end. -/
theorem drain_orderly {tools : Toolset κ π σ} {types : AssetTypes κ} {first : Bool} {depth batches : Nat}
    {loaded : List AssetId} {work next : Work σ} {result : Except Failure (List AssetId)}
    (h : work.state.Orderly [] [])
    (hdrain : drain tools types first depth batches loaded work = some (result, next)) :
    next.state.Orderly [] [] ∧ ∀ ids, result = .ok ids → next.state.queue = [] := by
  refine drain_invariant (Load.orderly_invariant tools types) ?_ ?_ h hdrain
  · exact fun h => h.drain (!first)
  · exact fun ids h => h.notices (notices_forgetAll tools ids _)

/-- Loading what waits keeps the assets in order; unless it fails, no asset is dirty in the end. -/
theorem gather_orderly {tools : Toolset κ π σ} {types : AssetTypes κ} {first : Bool} {depth : Nat}
    {work next : Work σ} {result : Except Failure AssetId} (h : work.state.Orderly [] [])
    (hgather : gather tools types first depth work = some (result, next)) :
    next.state.Orderly [] [] ∧ ∀ start, result = .ok start → next.state.Clean := by
  rcases gather_cases hgather with ⟨failure, rfl, hdrain⟩ | ⟨loaded, drained, hdrain, rfl, -⟩
  · exact ⟨(drain_orderly h hdrain).1, nofun⟩
  · obtain ⟨hdrained, hempty⟩ := drain_orderly h hdrain
    have hsent := notices_sent tools first loaded drained
    exact ⟨hdrained.notices hsent, fun _ _ => (hdrained.clean (hempty _ rfl)).notices hsent⟩

/-- The entry is not found, and then all that has happened is that changes were reported, or the build starts
from it. -/
theorem enter_cases (tools : Toolset κ π σ) (setup : Setup κ π) (work : Work σ) :
    (∃ failure next, enter tools setup work = (.error failure, next) ∧ work.state.Notices next.state) ∨
    ∃ (found : Work σ) (module : Lookup.Modules.Resolved), work.state.Notices found.state ∧
      enter tools setup work =
        (.ok (), { (found.enter tools setup.types module).2 with
          state := State.enqueue
            { (found.enter tools setup.types module).2.state with
              start := some (found.enter tools setup.types module).1 }
            (found.enter tools setup.types module).1 }) := by
  unfold enter
  dsimp only
  cases tools.prepare setup.outDir (work.tell (.opened setup.entry setup.outDir)).world with
  | mk result world =>
    have hprepared :=
      Work.notices_ask tools (work.tell (.opened setup.entry setup.outDir)) world
    cases result with
    | error failure => exact .inl ⟨failure, _, rfl, hprepared⟩
    | ok done =>
      dsimp only
      generalize Work.listen tools ({ work.tell (.opened setup.entry setup.outDir) with world } : Work σ) =
        prepared at hprepared
      have hresolved := hprepared.trans (Work.notices_listen tools
        (({ prepared with world := (tools.resolve setup.entry.text none prepared.world).2 } : Work σ).warn
          (tools.resolve setup.entry.text none prepared.world).1.warnings))
      split
      · exact .inl ⟨_, _, rfl, hresolved⟩
      · exact .inr ⟨_, _, hresolved, rfl⟩

theorem notices_of_enter_error {tools : Toolset κ π σ} {setup : Setup κ π} {work next : Work σ}
    {failure : Failure} (h : enter tools setup work = (.error failure, next)) :
    work.state.Notices next.state := by
  rcases enter_cases tools setup work with ⟨failure, failed, heq, hnotices⟩ | ⟨found, module, -, heq⟩
  · cases h.symm.trans heq
    exact hnotices
  · cases h.symm.trans heq

theorem enter_ok_cases {tools : Toolset κ π σ} {setup : Setup κ π} {work next : Work σ}
    (h : enter tools setup work = (.ok (), next)) :
    ∃ (found : Work σ) (module : Lookup.Modules.Resolved), work.state.Notices found.state ∧
      next = { (found.enter tools setup.types module).2 with
        state := State.enqueue
          { (found.enter tools setup.types module).2.state with
            start := some (found.enter tools setup.types module).1 }
          (found.enter tools setup.types module).1 } := by
  rcases enter_cases tools setup work with ⟨failure, failed, heq, -⟩ | ⟨found, module, hnotices, heq⟩
  · cases h.symm.trans heq
  · exact ⟨found, module, hnotices, (Prod.mk.inj (h.symm.trans heq)).2⟩

/-- Finding the entry keeps the assets in order. -/
theorem enter_orderly (tools : Toolset κ π σ) (setup : Setup κ π) {work : Work σ}
    (h : work.state.Orderly [] []) : (enter tools setup work).2.state.Orderly [] [] := by
  rcases enter_cases tools setup work with ⟨failure, next, heq, hnotices⟩ | ⟨found, module, hnotices, heq⟩
  · rw [heq]
    exact h.notices hnotices
  · rw [heq]
    obtain ⟨horderly, -⟩ :=
      (h.notices hnotices).insert module.path (setup.types.kindOf module.path) module.package
    obtain ⟨hid, hstate⟩ := found.enter_eq tools setup.types module
    rw [← hid, ← hstate] at horderly
    apply State.Orderly.enqueue
    exact ⟨horderly.indexed, horderly.waits, horderly.made, horderly.leads, horderly.declared⟩

/-- A pass up to the layout keeps the assets in order; unless it fails, no asset is dirty in the end. -/
theorem assemble_orderly {tools : Toolset κ π σ} {setup : Setup κ π} {depth : Nat} {work next : Work σ}
    {result : Except Failure AssetId} (h : work.state.Orderly [] [])
    (hassemble : assemble tools setup depth work = some (result, next)) :
    next.state.Orderly [] [] ∧ ∀ start, result = .ok start → next.state.Clean := by
  have hentered := enter_orderly tools setup h
  rcases assemble_cases hassemble with ⟨failure, -, rfl, henter⟩ | ⟨entered, -, henter, hgather⟩ |
    ⟨start, -, hgather⟩
  · rw [henter] at hentered
    exact ⟨hentered, nofun⟩
  · rw [henter] at hentered
    exact gather_orderly hentered hgather
  · exact gather_orderly h hgather

end Pass

/-! ## The end of a pass -/

namespace State

/-- Graphs with the same content are in the same order. -/
theorem Orderly.content {state : State} {late pending : List AssetId} (h : state.Orderly late pending)
    {graph : AssetGraph} (hcontent : state.graph.SameContent graph) :
    Orderly late pending { state with graph } := by
  -- what matters about an asset was the same before
  have hbefore : ∀ {id : AssetId} {asset : Asset}, graph.get? id = some asset →
      ∃ before, state.graph.get? id = some before ∧ before.dirty = asset.dirty ∧
        before.compiled = asset.compiled ∧ before.hash = asset.hash ∧
        before.resolved = asset.resolved ∧ before.declares = asset.declares := by
    intro id asset hget
    obtain ⟨before, hbefore, hsame⟩ := hcontent.symm.exists_get? hget
    have heq : ∀ {α : Type} {f : Asset → α}, (∀ asset, f asset.withoutPlace = f asset) →
        f before = f asset := fun hf => Asset.eq_of_withoutPlace hsame hf
    exact ⟨before, hbefore, heq fun _ => rfl, heq fun _ => rfl, heq fun _ => rfl, heq fun _ => rfl,
      heq fun _ => rfl⟩
  refine ⟨hcontent.indexed h.indexed, ?_, ?_, ?_, ?_⟩
  · intro id asset hget hdirty
    obtain ⟨before, hbefore, hsame, -⟩ := hbefore hget
    exact h.waits hbefore (hsame.trans hdirty)
  · intro id asset hget hclean
    obtain ⟨before, hbefore, hsame, hcompiled, hhash, -⟩ := hbefore hget
    rw [← hcompiled, ← hhash]
    exact h.made hbefore (hsame.trans hclean)
  · intro id target asset specifier hget hresolved
    obtain ⟨before, hbefore, -, -, -, hsame, -⟩ := hbefore hget
    rw [← hsame] at hresolved
    exact (hcontent.isLive_iff target).2 (h.leads hbefore hresolved)
  · intro id target asset specifier hget hresolved
    obtain ⟨before, hbefore, -, -, -, hsame, hdeclares⟩ := hbefore hget
    rw [← hsame] at hresolved
    rw [← hdeclares]
    exact h.declared hbefore hresolved

/-- Unload one asset. -/
def discard (unloaded : List Path × State) (id : AssetId) : List Path × State :=
  (unloaded.1 ++ (unloaded.2.graph.remove id).1,
    { unloaded.2 with
      graph := (unloaded.2.graph.remove id).2, queue := unloaded.2.queue.filter (· != id) })

theorem unload_eq (state : State) : state.unload = state.graph.orphans.foldl discard ([], state) := rfl

/-- What is preserved when one asset is unloaded holds when all orphans were unloaded. -/
theorem unload_invariant (holds : State → Prop)
    (hdiscard : ∀ {unloaded : List Path × State} (id : AssetId), holds unloaded.2 →
      holds (discard unloaded id).2)
    {state : State} (h : holds state) : holds state.unload.2 := by
  have hfold : ∀ (ids : List AssetId) {unloaded : List Path × State}, holds unloaded.2 →
      holds (ids.foldl discard unloaded).2 := by
    intro ids
    induction ids with
    | nil => exact fun h => h
    | cons id rest ih => exact fun h => ih (hdiscard id h)
  rw [unload_eq]
  exact hfold _ h

theorem foldl_discard_spec (ids : List AssetId) {unloaded : List Path × State}
    (h : unloaded.2.graph.Indexed) :
    (ids.foldl discard unloaded).2.graph.Indexed ∧
      (∀ id, (ids.foldl discard unloaded).2.graph.get? id =
        if id ∈ ids then none else unloaded.2.graph.get? id) ∧
      (∀ id, id ∈ (ids.foldl discard unloaded).2.queue ↔ id ∈ unloaded.2.queue ∧ id ∉ ids) ∧
      (ids.foldl discard unloaded).2.start = unloaded.2.start ∧
      (ids.foldl discard unloaded).2.fingerprints = unloaded.2.fingerprints := by
  induction ids generalizing unloaded with
  | nil => exact ⟨h, by simp, by simp, rfl, rfl⟩
  | cons first rest ih =>
    have hfirst : (discard unloaded first).2.graph.Indexed := AssetGraph.indexed_remove h first
    obtain ⟨hindexed, hget, hqueue, hstart, hfingerprints⟩ := ih hfirst
    refine ⟨hindexed, fun id => ?_, fun id => ?_, hstart, hfingerprints⟩
    · apply (hget id).trans
      by_cases hid : id = first
      · subst hid
        simp [discard, AssetGraph.get?_remove_self]
      · simp [discard, hid, AssetGraph.get?_remove_of_ne hid]
    · apply (hqueue id).trans
      simp only [discard, List.mem_filter, bne_iff_ne, List.mem_cons, not_or, ne_eq]
      exact and_assoc

/-- What unloading does: the orphans are gone, from the graph and from the queue. -/
theorem unload_spec {state : State} (h : state.graph.Indexed) :
    state.unload.2.graph.Indexed ∧
      (∀ id, state.unload.2.graph.get? id =
        if id ∈ state.graph.orphans then none else state.graph.get? id) ∧
      (∀ id, id ∈ state.unload.2.queue ↔ id ∈ state.queue ∧ id ∉ state.graph.orphans) ∧
      state.unload.2.start = state.start ∧ state.unload.2.fingerprints = state.fingerprints := by
  rw [unload_eq]
  exact foldl_discard_spec _ h

/-- Unloading keeps the assets in order, provided that no asset with a home imports one without. -/
theorem Orderly.unload {state : State} (h : state.Orderly [] [])
    (hclosed : ∀ {id target : AssetId} {asset : Asset} {specifier : String},
      state.graph.get? id = some asset → id ∉ state.graph.orphans →
        asset.resolved.get? specifier = some target → target ∉ state.graph.orphans) :
    state.unload.2.Orderly [] [] := by
  obtain ⟨hindexed, hget, hqueue, -⟩ := unload_spec h.indexed
  have hbefore : ∀ {id : AssetId} {asset : Asset}, state.unload.2.graph.get? id = some asset →
      id ∉ state.graph.orphans ∧ state.graph.get? id = some asset := by
    intro id asset h
    rw [hget] at h
    split at h
    · cases h
    · rename_i hid
      exact ⟨hid, h⟩
  refine ⟨hindexed, ?_, ?_, ?_, ?_⟩
  · intro id asset h' hdirty
    obtain ⟨hid, h'⟩ := hbefore h'
    rcases h.waits h' hdirty with hmem | hmem
    · exact .inl ((hqueue id).2 ⟨hmem, hid⟩)
    · cases hmem
  · exact fun h' => h.made (hbefore h').2
  · intro id target asset specifier h' hresolved
    obtain ⟨hid, h'⟩ := hbefore h'
    obtain ⟨other, hother⟩ := h.leads h' hresolved
    exact ⟨other, by rw [hget, if_neg (hclosed h' hid hresolved), hother]⟩
  · exact fun h' => h.declared (hbefore h').2

end State

namespace Pass

variable {κ π σ : Type}

/-- An import that leads somewhere is one of the links of its asset. -/
theorem exists_link {state : State} {late pending : List AssetId} (h : state.Orderly late pending)
    {id target : AssetId} {asset : Asset} {specifier : String} (hget : state.graph.get? id = some asset)
    (hresolved : asset.resolved.get? specifier = some target) : ∃ dep, (dep, target) ∈ asset.links := by
  have hdeclared := h.declared hget hresolved
  obtain ⟨dep, hdep, hsame⟩ := List.any_eq_true.1 hdeclared
  rw [beq_iff_eq] at hsame
  refine ⟨dep, List.mem_filterMap.2 ⟨dep, hdep, ?_⟩⟩
  rw [hsame, hresolved]
  rfl

/-- In a layout no asset with a home imports one without. -/
theorem layout_closed {state : State} (h : state.Orderly [] []) (outDir : Path) (start : AssetId)
    {id target : AssetId} {asset : Asset} {specifier : String}
    (hget : (Layout.ofGraph (state.graph.updateAll Asset.withoutPlace) outDir start).graph.get? id =
      some asset)
    (hid : id ∉ (Layout.ofGraph (state.graph.updateAll Asset.withoutPlace) outDir start).graph.orphans)
    (hresolved : asset.resolved.get? specifier = some target) :
    target ∉ (Layout.ofGraph (state.graph.updateAll Asset.withoutPlace) outDir start).graph.orphans := by
  have hcontent := state.graph.sameContent_withoutPlace.trans
    (Layout.sameContent_ofGraph (state.graph.updateAll Asset.withoutPlace) outDir start)
  have horderly := h.content hcontent
  have hexplored := Layout.ofGraph_explored state.graph outDir start
  generalize Layout.ofGraph (state.graph.updateAll Asset.withoutPlace) outDir start = layout at *
  have hplaced : layout.IsPlaced id :=
    (Layout.isPlaced_iff_not_mem_orphans horderly.indexed id).2 ⟨⟨asset, hget⟩, hid⟩
  obtain ⟨dep, hlink⟩ := exists_link horderly hget hresolved
  have himports : layout.graph.Imports id target :=
    ⟨horderly.leads hget hresolved, asset, dep, hget, hlink⟩
  have htarget := hexplored.closed hplaced ((hexplored.content.imports_iff _ _).1 himports)
  exact ((Layout.isPlaced_iff_not_mem_orphans horderly.indexed target).1 (htarget.resolve_right (by simp))).2

theorem notices_write (tools : Toolset κ π σ) (packagers : Packagers π) (bundles : List PackagedBundle)
    (work : Work σ) : work.state.Notices (write tools packagers bundles work).2.state := by
  unfold write
  exact Work.notices_ask tools work _

/-- If packagers do not fail, and keep not failing, then both ways of writing bundles succeed. -/
theorem runs_ok {write : π → PackagedBundle → σ → Except Failure Unit × σ} {holds : σ → Prop}
    (hwrite : ∀ packager bundle world, holds world →
      (write packager bundle world).1 = .ok () ∧ holds (write packager bundle world).2)
    (packagers : Packagers π) (bundles : List PackagedBundle) {world : σ} (h : holds world) :
    ((packagers.runAll write bundles world).1 = .ok () ∧ holds (packagers.runAll write bundles world).2) ∧
      (packagers.runInTurn write bundles world).1 = .ok () ∧
        holds (packagers.runInTurn write bundles world).2 := by
  induction bundles generalizing world with
  | nil => exact ⟨⟨rfl, h⟩, rfl, h⟩
  | cons bundle rest ih =>
    have hbundle := hwrite (packagers.packagerFor bundle.kind) bundle world h
    unfold Packagers.runAll Packagers.runInTurn
    generalize write (packagers.packagerFor bundle.kind) bundle world = written at hbundle
    obtain ⟨result, world'⟩ := written
    obtain ⟨rfl, hworld'⟩ := hbundle
    exact ih hworld'

/-- So does writing bundles, and nothing but their writing and changes happen to the world. -/
theorem write_ok {tools : Toolset κ π σ} {holds : σ → Prop}
    (hwrite : ∀ packager bundle world, holds world →
      (tools.write packager bundle world).1 = .ok () ∧ holds (tools.write packager bundle world).2)
    (packagers : Packagers π) (bundles : List PackagedBundle) (work : Work σ) (h : holds work.world) :
    (write tools packagers bundles work).1 = .ok () ∧
      ∃ world, holds world ∧
        (write tools packagers bundles work).2 = ({ work with world } : Work σ).listen tools := by
  obtain ⟨hall, hturn⟩ := runs_ok hwrite packagers bundles h
  unfold write
  cases tools.writesOn with
  | true => exact ⟨hall.1, _, hall.2, rfl⟩
  | false => exact ⟨hturn.1, _, hturn.2, rfl⟩

/-- If packagers do not fail, the end of a pass leads to a report. -/
theorem finish_ok {tools : Toolset κ π σ} {holds : σ → Prop}
    (hwrite : ∀ packager bundle world, holds world →
      (tools.write packager bundle world).1 = .ok () ∧ holds (tools.write packager bundle world).2)
    (setup : Setup κ π) (start : AssetId) {work : Work σ} (h : holds work.world) :
    ∃ report next, finish tools setup start work = (.ok report, next) := by
  unfold finish
  dsimp only
  obtain ⟨hwritten, -⟩ := write_ok hwrite setup.packagers
    (Packaging.plan (layOut setup.outDir start work).1 (layOut setup.outDir start work).2.state.graph
      (layOut setup.outDir start work).2.state.fingerprints).changed (layOut setup.outDir start work).2 h
  split
  · rename_i failure written heq
    rw [heq] at hwritten
    cases hwritten
  · exact ⟨_, _, rfl⟩

/-- At the end of a pass the assets are laid out, and changes are reported while bundles are written.  Unless
that fails, fingerprints are kept, and what has no home is unloaded. -/
theorem state_finish_cases (tools : Toolset κ π σ) (setup : Setup κ π) (start : AssetId) (work : Work σ) :
    ∃ written : State, (layOut setup.outDir start work).2.state.Notices written ∧
      ((finish tools setup start work).2.state = written ∨ ∃ fingerprints,
        (finish tools setup start work).2.state = (State.unload { written with fingerprints }).2) := by
  have hwritten := notices_write tools setup.packagers
    (Packaging.plan (layOut setup.outDir start work).1 (layOut setup.outDir start work).2.state.graph
      (layOut setup.outDir start work).2.state.fingerprints).changed (layOut setup.outDir start work).2
  unfold finish
  dsimp only
  split
  · rename_i failure written heq
    rw [heq] at hwritten
    exact ⟨_, hwritten, .inl rfl⟩
  · rename_i done written heq
    rw [heq] at hwritten
    exact ⟨_, hwritten, .inr ⟨_, rfl⟩⟩

/-- Unloading does to the world what no longer watching files does. -/
theorem world_unload {γ : Type} {tools : Toolset κ π σ} (observe : σ → γ)
    (hunwatch : ∀ p world, observe (tools.unwatch p world) = observe world) (work : Work σ) :
    observe (unload tools work).world = observe work.world := by
  have hall : ∀ (paths : List Path) (world : σ),
      observe (paths.foldl (fun world p => tools.unwatch p world) world) = observe world := by
    intro paths
    induction paths with
    | nil => exact fun _ => rfl
    | cons p rest ih => exact fun world => (ih _).trans (hunwatch p world)
  exact hall _ _

/-- The end of a pass keeps the assets in order. -/
theorem finish_orderly (tools : Toolset κ π σ) (setup : Setup κ π) (start : AssetId) {work : Work σ}
    (h : work.state.Orderly [] []) : (finish tools setup start work).2.state.Orderly [] [] := by
  have hcontent := work.state.graph.sameContent_withoutPlace.trans
    (Layout.sameContent_ofGraph (work.state.graph.updateAll Asset.withoutPlace) setup.outDir start)
  have hlaid : (layOut setup.outDir start work).2.state.Orderly [] [] := h.content hcontent
  obtain ⟨written, hwritten, hstate | ⟨fingerprints, hstate⟩⟩ := state_finish_cases tools setup start work
  · rw [hstate]
    exact hlaid.notices hwritten
  · rw [hstate]
    have horderly := hlaid.notices hwritten
    -- the fingerprints have nothing to do with the assets
    have hremembered : State.Orderly [] [] { written with fingerprints } :=
      ⟨horderly.indexed, horderly.waits, horderly.made, horderly.leads, horderly.declared⟩
    refine hremembered.unload ?_
    rw [show ({ written with fingerprints } : State).graph = _ from hwritten.graph]
    exact layout_closed h setup.outDir start

/-- A pass keeps the assets in order. -/
theorem run_orderly {tools : Toolset κ π σ} {setup : Setup κ π} {depth : Nat} {work next : Work σ}
    {result : Except Failure Report} (h : work.state.Orderly [] [])
    (hrun : run tools setup depth work = some (result, next)) : next.state.Orderly [] [] := by
  rcases run_cases hrun with ⟨failure, -, hassemble⟩ | ⟨start, assembled, hassemble, hfinish⟩
  · exact (assemble_orderly h hassemble).1
  · have hfinished := finish_orderly tools setup start (assemble_orderly h hassemble).1
    rwa [hfinish] at hfinished

end Pass

/-! ## Sessions -/

namespace State

/-- What is promised about the assets of a build between two passes. -/
structure Consistent (state : State) : Prop where
  /-- Whoever is dirty waits in the queue. -/
  waits : ∀ {id : AssetId} {asset : Asset}, state.graph.get? id = some asset → asset.dirty = true →
    id ∈ state.queue
  /-- Whoever is not dirty has output with a fingerprint. -/
  made : ∀ {id : AssetId} {asset : Asset}, state.graph.get? id = some asset → asset.dirty = false →
    asset.compiled.isSome = true ∧ asset.hash.isSome = true
  /-- Imports lead to live assets. -/
  leads : ∀ {id target : AssetId} {asset : Asset} {specifier : String},
    state.graph.get? id = some asset → asset.resolved.get? specifier = some target →
      state.graph.IsLive target

/-- Without exceptions, order is consistency. -/
theorem consistent_of_orderly {state : State} (h : state.Orderly [] []) : state.Consistent where
  waits hget hdirty := (h.waits hget hdirty).resolve_right List.not_mem_nil
  made hget hclean := (h.made hget hclean).resolve_right List.not_mem_nil
  leads := h.leads

/-- A build without assets is in order. -/
theorem orderly_empty : Orderly [] [] {} where
  indexed := AssetGraph.indexed_empty
  waits h := by simp [AssetGraph.empty, AssetGraph.get?] at h
  made h := by simp [AssetGraph.empty, AssetGraph.get?] at h
  leads h := by simp [AssetGraph.empty, AssetGraph.get?] at h
  declared h := by simp [AssetGraph.empty, AssetGraph.get?] at h

end State

namespace Session

variable {κ π σ : Type}

/-- The sessions that can come about.  Between passes the world can change in any way, changes can be
reported, and asset types and packagers can be added as long as the session accepts them; a pass may
succeed or fail. -/
inductive History : Session κ π σ → Prop where
  | new (settings : Settings) (entry : Path) (types : AssetTypes κ) (packagers : Packagers π)
      (tools : Toolset κ π σ) (world : σ) :
      History (Session.new settings entry types packagers tools world)
  | addType {session session' : Session κ π σ} {extension : String} {kind : Kind} {compiler : κ} :
      History session → session.addType extension kind compiler = .ok session' → History session'
  | addPackager {session session' : Session κ π σ} {kind : Kind} {packager : π} :
      History session → session.addPackager kind packager = .ok session' → History session'
  | edit {session : Session κ π σ} (world : σ) :
      History session → History { session with work := { session.work with world } }
  | change {session : Session κ π σ} (p : Path) :
      History session → History (session.queueChange p).2
  | pass {session session' : Session κ π σ} {depth : Nat} {result : Except Failure Report} :
      History session → session.bundle? depth = some (result, session') → History session'
  | stop {session : Session κ π σ} : History session → History session.stop

/-- A pass leaves the state in which it ends to the session. -/
theorem state_bundle? {session session' : Session κ π σ} {depth : Nat} {result : Except Failure Report}
    (h : session.bundle? depth = some (result, session')) :
    ∃ next, Pass.run session.tools session.setup depth (session.work.tell .started) =
      some (result, next) ∧ session'.work.state = next.state := by
  unfold bundle? at h
  dsimp only at h
  have hconclude : ∀ (tools : Toolset κ π σ) (result : Except Failure Report) (work : Work σ),
      (conclude tools result work).state = work.state := by
    intro tools result work
    cases result <;> rfl
  split at h
  · cases h
  · rename_i result' next hrun
    simp only [Option.some.injEq, Prod.mk.injEq] at h
    obtain ⟨rfl, rfl⟩ := h
    refine ⟨next, hrun, ?_⟩
    split
    · rw [stop_work_state]
      exact hconclude _ _ _
    · exact hconclude _ _ _

theorem tools_of_bundle? {session session' : Session κ π σ} {depth : Nat} {result : Except Failure Report}
    (h : session.bundle? depth = some (result, session')) : session'.tools = session.tools := by
  unfold bundle? at h
  dsimp only at h
  split at h
  · cases h
  · simp only [Option.some.injEq, Prod.mk.injEq] at h
    obtain ⟨-, rfl⟩ := h
    split <;> rfl

/-- After a pass a session is started, and its setup is the same. -/
theorem started_bundle? {session session' : Session κ π σ} {depth : Nat} {result : Except Failure Report}
    (h : session.bundle? depth = some (result, session')) :
    session'.started = true ∧ session'.setup = session.setup := by
  unfold bundle? at h
  dsimp only at h
  split at h
  · cases h
  · simp only [Option.some.injEq, Prod.mk.injEq] at h
    obtain ⟨-, rfl⟩ := h
    split
    · exact ⟨rfl, rfl⟩
    · exact ⟨rfl, rfl⟩

/-- A pass that ends with a report is a pass of the session. -/
theorem bundle?_of_run {session : Session κ π σ} {depth : Nat} {result : Except Failure Report}
    {next : Work σ}
    (h : Pass.run session.tools session.setup depth (session.work.tell .started) = some (result, next)) :
    ∃ session', session.bundle? depth = some (result, session') := by
  unfold bundle?
  dsimp only
  rw [show Pass.run session.start.tools session.start.setup depth (session.start.work.tell .started) =
    some (result, next) from h]
  exact ⟨_, rfl⟩

/-- An asset type can be added before the session is started. -/
theorem addType_cases {session session' : Session κ π σ} {extension : String} {kind : Kind} {compiler : κ}
    (h : session.addType extension kind compiler = .ok session') :
    session.started = false ∧ session' = { session with
      setup := { session.setup with types := session.setup.types.register extension kind compiler } } := by
  unfold addType at h
  split at h
  · cases h
  · rename_i hstarted
    exact ⟨Bool.eq_false_iff.2 hstarted, (Except.ok.inj h).symm⟩

/-- So can a packager. -/
theorem addPackager_cases {session session' : Session κ π σ} {kind : Kind} {packager : π}
    (h : session.addPackager kind packager = .ok session') :
    session.started = false ∧ session' = { session with
      setup := { session.setup with packagers := session.setup.packagers.register kind packager } } := by
  unfold addPackager at h
  split at h
  · cases h
  · rename_i hstarted
    exact ⟨Bool.eq_false_iff.2 hstarted, (Except.ok.inj h).symm⟩

/-- The assets of every session are in order. -/
theorem History.orderly {session : Session κ π σ} (h : session.History) :
    session.work.state.Orderly [] [] := by
  induction h with
  | new => exact State.orderly_empty
  | addType _ hadd ih =>
    obtain ⟨-, rfl⟩ := addType_cases hadd
    exact ih
  | addPackager _ hadd ih =>
    obtain ⟨-, rfl⟩ := addPackager_cases hadd
    exact ih
  | edit _ _ ih => exact ih
  | change p _ ih => exact ih.notices (Work.notices_notify _ p)
  | pass _ hbundle ih =>
    obtain ⟨next, hrun, hstate⟩ := state_bundle? hbundle
    rw [hstate]
    refine Pass.run_orderly ?_ hrun
    exact ih
  | stop _ ih => exact ih

/-- Every session is consistent between passes, and whenever a pass comes to lay out the bundles, no asset
is dirty. -/
theorem History.consistent {session : Session κ π σ} (h : session.History) :
    session.work.state.Consistent ∧
      ∀ depth start work,
        Pass.assemble session.tools session.setup depth (session.start.work.tell .started) =
            some (.ok start, work) → work.state.Clean := by
  refine ⟨State.consistent_of_orderly h.orderly, fun depth start work hassemble => ?_⟩
  have hstarted : (session.start.work.tell .started).state.Orderly [] [] := h.orderly
  exact (Pass.assemble_orderly hstarted hassemble).2 start rfl

/-- The rules under which every module is where its specifier says and none can be compiled. -/
def brokenRules : Rules Unit Unit where
  find specifier _ := .ok ⟨⟨specifier⟩, {}⟩
  translate _ _ _ _ := .error (.build "nothing compiles")
  prepared _ := .ok ()

/-- A session in which the entry cannot be compiled. -/
def brokenSession : Session Unit Unit Unit :=
  Session.new (.ofRequest ⟨"/"⟩ false {}) ⟨"/main.js"⟩ (.ofFallback ()) (.ofFallback ())
    (Toolset.ofRules brokenRules fun _ _ => ()) ()

/-- After a pass that has failed to compile the entry, the session is consistent: the entry is dirty, and
waits. -/
theorem consistent_brokenSession :
    ∃ result session, brokenSession.bundle? 2 = some (result, session) ∧ session.History ∧
      (session.work.state.graph.get? ⟨0⟩).map Asset.dirty = some true ∧
      session.work.state.queue = [⟨0⟩] ∧ session.work.state.Consistent := by
  have hrun : (brokenSession.bundle? 2).isSome = true := by decide
  obtain ⟨⟨result, session⟩, hbundle⟩ := Option.isSome_iff_exists.1 hrun
  have hhistory : session.History := .pass (.new _ _ _ _ _ _) hbundle
  have hdirty : (brokenSession.bundle? 2).map (fun found =>
      ((found.2.work.state.graph.get? ⟨0⟩).map Asset.dirty, found.2.work.state.queue)) =
        some (some true, [⟨0⟩]) := by decide
  rw [hbundle] at hdirty
  simp only [Option.map_some, Option.some.injEq, Prod.mk.injEq] at hdirty
  exact ⟨result, session, hbundle, hhistory, hdirty.1, hdirty.2, hhistory.consistent.1⟩

end Session
end Build
end ModuleBundler
