import ModuleBundler.Proofs.Build.Blocking
import ModuleBundler.Proofs.Build.Delivery
import ModuleBundler.Proofs.Build.Incremental

/-!
# Recovery

When the first pass of a new session over some sources succeeds, all modules that it
has found are grounded.  A session that has been running for long then succeeds in
its next pass as well, provided that only such modules wait in its queue, whatever
has happened before.  A waiting asset that cannot be made ready any more, such as one
whose file was deleted, makes every pass fail and keeps waiting, even if nothing
imports it.

Main results:

- Theorem {lit}`Pass.assemble_grounds`: a first pass that lays out bundles has found grounded modules only.
- Theorem {lit}`Session.History.recovers`: when the next pass of a session succeeds.
- Theorem {lit}`Session.exists_stuck`: a session can fail for ever that would succeed from scratch.
-/

namespace ModuleBundler
namespace Build

variable {κ π σ τ : Type}

/-! ## What the first pass finds -/

/-- Whether answers know every module by one name, in one package. -/
def Answers.Canonical (answers : Answers κ) : Prop :=
  ∀ {specifier specifier' : String} {importer importer' : Option Path}
    {module module' : Lookup.Modules.Resolved}, answers.find specifier importer = .ok module →
      answers.find specifier' importer' = .ok module' → (module.path == module'.path) = true →
        module = module'

/-- Whether all assets of a graph are modules that were found, and those that are neither dirty nor late are
grounded. -/
structure Answers.Grounds (answers : Answers κ) (types : AssetTypes κ) (late : List AssetId)
    (graph : AssetGraph) : Prop where
  indexed : graph.Indexed
  typed : graph.Typed types
  found : ∀ {id : AssetId} {asset : Asset}, graph.get? id = some asset →
    ∃ specifier importer, answers.find specifier importer = .ok ⟨asset.identity, asset.package⟩
  grounded : ∀ {id : AssetId} {asset : Asset}, graph.get? id = some asset → asset.dirty = false →
    id ∈ late ∨ answers.Grounded types graph asset

namespace Answers.Grounds

variable {answers : Answers κ} {types : AssetTypes κ} {late late' : List AssetId} {graph : AssetGraph}

theorem mono (h : answers.Grounds types late graph) (hlate : ∀ id ∈ late, id ∈ late') :
    answers.Grounds types late' graph where
  indexed := h.indexed
  typed := h.typed
  found := h.found
  grounded hget hclean := (h.grounded hget hclean).imp_left (hlate _)

/-- A change of an asset only has to leave it dirty or late. -/
theorem update (h : answers.Grounds types late graph) (id : AssetId) {change : Asset → Asset}
    (hmodule : Asset.KeepsModule change) (hlate : ∀ other ∈ late, other ≠ id → other ∈ late')
    (hself : ∀ asset, (change asset).dirty = false → id ∈ late') :
    answers.Grounds types late' (graph.update id change) where
  indexed := AssetGraph.indexed_update h.indexed id hmodule
  typed := (AssetGraph.growing_typed types).update id hmodule h.typed
  found := by
    intro other asset hget
    rcases AssetGraph.get?_update_cases hget with ⟨-, hget⟩ | ⟨before, rfl, hbefore, rfl⟩
    · exact h.found hget
    · rw [hmodule.identity, hmodule.package]
      exact h.found hbefore
  grounded := by
    intro other asset hget hclean
    rcases AssetGraph.get?_update_cases hget with ⟨hne, hget⟩ | ⟨before, rfl, hbefore, rfl⟩
    · rcases h.grounded hget hclean with hmem | hgrounded
      · exact .inl (hlate other hmem hne)
      · exact .inr (hgrounded.mono (graph.carries_update id hmodule))
    · exact .inl (hself before hclean)

/-- A late asset can be changed in any way. -/
theorem update_late {id : AssetId} (h : answers.Grounds types (id :: late) graph) {change : Asset → Asset}
    (hmodule : Asset.KeepsModule change) : answers.Grounds types (id :: late) (graph.update id change) :=
  h.update id hmodule (fun _ hmem _ => hmem) fun _ _ => List.mem_cons_self

/-- An asset that is dirty again is late no more. -/
theorem giveBack {id : AssetId} {state : State} (h : answers.Grounds types (id :: late) state.graph) :
    answers.Grounds types late (state.giveBack id).graph := by
  refine h.update id {} ?_ ?_
  · exact fun other hmem hne => (List.mem_cons.1 hmem).resolve_left hne
  · exact fun _ hclean => by cases hclean

/-- Entering a module that was found leads to an asset that stands for it. -/
theorem insert (hcanonical : answers.Canonical) (h : answers.Grounds types late graph)
    {specifier : String} {importer : Option Path} {module : Lookup.Modules.Resolved}
    (hfind : answers.find specifier importer = .ok module) :
    answers.Grounds types late (graph.insert module.path (types.kindOf module.path) module.package).2 ∧
      (graph.insert module.path (types.kindOf module.path) module.package).2.Holds
        (graph.insert module.path (types.kindOf module.path) module.package).1.1 module := by
  have hcarries := graph.carries_insert module.path (types.kindOf module.path) module.package
  have htyped := (AssetGraph.growing_typed types).insert module.path module.package h.typed
  have hindexed := AssetGraph.indexed_insert h.indexed module.path (types.kindOf module.path) module.package
  rcases AssetGraph.insert_cases h.indexed module.path (types.kindOf module.path) module.package with
    ⟨id, asset, hget, hsame, heq⟩ | ⟨hnew, heq⟩
  · -- the asset that is there stands for the same module
    obtain ⟨specifier', importer', hfind'⟩ := h.found hget
    have hmodule : (⟨asset.identity, asset.package⟩ : Lookup.Modules.Resolved) = module :=
      hcanonical hfind' hfind hsame
    rw [heq]
    refine ⟨h, asset, hget, ?_⟩
    rw [← hmodule]
    exact ⟨rfl, rfl⟩
  · rw [heq] at hcarries htyped hindexed ⊢
    have hget := graph.get?_add module.path (types.kindOf module.path) module.package
    refine ⟨⟨hindexed, htyped, ?_, ?_⟩, _, by rw [hget, if_pos rfl], rfl, rfl⟩
    · intro id asset hasset
      rw [hget] at hasset
      split at hasset
      · cases hasset
        exact ⟨specifier, importer, hfind⟩
      · exact h.found hasset
    · intro id asset hasset hclean
      rw [hget] at hasset
      split at hasset
      · cases hasset
        cases hclean
      · exact (h.grounded hasset hclean).imp_right fun hgrounded => hgrounded.mono hcarries

theorem makeAlias (h : answers.Grounds types late graph) (p : Path) (owner : AssetId) :
    answers.Grounds types late (graph.makeAlias p owner).2 := by
  have hcarries : graph.Carries (graph.makeAlias p owner).2 := by
    rintro id module ⟨asset, hget, hmodule⟩
    exact ⟨asset, by rw [AssetGraph.get?_makeAlias]; exact hget, hmodule⟩
  refine ⟨AssetGraph.indexed_makeAlias h.indexed p owner,
    (AssetGraph.growing_typed types).makeAlias p owner h.typed, ?_, ?_⟩
  · intro id asset hget
    rw [AssetGraph.get?_makeAlias] at hget
    exact h.found hget
  · intro id asset hget hclean
    rw [AssetGraph.get?_makeAlias] at hget
    exact (h.grounded hget hclean).imp_right fun hgrounded => hgrounded.mono hcarries

end Answers.Grounds

section

variable {tools : Toolset κ π σ} {now : σ → Prop} {answers : Answers κ} {types : AssetTypes κ}

/-- Recording imports that were found keeps assets grounded, and leads to assets that stand for their
modules. -/
theorem Work.recordAll_grounds (tools : Toolset κ π σ) (hcanonical : answers.Canonical) (id : AssetId)
    {importer : Path} {late : List AssetId} (modules : List (Dependency × Lookup.Modules.Resolved))
    (hfind : ∀ link ∈ modules, answers.find link.1.specifier (some importer) = .ok link.2) {work : Work σ}
    (h : answers.Grounds types (id :: late) work.state.graph) :
    answers.Grounds types (id :: late) (recordAll tools types id modules work).2.state.graph ∧
      work.state.graph.Carries (recordAll tools types id modules work).2.state.graph ∧
        ∀ link ∈ modules, link.1.inlined = false →
          ∃ owner, (recordAll tools types id modules work).2.state.graph.Holds owner link.2 := by
  induction modules generalizing work with
  | nil => exact ⟨h, .refl _, fun _ hlink => by cases hlink⟩
  | cons link rest ih =>
    have hrecord : answers.Grounds types (id :: late) (work.record tools types id link).2.state.graph ∧
        work.state.graph.Carries (work.record tools types id link).2.state.graph ∧
          (link.1.inlined = false →
            ∃ owner, (work.record tools types id link).2.state.graph.Holds owner link.2) := by
      rcases record_cases tools types id link work with ⟨hinlined, hstate⟩ | ⟨-, hstate⟩
      · rw [hstate]
        refine ⟨h.makeAlias _ _, ?_, fun hseparate => ?_⟩
        · rintro other module ⟨asset, hget, hmodule⟩
          exact ⟨asset, by rw [AssetGraph.get?_makeAlias]; exact hget, hmodule⟩
        · rw [hseparate] at hinlined
          cases hinlined
      · obtain ⟨hinserted, hholds⟩ := h.insert hcanonical (hfind link List.mem_cons_self)
        have hcarries := work.state.graph.carries_insert link.2.path (types.kindOf link.2.path)
          link.2.package
        rw [hstate]
        generalize work.state.graph.insert link.2.path (types.kindOf link.2.path) link.2.package = entered
          at hinserted hholds hcarries ⊢
        have hconnects : entered.2.Carries
            (State.connect { work.state with graph := entered.2 } id link.1 entered.1.1).graph :=
          AssetGraph.carries_update _ id {}
        exact ⟨hinserted.update_late {}, hcarries.trans hconnects, fun _ => ⟨_, hconnects _ _ hholds⟩⟩
    obtain ⟨hgrounds, hcarries, hholds⟩ := hrecord
    obtain ⟨hgrounds', hcarries', hholds'⟩ :=
      ih (fun other hmem => hfind other (List.mem_cons_of_mem _ hmem)) hgrounds
    refine ⟨hgrounds', hcarries.trans hcarries', fun other hmem hseparate => ?_⟩
    rcases List.mem_cons.1 hmem with rfl | hmem
    · obtain ⟨owner, howner⟩ := hholds hseparate
      exact ⟨owner, hcarries' _ _ howner⟩
    · exact hholds' other hmem hseparate

/-- Loading keeps assets grounded. -/
theorem Load.grounds_invariant (hanswering : Answering tools now answers)
    (hcanonical : answers.Canonical) (types : AssetTypes κ) :
    Invariant tools types fun late _ work =>
      now work.world ∧ answers.Grounds types late work.state.graph where
  mono hlate h := ⟨h.1, h.2.mono hlate⟩
  pass h _ := h
  unready := by
    rintro late pending id asset work claimed ⟨hnow, h⟩ hclaim hunready
    obtain ⟨hnext, change, hmodule, hafter⟩ := unready_spec hanswering hnow hclaim hunready
    rw [hafter]
    exact ⟨hnext, h.update id hmodule (fun _ hmem _ => List.mem_cons_of_mem _ hmem)
      fun _ _ => List.mem_cons_self⟩
  ready := by
    rintro late pending children id asset work claimed next ⟨hnow, h⟩ hclaim hprepare
    obtain ⟨hnext, unit, modules, before, hreadies, hbefore, hself, -, rfl⟩ :=
      ready_spec hanswering hnow hclaim hprepare
    have hgrounds : answers.Grounds types (id :: late) before.state.graph := by
      rw [hbefore]
      exact h.update id (Asset.keepsModule_withOutput unit) (fun _ hmem _ => List.mem_cons_of_mem _ hmem)
        fun _ _ => List.mem_cons_self
    obtain ⟨implied, -, hleads⟩ := hreadies.leads
    obtain ⟨hrecorded, hcarries, hholds⟩ :=
      Work.recordAll_grounds tools hcanonical id modules hleads.found hgrounds
    refine ⟨hnext, hrecorded.indexed, hrecorded.typed, hrecorded.found, fun {other found} hfound hclean => ?_⟩
    rcases hrecorded.grounded hfound hclean with hmem | hgrounded
    · rcases List.mem_cons.1 hmem with rfl | hmem
      · -- the asset itself stands for the module that was made ready
        obtain ⟨found', hfound', hidentity, hpackage⟩ :=
          hcarries other ⟨asset.identity, asset.package⟩ ⟨_, hself, rfl, rfl⟩
        obtain rfl : found' = found := Option.some.inj (hfound'.symm.trans hfound)
        dsimp only at hidentity hpackage
        have hkind : asset.kind = found'.kind := by
          rw [hrecorded.typed other found' hfound, hidentity]
          exact hgrounds.typed other (asset.withOutput unit) hself
        have hgrounded : answers.Grounded types _ asset := ⟨unit, modules, hreadies, hholds⟩
        exact .inr (hgrounded.congr hidentity.symm hpackage.symm hkind)
      · exact .inl hmem
    · exact .inr hgrounded
  back h := ⟨h.1, (h.2.mono fun _ hmem => List.mem_cons_of_mem _ hmem).giveBack⟩
  settle h := ⟨h.1, h.2.giveBack⟩

end

end Build

namespace AssetGraph

/-- Loading removes no module. -/
theorem growing_holds {κ : Type} (types : AssetTypes κ) (module : Lookup.Modules.Resolved) :
    Growing types fun graph => ∃ owner, graph.Holds owner module where
  update id _ hmodule h := by
    obtain ⟨owner, howner⟩ := h
    exact ⟨owner, carries_update _ id hmodule _ _ howner⟩
  insert p package h := by
    obtain ⟨owner, howner⟩ := h
    exact ⟨owner, carries_insert _ p _ package _ _ howner⟩
  makeAlias p other h := by
    obtain ⟨owner, asset, hget, hmodule⟩ := h
    exact ⟨owner, asset, by rw [get?_makeAlias]; exact hget, hmodule⟩

/-- What comes after loading makes no module. -/
theorem shrinking_holds (goal : AssetGraph) : Shrinking fun graph => graph.Carries goal where
  remove removed h := by
    rintro id module ⟨asset, hget, hmodule⟩
    by_cases hid : id = removed
    · rw [hid, get?_remove_self] at hget
      cases hget
    · rw [get?_remove_of_ne hid] at hget
      exact h id module ⟨asset, hget, hmodule⟩
  content hcontent h := hcontent.symm.carries.trans h

end AssetGraph

namespace Build

namespace Pass

variable {tools : Toolset κ π σ} {now : σ → Prop} {answers : Answers κ} {setup : Setup κ π}

/-- A first pass that lays out bundles has found the entry and grounded modules only. -/
theorem assemble_grounds (hanswering : Answering tools now answers) (hcanonical : answers.Canonical)
    {depth : Nat} {work next : Work σ} {start : AssetId} (hnow : now work.world)
    (hempty : work.state = {}) (h : assemble tools setup depth work = some (.ok start, next)) :
    answers.Grounds setup.types [] next.state.graph ∧ next.state.Clean ∧
      answers.prepared setup.outDir = .ok () ∧ ∃ entry, answers.find setup.entry.text none = .ok entry ∧
        ∃ owner, next.state.graph.Holds owner entry := by
  have horderly : work.state.Orderly [] [] := by
    rw [hempty]
    exact State.orderly_empty
  have hclean := (assemble_orderly horderly h).2 start rfl
  obtain ⟨entered, entry, loaded, hentered, hprepared, hfind, hbegun, hgather, hdrain⟩ :=
    assemble_empty_cases hanswering hnow hempty h
  have hnothing : answers.Grounds setup.types [] AssetGraph.empty := by
    refine ⟨AssetGraph.indexed_empty, ?_, ?_, ?_⟩ <;> simp [AssetGraph.Typed, AssetGraph.empty,
      AssetGraph.get?]
  obtain ⟨hgrounds, hholds⟩ := hnothing.insert hcanonical hfind
  have hgraph : entered.state.graph =
      (AssetGraph.empty.insert entry.path (setup.types.kindOf entry.path) entry.package).2 :=
    congrArg State.graph hbegun
  rw [← hgraph] at hgrounds hholds
  have hdrained : now next.world ∧ answers.Grounds setup.types [] next.state.graph := by
    refine (drain_invariant (Load.grounds_invariant hanswering hcanonical setup.types) ?_ ?_
      ⟨hentered, hgrounds⟩ hdrain).1
    · exact fun h => h
    · intro pending before ids h
      have hstill := forgetAll_still hanswering ids h.1
      rw [hstill.state]
      exact ⟨hstill.now, h.2⟩
  exact ⟨hdrained.2, hclean, hprepared, entry, hfind,
    gather_growing (AssetGraph.growing_holds setup.types entry) ⟨_, hholds⟩ hgather⟩

/-! ## The next pass -/

/-- What waits can be taken off the queue if it stands for modules of a graph. -/
theorem drain_backed {goal : AssetGraph} {types : AssetTypes κ} {state : State} (invalidate : Bool)
    (h : state.Backed types goal)
    (hwaits : ∀ id ∈ state.queue, ∀ asset, state.graph.get? id = some asset →
      ∃ owner, goal.Holds owner ⟨asset.identity, asset.package⟩) :
    (state.drain invalidate).2.Backed types goal := by
  have hinvalidate : ∀ (ids : List AssetId) (graph : AssetGraph), graph.Indexed → graph.Typed types →
      goal.Backs graph → (∀ id ∈ ids, ∀ asset, graph.get? id = some asset →
        ∃ owner, goal.Holds owner ⟨asset.identity, asset.package⟩) →
      State.Backed types goal { state with
        graph := ids.foldl (fun graph id => graph.update id Asset.invalidate) graph, queue := [] } := by
    intro ids
    induction ids with
    | nil => exact fun graph hindexed htyped hbacks _ => ⟨hindexed, htyped, hbacks⟩
    | cons id rest ih =>
      intro graph hindexed htyped hbacks hids
      refine ih _ (AssetGraph.indexed_update hindexed id {})
        ((AssetGraph.growing_typed types).update id {} htyped) ?_ ?_
      · exact hbacks.update id {} fun asset hget _ => hids id List.mem_cons_self asset hget
      · intro other hmem asset hget
        rcases AssetGraph.get?_update_cases hget with ⟨-, hget⟩ | ⟨before, rfl, hbefore, rfl⟩
        · exact hids other (List.mem_cons_of_mem _ hmem) asset hget
        · exact hids other (List.mem_cons_of_mem _ hmem) before hbefore
  unfold State.drain
  cases invalidate with
  | false => exact ⟨h.indexed, h.typed, h.backs⟩
  | true =>
    refine hinvalidate _ state.graph h.indexed h.typed h.backs fun id hmem asset hget => ?_
    exact hwaits id (List.mem_filter.1 hmem).1 asset hget

/-- When only modules are taken off the queue that are grounded in some graph, a pass comes to lay out
bundles. -/
theorem gather_recovers (hanswering : Answering tools now answers) {goal : AssetGraph}
    (hgoal : answers.Grounds setup.types [] goal)
    (hclean : ∀ id asset, goal.get? id = some asset → asset.dirty = false) {first : Bool} {depth : Nat}
    {work : Work σ} (hnow : now work.world) {start : AssetId} (hstart : work.state.start = some start)
    (hdrained : (work.state.drain (!first)).2.Backed setup.types goal)
    (hdepth : goal.live.length < depth + 2) :
    ∃ next, gather tools setup.types first (depth + 2) work = some (.ok start, next) ∧
      now next.world := by
  have hbegun : Work.Still now { work with state := (work.state.drain (!first)).2 }
      (begin tools first work) := by
    unfold begin
    split
    · exact ⟨rfl, hnow⟩
    · exact forgetAll_still hanswering _ hnow
  have hbegunBacked : (begin tools first work).state.Backed setup.types goal := by
    rw [hbegun.state]
    exact hdrained
  obtain ⟨after, hbatch, hafter, hqueue⟩ := Load.batch_backed hanswering hgoal.indexed hgoal.typed
    (fun hget => (hgoal.grounded hget (hclean _ _ hget)).resolve_left List.not_mem_nil)
    (work.state.drain (!first)).1 hbegun.now hbegunBacked hdepth
  have hnothing : after.state.queue = [] := by
    rw [hqueue, hbegun.state]
    rfl
  obtain ⟨loaded, next, hdrain, hworld⟩ := drain_succeeds hbatch hnothing
  have hnext : now next.world := by
    rcases hworld with hworld | hworld
    · rw [hworld]
      exact hnow
    · rw [hworld]
      exact hafter
  have hsent : Work.Still now next (if first = true then next else sendUpdate tools loaded next) := by
    split
    · exact ⟨rfl, hnext⟩
    · exact sendUpdate_still hanswering loaded hnext
  refine ⟨_, ?_, hsent.now⟩
  unfold gather
  rw [hdrain]
  dsimp only
  rw [hsent.state, start_drain hdrain, hstart]

/-- A pass succeeds if it has found the entry or can find it, and only modules wait that a first pass over the
same sources has loaded. -/
theorem run_recovers (hanswering : Answering tools now answers) (hcanonical : answers.Canonical)
    {depth : Nat} {fresh assembled : Work σ} {origin : AssetId} (hfresh : now fresh.world)
    (hempty : fresh.state = {})
    (hassembled : assemble tools setup depth fresh = some (.ok origin, assembled)) {work : Work σ}
    (hnow : now work.world) (hindexed : work.state.graph.Indexed)
    (htyped : work.state.graph.Typed setup.types)
    (hdirty : ∀ id asset, work.state.graph.get? id = some asset → asset.dirty = true →
      id ∈ work.state.queue)
    (hwaits : ∀ id ∈ work.state.queue, ∀ asset, work.state.graph.get? id = some asset →
      ∃ owner, assembled.state.graph.Holds owner ⟨asset.identity, asset.package⟩)
    {depth' : Nat} (hdepth : assembled.state.graph.live.length < depth' + 2) :
    ∃ report next, run tools setup (depth' + 2) work = some (.ok report, next) := by
  obtain ⟨hgoal, hclean, hprepared, entry, hfind, owner, howner⟩ :=
    assemble_grounds hanswering hcanonical hfresh hempty hassembled
  have hbacked : work.state.Backed setup.types assembled.state.graph := by
    refine ⟨hindexed, htyped, fun id asset hget hasset => ?_⟩
    exact hwaits id (hdirty id asset hget hasset) asset hget
  have hassemble : ∃ start next, assemble tools setup (depth' + 2) work = some (.ok start, next) ∧
      now next.world := by
    unfold assemble
    cases hstart : work.state.start with
    | some start =>
      have hdrained : (work.state.drain (!false)).2.Backed setup.types assembled.state.graph :=
        drain_backed true hbacked hwaits
      obtain ⟨next, hnext, hworld⟩ := gather_recovers hanswering hgoal hclean hnow hstart hdrained hdepth
      exact ⟨start, next, hnext, hworld⟩
    | none =>
      obtain ⟨hentered, hcases⟩ := @enter_answered κ π σ tools setup now answers hanswering work hnow
      rw [if_pos (show (none : Option AssetId).isNone = true from rfl)]
      generalize enter tools setup work = entered at hentered hcases
      obtain ⟨result, entered⟩ := entered
      rcases hcases with ⟨failure, -, -, hnone⟩ | ⟨entry', hok, -, hfind', hbegun⟩
      · exact absurd hfind (hnone entry hprepared)
      obtain rfl : entry = entry' := Except.ok.inj (hfind.symm.trans hfind')
      dsimp only at hok hbegun hentered
      subst hok
      have hdrained : (entered.state.drain (!true)).2.Backed setup.types assembled.state.graph := by
        rw [hbegun]
        exact ⟨AssetGraph.indexed_insert hindexed _ _ _,
          (AssetGraph.growing_typed setup.types).insert _ _ htyped, hbacked.backs.insert howner _⟩
      have hstarted : entered.state.start = some _ := congrArg State.start hbegun
      obtain ⟨next, hnext, hworld⟩ :=
        gather_recovers hanswering hgoal hclean hentered hstarted hdrained hdepth
      exact ⟨_, next, hnext, hworld⟩
  obtain ⟨start, next, hnext, hworld⟩ := hassemble
  obtain ⟨report, last, hlast⟩ := finish_ok hanswering.write setup start hworld
  refine ⟨report, last, ?_⟩
  unfold run
  rw [hnext]
  exact congrArg some hlast

end Pass

/-! ## Sessions -/

namespace Session

/-- If the first pass of a new session over the same sources succeeds, and only modules wait that it has
loaded, then the next pass of a session succeeds, whatever has happened before. -/
theorem History.recovers {session fresh fresh' : Session κ π σ} (h : session.History) {now : σ → Prop}
    {answers : Answers κ} (hanswering : Answering session.tools now answers)
    (hcanonical : answers.Canonical) (hnow : now session.work.world) (htools : fresh.tools = session.tools)
    (hsetup : fresh.setup = session.setup) (hempty : fresh.work.state = {}) (hfresh : now fresh.work.world)
    {depth : Nat} {report : Report} (hbundle : fresh.bundle? depth = some (.ok report, fresh'))
    (hwaits : ∀ id ∈ session.work.state.queue, ∀ asset, session.work.state.graph.get? id = some asset →
      ∃ owner, fresh'.work.state.graph.Holds owner ⟨asset.identity, asset.package⟩) :
    ∃ enough, ∀ depth, enough ≤ depth →
      ∃ report session', session.bundle? depth = some (.ok report, session') := by
  obtain ⟨last, hrun, hstate⟩ := state_bundle? hbundle
  rw [htools, hsetup] at hrun
  rcases Pass.run_cases hrun with ⟨failure, hfailure, -⟩ | ⟨origin, assembled, hassembled, hend⟩
  · cases hfailure
  · -- unloading has made no modules
    have hcarries : fresh'.work.state.graph.Carries assembled.state.graph := by
      rw [hstate]
      have hfinish := Pass.finish_shrinking (AssetGraph.shrinking_holds assembled.state.graph)
        session.tools session.setup origin (.refl assembled.state.graph)
      rwa [hend] at hfinish
    refine ⟨assembled.state.graph.live.length + 2, fun depth' hdepth => ?_⟩
    obtain ⟨more, rfl⟩ : ∃ more, depth' = more + 2 := ⟨depth' - 2, by omega⟩
    have horderly := h.orderly
    obtain ⟨report', next, hnext⟩ := Pass.run_recovers hanswering hcanonical
      (show now (fresh.work.tell .started).world from hfresh) hempty hassembled
      (show now (session.work.tell .started).world from hnow) horderly.indexed h.typed.1
      (fun id asset hget hdirty => (horderly.waits hget hdirty).resolve_right List.not_mem_nil)
      (fun id hid asset hget => by
        obtain ⟨owner, howner⟩ := hwaits id hid asset hget
        exact ⟨owner, hcarries _ _ howner⟩)
      (show assembled.state.graph.live.length < more + 2 by omega)
    obtain ⟨session', hsession⟩ := bundle?_of_run hnext
    exact ⟨report', session', hsession⟩

/-- After its first pass a session fails as long as an asset waits that cannot be made ready, and the asset
keeps waiting. -/
theorem History.blocked {session session' : Session κ π σ} (h : session.History) {now : σ → Prop}
    {answers : Answers κ} (hanswering : Answering session.tools now answers) (hnow : now session.work.world)
    {start id : AssetId} (hstart : session.work.state.start = some start) {asset : Asset}
    (hget : session.work.state.graph.get? id = some asset)
    (hunready : answers.Unready session.setup.types asset) (hqueue : id ∈ session.work.state.queue)
    {depth : Nat} {result : Except Failure Report}
    (hbundle : session.bundle? depth = some (result, session')) :
    (∃ failure, result = .error failure) ∧ id ∈ session'.work.state.queue ∧
      ∃ asset', session'.work.state.graph.get? id = some asset' ∧
        answers.Unready session.setup.types asset' := by
  obtain ⟨next, hrun, hstate⟩ := state_bundle? hbundle
  have hblocked : session.work.state.Blocked answers session.setup.types id [] :=
    ⟨asset, hget, hunready, .inr (.inr hqueue)⟩
  obtain ⟨hfailed, hwaits, asset', hget', hunready', -⟩ := Pass.run_blocked hanswering
    (show now (session.work.tell .started).world from hnow) h.orderly hstart hblocked hrun
  rw [hstate]
  exact ⟨hfailed, hwaits, asset', hget', hunready'⟩

/-! ## A project with a broken import -/

/-- The rules of a project of two files.  The main one imports the other one until it is edited; the other
one cannot be compiled. -/
def brokenImport : Rules Unit Bool where
  find specifier _ := .ok (oneName specifier)
  translate _ p _ text :=
    if p == ⟨"/main.js"⟩ then .ok ⟨.empty, "", if text then [] else [{ specifier := "/x.js" }]⟩
    else .error (.compileIn "broken" p)
  prepared _ := .ok ()

theorem steady_brokenImport : Steady (Toolset.ofRules brokenImport twoTexts) twoTexts brokenImport := by
  refine steady_ofRules twoTexts fun {_ p _ text unit} hunit dep hdep => ?_
  simp only [brokenImport] at hunit
  split at hunit
  · cases hunit
    cases text with
    | false => rw [List.mem_singleton.1 hdep]
    | true => cases hdep
  · cases hunit

theorem canonical_brokenImport : brokenImport.Canonical := by
  intro specifier specifier' importer importer' module module' h h' hsame
  exact @canonical_oneName specifier specifier' importer importer' module module' h h' hsame

/-- A session for the project. -/
def importSession (world : Bool × Bool) : Session Unit Unit (Bool × Bool) :=
  Session.new (.ofRequest ⟨"/"⟩ false {}) ⟨"/main.js"⟩ (.ofFallback ()) (.ofFallback ())
    (Toolset.ofRules brokenImport twoTexts) world

/-- The session after a first pass that has failed, when the import has been removed and the edit was
reported. -/
def stuckSession : Session Unit Unit (Bool × Bool) :=
  let failed := (((importSession (false, false)).bundle? 3).map Prod.snd).getD (importSession (false, false))
  ({ failed with work := { failed.work with world := (true, false) } }.queueChange ⟨"/main.js"⟩).2

theorem run_stuckSession :
    Run twoTexts (importSession (false, false)) [⟨"/main.js"⟩] [⟨"/main.js"⟩] stuckSession := by
  have hfailed : ((importSession (false, false)).bundle? 3).isSome = true := by decide
  obtain ⟨⟨result, failed⟩, hbundle⟩ := Option.isSome_iff_exists.1 hfailed
  have hpass : Run twoTexts (importSession (false, false)) [] [] failed :=
    Run.start.pass (fun _ h => by cases h) hbundle
  have hworld : failed.work.world = (false, false) := by
    have hkept : ((importSession (false, false)).bundle? 3).map (fun found => found.2.work.world) =
        some (false, false) := by decide
    rw [hbundle] at hkept
    exact Option.some.inj hkept
  have hedited : Run twoTexts (importSession (false, false)) [⟨"/main.js"⟩] []
      { failed with work := { failed.work with world := (true, false) } } :=
    hpass.edit fun q hq => by simp [twoTexts, hq, hworld]
  unfold stuckSession
  rw [hbundle]
  exact hedited.report _

theorem Run.history {text : σ → Path → τ} {first session : Session κ π σ} {edited reported : List Path}
    (h : Run text first edited reported session) (hfirst : first.History) : session.History := by
  induction h with
  | start => exact hfirst
  | edit _ _ ih => exact ih.edit _
  | report p _ ih => exact ih.change p
  | pass _ _ hbundle ih => exact ih.pass hbundle

/-- In the session the other file still waits, though nothing imports it any more. -/
theorem waiting_stuckSession : stuckSession.work.state.start = some ⟨0⟩ ∧
    ⟨1⟩ ∈ stuckSession.work.state.queue ∧ ∃ asset, stuckSession.work.state.graph.get? ⟨1⟩ = some asset ∧
      asset.identity = ⟨"/x.js"⟩ := by
  have hstart : stuckSession.work.state.start = some ⟨0⟩ := by decide
  have hqueue : ⟨1⟩ ∈ stuckSession.work.state.queue := by decide
  have hasset : (stuckSession.work.state.graph.get? ⟨1⟩).map Asset.identity = some ⟨"/x.js"⟩ := by
    decide
  exact ⟨hstart, hqueue, Option.map_eq_some_iff.1 hasset⟩

/-- A session can fail in every pass although the first pass of a new session over the same sources succeeds:
a module that cannot be compiled waits though it is imported no more. -/
theorem exists_stuck :
    ¬ ∀ (rules : Rules Unit Bool) (text : Bool × Bool → Path → Bool) (settings : Settings) (entry : Path)
        (world world' : Bool × Bool) (edited reported : List Path)
        (session fresh' : Session Unit Unit (Bool × Bool)) (depth : Nat) (report : Report),
      Steady (Toolset.ofRules rules text) text rules → rules.Canonical →
      Run text (Session.new settings entry (.ofFallback ()) (.ofFallback ()) (Toolset.ofRules rules text)
        world) edited reported session →
      (∀ p ∈ edited, ∃ q ∈ reported, (p == q) = true) → text world' = text session.work.world →
      (Session.new settings entry (.ofFallback ()) (.ofFallback ()) (Toolset.ofRules rules text)
        world').bundle? depth = some (.ok report, fresh') →
      ∃ enough, ∀ depth, enough ≤ depth →
        ∃ report session', session.bundle? depth = some (.ok report, session') := by
  intro hclaim
  have hworld : twoTexts (true, false) = twoTexts stuckSession.work.world := by
    have hsame : stuckSession.work.world = (true, false) := by decide
    rw [hsame]
  have hnames : ((importSession (true, false)).plannedNames 3 3).isSome = true := by decide
  obtain ⟨names, hnames⟩ := Option.isSome_iff_exists.1 hnames
  obtain ⟨report, fresh', hfresh, -⟩ := bundle?_of_plannedNames steady_brokenImport hnames
  obtain ⟨enough, henough⟩ := hclaim brokenImport twoTexts _ _ _ _ _ _ stuckSession fresh' 3 report
    steady_brokenImport canonical_brokenImport run_stuckSession
    (fun p hp => ⟨p, hp, Path.beq_refl p⟩) hworld hfresh
  obtain ⟨report', session', hbundle⟩ := henough enough (Nat.le_refl _)
  -- but a pass of the session cannot succeed
  obtain ⟨hstart, hqueue, asset, hget, hidentity⟩ := waiting_stuckSession
  have hanswering : Answering stuckSession.tools
      (fun world => twoTexts world = twoTexts stuckSession.work.world)
      (brokenImport.answers (twoTexts stuckSession.work.world)) := by
    rw [run_stuckSession.tools]
    exact steady_brokenImport.answering _
  have hunready : (brokenImport.answers (twoTexts stuckSession.work.world)).Unready
      stuckSession.setup.types asset := by
    rintro unit modules ⟨htranslated, -⟩
    simp only [Rules.answers, brokenImport, hidentity] at htranslated
    rw [if_neg (by decide)] at htranslated
    cases htranslated
  obtain ⟨⟨failure, hfailure⟩, -⟩ := (run_stuckSession.history (.new _ _ _ _ _ _)).blocked hanswering rfl
    hstart hget hunready hqueue hbundle
  cases hfailure

/-- The first pass over the project of two files loads both of them. -/
theorem holds_twoSession {depth : Nat} {report : Report} {fresh' : Session Unit Unit (Bool × Bool)}
    (h : (twoSession oneName (true, true)).bundle? depth = some (.ok report, fresh')) :
    (∃ owner, fresh'.work.state.graph.Holds owner ⟨⟨"/main.js"⟩, {}⟩) ∧
      ∃ owner, fresh'.work.state.graph.Holds owner ⟨⟨"/x.js"⟩, {}⟩ := by
  have hnew : Awaits (twoFiles oneName) twoTexts (twoSession oneName (true, true)) [] []
      (twoSession oneName (true, true)) := .of_upToDate rfl rfl (State.upToDate_empty _ _ _)
  obtain ⟨-, hend⟩ := hnew.pass (steady_twoFiles oneName) canonical_oneName (fun _ hmem => by cases hmem) h
  obtain ⟨hqueue, -, start, hstart, hcurrent, -⟩ := hend report rfl
  obtain ⟨-, module, hfind, hmain⟩ := hcurrent.entered hstart
  obtain rfl : oneName "/main.js" = module := Except.ok.inj hfind
  have hname : oneName "/main.js" = ⟨⟨"/main.js"⟩, {}⟩ ∧ oneName "/x.js" = ⟨⟨"/x.js"⟩, {}⟩ := by
    decide
  rw [hname.1] at hmain
  refine ⟨⟨start, hmain⟩, ?_⟩
  -- the main file imports the other one
  obtain ⟨asset, hget, hidentity, -⟩ := hmain
  obtain ⟨unit, hunit⟩ := hcurrent.fresh hqueue hget
  have htranslated := hunit.translated
  rw [hidentity] at htranslated
  have hmain : (twoTexts (true, true) ⟨"/main.js"⟩ = true) ∧
      (Path.mk "/main.js" == ⟨"/main.js"⟩) = true := by decide
  have hunits : CompiledUnit.mk .empty "" [{ specifier := "/x.js", dynamic := true }] = unit := by
    refine Except.ok.inj (Eq.trans ?_ htranslated)
    show _ = (twoFiles oneName).translate _ _ _ (twoTexts (true, true) ⟨"/main.js"⟩)
    simp only [twoFiles, hmain, if_true]
  obtain ⟨module, hfind, target, -, hholds⟩ :=
    hunit.leads { specifier := "/x.js", dynamic := true } (by rw [← hunits]; exact List.mem_singleton_self _)
  obtain rfl : oneName "/x.js" = module := Except.ok.inj hfind
  rw [hname.2] at hholds
  exact ⟨target, hholds⟩

/-- The session in which both files have been edited recovers from its failure. -/
theorem recovers_editedSession : ∃ enough, ∀ depth, enough ≤ depth →
    ∃ report session', (editedSession oneName).bundle? depth = some (.ok report, session') := by
  have hrun := @run_editedSession oneName (by decide)
  have hnames : ((twoSession oneName (true, true)).plannedNames 3 3).isSome = true := by decide
  obtain ⟨names, hnames⟩ := Option.isSome_iff_exists.1 hnames
  obtain ⟨report, fresh', hfresh, -⟩ := bundle?_of_plannedNames (steady_twoFiles oneName) hnames
  obtain ⟨⟨main, hmain⟩, other, hother⟩ := holds_twoSession hfresh
  have hanswering : Answering (editedSession oneName).tools
      (fun world => twoTexts world = twoTexts (true, true))
      ((twoFiles oneName).answers (twoTexts (true, true))) := by
    rw [hrun.tools]
    exact (steady_twoFiles oneName).answering _
  have hcanonical : ((twoFiles oneName).answers (twoTexts (true, true))).Canonical := by
    intro specifier specifier' importer importer' module module' h h' hsame
    exact @canonical_oneName specifier specifier' importer importer' module module' h h' hsame
  have hwaiting : ∀ id ∈ (editedSession oneName).work.state.queue,
      ((editedSession oneName).work.state.graph.get? id).all (fun asset =>
        asset.package = {} ∧ (asset.identity = ⟨"/main.js"⟩ ∨ asset.identity = ⟨"/x.js"⟩)) = true := by
    decide
  have htools : (twoSession oneName (true, true)).tools = (editedSession oneName).tools := hrun.tools.symm
  have hsetup : (twoSession oneName (true, true)).setup = (editedSession oneName).setup :=
    (hrun.awaits (steady_twoFiles oneName) canonical_oneName).setup.symm
  refine (hrun.history (.new _ _ _ _ _ _)).recovers hanswering hcanonical
    (congrArg twoTexts (world_editedSession oneName)) htools hsetup rfl rfl hfresh
    fun id hid asset hget => ?_
  have hasset := hwaiting id hid
  rw [hget] at hasset
  simp only [Option.all_some, decide_eq_true_eq] at hasset
  obtain ⟨hpackage, hidentity | hidentity⟩ := hasset
  · rw [hpackage, hidentity]
    exact ⟨main, hmain⟩
  · rw [hpackage, hidentity]
    exact ⟨other, hother⟩

end Session

end Build
end ModuleBundler
