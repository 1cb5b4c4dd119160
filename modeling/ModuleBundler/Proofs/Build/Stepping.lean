import ModuleBundler.Proofs.Build.Trail

/-!
# The steps of a build

All that can happen from one moment of a build to the next is said once
({lit}`Step`): which tool may have been asked, what a step does to the assets, to
the queue and to the world, and what has to hold for it to be taken.  The functions
of a pass go from work to work by such steps, whatever the tools answer and however
the pass ends, and so do whole sessions.  What every step preserves therefore holds
at every moment.

Main results:

- Theorem {lit}`Linked.always`: what every step preserves holds at every moment.
- Theorem {lit}`Load.stepwise_traced`: loading goes step by step.
- Theorem {lit}`Pass.linked_run`: so does a pass.
- Theorem {lit}`Session.Trail.linked`: so does a session, from an empty state on.
-/

namespace ModuleBundler

/-- Live assets stay live as a graph grows. -/
theorem AssetGraph.growing_isLive {κ : Type} (types : AssetTypes κ) (id : AssetId) :
    Growing types fun graph => graph.IsLive id where
  update other _ _ h := (isLive_update _ other id _).2 h
  insert p package := by
    rintro ⟨asset, hget⟩
    exact ⟨asset, get?_insert_of_get? hget _ _ _⟩
  makeAlias p owner := by
    rintro ⟨asset, hget⟩
    exact ⟨asset, by rw [get?_makeAlias, hget]⟩

namespace Build

variable {κ π σ : Type}

/-! ## Steps -/

/-- Whether one world comes from another one by asking a tool once.  To watch files or to write
bundles is not to ask. -/
inductive Toolset.Asks (tools : Toolset κ π σ) : σ → σ → Prop where
  | resolve (specifier : String) (importer : Option Path) (world : σ) :
      Asks tools world (tools.resolve specifier importer world).2
  | compile (compiler : κ) (p : Path) (package : Package) (world : σ) :
      Asks tools world (tools.compile compiler p package world).2
  | implied (p : Path) (kind : Kind) (world : σ) : Asks tools world (tools.implied p kind world).2
  | arrivals (world : σ) : Asks tools world (tools.arrivals world).2
  | retrieve (p : Path) (world : σ) : Asks tools world (tools.retrieve p world).2
  | remember (p : Path) (unit : CompiledUnit) (inlined : List Path) (world : σ) :
      Asks tools world (tools.remember p unit inlined world)
  | forget (p : Path) (world : σ) : Asks tools world (tools.forget p world)
  | prepare (p : Path) (world : σ) : Asks tools world (tools.prepare p world).2
  | update (assets : List LiveUpdate.UpdatedAsset) (world : σ) :
      Asks tools world (tools.update assets world)
  | alert (failure : Failure) (world : σ) : Asks tools world (tools.alert failure world)

/-- Whether one world comes from another one when bundles are to be written one after another.  Behind a
bundle that cannot be written there may be no attempt to write the others. -/
inductive Toolset.Writes (tools : Toolset κ π σ) : List PackagedBundle → σ → σ → Prop where
  | nil (world : σ) : Writes tools [] world world
  | cons {rest : List PackagedBundle} {world' : σ} (packager : π) (bundle : PackagedBundle) (world : σ) :
      Writes tools rest (tools.write packager bundle world).2 world' →
        Writes tools (bundle :: rest) world world'
  | stop {failure : Failure} (packager : π) (bundle : PackagedBundle) (rest : List PackagedBundle)
      (world : σ) : (tools.write packager bundle world).1 = .error failure →
        Writes tools (bundle :: rest) world (tools.write packager bundle world).2

/-- What can be done next. -/
inductive Step (tools : Toolset κ π σ) (outside : Outside σ) (work : Work σ) : Moment σ → Prop where
  | begun {next : Work σ} : next.state = work.state → next.world = work.world →
      Step tools outside work ⟨.begun work.state.start.isNone, next⟩
  | asked {next : Work σ} : next.state = work.state →
      Relation.ReflTransGen tools.Asks work.world next.world → Step tools outside work ⟨.asked, next⟩
  | noticed (p : Path) : Step tools outside work ⟨.noticed p, (work.notify p).2⟩
  | taken (invalidate : Bool) :
      Step tools outside work
        ⟨.taken (work.state.drain invalidate).1, { work with state := (work.state.drain invalidate).2 }⟩
  | claimed {id : AssetId} {asset : Asset} {claimed : Work σ} :
      Load.claim work id = some (asset, claimed) → Step tools outside work ⟨.claimed id, claimed⟩
  | kept {id : AssetId} (unit : CompiledUnit) : work.state.graph.IsLive id →
      Step tools outside work ⟨.kept id unit, { work with state := work.state.keep id unit }⟩
  | recorded (types : AssetTypes κ) {id : AssetId}
      (modules : List (Dependency × Lookup.Modules.Resolved)) : work.state.graph.IsLive id →
      Step tools outside work ⟨.recorded id modules, (Work.recordAll tools types id modules work).2⟩
  | returned {id : AssetId} : work.state.graph.IsLive id →
      Step tools outside work ⟨.returned id, Load.giveBack work id⟩
  | entered (types : AssetTypes κ) (module : Lookup.Modules.Resolved) :
      Step tools outside work
        ⟨.entered module, { (work.enter tools types module).2 with
          state := State.enqueue
            { (work.enter tools types module).2.state with
              start := some (work.enter tools types module).1 }
            (work.enter tools types module).1 }⟩
  | sent (assets : List LiveUpdate.UpdatedAsset) :
      Step tools outside work ⟨.sent assets, { work with world := tools.update assets work.world }⟩
  | laidOut (outDir : Path) (start : AssetId) :
      Step tools outside work
        ⟨.laidOut (Pass.layOut outDir start work).1, (Pass.layOut outDir start work).2⟩
  | written {bundles : List PackagedBundle} {world : σ} : tools.Writes bundles work.world world →
      Step tools outside work ⟨.written bundles, { work with world }⟩
  | finished (hashes : Packaging.Fingerprints) :
      Step tools outside work
        ⟨.finished, Pass.unload tools
          { work with state := { work.state with fingerprints := some hashes } }⟩
  | edited {world : σ} : outside.turns work.world world →
      Step tools outside work ⟨.edited, { work with world }⟩
  | closed : outside.stops ∨ tools.watches = false →
      Step tools outside work ⟨.closed, { work with world := tools.close work.world }⟩

/-- Whether a trail leads from one work to another one step by step. -/
inductive Linked (tools : Toolset κ π σ) (outside : Outside σ) :
    Work σ → List (Moment σ) → Work σ → Prop where
  | nil (work : Work σ) : Linked tools outside work [] work
  | cons {work next : Work σ} {moment : Moment σ} {rest : List (Moment σ)} :
      Step tools outside work moment → Linked tools outside moment.work rest next →
        Linked tools outside work (moment :: rest) next

namespace Linked

variable {tools : Toolset κ π σ} {outside : Outside σ} {work mid next : Work σ}
  {trail more : List (Moment σ)} {moment : Moment σ}

theorem single (h : Step tools outside work moment) : Linked tools outside work [moment] moment.work :=
  .cons h (.nil _)

theorem append (h : Linked tools outside work trail mid) (hmore : Linked tools outside mid more next) :
    Linked tools outside work (trail ++ more) next := by
  induction h with
  | nil => exact hmore
  | cons hstep _ ih => exact .cons hstep (ih hmore)

/-- A trail leads through every one of its moments. -/
theorem split (h : Linked tools outside work (trail ++ moment :: more) next) :
    Linked tools outside work (trail ++ [moment]) moment.work ∧
      Linked tools outside moment.work more next := by
  induction trail generalizing work with
  | nil =>
    cases h with
    | cons hstep hrest => exact ⟨.single hstep, hrest⟩
  | cons first rest ih =>
    cases h with
    | cons hstep hrest => exact (ih hrest).imp_left (.cons hstep)

/-- The last moment of a trail is reached by a step from what the rest of the trail leads to. -/
theorem last (h : Linked tools outside work (trail ++ [moment]) next) :
    ∃ before, Linked tools outside work trail before ∧ Step tools outside before moment := by
  induction trail generalizing work with
  | nil =>
    cases h with
    | cons hstep _ => exact ⟨work, .nil work, hstep⟩
  | cons first rest ih =>
    cases h with
    | cons hstep hrest =>
      obtain ⟨before, hbefore, hlast⟩ := ih hrest
      exact ⟨before, .cons hstep hbefore, hlast⟩

/-- What every step preserves holds at every moment.  Deeds that do not occur need not be considered. -/
theorem always (holds : Work σ → Prop) (deeds : Deed → Prop)
    (h : Linked tools outside work trail next)
    (hstep : ∀ {work : Work σ} {moment : Moment σ}, holds work → Step tools outside work moment →
      deeds moment.deed → holds moment.work)
    (hdeeds : ∀ moment ∈ trail, deeds moment.deed) (hwork : holds work) :
    (∀ moment ∈ trail, holds moment.work) ∧ holds next := by
  induction h with
  | nil => exact ⟨fun _ hmem => (by cases hmem), hwork⟩
  | cons hfirst _ ih =>
    have hmoment := hstep hwork hfirst (hdeeds _ List.mem_cons_self)
    obtain ⟨hrest, hnext⟩ := ih (fun moment hmem => hdeeds moment (List.mem_cons_of_mem _ hmem)) hmoment
    exact ⟨List.forall_mem_cons.2 ⟨hmoment, hrest⟩, hnext⟩

end Linked

/-! ## Making an asset ready -/

namespace Work

variable (tools : Toolset κ π σ) (outside : Outside σ)

theorem linked_notifyAll (changes : List Path) (work : Work σ) :
    Linked tools outside work (noticedTrail changes work) (work.notifyAll changes) := by
  induction changes generalizing work with
  | nil => exact .nil _
  | cons p rest ih => exact .cons (.noticed p) (ih _)

theorem linked_listen (work : Work σ) :
    Linked tools outside work (work.listenTrail tools) (work.listen tools) :=
  .cons (.asked rfl (.single (.arrivals work.world))) (linked_notifyAll tools outside _ _)

/-- When a tool has answered, the build listens. -/
theorem linked_answered (work answered : Work σ) (hstate : answered.state = work.state)
    (hworld : Relation.ReflTransGen tools.Asks work.world answered.world) :
    Linked tools outside work (answered.answeredTrail tools) (answered.listen tools) :=
  .cons (.asked hstate hworld) (linked_listen tools outside answered)

theorem linked_compile (types : AssetTypes κ) (work : Work σ) (asset : Asset) :
    Linked tools outside work (work.compileTrail tools types asset) (work.compile tools types asset).2 := by
  have hretrieve : tools.Asks _ _ := .retrieve asset.identity work.world
  unfold compileTrail compile
  generalize tools.retrieve asset.identity work.world = retrieved at hretrieve
  obtain ⟨recalled, world⟩ := retrieved
  have hasked := linked_answered tools outside work { work with world } rfl (.single hretrieve)
  cases recalled with
  | some unit => exact hasked
  | none => exact hasked.append (linked_answered tools outside _ _ rfl (.single (.compile _ _ _ _)))

theorem linked_dependencies (work : Work σ) (asset : Asset) (unit : CompiledUnit) :
    Linked tools outside work (work.dependenciesTrail tools asset)
      (work.dependencies tools asset unit).2 := by
  have himplied : tools.Asks _ _ := .implied asset.identity asset.kind work.world
  unfold dependenciesTrail dependencies
  generalize tools.implied asset.identity asset.kind work.world = answered at himplied
  obtain ⟨result, world⟩ := answered
  have hasked := linked_answered tools outside work { work with world } rfl (.single himplied)
  cases result with
  | ok implied => exact hasked
  | error failure => exact hasked

theorem linked_find (work : Work σ) (importer : Path) (dep : Dependency) :
    Linked tools outside work (work.findTrail tools importer dep) (work.find tools importer dep).2 := by
  have hasked := linked_answered tools outside work
    ({ work with world := (tools.resolve dep.specifier (some importer) work.world).2 }.warn
      (tools.resolve dep.specifier (some importer) work.world).1.warnings) rfl
    (.single (.resolve dep.specifier (some importer) work.world))
  unfold findTrail find
  dsimp only
  split
  · exact hasked
  · split
    · exact hasked
    · exact hasked
  · exact hasked

theorem linked_findEach (inOrder : Bool) (importer : Path) (dependencies : List Dependency)
    (imports : Imports) (work : Work σ) :
    Linked tools outside work (findEachTrail tools inOrder importer dependencies imports work)
      (findEach tools inOrder importer dependencies imports work).2 := by
  induction dependencies generalizing imports work with
  | nil => exact .nil _
  | cons dep rest ih =>
    have hfind := linked_find tools outside work importer dep
    unfold findEachTrail findEach
    generalize work.find tools importer dep = found at hfind
    obtain ⟨finding, next⟩ := found
    apply hfind.append
    cases finding with
    | found module => exact ih _ _
    | late failure => exact ih _ _
    | failed failure =>
      dsimp only
      split
      · exact ih _ _
      · exact .nil _

theorem linked_remember (work : Work σ) (asset : Asset) (unit : CompiledUnit) (isNew : Bool)
    (modules : List (Dependency × Lookup.Modules.Resolved)) :
    Linked tools outside work (work.rememberTrail tools asset unit isNew modules)
      (work.remember tools asset unit isNew modules) := by
  unfold rememberTrail remember
  split
  · exact linked_answered tools outside _ _ rfl (.single (.remember _ _ _ _))
  · exact .nil _

/-- Making a claimed asset ready goes step by step. -/
theorem linked_prepare (types : AssetTypes κ) (work : Work σ) {id : AssetId} (asset : Asset)
    (hlive : work.state.graph.IsLive id) :
    Linked tools outside work (work.prepareTrail tools types id asset)
      (work.prepare tools types id asset).2 := by
  have hcompile := linked_compile tools outside types work asset
  have hcompiled := notices_compile tools types work asset
  unfold prepareTrail prepare
  generalize work.compile tools types asset = compiled at hcompile hcompiled
  obtain ⟨result, work₁⟩ := compiled
  apply hcompile.append
  cases result with
  | error failure => exact .nil _
  | ok compiled =>
    obtain ⟨unit, isNew⟩ := compiled
    have hdependencies := linked_dependencies tools outside work₁ asset unit
    have hdeclared := hcompiled.trans (notices_dependencies tools work₁ asset unit)
    dsimp only
    generalize work₁.dependencies tools asset unit = declared at hdependencies hdeclared
    obtain ⟨result, work₂⟩ := declared
    apply hdependencies.append
    cases result with
    | error failure => exact .nil _
    | ok dependencies =>
      have hlive₂ : work₂.state.graph.IsLive id := by
        rw [hdeclared.graph]
        exact hlive
      have hlive₃ : (work₂.state.keep id unit).graph.IsLive id :=
        (AssetGraph.isLive_update _ _ _ _).2 hlive₂
      have hfind := linked_findEach tools outside (decide (sideBySide < dependencies.length))
        asset.identity dependencies (.found []) { work₂ with state := work₂.state.keep id unit }
      have hfound := notices_findAll tools { work₂ with state := work₂.state.keep id unit } asset.identity
        dependencies
      refine .cons (.kept unit hlive₂) ?_
      unfold findAllTrail findAll at *
      dsimp only
      generalize findEach tools (decide (sideBySide < dependencies.length)) asset.identity dependencies
        (.found []) ({ work₂ with state := work₂.state.keep id unit } : Work σ) = found at hfind hfound
      obtain ⟨imports, work₃⟩ := found
      apply hfind.append
      cases imports with
      | failed failure => exact .nil _
      | late failure => exact .nil _
      | found modules =>
        have hremembered := hfound.trans (notices_remember tools work₃ asset unit isNew modules)
        refine (linked_remember tools outside work₃ asset unit isNew modules).append (.single ?_)
        refine .recorded types modules ?_
        rw [hremembered.graph]
        exact hlive₃

end Work

/-! ## Loading -/

namespace Load

variable {tools : Toolset κ π σ} (outside : Outside σ) {types : AssetTypes κ}

/-- Assets that are live stay live while a claimed one is made ready. -/
theorem isLive_prepare {id other : AssetId} {asset : Asset} {work claimed : Work σ}
    (hclaim : claim work id = some (asset, claimed)) (hlive : work.state.graph.IsLive other) :
    (claimed.prepare tools types id asset).2.state.graph.IsLive other := by
  have hinv := growing_invariant (AssetGraph.growing_isLive types other) tools
  cases hprepare : claimed.prepare tools types id asset with
  | mk preparation next =>
    have hunready := @hinv.unready [] [] id asset work claimed hlive hclaim
    rw [hprepare] at hunready
    cases preparation with
    | ready children => exact @hinv.ready [] [] children id asset work claimed next hlive hclaim hprepare
    | failed failure => exact hunready fun _ h => by cases h
    | late failure => exact hunready fun _ h => by cases h

theorem isLive_foldl_giveBack {other : AssetId} (ids : List AssetId) {work : Work σ}
    (hlive : work.state.graph.IsLive other) : (ids.foldl giveBack work).state.graph.IsLive other := by
  induction ids generalizing work with
  | nil => exact hlive
  | cons id rest ih => exact ih ((AssetGraph.isLive_update _ _ _ _).2 hlive)

theorem linked_return (ids : List AssetId) {work : Work σ}
    (hlive : ∀ id ∈ ids, work.state.graph.IsLive id) :
    Linked tools outside work (returnTrail ids work) (ids.foldl giveBack work) := by
  induction ids generalizing work with
  | nil => exact .nil _
  | cons id rest ih =>
    refine .cons (.returned (hlive id List.mem_cons_self)) (ih fun other hmem => ?_)
    exact isLive_foldl_giveBack [id] (hlive other (List.mem_cons_of_mem _ hmem))

/-- Whether a trail leads step by step from one work to another one, in which nothing has ceased to be live
and what is late is live. -/
structure Stepwise (tools : Toolset κ π σ) (outside : Outside σ) (work : Work σ) (trail : List (Moment σ))
    (outcome : Outcome) (next : Work σ) : Prop where
  linked : Linked tools outside work trail next
  lasts : ∀ id, work.state.graph.IsLive id → next.state.graph.IsLive id
  late : ∀ id ∈ outcome.late, next.state.graph.IsLive id

/-- What comes after the children of an asset goes step by step. -/
theorem stepwise_conclude {id : AssetId} {children : Outcome} {work : Work σ}
    (hlive : work.state.graph.IsLive id) (hlate : ∀ other ∈ children.late, work.state.graph.IsLive other) :
    Stepwise tools outside work (concludeTrail id children work) (conclude id children work).1
      (conclude id children work).2 := by
  unfold concludeTrail conclude
  split
  · rename_i failure hsome hnil
    rw [hsome, hnil]
    refine ⟨linked_return outside [id] (by simpa using hlive), fun _ h => ?_, fun _ hmem => by cases hmem⟩
    exact isLive_foldl_giveBack [id] h
  · rename_i hnot
    split
    · exact ⟨.nil _, fun _ h => h, fun _ hmem => by cases hmem⟩
    · rename_i failure hsome hnil
      exact absurd hnil (hnot failure hsome)
    · refine ⟨.nil _, fun _ h => h, fun other hmem => ?_⟩
      rcases List.mem_append.1 hmem with hmem | hmem
      · exact hlate other hmem
      · rwa [List.mem_singleton.1 hmem]

/-- Claiming an asset and making it ready goes step by step, and the asset is live then. -/
theorem linked_prepare (tools : Toolset κ π σ) (types : AssetTypes κ) {id : AssetId} {asset : Asset}
    {work claimed : Work σ} (hclaim : claim work id = some (asset, claimed)) :
    Linked tools outside work (⟨.claimed id, claimed⟩ :: claimed.prepareTrail tools types id asset)
        (claimed.prepare tools types id asset).2 ∧
      (∀ other, work.state.graph.IsLive other →
        (claimed.prepare tools types id asset).2.state.graph.IsLive other) ∧
      (claimed.prepare tools types id asset).2.state.graph.IsLive id := by
  obtain ⟨hget, -, hclaimed⟩ := State.of_claim (of_claim hclaim).1
  have hlive : claimed.state.graph.IsLive id := by
    rw [hclaimed]
    exact (AssetGraph.isLive_update _ _ _ _).2 ⟨asset, hget⟩
  have hlasts : ∀ other, work.state.graph.IsLive other →
      (claimed.prepare tools types id asset).2.state.graph.IsLive other :=
    fun _ => isLive_prepare hclaim
  exact ⟨.cons (.claimed hclaim) (Work.linked_prepare tools outside types claimed asset hlive), hlasts,
    hlasts id ⟨asset, hget⟩⟩

/-- All loading goes step by step. -/
theorem stepwise_traced (types : AssetTypes κ) : Traced tools types (Stepwise tools outside) where
  nil _ := ⟨.nil _, fun _ h => h, nofun⟩
  append hhead htail := by
    refine ⟨hhead.linked.append htail.linked, fun _ h => htail.lasts _ (hhead.lasts _ h), ?_⟩
    intro other hmem
    rcases List.mem_append.1 hmem with hlate | hlate
    · exact htail.lasts other (hhead.late other hlate)
    · exact htail.late other hlate
  failed {id} _ _ _ _ _ hclaim hprepare := by
    obtain ⟨hlinked, hlasts, hid⟩ := linked_prepare outside tools types hclaim
    rw [hprepare] at hlinked hlasts hid
    exact ⟨hlinked.append (linked_return outside [id] (by simpa using hid)),
      fun _ h => isLive_foldl_giveBack [id] (hlasts _ h), nofun⟩
  late hclaim hprepare := by
    obtain ⟨hlinked, hlasts, hid⟩ := linked_prepare outside tools types hclaim
    rw [hprepare] at hlinked hlasts hid
    exact ⟨hlinked.append (.nil _), hlasts, List.forall_mem_singleton.2 hid⟩
  ready hclaim hprepare hchildren := by
    obtain ⟨hlinked, hlasts, hid⟩ := linked_prepare outside tools types hclaim
    rw [hprepare] at hlinked hlasts hid
    have hconclude : Stepwise tools outside _ _ _ _ :=
      stepwise_conclude outside (hchildren.lasts _ hid) hchildren.late
    exact ⟨hlinked.append (hchildren.linked.append hconclude.linked),
      fun _ h => hconclude.lasts _ (hchildren.lasts _ (hlasts _ h)), hconclude.late⟩

/-- Loading a batch goes step by step. -/
theorem linked_batch (types : AssetTypes κ) {depth : Nat} {ids : List AssetId} {work next : Work σ}
    {failure? : Option Failure} (hbatch : batch tools types depth ids work = some (failure?, next)) :
    Linked tools outside work (batchTrail tools types depth ids work) next := by
  obtain ⟨trail, outcome, loaded, -, hloaded, htrail, -, rfl⟩ := (stepwise_traced outside types).batch hbatch
  rw [htrail]
  exact hloaded.linked.append (linked_return outside outcome.late hloaded.late)

end Load

/-! ## Passes -/

namespace Pass

variable (tools : Toolset κ π σ) (outside : Outside σ)

theorem linked_forgetAll (ids : List AssetId) (work : Work σ) :
    Linked tools outside work (forgetTrail tools ids work) (forgetAll tools ids work) := by
  have hforget : ∀ (paths : List Path) (world : σ), Relation.ReflTransGen tools.Asks world
      (paths.foldl (fun world p => tools.forget p world) world) := by
    intro paths
    induction paths with
    | nil => exact fun _ => .refl
    | cons p rest ih => exact fun world => .head (.forget p world) (ih _)
  exact Work.linked_answered tools outside _ _ rfl (hforget _ _)

theorem linked_begin (first : Bool) (work : Work σ) :
    Linked tools outside { work with state := (work.state.drain (!first)).2 } (beginTrail tools first work)
      (begin tools first work) := by
  unfold beginTrail begin
  split
  · exact .nil _
  · exact linked_forgetAll tools outside _ _

theorem linked_drain (types : AssetTypes κ) {first : Bool} {depth batches : Nat} {loaded : List AssetId}
    {work next : Work σ} {result : Except Failure (List AssetId)}
    (hdrain : drain tools types first depth batches loaded work = some (result, next)) :
    Linked tools outside work (drainTrail tools types first depth batches work) next := by
  induction batches generalizing loaded work with
  | zero => simp [drain] at hdrain
  | succ batches ih =>
    rcases drainTrail_cases hdrain with ⟨hempty, -, rfl, htrail⟩ | ⟨failure?, after, more, hbatch, htrail, hrest⟩
    · rw [htrail, ← hempty]
      exact .single (.taken (!first))
    · rw [htrail]
      refine .cons (.taken (!first)) ((linked_begin tools outside first work).append
        ((Load.linked_batch outside types hbatch).append ?_))
      rcases hrest with ⟨failure, -, -, rfl, rfl⟩ | ⟨-, hrest, rfl⟩
      · exact .nil _
      · exact ih hrest

theorem linked_sendUpdate (loaded : List AssetId) (work : Work σ) :
    Linked tools outside work (sendTrail tools loaded work) (sendUpdate tools loaded work) :=
  .cons (.sent _) (Work.linked_listen tools outside _)

theorem linked_sent (first : Bool) (loaded : List AssetId) (work : Work σ) :
    Linked tools outside work (if first then [] else sendTrail tools loaded work)
      (sent tools first loaded work) := by
  unfold sent
  split
  · exact .nil _
  · exact linked_sendUpdate tools outside loaded work

theorem linked_gather (types : AssetTypes κ) {first : Bool} {depth : Nat} {work next : Work σ}
    {result : Except Failure AssetId}
    (hgather : gather tools types first depth work = some (result, next)) :
    Linked tools outside work (gatherTrail tools types first depth work) next := by
  unfold gatherTrail
  rcases gather_cases hgather with ⟨failure, -, hdrain⟩ | ⟨loaded, drained, hdrain, rfl, -⟩
  · rw [hdrain]
    exact (linked_drain tools outside types hdrain).append (.nil _)
  · rw [hdrain]
    exact (linked_drain tools outside types hdrain).append (linked_sent tools outside first loaded drained)

/-- Finding the entry goes step by step. -/
theorem linked_enter (setup : Setup κ π) (work : Work σ) :
    Linked tools outside work (enterTrail tools setup work) (enter tools setup work).2 := by
  have hprepare : tools.Asks _ _ :=
    .prepare setup.outDir (work.tell (.opened setup.entry setup.outDir)).world
  unfold enterTrail enter
  dsimp only
  generalize tools.prepare setup.outDir (work.tell (.opened setup.entry setup.outDir)).world = prepared
    at hprepare
  obtain ⟨result, world⟩ := prepared
  refine (Work.linked_answered tools outside work
    { work.tell (.opened setup.entry setup.outDir) with world } rfl (.single hprepare)).append ?_
  cases result with
  | error failure => exact .nil _
  | ok done =>
    dsimp only
    generalize Work.listen tools ({ work.tell (.opened setup.entry setup.outDir) with world } : Work σ) =
      prepared
    have hanswered := Work.linked_answered tools outside prepared
      (({ prepared with world := (tools.resolve setup.entry.text none prepared.world).2 } :
        Work σ).warn (tools.resolve setup.entry.text none prepared.world).1.warnings)
      rfl (.single (.resolve setup.entry.text none prepared.world))
    refine hanswered.append ?_
    cases hresult : (tools.resolve setup.entry.text none prepared.world).1.result with
    | error failure => exact .nil _
    | ok module => exact .single (.entered setup.types module)

theorem linked_assemble (setup : Setup κ π) {depth : Nat} {work next : Work σ}
    {result : Except Failure AssetId}
    (hassemble : assemble tools setup depth work = some (result, next)) :
    Linked tools outside work (assembleTrail tools setup depth work) next := by
  unfold assembleTrail
  have henters := linked_enter tools outside setup work
  rcases assemble_cases hassemble with ⟨failure, hstart, -, henter⟩ | ⟨entered, hstart, henter, hgather⟩ |
    ⟨start, hstart, hgather⟩
  · rw [henter] at henters
    rw [hstart, henter]
    exact henters.append (.nil _)
  · rw [henter] at henters
    rw [hstart, henter]
    exact henters.append (linked_gather tools outside setup.types hgather)
  · rw [hstart]
    exact linked_gather tools outside setup.types hgather

/-- Both ways of writing bundles write them one after another. -/
theorem writes_run (packagers : Packagers π) (bundles : List PackagedBundle) (world : σ) :
    tools.Writes bundles world (packagers.runAll tools.write bundles world).2 ∧
      tools.Writes bundles world (packagers.runInTurn tools.write bundles world).2 := by
  induction bundles generalizing world with
  | nil => exact ⟨.nil world, .nil world⟩
  | cons bundle rest ih =>
    obtain ⟨hall, hturn⟩ := ih (tools.write (packagers.packagerFor bundle.kind) bundle world).2
    have hnext : tools.Writes (bundle :: rest) world _ := .cons _ _ _ hall
    have hnext' : tools.Writes (bundle :: rest) world _ := .cons _ _ _ hturn
    have hstop {failure : Failure} := @Toolset.Writes.stop κ π σ tools failure
      (packagers.packagerFor bundle.kind) bundle rest world
    unfold Packagers.runAll Packagers.runInTurn
    generalize tools.write (packagers.packagerFor bundle.kind) bundle world = written at hnext hnext' hstop
    obtain ⟨result, world'⟩ := written
    cases result with
    | ok done => exact ⟨hnext, hnext'⟩
    | error failure => exact ⟨hnext, hstop rfl⟩

theorem linked_write (packagers : Packagers π) (bundles : List PackagedBundle) (work : Work σ) :
    Linked tools outside work (writeTrail tools packagers bundles work)
      (write tools packagers bundles work).2 := by
  obtain ⟨hall, hturn⟩ := writes_run tools packagers bundles work.world
  have hwritten : tools.Writes bundles work.world
      (if tools.writesOn then packagers.runAll tools.write bundles work.world
        else packagers.runInTurn tools.write bundles work.world).2 := by
    split
    · exact hall
    · exact hturn
  exact .cons (.written hwritten) (Work.linked_listen tools outside _)

/-- The end of a pass goes step by step. -/
theorem linked_finish (setup : Setup κ π) (start : AssetId) (work : Work σ) :
    Linked tools outside work (finishTrail tools setup start work)
      (finish tools setup start work).2 := by
  have hwrite := linked_write tools outside setup.packagers
    (Packaging.plan (layOut setup.outDir start work).1 (layOut setup.outDir start work).2.state.graph
      (layOut setup.outDir start work).2.state.fingerprints).changed (layOut setup.outDir start work).2
  unfold finishTrail finish
  dsimp only
  refine .cons (.laidOut setup.outDir start) ?_
  generalize write tools setup.packagers
    (Packaging.plan (layOut setup.outDir start work).1 (layOut setup.outDir start work).2.state.graph
      (layOut setup.outDir start work).2.state.fingerprints).changed
    (layOut setup.outDir start work).2 = written at hwrite
  obtain ⟨result, written⟩ := written
  apply hwrite.append
  cases result with
  | error failure => exact .nil _
  | ok done => exact .single (.finished _)

/-- A pass goes step by step. -/
theorem linked_run (setup : Setup κ π) {depth : Nat} {work next : Work σ} {result : Except Failure Report}
    (hrun : run tools setup depth work = some (result, next)) :
    Linked tools outside work (runTrail tools setup depth work) next := by
  unfold runTrail
  rcases run_cases hrun with ⟨failure, -, hassemble⟩ | ⟨start, assembled, hassemble, hend⟩
  · rw [hassemble]
    exact (linked_assemble tools outside setup hassemble).append (.nil _)
  · have hfinish := linked_finish tools outside setup start assembled
    rw [hend] at hfinish
    rw [hassemble]
    exact (linked_assemble tools outside setup hassemble).append hfinish

end Pass

/-! ## Sessions -/

namespace Session

variable {outside : Outside σ} {session session' : Session κ π σ} {trail : List (Moment σ)}

/-- A pass of a session goes step by step. -/
theorem linked_passTrail (outside : Outside σ) {depth : Nat} {result : Except Failure Report}
    (hbundle : session.bundle? depth = some (result, session')) :
    Linked session.tools outside session.work (session.passTrail depth) session'.work := by
  unfold bundle? at hbundle
  unfold passTrail
  refine .cons (.begun rfl rfl) ?_
  dsimp only at hbundle ⊢
  rw [show Pass.run session.start.tools session.start.setup depth (session.start.work.tell .started) =
    Pass.run session.tools session.setup depth session.opening from rfl] at hbundle
  cases hrun : Pass.run session.tools session.setup depth session.opening with
  | none => simp [hrun] at hbundle
  | some found =>
    obtain ⟨outcome, next⟩ := found
    simp only [hrun, Option.some.injEq, Prod.mk.injEq] at hbundle
    obtain ⟨rfl, hsession⟩ := hbundle
    refine (Pass.linked_run session.tools outside session.setup hrun).append ?_
    have htold : Step session.tools outside next ⟨.asked, conclude session.tools outcome next⟩ := by
      cases outcome with
      | ok report => exact .asked rfl .refl
      | error failure => exact .asked rfl (.single (.alert failure next.world))
    refine .cons htold ?_
    rw [← hsession]
    have hstart : session.start.closesAfterPass = session.closesAfterPass := rfl
    have htools : session.start.tools = session.tools := rfl
    simp only [hstart, htools]
    split
    · rename_i hcloses
      simp only [Bool.and_eq_true, Bool.not_eq_true'] at hcloses
      exact .single (.closed (.inr hcloses.2))
    · exact .nil _

namespace Trail

theorem history (h : session.Trail outside trail) : session.History := by
  induction h with
  | new => exact .new _ _ _ _ _ _
  | addType _ hadd ih => exact .addType ih hadd
  | addPackager _ hadd ih => exact .addPackager ih hadd
  | edit _ _ ih => exact .edit _ ih
  | change p _ ih => exact .change p ih
  | pass _ hbundle ih => exact .pass ih hbundle
  | stop _ _ ih => exact .stop ih

/-- A session goes step by step, from an empty state on. -/
theorem linked (h : session.Trail outside trail) :
    ∃ world, outside.begins world ∧
      Linked session.tools outside ⟨{}, world, []⟩ trail session.work := by
  induction h with
  | @new _ _ _ _ _ world hbegins => exact ⟨world, hbegins, .nil _⟩
  | addType _ hadd ih =>
    obtain ⟨-, rfl⟩ := addType_cases hadd
    exact ih
  | addPackager _ hadd ih =>
    obtain ⟨-, rfl⟩ := addPackager_cases hadd
    exact ih
  | edit _ hturns ih =>
    exact ih.imp fun world h => ⟨h.1, h.2.append (.single (.edited hturns))⟩
  | change p _ ih =>
    exact ih.imp fun world h => ⟨h.1, h.2.append (.single (.noticed p))⟩
  | pass _ hbundle ih =>
    rw [tools_of_bundle? hbundle]
    exact ih.imp fun world h => ⟨h.1, h.2.append (linked_passTrail outside hbundle)⟩
  | stop _ hstops ih =>
    exact ih.imp fun world h => ⟨h.1, h.2.append (.single (.closed (.inl hstops)))⟩

end Trail
end Session
end Build
end ModuleBundler
