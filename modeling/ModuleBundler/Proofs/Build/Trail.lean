import Mathlib.Logic.Relation
import ModuleBundler.Proofs.Build.Lasting

/-!
# Trails of builds

A build goes from one work to the next in small steps: a tool is asked, a change is
reported, a batch is taken off the queue, an asset is claimed, its imports are
recorded, and so on.  The trail of a pass lists these steps, each with the work to
which it has led.  It is read off the functions of the pass, so that it shows
exactly the works that the build goes through.

A session has a trail as well, in which passes, reports of changes and changes of the
world follow one another in any order ({lit}`Session.Trail`).
-/

namespace ModuleBundler
namespace Build

variable {κ π σ : Type}

/-! ## Moments -/

/-- What a build has just done. -/
inductive Deed where
  /-- A pass was begun, the first one or a later one. -/
  | begun (first : Bool)
  /-- A tool was asked, or something was told. -/
  | asked
  /-- A change was reported. -/
  | noticed (p : Path)
  /-- A batch was taken off the queue. -/
  | taken (ids : List AssetId)
  | claimed (id : AssetId)
  /-- The output of an asset was kept. -/
  | kept (id : AssetId) (unit : CompiledUnit)
  /-- The imports of an asset were recorded. -/
  | recorded (id : AssetId) (modules : List (Dependency × Lookup.Modules.Resolved))
  /-- An asset was given back. -/
  | returned (id : AssetId)
  /-- The entry was found. -/
  | entered (module : Lookup.Modules.Resolved)
  /-- A live update was sent. -/
  | sent (assets : List LiveUpdate.UpdatedAsset)
  /-- The assets were laid out in bundles. -/
  | laidOut (tree : BundleTree)
  /-- Bundles were to be written; some of them may not have been. -/
  | written (bundles : List PackagedBundle)
  /-- The fingerprints of the bundles were kept, and what belongs to no bundle was unloaded. -/
  | finished
  /-- Between two passes the world has changed. -/
  | edited
  | closed
deriving DecidableEq

/-- A moment of a build: what was done, and the work to which that has led. -/
structure Moment (σ : Type) where
  deed : Deed
  work : Work σ

/-! ## Trails of loading -/

namespace Work

/-- What is done when changes are reported one after another. -/
def noticedTrail : List Path → Work σ → List (Moment σ)
  | [], _ => []
  | p :: rest, work => ⟨.noticed p, (work.notify p).2⟩ :: noticedTrail rest (work.notify p).2

/-- What is done while a build listens. -/
def listenTrail (tools : Toolset κ π σ) (work : Work σ) : List (Moment σ) :=
  let (changes, world) := tools.arrivals work.world
  ⟨.asked, { work with world }⟩ :: noticedTrail changes { work with world }

/-- What is done when a tool has answered. -/
def answeredTrail (tools : Toolset κ π σ) (answered : Work σ) : List (Moment σ) :=
  ⟨.asked, answered⟩ :: answered.listenTrail tools

/-- What is done until an asset has a unit. -/
def compileTrail (tools : Toolset κ π σ) (types : AssetTypes κ) (work : Work σ) (asset : Asset) :
    List (Moment σ) :=
  match tools.retrieve asset.identity work.world with
  | (some _, world) => ({ work with world } : Work σ).answeredTrail tools
  | (none, world) =>
    let waited := ({ work with world } : Work σ).listen tools
    let compiled :=
      tools.compile (types.compilerOf asset.identity) asset.identity asset.package waited.world
    ({ work with world } : Work σ).answeredTrail tools ++
      ({ waited with world := compiled.2 } : Work σ).answeredTrail tools

/-- What is done until all imports of an asset are known. -/
def dependenciesTrail (tools : Toolset κ π σ) (work : Work σ) (asset : Asset) : List (Moment σ) :=
  let (_, world) := tools.implied asset.identity asset.kind work.world
  ({ work with world } : Work σ).answeredTrail tools

/-- What is done until the module that an import means is found. -/
def findTrail (tools : Toolset κ π σ) (work : Work σ) (importer : Path) (dep : Dependency) :
    List (Moment σ) :=
  let (answer, world) := tools.resolve dep.specifier (some importer) work.world
  (({ work with world } : Work σ).warn answer.warnings).answeredTrail tools

/-- What is done until the modules that imports mean are found. -/
def findEachTrail (tools : Toolset κ π σ) (inOrder : Bool) (importer : Path) :
    List Dependency → Imports → Work σ → List (Moment σ)
  | [], _, _ => []
  | dep :: rest, imports, work =>
    work.findTrail tools importer dep ++
      match work.find tools importer dep with
      | (.found module, work) => findEachTrail tools inOrder importer rest (imports.add dep module) work
      | (.late failure, work) => findEachTrail tools inOrder importer rest (imports.miss failure) work
      | (.failed _, work) =>
        if imports.isLate && inOrder then findEachTrail tools inOrder importer rest imports work else []

/-- What is done until the modules that all imports of an asset mean are found. -/
def findAllTrail (tools : Toolset κ π σ) (work : Work σ) (importer : Path)
    (dependencies : List Dependency) : List (Moment σ) :=
  findEachTrail tools (decide (sideBySide < dependencies.length)) importer dependencies (.found []) work

/-- What is done until the unit of an asset is in the cache. -/
def rememberTrail (tools : Toolset κ π σ) (work : Work σ) (asset : Asset) (unit : CompiledUnit)
    (isNew : Bool) (modules : List (Dependency × Lookup.Modules.Resolved)) : List (Moment σ) :=
  if isNew then
    let inlined := (modules.filter fun found => found.1.inlined).map fun found => found.2.path
    ({ work with world := tools.remember asset.identity unit inlined work.world } :
      Work σ).answeredTrail tools
  else []

/-- What is done until a claimed asset is ready. -/
def prepareTrail (tools : Toolset κ π σ) (types : AssetTypes κ) (work : Work σ) (id : AssetId)
    (asset : Asset) : List (Moment σ) :=
  work.compileTrail tools types asset ++
    match work.compile tools types asset with
    | (.error _, _) => []
    | (.ok (unit, isNew), work) =>
      work.dependenciesTrail tools asset ++
        match work.dependencies tools asset unit with
        | (.error _, _) => []
        | (.ok dependencies, work) =>
          let work : Work σ := { work with state := work.state.keep id unit }
          ⟨.kept id unit, work⟩ ::
            (work.findAllTrail tools asset.identity dependencies ++
              match work.findAll tools asset.identity dependencies with
              | (.found modules, work) =>
                let remembered := work.remember tools asset unit isNew modules
                work.rememberTrail tools asset unit isNew modules ++
                  [⟨.recorded id modules, (recordAll tools types id modules remembered).2⟩]
              | (_, _) => [])

end Work

namespace Load

/-- What is done when assets are given back. -/
def returnTrail : List AssetId → Work σ → List (Moment σ)
  | [], _ => []
  | id :: rest, work => ⟨.returned id, giveBack work id⟩ :: returnTrail rest (giveBack work id)

/-- What is done when the children of an asset were loaded with the given outcome. -/
def concludeTrail (id : AssetId) (children : Outcome) (work : Work σ) : List (Moment σ) :=
  match children.failure?, children.late with
  | some _, [] => returnTrail [id] work
  | _, _ => []

/-- What is done while assets are loaded one after another. -/
def eachTrail (load : AssetId → Work σ → Option (Outcome × Work σ))
    (trail : AssetId → Work σ → List (Moment σ)) : List AssetId → Work σ → List (Moment σ)
  | [], _ => []
  | id :: rest, work =>
    trail id work ++
      match load id work with
      | none => []
      | some (_, work) => eachTrail load trail rest work

/-- What is done while an asset and all it imports are loaded. -/
def loadTrail (tools : Toolset κ π σ) (types : AssetTypes κ) :
    (depth : Nat) → AssetId → Work σ → List (Moment σ)
  | 0, _, _ => []
  | depth + 1, id, work =>
    match claim work id with
    | none => []
    | some (asset, work) =>
      ⟨.claimed id, work⟩ ::
        (work.prepareTrail tools types id asset ++
          match work.prepare tools types id asset with
          | (.failed _, work) => returnTrail [id] work
          | (.late _, _) => []
          | (.ready children, work) =>
            eachTrail (load tools types depth) (loadTrail tools types depth) children work ++
              match each (load tools types depth) children work with
              | none => []
              | some (outcome, work) => concludeTrail id outcome work)

/-- What is done while a batch is loaded. -/
def batchTrail (tools : Toolset κ π σ) (types : AssetTypes κ) (depth : Nat) (ids : List AssetId)
    (work : Work σ) : List (Moment σ) :=
  eachTrail (load tools types depth) (loadTrail tools types depth) ids work ++
    match each (load tools types depth) ids work with
    | none => []
    | some (outcome, work) => returnTrail outcome.late work

/-- A relation between a work, what is done from there, what comes of it and the work to which it leads.  It
holds of all loading if it holds of nothing, of what follows one another, and of each course that loading an
asset can take. -/
structure Traced (tools : Toolset κ π σ) (types : AssetTypes κ)
    (holds : Work σ → List (Moment σ) → Outcome → Work σ → Prop) : Prop where
  nil : ∀ work, holds work [] .loaded work
  append : ∀ {work between next : Work σ} {trail more : List (Moment σ)} {first second : Outcome},
    holds work trail first between → holds between more second next →
      holds work (trail ++ more) (first.and second) next
  failed : ∀ {id : AssetId} {asset : Asset} {work claimed prepared : Work σ} {failure : Failure},
    claim work id = some (asset, claimed) →
      claimed.prepare tools types id asset = (.failed failure, prepared) →
        holds work (⟨.claimed id, claimed⟩ ::
          (claimed.prepareTrail tools types id asset ++ returnTrail [id] prepared))
          ⟨some failure, []⟩ (giveBack prepared id)
  late : ∀ {id : AssetId} {asset : Asset} {work claimed prepared : Work σ} {failure : Failure},
    claim work id = some (asset, claimed) →
      claimed.prepare tools types id asset = (.late failure, prepared) →
        holds work (⟨.claimed id, claimed⟩ :: (claimed.prepareTrail tools types id asset ++ []))
          ⟨some failure, [id]⟩ prepared
  /-- The children of the asset are loaded in between. -/
  ready : ∀ {id : AssetId} {asset : Asset} {work claimed prepared loaded : Work σ}
    {children : List AssetId} {trail : List (Moment σ)} {more : Outcome},
    claim work id = some (asset, claimed) →
      claimed.prepare tools types id asset = (.ready children, prepared) →
        holds prepared trail more loaded →
          holds work (⟨.claimed id, claimed⟩ ::
            (claimed.prepareTrail tools types id asset ++ (trail ++ concludeTrail id more loaded)))
            (conclude id more loaded).1 (conclude id more loaded).2

namespace Traced

variable {tools : Toolset κ π σ} {types : AssetTypes κ}
  {holds : Work σ → List (Moment σ) → Outcome → Work σ → Prop}

theorem each (h : Traced tools types holds) {load : AssetId → Work σ → Option (Outcome × Work σ)}
    {trail : AssetId → Work σ → List (Moment σ)}
    (hload : ∀ {id : AssetId} {work next : Work σ} {outcome : Outcome},
      load id work = some (outcome, next) → holds work (trail id work) outcome next)
    (ids : List AssetId) {work next : Work σ} {outcome : Outcome}
    (heach : Load.each load ids work = some (outcome, next)) :
    holds work (eachTrail load trail ids work) outcome next := by
  induction ids generalizing work next outcome with
  | nil =>
    cases heach
    exact h.nil _
  | cons id rest ih =>
    obtain ⟨first, between, more, hfirst, hmore, rfl⟩ := each_cons_cases heach
    simp only [eachTrail, hfirst]
    exact h.append (hload hfirst) (ih hmore)

theorem load (h : Traced tools types holds) {depth : Nat} {id : AssetId} {work next : Work σ}
    {outcome : Outcome} (hload : Load.load tools types depth id work = some (outcome, next)) :
    holds work (loadTrail tools types depth id work) outcome next := by
  induction depth generalizing id work outcome next with
  | zero => simp [Load.load] at hload
  | succ depth ih =>
    cases load_course hload with
    | passed hclaim =>
      simp only [loadTrail, hclaim]
      exact h.nil _
    | failed hclaim hprepare =>
      simp only [loadTrail, hclaim, hprepare]
      exact h.failed hclaim hprepare
    | late hclaim hprepare =>
      simp only [loadTrail, hclaim, hprepare]
      exact h.late hclaim hprepare
    | ready hclaim hprepare hmore =>
      simp only [loadTrail, hclaim, hprepare, hmore]
      exact h.ready hclaim hprepare (h.each ih _ hmore)

/-- What is done while a batch is loaded: its assets are loaded, and what is late is given back. -/
theorem batch (h : Traced tools types holds) {depth : Nat} {ids : List AssetId} {work next : Work σ}
    {failure? : Option Failure} (hbatch : Load.batch tools types depth ids work = some (failure?, next)) :
    ∃ trail outcome loaded, Load.each (Load.load tools types depth) ids work = some (outcome, loaded) ∧
      holds work trail outcome loaded ∧
      batchTrail tools types depth ids work = trail ++ returnTrail outcome.late loaded ∧
      failure? = outcome.failure? ∧ next = outcome.late.foldl giveBack loaded := by
  obtain ⟨outcome, loaded, heach, hfailure, hnext⟩ := batch_cases hbatch
  refine ⟨_, outcome, loaded, heach, h.each h.load ids heach, ?_, hfailure, hnext⟩
  simp only [batchTrail, heach]

end Traced

end Load

/-! ## Trails of passes -/

namespace Pass

/-- What is done when a batch that was taken off the queue is dropped from the cache. -/
def forgetTrail (tools : Toolset κ π σ) (ids : List AssetId) (work : Work σ) : List (Moment σ) :=
  let identities := ids.filterMap fun id => (work.state.graph.get? id).map Asset.identity
  ({ work with world := identities.foldl (fun world p => tools.forget p world) work.world } :
    Work σ).answeredTrail tools

/-- What is done between the moment when a batch is taken off the queue and the moment when its loading
begins. -/
def beginTrail (tools : Toolset κ π σ) (first : Bool) (work : Work σ) : List (Moment σ) :=
  if first then []
  else forgetTrail tools (work.state.drain (!first)).1 { work with state := (work.state.drain (!first)).2 }

/-- What is done while one batch is loaded after another. -/
def drainTrail (tools : Toolset κ π σ) (types : AssetTypes κ) (first : Bool) (depth : Nat) :
    (batches : Nat) → Work σ → List (Moment σ)
  | 0, _ => []
  | batches + 1, work =>
    let ids := (work.state.drain (!first)).1
    let taken : Work σ := { work with state := (work.state.drain (!first)).2 }
    ⟨.taken ids, taken⟩ ::
      if ids.isEmpty then []
      else
        (if first then [] else forgetTrail tools ids taken) ++
          (Load.batchTrail tools types depth ids (begin tools first work) ++
            match Load.batch tools types depth ids (begin tools first work) with
            | some (none, next) => drainTrail tools types first depth batches next
            | _ => [])

/-- What is done while one batch is loaded after another: the queue is empty, or a batch fails, or a batch is
loaded and the next one follows. -/
theorem drainTrail_cases {tools : Toolset κ π σ} {types : AssetTypes κ} {first : Bool} {depth batches : Nat}
    {loaded : List AssetId} {work next : Work σ} {result : Except Failure (List AssetId)}
    (hdrain : drain tools types first depth (batches + 1) loaded work = some (result, next)) :
    ((work.state.drain (!first)).1 = [] ∧ result = .ok loaded ∧
      next = { work with state := (work.state.drain (!first)).2 } ∧
      drainTrail tools types first depth (batches + 1) work = [⟨.taken [], next⟩]) ∨
    ∃ failure? after more,
      Load.batch tools types depth (work.state.drain (!first)).1 (begin tools first work) =
          some (failure?, after) ∧
        drainTrail tools types first depth (batches + 1) work =
          ⟨.taken (work.state.drain (!first)).1, { work with state := (work.state.drain (!first)).2 }⟩ ::
            (beginTrail tools first work ++
              (Load.batchTrail tools types depth (work.state.drain (!first)).1 (begin tools first work) ++
                more)) ∧
        ((∃ failure, failure? = some failure ∧ result = .error failure ∧ next = after ∧ more = []) ∨
          failure? = none ∧
            drain tools types first depth batches
              ((work.state.drain (!first)).1.foldl (fun loaded id => includeLast id loaded) loaded) after =
                some (result, next) ∧
            more = drainTrail tools types first depth batches after) := by
  rcases drain_cases hdrain with ⟨hempty, hresult, rfl⟩ | ⟨failure, hsome, hresult, hbatch⟩ |
    ⟨after, hsome, hbatch, hrest⟩
  · refine .inl ⟨hempty, hresult, rfl, ?_⟩
    simp [drainTrail, hempty]
  · refine .inr ⟨_, next, [], hbatch, ?_, .inl ⟨failure, rfl, hresult, rfl, rfl⟩⟩
    rw [drainTrail, if_neg (mt List.isEmpty_iff.1 hsome), hbatch]
    rfl
  · refine .inr ⟨_, after, _, hbatch, ?_, .inr ⟨rfl, hrest, rfl⟩⟩
    rw [drainTrail, if_neg (mt List.isEmpty_iff.1 hsome), hbatch]
    rfl

/-- What is done while a live update is sent. -/
def sendTrail (tools : Toolset κ π σ) (loaded : List AssetId) (work : Work σ) : List (Moment σ) :=
  let changed := loaded.foldl (fun changed id => includeLast id changed) work.state.graph.orphans
  let assets := changed.filterMap work.state.graph.updated?
  let updated : Work σ := { work with world := tools.update assets work.world }
  ⟨.sent assets, updated⟩ :: updated.listenTrail tools

/-- What is done while all that waits is loaded. -/
def gatherTrail (tools : Toolset κ π σ) (types : AssetTypes κ) (first : Bool) (depth : Nat)
    (work : Work σ) : List (Moment σ) :=
  drainTrail tools types first depth depth work ++
    match drain tools types first depth depth [] work with
    | some (.ok loaded, next) => if first then [] else sendTrail tools loaded next
    | _ => []

/-- What is done until the entry is found. -/
def enterTrail (tools : Toolset κ π σ) (setup : Setup κ π) (work : Work σ) : List (Moment σ) :=
  let told := work.tell (.opened setup.entry setup.outDir)
  let made := tools.prepare setup.outDir told.world
  ({ told with world := made.2 } : Work σ).answeredTrail tools ++
    match made.1 with
    | .error _ => []
    | .ok _ =>
      let prepared := ({ told with world := made.2 } : Work σ).listen tools
      let answered := tools.resolve setup.entry.text none prepared.world
      (({ prepared with world := answered.2 } : Work σ).warn answered.1.warnings).answeredTrail tools ++
        match answered.1.result with
        | .error _ => []
        | .ok module => [⟨.entered module, (enter tools setup work).2⟩]

/-- What is done in a pass before the bundles are laid out. -/
def assembleTrail (tools : Toolset κ π σ) (setup : Setup κ π) (depth : Nat) (work : Work σ) :
    List (Moment σ) :=
  if work.state.start.isNone then
    enterTrail tools setup work ++
      match enter tools setup work with
      | (.error _, _) => []
      | (.ok _, work) => gatherTrail tools setup.types true depth work
  else gatherTrail tools setup.types false depth work

/-- What is done while bundles are written. -/
def writeTrail (tools : Toolset κ π σ) (packagers : Packagers π) (bundles : List PackagedBundle)
    (work : Work σ) : List (Moment σ) :=
  let written :=
    if tools.writesOn then packagers.runAll tools.write bundles work.world
    else packagers.runInTurn tools.write bundles work.world
  ⟨.written bundles, { work with world := written.2 }⟩ ::
    ({ work with world := written.2 } : Work σ).listenTrail tools

/-- What is done from the layout of the bundles on. -/
def finishTrail (tools : Toolset κ π σ) (setup : Setup κ π) (start : AssetId) (work : Work σ) :
    List (Moment σ) :=
  let laid := layOut setup.outDir start work
  let plan := Packaging.plan laid.1 laid.2.state.graph laid.2.state.fingerprints
  ⟨.laidOut laid.1, laid.2⟩ ::
    (writeTrail tools setup.packagers plan.changed laid.2 ++
      match write tools setup.packagers plan.changed laid.2 with
      | (.error _, _) => []
      | (.ok _, _) => [⟨.finished, (finish tools setup start work).2⟩])

/-- What is done in a pass. -/
def runTrail (tools : Toolset κ π σ) (setup : Setup κ π) (depth : Nat) (work : Work σ) :
    List (Moment σ) :=
  assembleTrail tools setup depth work ++
    match assemble tools setup depth work with
    | some (.ok start, next) => finishTrail tools setup start next
    | _ => []

end Pass

/-! ## Trails of sessions -/

namespace Session

/-- The work with which a pass of a session begins. -/
def opening (session : Session κ π σ) : Work σ :=
  session.work.tell .started

/-- What is done in a pass of a session. -/
def passTrail (session : Session κ π σ) (depth : Nat) : List (Moment σ) :=
  ⟨.begun session.opening.state.start.isNone, session.opening⟩ ::
    (Pass.runTrail session.tools session.setup depth session.opening ++
      match Pass.run session.tools session.setup depth session.opening with
      | none => []
      | some (result, next) =>
        let told := conclude session.tools result next
        ⟨.asked, told⟩ ::
          if session.closesAfterPass && !session.tools.watches then
            [⟨.closed, { told with world := session.tools.close told.world }⟩]
          else [])

end Session

/-- What the world is like outside of the passes of a session. -/
structure Outside (σ : Type) where
  /-- Whether a session can begin in a world. -/
  begins : σ → Prop
  /-- Whether one world can turn into another one between two passes. -/
  turns : σ → σ → Prop
  /-- Whether the session can be stopped. -/
  stops : Prop

/-- A world in which anything can happen. -/
def Outside.anything : Outside σ where
  begins _ := True
  turns _ _ := True
  stops := True

namespace Session

/-- The sessions that can come about, with all that was done in them so far. -/
inductive Trail (outside : Outside σ) : Session κ π σ → List (Moment σ) → Prop where
  | new (settings : Settings) (entry : Path) (types : AssetTypes κ) (packagers : Packagers π)
      (tools : Toolset κ π σ) {world : σ} :
      outside.begins world → Trail outside (Session.new settings entry types packagers tools world) []
  | addType {session session' : Session κ π σ} {trail : List (Moment σ)} {extension : String}
      {kind : Kind} {compiler : κ} :
      Trail outside session trail → session.addType extension kind compiler = .ok session' →
        Trail outside session' trail
  | addPackager {session session' : Session κ π σ} {trail : List (Moment σ)} {kind : Kind}
      {packager : π} :
      Trail outside session trail → session.addPackager kind packager = .ok session' →
        Trail outside session' trail
  | edit {session : Session κ π σ} {trail : List (Moment σ)} {world : σ} :
      Trail outside session trail → outside.turns session.work.world world →
        Trail outside { session with work := { session.work with world } }
          (trail ++ [⟨.edited, { session.work with world }⟩])
  | change {session : Session κ π σ} {trail : List (Moment σ)} (p : Path) :
      Trail outside session trail →
        Trail outside (session.queueChange p).2 (trail ++ [⟨.noticed p, (session.queueChange p).2.work⟩])
  | pass {session session' : Session κ π σ} {trail : List (Moment σ)} {depth : Nat}
      {result : Except Failure Report} :
      Trail outside session trail → session.bundle? depth = some (result, session') →
        Trail outside session' (trail ++ session.passTrail depth)
  | stop {session : Session κ π σ} {trail : List (Moment σ)} :
      Trail outside session trail → outside.stops →
        Trail outside session.stop (trail ++ [⟨.closed, session.stop.work⟩])

end Session

end Build
end ModuleBundler
