import ModuleBundler.Proofs.Build.Consistency

/-!
# Chronicles of builds

What happens in a build in the order in which it happens: changes are accepted,
batches are taken off the queue and compilations start.  The chronicle of a step
is read off the step itself, so that it tells of exactly the works that the build
goes through.

Main results:

- Theorem {lit}`Work.prepareEvents_eq`: without a cache, one compilation is started for a claimed asset,
  and all else that happens until it is ready is that changes are accepted.
- Theorem {lit}`Session.History.exists_chronicle`: every session has a chronicle.
-/

namespace ModuleBundler
namespace Build

/-- Something that happens in a build. -/
inductive Event where
  /-- A change that concerns an asset was accepted. -/
  | noticed (id : AssetId)
  /-- A batch was taken off the queue, by the first pass or by a later one. -/
  | taken (first : Bool) (ids : List AssetId)
  /-- The compilation of an asset was started. -/
  | started (id : AssetId)
deriving DecidableEq, Repr

namespace Event

/-- Whether all that happened is that changes were accepted. -/
def Quiet (events : List Event) : Prop :=
  ∀ event ∈ events, ∃ id, event = noticed id

theorem quiet_nil : Quiet [] := by
  simp [Quiet]

theorem Quiet.append {a b : List Event} (ha : Quiet a) (hb : Quiet b) : Quiet (a ++ b) := by
  intro event hmem
  exact (List.mem_append.1 hmem).elim (ha event) (hb event)

/-- No compilation was started where only changes were accepted. -/
theorem Quiet.count_started {events : List Event} (h : Quiet events) (id : AssetId) :
    events.count (started id) = 0 := by
  apply List.count_eq_zero.2
  intro hmem
  obtain ⟨other, hother⟩ := h _ hmem
  cases hother

/-- Nothing was taken off the queue where only changes were accepted. -/
theorem Quiet.not_taken {events : List Event} (h : Quiet events) (first : Bool) (ids : List AssetId) :
    taken first ids ∉ events := by
  intro hmem
  obtain ⟨id, hid⟩ := h _ hmem
  cases hid

end Event

variable {κ π σ : Type}

/-! ## Listening -/

namespace Work

/-- What happens when a change is reported. -/
def noticed (work : Work σ) (p : Path) : List Event :=
  (work.state.notify p).1.toList.map Event.noticed

/-- What happens when changes are reported one after another. -/
def noticedAll : List Path → Work σ → List Event
  | [], _ => []
  | p :: rest, work => work.noticed p ++ noticedAll rest (work.notify p).2

/-- What happens while a build listens. -/
def heard (tools : Toolset κ π σ) (work : Work σ) : List Event :=
  noticedAll (tools.arrivals work.world).1 { work with world := (tools.arrivals work.world).2 }

theorem quiet_noticed (work : Work σ) (p : Path) : Event.Quiet (work.noticed p) := by
  intro event hmem
  obtain ⟨id, -, rfl⟩ := List.mem_map.1 hmem
  exact ⟨id, rfl⟩

theorem quiet_noticedAll (changes : List Path) (work : Work σ) :
    Event.Quiet (noticedAll changes work) := by
  induction changes generalizing work with
  | nil => exact Event.quiet_nil
  | cons p rest ih => exact (work.quiet_noticed p).append (ih _)

theorem quiet_heard (tools : Toolset κ π σ) (work : Work σ) : Event.Quiet (work.heard tools) :=
  quiet_noticedAll _ _

/-! ## Making an asset ready -/

/-- What happens until an asset has a unit. -/
def compileEvents (tools : Toolset κ π σ) (types : AssetTypes κ) (work : Work σ) (id : AssetId)
    (asset : Asset) : List Event :=
  match tools.retrieve asset.identity work.world with
  | (some _, world) => ({ work with world } : Work σ).heard tools
  | (none, world) =>
    let asked := ({ work with world } : Work σ).listen tools
    let compiled :=
      tools.compile (types.compilerOf asset.identity) asset.identity asset.package asked.world
    ({ work with world } : Work σ).heard tools ++
      .started id :: ({ asked with world := compiled.2 } : Work σ).heard tools

/-- What happens until all imports of an asset are known. -/
def dependenciesEvents (tools : Toolset κ π σ) (work : Work σ) (asset : Asset) : List Event :=
  ({ work with world := (tools.implied asset.identity asset.kind work.world).2 } : Work σ).heard tools

/-- What happens until the module that an import means is found. -/
def findEvents (tools : Toolset κ π σ) (work : Work σ) (importer : Path) (dep : Dependency) :
    List Event :=
  let answered := tools.resolve dep.specifier (some importer) work.world
  (({ work with world := answered.2 } : Work σ).warn answered.1.warnings).heard tools

/-- What happens until the modules that imports mean are found. -/
def findEachEvents (tools : Toolset κ π σ) (inOrder : Bool) (importer : Path) :
    List Dependency → Imports → Work σ → List Event
  | [], _, _ => []
  | dep :: rest, imports, work =>
    work.findEvents tools importer dep ++
      match work.find tools importer dep with
      | (.found module, work) => findEachEvents tools inOrder importer rest (imports.add dep module) work
      | (.late failure, work) => findEachEvents tools inOrder importer rest (imports.miss failure) work
      | (.failed _, work) =>
        if imports.isLate && inOrder then findEachEvents tools inOrder importer rest imports work else []

/-- What happens until the modules that all imports of an asset mean are found. -/
def findAllEvents (tools : Toolset κ π σ) (work : Work σ) (importer : Path)
    (dependencies : List Dependency) : List Event :=
  findEachEvents tools (decide (sideBySide < dependencies.length)) importer dependencies (.found []) work

/-- What happens until the unit of an asset is in the cache. -/
def rememberEvents (tools : Toolset κ π σ) (work : Work σ) (asset : Asset) (unit : CompiledUnit)
    (isNew : Bool) (modules : List (Dependency × Lookup.Modules.Resolved)) : List Event :=
  if isNew then
    let inlined := (modules.filter fun found => found.1.inlined).map fun found => found.2.path
    ({ work with world := tools.remember asset.identity unit inlined work.world } : Work σ).heard tools
  else []

/-- What happens until a claimed asset is ready. -/
def prepareEvents (tools : Toolset κ π σ) (types : AssetTypes κ) (work : Work σ) (id : AssetId)
    (asset : Asset) : List Event :=
  work.compileEvents tools types id asset ++
    match work.compile tools types asset with
    | (.error _, _) => []
    | (.ok (unit, isNew), work) =>
      work.dependenciesEvents tools asset ++
        match work.dependencies tools asset unit with
        | (.error _, _) => []
        | (.ok dependencies, work) =>
          let work : Work σ := { work with state := work.state.keep id unit }
          work.findAllEvents tools asset.identity dependencies ++
            match work.findAll tools asset.identity dependencies with
            | (.found modules, work) => work.rememberEvents tools asset unit isNew modules
            | (_, _) => []

theorem quiet_findEachEvents (tools : Toolset κ π σ) (inOrder : Bool) (importer : Path)
    (dependencies : List Dependency) (imports : Imports) (work : Work σ) :
    Event.Quiet (findEachEvents tools inOrder importer dependencies imports work) := by
  induction dependencies generalizing imports work with
  | nil => exact Event.quiet_nil
  | cons dep rest ih =>
    unfold findEachEvents
    apply (quiet_heard tools _).append
    split
    · exact ih _ _
    · exact ih _ _
    · split
      · exact ih _ _
      · exact Event.quiet_nil

theorem quiet_rememberEvents (tools : Toolset κ π σ) (work : Work σ) (asset : Asset)
    (unit : CompiledUnit) (isNew : Bool) (modules : List (Dependency × Lookup.Modules.Resolved)) :
    Event.Quiet (work.rememberEvents tools asset unit isNew modules) := by
  unfold rememberEvents
  split
  · exact quiet_heard tools _
  · exact Event.quiet_nil

/-- Once an asset has a unit, all that happens until it is ready is that changes are accepted. -/
theorem prepareEvents_split (tools : Toolset κ π σ) (types : AssetTypes κ) (work : Work σ) (id : AssetId)
    (asset : Asset) : ∃ rest, Event.Quiet rest ∧
      work.prepareEvents tools types id asset = work.compileEvents tools types id asset ++ rest := by
  unfold prepareEvents
  refine ⟨_, ?_, rfl⟩
  split
  · exact Event.quiet_nil
  · apply (quiet_heard tools _).append
    split
    · exact Event.quiet_nil
    · apply (quiet_findEachEvents tools _ _ _ _ _).append
      split
      · exact quiet_rememberEvents tools _ _ _ _ _
      · exact Event.quiet_nil

end Work

/-! ## Loading -/

namespace Load

/-- What happens while assets are loaded one after another. -/
def eachEvents (load : AssetId → Work σ → Option (Outcome × Work σ))
    (events : AssetId → Work σ → List Event) : List AssetId → Work σ → List Event
  | [], _ => []
  | id :: rest, work =>
    events id work ++
      match load id work with
      | none => []
      | some (_, work) => eachEvents load events rest work

/-- What happens while an asset and all it imports are loaded. -/
def loadEvents (tools : Toolset κ π σ) (types : AssetTypes κ) :
    (depth : Nat) → AssetId → Work σ → List Event
  | 0, _, _ => []
  | depth + 1, id, work =>
    match claim work id with
    | none => []
    | some (asset, work) =>
      work.prepareEvents tools types id asset ++
        match work.prepare tools types id asset with
        | (.ready children, work) =>
          eachEvents (load tools types depth) (loadEvents tools types depth) children work
        | (_, _) => []

/-- What happens while a batch is loaded. -/
def batchEvents (tools : Toolset κ π σ) (types : AssetTypes κ) (depth : Nat) (ids : List AssetId)
    (work : Work σ) : List Event :=
  eachEvents (load tools types depth) (loadEvents tools types depth) ids work

end Load

/-! ## Passes -/

namespace Pass

/-- What happens between the moment when a batch is taken off the queue and the moment when its loading
begins. -/
def beginEvents (tools : Toolset κ π σ) (first : Bool) (work : Work σ) : List Event :=
  if first then []
  else
    let (ids, state) := work.state.drain (!first)
    let identities := ids.filterMap fun id => (state.graph.get? id).map Asset.identity
    ({ work with
      state, world := identities.foldl (fun world p => tools.forget p world) work.world } : Work σ).heard
        tools

/-- What happens while one batch is loaded after another. -/
def drainEvents (tools : Toolset κ π σ) (types : AssetTypes κ) (first : Bool) (depth : Nat) :
    (batches : Nat) → Work σ → List Event
  | 0, _ => []
  | batches + 1, work =>
    let ids := (work.state.drain (!first)).1
    .taken first ids ::
      if ids.isEmpty then []
      else
        let begun := begin tools first work
        beginEvents tools first work ++ Load.batchEvents tools types depth ids begun ++
          match Load.batch tools types depth ids begun with
          | some (none, next) => drainEvents tools types first depth batches next
          | _ => []

/-- What happens while a live update is sent. -/
def sendEvents (tools : Toolset κ π σ) (loaded : List AssetId) (work : Work σ) : List Event :=
  let changed := loaded.foldl (fun changed id => includeLast id changed) work.state.graph.orphans
  ({ work with world := tools.update (changed.filterMap work.state.graph.updated?) work.world } :
    Work σ).heard tools

/-- What happens while all that waits is loaded. -/
def gatherEvents (tools : Toolset κ π σ) (types : AssetTypes κ) (first : Bool) (depth : Nat)
    (work : Work σ) : List Event :=
  drainEvents tools types first depth depth work ++
    match drain tools types first depth depth [] work with
    | some (.ok loaded, next) => if first then [] else sendEvents tools loaded next
    | _ => []

/-- What happens until the entry is found. -/
def enterEvents (tools : Toolset κ π σ) (setup : Setup κ π) (work : Work σ) : List Event :=
  let work := work.tell (.opened setup.entry setup.outDir)
  let (result, world) := tools.prepare setup.outDir work.world
  let prepared : Work σ := { work with world }
  prepared.heard tools ++
    match result with
    | .error _ => []
    | .ok _ =>
      let work := prepared.listen tools
      let (answer, world) := tools.resolve setup.entry.text none work.world
      (({ work with world } : Work σ).warn answer.warnings).heard tools

/-- What happens in a pass before the bundles are laid out. -/
def assembleEvents (tools : Toolset κ π σ) (setup : Setup κ π) (depth : Nat) (work : Work σ) :
    List Event :=
  if work.state.start.isNone then
    enterEvents tools setup work ++
      match enter tools setup work with
      | (.error _, _) => []
      | (.ok _, work) => gatherEvents tools setup.types true depth work
  else gatherEvents tools setup.types false depth work

/-- What happens while bundles are written. -/
def writeEvents (tools : Toolset κ π σ) (packagers : Packagers π) (bundles : List PackagedBundle)
    (work : Work σ) : List Event :=
  let (_, world) :=
    if tools.writesOn then packagers.runAll tools.write bundles work.world
    else packagers.runInTurn tools.write bundles work.world
  ({ work with world } : Work σ).heard tools

/-- What happens from the layout of the bundles on. -/
def finishEvents (tools : Toolset κ π σ) (setup : Setup κ π) (start : AssetId) (work : Work σ) :
    List Event :=
  let (tree, work) := layOut setup.outDir start work
  let plan := Packaging.plan tree work.state.graph work.state.fingerprints
  writeEvents tools setup.packagers plan.changed work

/-- What happens in a pass. -/
def runEvents (tools : Toolset κ π σ) (setup : Setup κ π) (depth : Nat) (work : Work σ) : List Event :=
  assembleEvents tools setup depth work ++
    match assemble tools setup depth work with
    | some (.ok start, next) => finishEvents tools setup start next
    | _ => []

theorem quiet_beginEvents (tools : Toolset κ π σ) (first : Bool) (work : Work σ) :
    Event.Quiet (beginEvents tools first work) := by
  unfold beginEvents
  split
  · exact Event.quiet_nil
  · exact Work.quiet_heard tools _

theorem quiet_enterEvents (tools : Toolset κ π σ) (setup : Setup κ π) (work : Work σ) :
    Event.Quiet (enterEvents tools setup work) := by
  unfold enterEvents
  dsimp only
  apply (Work.quiet_heard tools _).append
  split
  · exact Event.quiet_nil
  · exact Work.quiet_heard tools _

end Pass

/-! ## Sessions -/

namespace Session

/-- What happens in a pass of a session. -/
def passEvents (session : Session κ π σ) (depth : Nat) : List Event :=
  Pass.runEvents session.tools session.setup depth (session.work.tell .started)

/-- The sessions that can come about, with what has happened in them so far. -/
inductive Chronicle : Session κ π σ → List Event → Prop where
  | new (settings : Settings) (entry : Path) (types : AssetTypes κ) (packagers : Packagers π)
      (tools : Toolset κ π σ) (world : σ) :
      Chronicle (Session.new settings entry types packagers tools world) []
  | addType {session session' : Session κ π σ} {events : List Event} {extension : String} {kind : Kind}
      {compiler : κ} :
      Chronicle session events → session.addType extension kind compiler = .ok session' →
        Chronicle session' events
  | addPackager {session session' : Session κ π σ} {events : List Event} {kind : Kind} {packager : π} :
      Chronicle session events → session.addPackager kind packager = .ok session' →
        Chronicle session' events
  | edit {session : Session κ π σ} {events : List Event} (world : σ) :
      Chronicle session events → Chronicle { session with work := { session.work with world } } events
  | change {session : Session κ π σ} {events : List Event} (p : Path) :
      Chronicle session events → Chronicle (session.queueChange p).2 (events ++ session.work.noticed p)
  | pass {session session' : Session κ π σ} {events : List Event} {depth : Nat}
      {result : Except Failure Report} :
      Chronicle session events → session.bundle? depth = some (result, session') →
        Chronicle session' (events ++ session.passEvents depth)
  | stop {session : Session κ π σ} {events : List Event} :
      Chronicle session events → Chronicle session.stop events

theorem Chronicle.history {session : Session κ π σ} {events : List Event}
    (h : session.Chronicle events) : session.History := by
  induction h with
  | new => exact .new _ _ _ _ _ _
  | addType _ hadd ih => exact .addType ih hadd
  | addPackager _ hadd ih => exact .addPackager ih hadd
  | edit world _ ih => exact .edit world ih
  | change p _ ih => exact .change p ih
  | pass _ hbundle ih => exact .pass ih hbundle
  | stop _ ih => exact .stop ih

/-- Every session has a chronicle. -/
theorem History.exists_chronicle {session : Session κ π σ} (h : session.History) :
    ∃ events, session.Chronicle events := by
  induction h with
  | new => exact ⟨[], .new _ _ _ _ _ _⟩
  | addType _ hadd ih => exact ih.imp fun _ h => .addType h hadd
  | addPackager _ hadd ih => exact ih.imp fun _ h => .addPackager h hadd
  | edit world _ ih => exact ih.imp fun _ h => .edit world h
  | change p _ ih => exact ih.elim fun _ h => ⟨_, .change p h⟩
  | pass _ hbundle ih => exact ih.elim fun _ h => ⟨_, .pass h hbundle⟩
  | stop _ ih => exact ih.imp fun _ h => .stop h

end Session
end Build
end ModuleBundler
