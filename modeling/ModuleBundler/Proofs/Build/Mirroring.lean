import ModuleBundler.Build.Session

/-!
# Builds side by side

Two builds over worlds that are alike do the same if their tools do.  They may
differ in where a unit comes from: one of them may recall it, if the other one
compiles just this unit then.  As nothing but the world can differ, the two have
the same state and give the same notices in the end.

Main results:

- Theorem {lit}`Load.load_mirrors`: the same assets are loaded side by side.
- Theorem {lit}`Pass.run_mirrors`: a first pass has the same result.
- Theorem {lit}`Session.bundle_mirrors`: so has the first build of a session.
-/

namespace ModuleBundler
namespace Build

variable {κ π σ τ : Type} {α : Type}

/-! ## Steps side by side -/

/-- Whether two steps have the same result and lead to what is related. -/
def Agree (related : σ → τ → Prop) (first : α × σ) (second : α × τ) : Prop :=
  first.1 = second.1 ∧ related first.2 second.2

theorem Agree.parts {related : σ → τ → Prop} {first : α × σ} {second : α × τ}
    (h : Agree related first second) :
    ∃ result next follow, first = (result, next) ∧ second = (result, follow) ∧ related next follow :=
  ⟨first.1, first.2, second.2, rfl, Prod.ext h.1.symm rfl, h.2⟩

/-- Two builds at work that differ in their worlds only, and there no more than is allowed. -/
structure Work.Mirrors (alike : σ → τ → Prop) (work : Work σ) (other : Work τ) : Prop where
  state : work.state = other.state
  notices : work.notices = other.notices
  world : alike work.world other.world

/-- What the tools of two builds have in common while assets are loaded.  The tools of the second build
recall nothing.  {lit}`Made` tells which units were compiled from which files. -/
structure Toolset.Loads (tools : Toolset κ π σ) (plain : Toolset κ π τ) (alike : σ → τ → Prop)
    (Made : Path → CompiledUnit → Prop) : Prop where
  calm : ∀ world, tools.arrivals world = ([], world)
  plain_calm : ∀ world, plain.arrivals world = ([], world)
  resolve : ∀ {world : σ} {other : τ}, alike world other → ∀ specifier importer,
    Agree alike (tools.resolve specifier importer world) (plain.resolve specifier importer other)
  implied : ∀ p kind world, tools.implied p kind world = (.ok [], world)
  plain_implied : ∀ p kind world, plain.implied p kind world = (.ok [], world)
  source : ∀ {world : σ} {other : τ}, alike world other → ∀ p,
    tools.source p world = plain.source p other
  watch : ∀ {world : σ} {other : τ}, alike world other → ∀ p,
    Agree alike (tools.watch p world) (plain.watch p other)
  plain_retrieve : ∀ {world : σ} {other : τ}, alike world other → ∀ p,
    plain.retrieve p other = (none, other)
  /-- Where a unit is recalled, it would be compiled. -/
  recalled : ∀ {world next : σ} {other : τ} {p : Path} {unit : CompiledUnit}, alike world other →
    tools.retrieve p world = (some unit, next) → ∀ compiler package,
      (plain.compile compiler p package other).1 = .ok unit ∧
        alike next (plain.compile compiler p package other).2
  compile : ∀ {world next : σ} {other : τ} {p : Path}, alike world other →
    tools.retrieve p world = (none, next) → ∀ compiler package,
      Agree alike (tools.compile compiler p package next) (plain.compile compiler p package other)
  made : ∀ {world next : σ} {other : τ} {p : Path}, alike world other →
    tools.retrieve p world = (none, next) → ∀ compiler package unit,
      (tools.compile compiler p package next).1 = .ok unit → Made p unit
  remember : ∀ {world : σ} {other : τ} {p : Path} {unit : CompiledUnit}, alike world other →
    Made p unit → ∀ inlined, inlined.length ≤ unit.dependencies.length →
      alike (tools.remember p unit inlined world) (plain.remember p unit inlined other)
  plain_remember : ∀ {world : σ} {other : τ}, alike world other → ∀ p unit inlined,
    alike world (plain.remember p unit inlined other)

namespace Work

variable {tools : Toolset κ π σ} {plain : Toolset κ π τ} {alike : σ → τ → Prop}
  {Made : Path → CompiledUnit → Prop} {work : Work σ} {other : Work τ}

theorem listen_of_calm (h : ∀ world, tools.arrivals world = ([], world)) (work : Work σ) :
    work.listen tools = work := by
  unfold listen
  rw [h]
  rfl

/-- Where a file has only the imports that its source names, its unit lists them all. -/
theorem dependencies_of_implied (hcalm : ∀ world, tools.arrivals world = ([], world))
    (himplied : ∀ p kind world, tools.implied p kind world = (.ok [], world)) (work : Work σ)
    (asset : Asset) (unit : CompiledUnit) :
    work.dependencies tools asset unit = (.ok unit.dependencies, work) := by
  unfold dependencies
  rw [himplied]
  simp only [listen_of_calm hcalm, List.append_nil]

/-- No more modules are found than there are imports. -/
theorem length_findEach (tools : Toolset κ π σ) (inOrder : Bool) (importer : Path)
    (dependencies : List Dependency) (imports : Imports) (work : Work σ) :
    (findEach tools inOrder importer dependencies imports work).1.modules.length ≤
      imports.modules.length + dependencies.length := by
  induction dependencies generalizing imports work with
  | nil => exact Nat.le_refl _
  | cons dep rest ih =>
    rw [List.length_cons]
    unfold findEach
    split
    · rename_i module next _
      have hadd : (imports.add dep module).modules.length ≤ imports.modules.length + 1 := by
        cases imports <;> simp [Imports.add, Imports.modules]
      have hrest := ih (imports.add dep module) next
      omega
    · rename_i failure next _
      have hmiss : (imports.miss failure).modules.length = 0 := by cases imports <;> rfl
      have hrest := ih (imports.miss failure) next
      omega
    · split
      · exact Nat.le_succ_of_le (ih imports _)
      · exact Nat.zero_le _

theorem length_findAll (tools : Toolset κ π σ) (work : Work σ) (importer : Path)
    (dependencies : List Dependency) :
    (work.findAll tools importer dependencies).1.modules.length ≤ dependencies.length := by
  have hlength := length_findEach tools (decide (sideBySide < dependencies.length)) importer dependencies
    (.found []) work
  exact Nat.le_trans hlength (Nat.le_of_eq (Nat.zero_add _))

namespace Mirrors

theorem tell (h : work.Mirrors alike other) (notice : Notice) :
    (work.tell notice).Mirrors alike (other.tell notice) :=
  ⟨h.state, by simp only [Work.tell, h.notices], h.world⟩

theorem warn (h : work.Mirrors alike other) (warnings : List String) :
    (work.warn warnings).Mirrors alike (other.warn warnings) :=
  ⟨h.state, by simp only [Work.warn, h.notices], h.world⟩

/-- Both builds change their state in one way. -/
theorem change (h : work.Mirrors alike other) (f : State → State) :
    ({ work with state := f work.state } : Work σ).Mirrors alike
      { other with state := f other.state } :=
  ⟨congrArg f h.state, h.notices, h.world⟩

/-- Both builds go on in other worlds. -/
theorem move {related : σ → τ → Prop} (h : work.Mirrors related other) {world : σ} {place : τ}
    (hworld : alike world place) :
    ({ work with world } : Work σ).Mirrors alike { other with world := place } :=
  ⟨h.state, h.notices, hworld⟩

end Mirrors

section Loading

variable (htools : tools.Loads plain alike Made)

include htools

theorem Mirrors.watch (h : work.Mirrors alike other) (p : Path) :
    (work.watch tools p).Mirrors alike (other.watch plain p) := by
  obtain ⟨result, world, place, hfirst, hsecond, hworld⟩ := (htools.watch h.world p).parts
  unfold Work.watch
  rw [hfirst, hsecond]
  cases result with
  | ok => exact h.move hworld
  | error failure => exact (h.move hworld).warn _

theorem enter_mirrors (h : work.Mirrors alike other) (types : AssetTypes κ)
    (module : Lookup.Modules.Resolved) :
    Agree (Mirrors alike) (work.enter tools types module) (other.enter plain types module) := by
  unfold enter
  rw [h.state]
  rcases other.state.graph.insert module.path (types.kindOf module.path) module.package with
    ⟨⟨id, isNew⟩, graph⟩
  have hinserted := h.change fun _ => { other.state with graph }
  cases isNew with
  | false => exact ⟨rfl, hinserted⟩
  | true => exact ⟨rfl, hinserted.watch htools module.path⟩

theorem inline_mirrors (h : work.Mirrors alike other) (id : AssetId) (p : Path) :
    (work.inline tools id p).Mirrors alike (other.inline plain id p) := by
  unfold inline
  rw [h.state]
  rcases other.state.graph.makeAlias p id with ⟨isNew, graph⟩
  cases isNew with
  | false => exact h
  | true => exact (h.change fun _ => { other.state with graph }).watch htools p

/-- What the first build recalls or compiles, the second one compiles. -/
theorem compile_mirrors (h : work.Mirrors alike other) (types : AssetTypes κ) (asset : Asset) :
    (work.compile tools types asset).2.Mirrors alike (other.compile plain types asset).2 ∧
      ((∃ failure, (work.compile tools types asset).1 = .error failure ∧
          (other.compile plain types asset).1 = .error failure) ∨
        ∃ unit isNew, (work.compile tools types asset).1 = .ok (unit, isNew) ∧
          (other.compile plain types asset).1 = .ok (unit, true) ∧
            (isNew = true → Made asset.identity unit)) := by
  unfold compile
  rw [htools.plain_retrieve h.world]
  simp only [listen_of_calm htools.plain_calm]
  cases hretrieve : tools.retrieve asset.identity work.world with
  | mk recalled world =>
    cases recalled with
    | some unit =>
      obtain ⟨hunit, hworld⟩ := htools.recalled h.world hretrieve
        (types.compilerOf asset.identity) asset.package
      simp only [listen_of_calm htools.calm]
      refine ⟨h.move hworld, .inr ⟨unit, false, rfl, ?_, fun hnew => by cases hnew⟩⟩
      rw [hunit]
      rfl
    | none =>
      simp only [listen_of_calm htools.calm]
      obtain ⟨hresult, hworld⟩ := htools.compile h.world hretrieve
        (types.compilerOf asset.identity) asset.package
      refine ⟨h.move hworld, ?_⟩
      rw [← hresult]
      cases hunit : (tools.compile (types.compilerOf asset.identity) asset.identity asset.package world).1 with
      | error failure => exact .inl ⟨failure, rfl, rfl⟩
      | ok unit =>
        exact .inr ⟨unit, true, rfl, rfl, fun _ => htools.made h.world hretrieve _ _ unit hunit⟩

theorem find_mirrors (h : work.Mirrors alike other) (importer : Path) (dep : Dependency) :
    Agree (Mirrors alike) (work.find tools importer dep) (other.find plain importer dep) := by
  obtain ⟨⟨result, warnings⟩, world, place, hfirst, hsecond, hworld⟩ :=
    (htools.resolve h.world dep.specifier (some importer)).parts
  have hnext := (h.move hworld).warn warnings
  unfold find
  rw [hfirst, hsecond]
  simp only [listen_of_calm htools.calm, listen_of_calm htools.plain_calm]
  cases result with
  | ok module => exact ⟨rfl, hnext⟩
  | error failure =>
    cases failure with
    | moduleNotFound specifier file =>
      dsimp only
      by_cases hown : specifier = dep.specifier
      · rw [if_pos hown, if_pos hown]
        refine ⟨?_, hnext⟩
        dsimp only [missing]
        rw [htools.source hnext.world]
      · rw [if_neg hown, if_neg hown]
        exact ⟨rfl, hnext⟩
    | _ => exact ⟨rfl, hnext⟩

theorem findEach_mirrors (inOrder : Bool) (importer : Path) (dependencies : List Dependency)
    (imports : Imports) (h : work.Mirrors alike other) :
    Agree (Mirrors alike) (findEach tools inOrder importer dependencies imports work)
      (findEach plain inOrder importer dependencies imports other) := by
  induction dependencies generalizing imports work other with
  | nil => exact ⟨rfl, h⟩
  | cons dep rest ih =>
    obtain ⟨finding, next, follow, hfirst, hsecond, hnext⟩ := (find_mirrors htools h importer dep).parts
    unfold findEach
    rw [hfirst, hsecond]
    cases finding with
    | found module => exact ih _ hnext
    | late failure => exact ih _ hnext
    | failed failure =>
      dsimp only
      by_cases hlater : (imports.isLate && inOrder) = true
      · rw [if_pos hlater, if_pos hlater]
        exact ih _ hnext
      · rw [if_neg hlater, if_neg hlater]
        exact ⟨rfl, hnext⟩

theorem findAll_mirrors (h : work.Mirrors alike other) (importer : Path)
    (dependencies : List Dependency) :
    Agree (Mirrors alike) (work.findAll tools importer dependencies)
      (other.findAll plain importer dependencies) :=
  findEach_mirrors htools _ importer dependencies _ h

theorem record_mirrors (h : work.Mirrors alike other) (types : AssetTypes κ) (id : AssetId)
    (found : Dependency × Lookup.Modules.Resolved) :
    Agree (Mirrors alike) (work.record tools types id found) (other.record plain types id found) := by
  unfold record
  by_cases hinlined : found.1.inlined = true
  · rw [if_pos hinlined, if_pos hinlined]
    exact ⟨rfl, inline_mirrors htools h id found.2.path⟩
  · rw [if_neg hinlined, if_neg hinlined]
    obtain ⟨target, next, follow, hfirst, hsecond, hnext⟩ := (enter_mirrors htools h types found.2).parts
    rw [hfirst, hsecond]
    exact ⟨rfl, hnext.change fun state => state.connect id found.1 target⟩

theorem recordAll_mirrors (types : AssetTypes κ) (id : AssetId)
    (modules : List (Dependency × Lookup.Modules.Resolved)) (h : work.Mirrors alike other) :
    Agree (Mirrors alike) (recordAll tools types id modules work)
      (recordAll plain types id modules other) := by
  induction modules generalizing work other with
  | nil => exact ⟨rfl, h⟩
  | cons found rest ih =>
    obtain ⟨hchild, hnext⟩ := record_mirrors htools h types id found
    obtain ⟨hchildren, hlast⟩ := ih hnext
    refine ⟨?_, hlast⟩
    unfold recordAll
    dsimp only
    rw [hchild, hchildren]

theorem remember_mirrors (h : work.Mirrors alike other) {asset : Asset} {unit : CompiledUnit}
    {isNew : Bool} (hmade : isNew = true → Made asset.identity unit)
    {modules : List (Dependency × Lookup.Modules.Resolved)}
    (hcount : modules.length ≤ unit.dependencies.length) :
    (work.remember tools asset unit isNew modules).Mirrors alike
      (other.remember plain asset unit true modules) := by
  have hinlined : ((modules.filter fun found => found.1.inlined).map fun found => found.2.path).length ≤
      unit.dependencies.length := by
    rw [List.length_map]
    exact Nat.le_trans (List.length_filter_le _ _) hcount
  unfold remember
  simp only [listen_of_calm htools.calm, listen_of_calm htools.plain_calm]
  cases isNew with
  | true => exact h.move (htools.remember h.world (hmade rfl) _ hinlined)
  | false => exact h.move (htools.plain_remember h.world _ _ _)

/-- An asset becomes ready in both builds, and in the same way, or in none of them. -/
theorem prepare_mirrors (h : work.Mirrors alike other) (types : AssetTypes κ) (id : AssetId)
    (asset : Asset) :
    Agree (Mirrors alike) (work.prepare tools types id asset) (other.prepare plain types id asset) := by
  obtain ⟨hcompiled, hunit⟩ := compile_mirrors htools h types asset
  unfold prepare
  generalize work.compile tools types asset = first at hcompiled hunit ⊢
  generalize other.compile plain types asset = second at hcompiled hunit ⊢
  obtain ⟨result, compiled⟩ := first
  obtain ⟨same, follow⟩ := second
  dsimp only at hcompiled hunit
  obtain ⟨failure, rfl, rfl⟩ | ⟨unit, isNew, rfl, rfl, hmade⟩ := hunit
  · exact ⟨rfl, hcompiled⟩
  · dsimp only
    rw [dependencies_of_implied htools.calm htools.implied,
      dependencies_of_implied htools.plain_calm htools.plain_implied]
    have hkept := hcompiled.change fun state => state.keep id unit
    obtain ⟨imports, found, follow, hfirst, hsecond, hfound⟩ :=
      (findAll_mirrors htools hkept asset.identity unit.dependencies).parts
    have hcount := length_findAll tools { compiled with state := compiled.state.keep id unit }
      asset.identity unit.dependencies
    dsimp only
    rw [hfirst] at hcount
    rw [hfirst, hsecond]
    cases imports with
    | failed failure => exact ⟨rfl, hfound⟩
    | late failure => exact ⟨rfl, hfound⟩
    | found modules =>
      have hcount : modules.length ≤ unit.dependencies.length := hcount
      have hremembered := remember_mirrors htools hfound hmade hcount
      obtain ⟨hchildren, hlast⟩ := recordAll_mirrors htools types id modules hremembered
      refine ⟨?_, hlast⟩
      dsimp only
      rw [hchildren]

end Loading

end Work

/-! ## Loading side by side -/

namespace Load

open Work (Mirrors)

variable {tools : Toolset κ π σ} {plain : Toolset κ π τ} {alike : σ → τ → Prop}
  {Made : Path → CompiledUnit → Prop} {work : Work σ} {other : Work τ}

theorem giveBack_mirrors (h : work.Mirrors alike other) (id : AssetId) :
    (giveBack work id).Mirrors alike (giveBack other id) :=
  h.change fun state => state.giveBack id

theorem conclude_mirrors (h : work.Mirrors alike other) (id : AssetId) (children : Outcome) :
    Agree (Mirrors alike) (conclude id children work) (conclude id children other) := by
  obtain ⟨failure?, late⟩ := children
  cases failure? with
  | none => exact ⟨rfl, h⟩
  | some failure =>
    cases late with
    | nil => exact ⟨rfl, giveBack_mirrors h id⟩
    | cons first rest => exact ⟨rfl, h⟩

theorem claim_mirrors (h : work.Mirrors alike other) (id : AssetId) :
    Option.Rel (Agree (Mirrors alike)) (claim work id) (claim other id) := by
  unfold claim
  rw [h.state]
  cases other.state.claim id with
  | none => exact .none
  | some claimed => exact .some ⟨rfl, (h.change fun _ => claimed.2).tell _⟩

theorem each_mirrors {load : AssetId → Work σ → Option (Outcome × Work σ)}
    {same : AssetId → Work τ → Option (Outcome × Work τ)}
    (hload : ∀ {work : Work σ} {other : Work τ} (id : AssetId), work.Mirrors alike other →
      Option.Rel (Agree (Mirrors alike)) (load id work) (same id other))
    (ids : List AssetId) (h : work.Mirrors alike other) :
    Option.Rel (Agree (Mirrors alike)) (each load ids work) (each same ids other) := by
  induction ids generalizing work other with
  | nil => exact .some ⟨rfl, h⟩
  | cons id rest ih =>
    have hfirst := hload id h
    unfold each
    generalize load id work = first at hfirst
    generalize same id other = second at hfirst
    cases hfirst with
    | none => exact .none
    | some hagree =>
      obtain ⟨outcome, next, follow, rfl, rfl, hnext⟩ := hagree.parts
      have hmore := ih hnext
      dsimp only
      generalize each load rest next = first at hmore
      generalize each same rest follow = second at hmore
      cases hmore with
      | none => exact .none
      | some hagree =>
        obtain ⟨more, last, follow, rfl, rfl, hlast⟩ := hagree.parts
        exact .some ⟨rfl, hlast⟩

/-- Loading an asset does the same in both builds. -/
theorem load_mirrors (htools : tools.Loads plain alike Made) (types : AssetTypes κ) (depth : Nat)
    (id : AssetId) (h : work.Mirrors alike other) :
    Option.Rel (Agree (Mirrors alike)) (load tools types depth id work)
      (load plain types depth id other) := by
  induction depth generalizing id work other with
  | zero => exact .none
  | succ depth ih =>
    have hclaim := claim_mirrors h id
    unfold load
    generalize claim work id = first at hclaim
    generalize claim other id = second at hclaim
    cases hclaim with
    | none => exact .some ⟨rfl, h⟩
    | some hagree =>
      obtain ⟨asset, claimed, follow, rfl, rfl, hclaimed⟩ := hagree.parts
      obtain ⟨preparation, prepared, follow, hfirst, hsecond, hprepared⟩ :=
        (Work.prepare_mirrors htools hclaimed types id asset).parts
      dsimp only
      rw [hfirst, hsecond]
      cases preparation with
      | failed failure => exact .some ⟨rfl, giveBack_mirrors hprepared id⟩
      | late failure => exact .some ⟨rfl, hprepared⟩
      | ready children =>
        have heach := each_mirrors (fun id h => ih id h) children hprepared
        dsimp only
        generalize each (load tools types depth) children prepared = first at heach
        generalize each (load plain types depth) children follow = second at heach
        cases heach with
        | none => exact .none
        | some hagree =>
          obtain ⟨outcome, last, follow, rfl, rfl, hlast⟩ := hagree.parts
          exact .some (conclude_mirrors hlast id outcome)

theorem batch_mirrors (htools : tools.Loads plain alike Made) (types : AssetTypes κ) (depth : Nat)
    (ids : List AssetId) (h : work.Mirrors alike other) :
    Option.Rel (Agree (Mirrors alike)) (batch tools types depth ids work)
      (batch plain types depth ids other) := by
  have hsettle (late : List AssetId) : ∀ {work : Work σ} {other : Work τ}, work.Mirrors alike other →
      (late.foldl giveBack work).Mirrors alike (late.foldl giveBack other) := by
    induction late with
    | nil => exact fun h => h
    | cons id rest ih => exact fun h => ih (giveBack_mirrors h id)
  have heach := each_mirrors (fun id h => load_mirrors htools types depth id h) ids h
  unfold batch
  generalize each (load tools types depth) ids work = first at heach
  generalize each (load plain types depth) ids other = second at heach
  cases heach with
  | none => exact .none
  | some hagree =>
    obtain ⟨outcome, last, follow, rfl, rfl, hlast⟩ := hagree.parts
    exact .some ⟨rfl, hsettle outcome.late hlast⟩

end Load

/-! ## First passes side by side -/

/-- What the tools of two builds have in common once everything is loaded. -/
structure Toolset.Finishes (tools : Toolset κ π σ) (plain : Toolset κ π τ) (related : σ → τ → Prop) :
    Prop where
  writesOn : tools.writesOn = plain.writesOn
  watches : tools.watches = plain.watches
  write : ∀ {world : σ} {other : τ}, related world other → ∀ packager bundle,
    Agree related (tools.write packager bundle world) (plain.write packager bundle other)
  unwatch : ∀ {world : σ} {other : τ}, related world other → ∀ p,
    related (tools.unwatch p world) (plain.unwatch p other)
  alert : ∀ {world : σ} {other : τ}, related world other → ∀ failure,
    related (tools.alert failure world) (plain.alert failure other)
  close : ∀ {world : σ} {other : τ}, related world other → related (tools.close world) (plain.close other)

namespace Pass

open Work (Mirrors)

variable {tools : Toolset κ π σ} {plain : Toolset κ π τ} {setup : Setup κ π} {alike related : σ → τ → Prop}
  {Made : Path → CompiledUnit → Prop} {work : Work σ} {other : Work τ}

theorem drain_mirrors (htools : tools.Loads plain alike Made) (types : AssetTypes κ)
    (depth batches : Nat) (loaded : List AssetId) (h : work.Mirrors alike other) :
    Option.Rel (Agree (Mirrors alike)) (drain tools types true depth batches loaded work)
      (drain plain types true depth batches loaded other) := by
  induction batches generalizing loaded work other with
  | zero => exact .none
  | succ batches ih =>
    unfold drain
    rw [h.state]
    rcases other.state.drain (!true) with ⟨ids, state⟩
    have htaken := h.change fun _ => state
    dsimp only
    by_cases hempty : ids.isEmpty = true
    · rw [if_pos hempty, if_pos hempty]
      exact .some ⟨rfl, htaken⟩
    · rw [if_neg hempty, if_neg hempty, if_pos rfl, if_pos rfl]
      have hbatch := Load.batch_mirrors htools types depth ids htaken
      generalize Load.batch tools types depth ids { work with state } = first at hbatch
      generalize Load.batch plain types depth ids { other with state } = second at hbatch
      cases hbatch with
      | none => exact .none
      | some hagree =>
        obtain ⟨failure?, next, follow, rfl, rfl, hnext⟩ := hagree.parts
        cases failure? with
        | some failure => exact .some ⟨rfl, hnext⟩
        | none => exact ih _ hnext

theorem gather_mirrors (htools : tools.Loads plain alike Made) (types : AssetTypes κ) (depth : Nat)
    (h : work.Mirrors alike other) :
    Option.Rel (Agree (Mirrors alike)) (gather tools types true depth work)
      (gather plain types true depth other) := by
  have hdrain := drain_mirrors htools types depth depth [] h
  unfold gather
  generalize drain tools types true depth depth [] work = first at hdrain
  generalize drain plain types true depth depth [] other = second at hdrain
  cases hdrain with
  | none => exact .none
  | some hagree =>
    obtain ⟨result, next, follow, rfl, rfl, hnext⟩ := hagree.parts
    cases result with
    | error failure => exact .some ⟨rfl, hnext⟩
    | ok loaded =>
      dsimp only
      rw [if_pos rfl, if_pos rfl, hnext.state]
      cases follow.state.start with
      | none => exact .some ⟨rfl, hnext⟩
      | some start => exact .some ⟨rfl, hnext⟩

/-- Both builds start from the asset of a module. -/
theorem start_mirrors (htools : tools.Loads plain alike Made) (h : work.Mirrors alike other)
    (types : AssetTypes κ) (module : Lookup.Modules.Resolved) :
    ({ (work.enter tools types module).2 with
        state := State.enqueue
          { (work.enter tools types module).2.state with start := some (work.enter tools types module).1 }
          (work.enter tools types module).1 } : Work σ).Mirrors alike
      { (other.enter plain types module).2 with
        state := State.enqueue
          { (other.enter plain types module).2.state with start := some (other.enter plain types module).1 }
          (other.enter plain types module).1 } := by
  obtain ⟨hid, hnext⟩ := Work.enter_mirrors htools h types module
  rw [hid]
  exact hnext.change fun state => State.enqueue { state with start := some _ } _

theorem enter_mirrors (htools : tools.Loads plain alike Made)
    (hprepare : Agree alike (tools.prepare setup.outDir work.world)
      (plain.prepare setup.outDir other.world))
    (h : work.Mirrors related other) :
    Agree (Mirrors alike) (enter tools setup work) (enter plain setup other) := by
  obtain ⟨made, world, place, hfirst, hsecond, hworld⟩ := hprepare.parts
  have hopened := (h.tell (.opened setup.entry setup.outDir)).move hworld
  have hfirst : tools.prepare setup.outDir (work.tell (.opened setup.entry setup.outDir)).world =
    (made, world) := hfirst
  have hsecond : plain.prepare setup.outDir (other.tell (.opened setup.entry setup.outDir)).world =
    (made, place) := hsecond
  unfold enter
  simp only [hfirst, hsecond, Work.listen_of_calm htools.calm, Work.listen_of_calm htools.plain_calm]
  cases made with
  | error failure => exact ⟨rfl, hopened⟩
  | ok =>
    obtain ⟨⟨result, warnings⟩, world, place, hfirst, hsecond, hworld⟩ :=
      (htools.resolve hworld setup.entry.text none).parts
    have hfound := (hopened.move hworld).warn warnings
    simp only [hfirst, hsecond]
    cases result with
    | error failure => exact ⟨rfl, hfound⟩
    | ok module =>
      exact ⟨rfl, start_mirrors htools hfound setup.types module⟩

theorem assemble_mirrors (htools : tools.Loads plain alike Made)
    (hprepare : Agree alike (tools.prepare setup.outDir work.world)
      (plain.prepare setup.outDir other.world))
    (depth : Nat) (hfirst : work.state.start = none) (h : work.Mirrors related other) :
    Option.Rel (Agree (Mirrors alike)) (assemble tools setup depth work)
      (assemble plain setup depth other) := by
  have hnone : work.state.start.isNone = true := by rw [hfirst]; rfl
  unfold assemble
  rw [← h.state, if_pos hnone, if_pos hnone]
  obtain ⟨result, next, follow, hfirst, hsecond, hnext⟩ := (enter_mirrors htools hprepare h).parts
  rw [hfirst, hsecond]
  cases result with
  | error failure => exact .some ⟨rfl, hnext⟩
  | ok => exact gather_mirrors htools setup.types depth hnext

/-- Both ways of writing bundles agree if the packagers do. -/
theorem runs_agree (packagers : Packagers π) {write : π → PackagedBundle → σ → Except Failure Unit × σ}
    {same : π → PackagedBundle → τ → Except Failure Unit × τ}
    (hwrite : ∀ {world : σ} {other : τ}, related world other → ∀ packager bundle,
      Agree related (write packager bundle world) (same packager bundle other))
    (bundles : List PackagedBundle) {world : σ} {other : τ} (h : related world other) :
    Agree related (packagers.runAll write bundles world) (packagers.runAll same bundles other) ∧
      Agree related (packagers.runInTurn write bundles world) (packagers.runInTurn same bundles other) := by
  induction bundles generalizing world other with
  | nil => exact ⟨⟨rfl, h⟩, rfl, h⟩
  | cons bundle rest ih =>
    obtain ⟨result, next, follow, hfirst, hsecond, hnext⟩ :=
      (hwrite h (packagers.packagerFor bundle.kind) bundle).parts
    unfold Packagers.runAll Packagers.runInTurn
    rw [hfirst, hsecond]
    cases result with
    | ok => exact ih hnext
    | error failure => exact ⟨⟨rfl, (ih hnext).1.2⟩, rfl, hnext⟩

theorem write_mirrors (htools : tools.Loads plain alike Made) (hfinish : tools.Finishes plain related)
    (packagers : Packagers π) (bundles : List PackagedBundle) (h : work.Mirrors related other) :
    Agree (Mirrors related) (write tools packagers bundles work) (write plain packagers bundles other) := by
  have hwritten : Agree related
      (if tools.writesOn then packagers.runAll tools.write bundles work.world
        else packagers.runInTurn tools.write bundles work.world)
      (if plain.writesOn then packagers.runAll plain.write bundles other.world
        else packagers.runInTurn plain.write bundles other.world) := by
    rw [hfinish.writesOn]
    split
    · exact (runs_agree packagers hfinish.write bundles h.world).1
    · exact (runs_agree packagers hfinish.write bundles h.world).2
  obtain ⟨result, next, follow, hfirst, hsecond, hnext⟩ := hwritten.parts
  unfold write
  simp only [hfirst, hsecond, Work.listen_of_calm htools.calm, Work.listen_of_calm htools.plain_calm]
  exact ⟨rfl, h.move hnext⟩

theorem unload_mirrors (hfinish : tools.Finishes plain related) (h : work.Mirrors related other) :
    (unload tools work).Mirrors related (unload plain other) := by
  have hreleased (paths : List Path) : ∀ {world : σ} {other : τ}, related world other →
      related (paths.foldl (fun world p => tools.unwatch p world) world)
        (paths.foldl (fun world p => plain.unwatch p world) other) := by
    induction paths with
    | nil => exact fun h => h
    | cons p rest ih => exact fun h => ih (hfinish.unwatch h p)
  unfold unload
  rw [h.state]
  exact (h.change fun _ => other.state.unload.2).move (hreleased other.state.unload.1 h.world)

/-- Both builds lay out and write the same bundles. -/
theorem finish_mirrors (htools : tools.Loads plain alike Made) (hfinish : tools.Finishes plain related)
    (start : AssetId) (h : work.Mirrors related other) :
    Agree (Mirrors related) (finish tools setup start work) (finish plain setup start other) := by
  have hstate := h.state
  have hlaid : (layOut setup.outDir start work).2.Mirrors related (layOut setup.outDir start other).2 := by
    unfold layOut
    rw [hstate]
    exact h.change fun _ => _
  have htree : (layOut setup.outDir start work).1 = (layOut setup.outDir start other).1 := by
    unfold layOut
    rw [hstate]
  unfold finish
  generalize layOut setup.outDir start work = first at hlaid htree
  generalize layOut setup.outDir start other = second at hlaid htree
  obtain ⟨tree, laid⟩ := first
  obtain ⟨same, follow⟩ := second
  dsimp only at htree hlaid ⊢
  subst htree
  rw [hlaid.state]
  obtain ⟨result, written, follow', hfirst, hsecond, hwritten⟩ := (write_mirrors htools hfinish
    setup.packagers (Packaging.plan tree follow.state.graph follow.state.fingerprints).changed hlaid).parts
  rw [hfirst, hsecond]
  cases result with
  | error failure => exact ⟨rfl, hwritten⟩
  | ok =>
    have hlast := unload_mirrors hfinish (hwritten.change fun state =>
      { state with
        fingerprints := some (Packaging.plan tree follow.state.graph follow.state.fingerprints).hashes })
    refine ⟨?_, hlast⟩
    dsimp only
    rw [hlast.state]

/-- A first pass has the same result in both builds. -/
theorem run_mirrors (htools : tools.Loads plain alike Made) (hfinish : tools.Finishes plain related)
    (hprepare : Agree alike (tools.prepare setup.outDir work.world)
      (plain.prepare setup.outDir other.world))
    (hrelated : ∀ {world : σ} {other : τ}, alike world other → related world other)
    (depth : Nat) (hfirst : work.state.start = none) (h : work.Mirrors related other) :
    Option.Rel (Agree (Mirrors related)) (run tools setup depth work) (run plain setup depth other) := by
  have hassemble := assemble_mirrors htools hprepare depth hfirst h
  unfold run
  generalize assemble tools setup depth work = first at hassemble
  generalize assemble plain setup depth other = second at hassemble
  cases hassemble with
  | none => exact .none
  | some hagree =>
    obtain ⟨result, next, follow, rfl, rfl, hnext⟩ := hagree.parts
    have hloaded : next.Mirrors related follow := ⟨hnext.state, hnext.notices, hrelated hnext.world⟩
    cases result with
    | error failure => exact .some ⟨rfl, hloaded⟩
    | ok start => exact .some (finish_mirrors htools hfinish start hloaded)

end Pass

/-! ## Sessions side by side -/

namespace Session

variable {tools : Toolset κ π σ} {plain : Toolset κ π τ} {alike related : σ → τ → Prop}
  {Made : Path → CompiledUnit → Prop}

theorem conclude_mirrors (hfinish : tools.Finishes plain related) (result : Except Failure Report)
    {work : Work σ} {other : Work τ} (h : work.Mirrors related other) :
    (conclude tools result work).Mirrors related (conclude plain result other) := by
  cases result with
  | ok report =>
    unfold conclude
    rw [h.state]
    exact (h.tell _).tell _
  | error failure =>
    have htold := h.tell (.failed failure)
    exact (htold.move (hfinish.alert htold.world failure)).tell _

/-- The first build of a session has the same result whichever of the tools it has. -/
theorem bundle_mirrors {session : Session κ π σ} {other : Session κ π τ}
    (htools : session.tools.Loads other.tools alike Made)
    (hfinish : session.tools.Finishes other.tools related)
    (hprepare : Agree alike (session.tools.prepare session.setup.outDir session.work.world)
      (other.tools.prepare session.setup.outDir other.work.world))
    (hrelated : ∀ {world : σ} {place : τ}, alike world place → related world place)
    (hsetup : session.setup = other.setup) (hcloses : session.closesAfterPass = other.closesAfterPass)
    (hreach : session.tools.reach session.work.world = other.tools.reach other.work.world)
    (hfirst : session.work.state.start = none) (h : session.work.Mirrors related other.work) :
    session.bundle.1 = other.bundle.1 ∧ session.bundle.2.work.Mirrors related other.bundle.2.work := by
  have hdepth : session.depth = other.depth := by
    unfold depth
    rw [hreach, h.state]
  have htold := h.tell .started
  have hprepare : Agree alike
      (session.tools.prepare session.setup.outDir (session.work.tell .started).world)
      (other.tools.prepare session.setup.outDir (other.work.tell .started).world) := hprepare
  have hrun := Pass.run_mirrors htools hfinish hprepare hrelated session.depth hfirst htold
  have hbundle : Option.Rel (fun first second => first.1 = second.1 ∧
      first.2.work.Mirrors related second.2.work) (session.bundle? session.depth)
      (other.bundle? other.depth) := by
    unfold bundle? start
    dsimp only
    rw [← hdepth, ← hsetup]
    generalize Pass.run session.tools session.setup session.depth (session.work.tell .started) = first
      at hrun
    generalize Pass.run other.tools session.setup session.depth (other.work.tell .started) = second at hrun
    cases hrun with
    | none => exact .none
    | some hagree =>
      obtain ⟨result, next, follow, rfl, rfl, hnext⟩ := hagree.parts
      have hconcluded := conclude_mirrors hfinish result hnext
      refine .some ⟨rfl, ?_⟩
      dsimp only
      rw [← hcloses, ← hfinish.watches]
      split
      · exact hconcluded.move (hfinish.close hconcluded.world)
      · exact hconcluded
  unfold bundle
  generalize session.bundle? session.depth = first at hbundle
  generalize other.bundle? other.depth = second at hbundle
  cases hbundle with
  | none => exact ⟨rfl, h⟩
  | some hagree => exact hagree

end Session
end Build
end ModuleBundler
