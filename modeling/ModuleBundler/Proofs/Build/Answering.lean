import ModuleBundler.Proofs.Build.Noticing

/-!
# Tools whose answers are settled

As long as nobody touches the world, the same question to a tool has the same
answer, nothing is cached, no changes are reported and what is written is written.
What the world looks like meanwhile is left open: {lit}`now` says of a world that
it is as it was when the questions were settled ({lit}`Answering`).  With such tools
the steps of a build have results that can be told in advance.

Main results:

- Theorem {lit}`Answering.findAll_spec`: the imports of an asset are found if they all lead somewhere.
- Theorem {lit}`Answering.prepare_spec`: an asset becomes ready just if it compiles and its imports lead
  somewhere.
-/

namespace ModuleBundler
namespace Build

variable {κ π σ : Type}

/-- What tools answer. -/
structure Answers (κ : Type) where
  /-- The module that a specifier means in an importing file. -/
  find : String → Option Path → Except Failure Lookup.Modules.Resolved
  /-- What a file of a package is compiled to. -/
  translate : κ → Path → Package → Except Failure CompiledUnit
  /-- The imports that a file has though its source does not name them. -/
  implied : Path → Kind → Except Failure (List Dependency)
  /-- Whether a directory can be made. -/
  prepared : Path → Except Failure Unit

/-- Whether tools give these answers now, and leave it at that. -/
structure Answering (tools : Toolset κ π σ) (now : σ → Prop) (answers : Answers κ) : Prop where
  resolve : ∀ specifier importer world, now world →
    (tools.resolve specifier importer world).1.result = answers.find specifier importer ∧
      now (tools.resolve specifier importer world).2
  compile : ∀ compiler p package world, now world →
    (tools.compile compiler p package world).1 = answers.translate compiler p package ∧
      now (tools.compile compiler p package world).2
  implied : ∀ p kind world, now world → (tools.implied p kind world).1 = answers.implied p kind ∧
    now (tools.implied p kind world).2
  arrivals : ∀ world, now world → (tools.arrivals world).1 = [] ∧ now (tools.arrivals world).2
  retrieve : ∀ p world, now world → (tools.retrieve p world).1 = none ∧ now (tools.retrieve p world).2
  prepare : ∀ p world, now world → (tools.prepare p world).1 = answers.prepared p ∧
    now (tools.prepare p world).2
  write : ∀ packager bundle world, now world → (tools.write packager bundle world).1 = .ok () ∧
    now (tools.write packager bundle world).2
  remember : ∀ p unit inlined world, now world → now (tools.remember p unit inlined world)
  forget : ∀ p world, now world → now (tools.forget p world)
  watch : ∀ p world, now world → now (tools.watch p world).2
  update : ∀ assets world, now world → now (tools.update assets world)

/-- Whether nothing has happened to the state of a build, and the world is as it is now. -/
structure Work.Still (now : σ → Prop) (before after : Work σ) : Prop where
  state : after.state = before.state
  now : now after.world

namespace Work.Still

variable {now : σ → Prop} {a b c : Work σ}

theorem trans (hab : Work.Still now a b) (hbc : Work.Still now b c) : Work.Still now a c :=
  ⟨hbc.state.trans hab.state, hbc.now⟩

end Work.Still

/-! ## Imports that lead somewhere -/

/-- Modules to which imports lead. -/
structure Leads (find : String → Option Path → Except Failure Lookup.Modules.Resolved) (importer : Path)
    (dependencies : List Dependency) (modules : List (Dependency × Lookup.Modules.Resolved)) : Prop where
  declared : modules.map Prod.fst = dependencies
  found : ∀ link ∈ modules, find link.1.specifier (some importer) = .ok link.2

namespace Leads

variable {find : String → Option Path → Except Failure Lookup.Modules.Resolved} {importer : Path}
  {dep : Dependency} {rest : List Dependency} {modules : List (Dependency × Lookup.Modules.Resolved)}

theorem nil : Leads find importer [] [] :=
  ⟨rfl, fun _ h => by cases h⟩

theorem eq_nil (h : Leads find importer [] modules) : modules = [] :=
  List.map_eq_nil_iff.1 h.declared

theorem cons {module : Lookup.Modules.Resolved} (h : Leads find importer rest modules)
    (hmodule : find dep.specifier (some importer) = .ok module) :
    Leads find importer (dep :: rest) ((dep, module) :: modules) := by
  refine ⟨congrArg (dep :: ·) h.declared, fun link hlink => ?_⟩
  rcases List.mem_cons.1 hlink with rfl | hlink
  · exact hmodule
  · exact h.found link hlink

/-- If every import leads somewhere, all of them together do. -/
theorem of_forall {dependencies : List Dependency}
    (h : ∀ dep ∈ dependencies, ∃ module, find dep.specifier (some importer) = .ok module) :
    ∃ modules, Leads find importer dependencies modules := by
  induction dependencies with
  | nil => exact ⟨[], nil⟩
  | cons dep rest ih =>
    obtain ⟨module, hmodule⟩ := h dep List.mem_cons_self
    obtain ⟨modules, hmodules⟩ := ih fun other hmem => h other (List.mem_cons_of_mem _ hmem)
    exact ⟨_, hmodules.cons hmodule⟩

theorem cons_inv (h : Leads find importer (dep :: rest) modules) :
    ∃ module others, find dep.specifier (some importer) = .ok module ∧
      Leads find importer rest others ∧ modules = (dep, module) :: others := by
  obtain ⟨hdeclared, hfound⟩ := h
  cases modules with
  | nil => cases hdeclared
  | cons link others =>
    obtain ⟨dep', module⟩ := link
    simp only [List.map_cons, List.cons.injEq] at hdeclared
    obtain ⟨rfl, hdeclared⟩ := hdeclared
    exact ⟨module, others, hfound _ List.mem_cons_self,
      ⟨hdeclared, fun link hlink => hfound link (List.mem_cons_of_mem _ hlink)⟩, rfl⟩

theorem mem_dependencies {dependencies : List Dependency}
    (h : Leads find importer dependencies modules) {link : Dependency × Lookup.Modules.Resolved}
    (hlink : link ∈ modules) : link.1 ∈ dependencies := by
  rw [← h.declared]
  exact List.mem_map_of_mem hlink

end Leads

namespace Imports

variable {find : String → Option Path → Except Failure Lookup.Modules.Resolved} {importer : Path}
  {dep : Dependency} {rest : List Dependency} {imports : Imports}
  {modules : List (Dependency × Lookup.Modules.Resolved)}

theorem add_eq_found_iff {module : Lookup.Modules.Resolved} :
    imports.add dep module = .found modules ↔
      ∃ before, imports = .found before ∧ modules = before ++ [(dep, module)] := by
  cases imports with
  | found before => simp [add, eq_comm]
  | failed failure => simp [add]
  | late failure => simp [add]

theorem miss_ne_found (failure : Failure) : imports.miss failure ≠ .found modules := by
  cases imports <;> simp [miss]

/-- Whether modules are those that were found already and those to which more imports lead. -/
def Joins (find : String → Option Path → Except Failure Lookup.Modules.Resolved) (importer : Path)
    (dependencies : List Dependency) (imports : Imports)
    (modules : List (Dependency × Lookup.Modules.Resolved)) : Prop :=
  ∃ before more, imports = .found before ∧ Leads find importer dependencies more ∧
    modules = before ++ more

theorem joins_nil_iff : Joins find importer [] imports modules ↔ imports = .found modules := by
  constructor
  · rintro ⟨before, more, himports, hmore, rfl⟩
    rw [hmore.eq_nil, List.append_nil]
    exact himports
  · intro h
    exact ⟨modules, [], h, .nil, (List.append_nil _).symm⟩

theorem joins_cons_iff {module : Lookup.Modules.Resolved}
    (hmodule : find dep.specifier (some importer) = .ok module) :
    Joins find importer (dep :: rest) imports modules ↔
      Joins find importer rest (imports.add dep module) modules := by
  constructor
  · rintro ⟨before, more, himports, hmore, rfl⟩
    obtain ⟨module', others, hmodule', hothers, rfl⟩ := hmore.cons_inv
    have hsame : module = module' := Except.ok.inj (hmodule.symm.trans hmodule')
    subst hsame
    exact ⟨_, others, add_eq_found_iff.2 ⟨before, himports, rfl⟩, hothers, by simp⟩
  · rintro ⟨before, more, himports, hmore, rfl⟩
    obtain ⟨first, hfirst, rfl⟩ := add_eq_found_iff.1 himports
    exact ⟨first, (dep, module) :: more, hfirst, hmore.cons hmodule, by simp⟩

/-- An import that leads nowhere leads to no modules. -/
theorem not_joins_cons (h : ∀ module, find dep.specifier (some importer) ≠ .ok module) :
    ¬ Joins find importer (dep :: rest) imports modules := by
  rintro ⟨before, more, -, hmore, -⟩
  obtain ⟨module, others, hmodule, -, -⟩ := hmore.cons_inv
  exact h module hmodule

end Imports

/-- Whether an asset can be made ready: it is compiled to a unit, and its imports lead to modules. -/
structure Answers.Readies (answers : Answers κ) (types : AssetTypes κ) (asset : Asset) (unit : CompiledUnit)
    (modules : List (Dependency × Lookup.Modules.Resolved)) : Prop where
  translated : answers.translate (types.compilerOf asset.identity) asset.identity asset.package = .ok unit
  leads : ∃ implied, answers.implied asset.identity asset.kind = .ok implied ∧
    Leads answers.find asset.identity (unit.dependencies ++ implied) modules

/-! ## Recording imports -/

namespace Work

variable {tools : Toolset κ π σ} {now : σ → Prop}
  (hwatch : ∀ p world, now world → now (tools.watch p world).2)
include hwatch

theorem now_watch (work : Work σ) (hnow : now work.world) (p : Path) :
    now (work.watch tools p).world := by
  have hanswer := hwatch p work.world hnow
  unfold watch
  generalize tools.watch p work.world = answer at hanswer
  obtain ⟨result, world⟩ := answer
  cases result with
  | ok done => exact hanswer
  | error failure => exact hanswer

theorem now_enter (types : AssetTypes κ) {work : Work σ} (hnow : now work.world)
    (module : Lookup.Modules.Resolved) : now (work.enter tools types module).2.world := by
  unfold enter
  split
  · exact hnow
  · refine now_watch hwatch _ ?_ _
    exact hnow

theorem now_record (types : AssetTypes κ) {work : Work σ} (hnow : now work.world) (id : AssetId)
    (found : Dependency × Lookup.Modules.Resolved) :
    now (work.record tools types id found).2.world := by
  unfold record
  split
  · unfold inline
    split
    · exact hnow
    · refine now_watch hwatch _ ?_ _
      exact hnow
  · exact now_enter hwatch types hnow found.2

/-- Recording imports does to the world what watching files does. -/
theorem now_recordAll (types : AssetTypes κ) (id : AssetId)
    (modules : List (Dependency × Lookup.Modules.Resolved)) {work : Work σ} (hnow : now work.world) :
    now (recordAll tools types id modules work).2.world := by
  induction modules generalizing work with
  | nil => exact hnow
  | cons found rest ih => exact ih (now_record hwatch types hnow id found)

end Work

namespace Answering

variable {tools : Toolset κ π σ} {now : σ → Prop} {answers : Answers κ}
  (hanswering : Answering tools now answers)
include hanswering

/-! ## Asking -/

/-- There is nothing to be heard. -/
theorem listen {work : Work σ} (hnow : now work.world) : Work.Still now work (work.listen tools) := by
  have harrivals := hanswering.arrivals work.world hnow
  unfold Work.listen
  generalize tools.arrivals work.world = answer at harrivals
  obtain ⟨changes, world⟩ := answer
  obtain ⟨hnone, hworld⟩ := harrivals
  dsimp only at hnone
  subst hnone
  exact ⟨rfl, hworld⟩

theorem ask (work : Work σ) {world : σ} (hworld : now world) :
    Work.Still now work (({ work with world } : Work σ).listen tools) := by
  have hlisten := @listen _ _ _ _ _ _ hanswering { work with world } hworld
  exact ⟨hlisten.state, hlisten.now⟩

theorem compile_spec (types : AssetTypes κ) {work : Work σ} (hnow : now work.world) (asset : Asset) :
    (work.compile tools types asset).1 =
        (answers.translate (types.compilerOf asset.identity) asset.identity asset.package).map
          (fun unit => (unit, true)) ∧
      Work.Still now work (work.compile tools types asset).2 := by
  have hretrieve := hanswering.retrieve asset.identity work.world hnow
  unfold Work.compile
  generalize tools.retrieve asset.identity work.world = answer at hretrieve
  obtain ⟨cached, world⟩ := answer
  obtain ⟨hnone, hworld⟩ := hretrieve
  dsimp only at hnone
  subst hnone
  have hasked := hanswering.ask work hworld
  dsimp only
  generalize Work.listen tools ({ work with world } : Work σ) = asked at hasked
  have hcompile := hanswering.compile (types.compilerOf asset.identity) asset.identity asset.package
    asked.world hasked.now
  exact ⟨congrArg _ hcompile.1, hasked.trans (hanswering.ask asked hcompile.2)⟩

theorem dependencies_spec {work : Work σ} (hnow : now work.world) (asset : Asset) (unit : CompiledUnit) :
    (work.dependencies tools asset unit).1 =
        (answers.implied asset.identity asset.kind).map (unit.dependencies ++ ·) ∧
      Work.Still now work (work.dependencies tools asset unit).2 := by
  have himplied := hanswering.implied asset.identity asset.kind work.world hnow
  unfold Work.dependencies
  generalize tools.implied asset.identity asset.kind work.world = answer at himplied
  obtain ⟨result, world⟩ := answer
  obtain ⟨hresult, hworld⟩ := himplied
  dsimp only at hresult
  rw [← hresult]
  cases result with
  | ok implied => exact ⟨rfl, hanswering.ask work hworld⟩
  | error failure => exact ⟨rfl, hanswering.ask work hworld⟩

/-- An import is found if the resolver finds it. -/
theorem find_spec {work : Work σ} (hnow : now work.world) (importer : Path) (dep : Dependency) :
    (∀ module, (work.find tools importer dep).1 = .found module ↔
      answers.find dep.specifier (some importer) = .ok module) ∧
      Work.Still now work (work.find tools importer dep).2 := by
  obtain ⟨hresult, hworld⟩ := hanswering.resolve dep.specifier (some importer) work.world hnow
  refine ⟨fun module => by rw [Work.find_eq_found_iff, hresult], ?_⟩
  have hlisten := @listen _ _ _ _ _ _ hanswering
    (({ work with world := (tools.resolve dep.specifier (some importer) work.world).2 } : Work σ).warn
      (tools.resolve dep.specifier (some importer) work.world).1.warnings) hworld
  have hstill := (⟨hlisten.state, hlisten.now⟩ : Work.Still now work _)
  unfold Work.find
  dsimp only
  split
  · exact hstill
  · split
    · exact hstill
    · exact hstill
  · exact hstill

theorem findEach_spec (inOrder : Bool) (importer : Path) (dependencies : List Dependency)
    (imports : Imports) {work : Work σ} (hnow : now work.world) :
    (∀ modules, (Work.findEach tools inOrder importer dependencies imports work).1 = .found modules ↔
      Imports.Joins answers.find importer dependencies imports modules) ∧
      Work.Still now work (Work.findEach tools inOrder importer dependencies imports work).2 := by
  induction dependencies generalizing imports work with
  | nil => exact ⟨fun _ => Imports.joins_nil_iff.symm, rfl, hnow⟩
  | cons dep rest ih =>
    obtain ⟨hfound, hstill⟩ := hanswering.find_spec hnow importer dep
    unfold Work.findEach
    generalize work.find tools importer dep = answer at hfound hstill
    obtain ⟨finding, next⟩ := answer
    dsimp only at hfound hstill
    cases finding with
    | found module =>
      obtain ⟨hrest, hstill'⟩ := ih (imports.add dep module) hstill.now
      refine ⟨fun modules => ?_, hstill.trans hstill'⟩
      rw [Imports.joins_cons_iff ((hfound module).1 rfl)]
      exact hrest modules
    | late failure =>
      have hnowhere : ∀ module, answers.find dep.specifier (some importer) ≠ .ok module := by
        intro module hmodule
        cases (hfound module).2 hmodule
      obtain ⟨hrest, hstill'⟩ := ih (imports.miss failure) hstill.now
      refine ⟨fun modules => (hrest modules).trans ⟨?_, fun h => ?_⟩, hstill.trans hstill'⟩
      · rintro ⟨before, more, himports, -⟩
        exact absurd himports (Imports.miss_ne_found failure)
      · exact absurd h (Imports.not_joins_cons hnowhere)
    | failed failure =>
      have hnowhere : ∀ module, answers.find dep.specifier (some importer) ≠ .ok module := by
        intro module hmodule
        cases (hfound module).2 hmodule
      dsimp only
      split
      · rename_i hlate
        obtain ⟨hrest, hstill'⟩ := ih imports hstill.now
        refine ⟨fun modules => (hrest modules).trans ⟨?_, fun h => ?_⟩, hstill.trans hstill'⟩
        · rintro ⟨before, more, rfl, -⟩
          cases hlate
        · exact absurd h (Imports.not_joins_cons hnowhere)
      · refine ⟨fun modules => ⟨fun h => (by cases h), fun h => ?_⟩, hstill⟩
        exact absurd h (Imports.not_joins_cons hnowhere)

/-- The imports of an asset are found if they all lead somewhere. -/
theorem findAll_spec {work : Work σ} (hnow : now work.world) (importer : Path)
    (dependencies : List Dependency) :
    (∀ modules, (work.findAll tools importer dependencies).1 = .found modules ↔
      Leads answers.find importer dependencies modules) ∧
      Work.Still now work (work.findAll tools importer dependencies).2 := by
  obtain ⟨hfound, hstill⟩ :=
    hanswering.findEach_spec (decide (Work.sideBySide < dependencies.length)) importer dependencies
      (.found []) hnow
  refine ⟨fun modules => (hfound modules).trans ⟨?_, fun h => ?_⟩, hstill⟩
  · rintro ⟨before, more, hbefore, hmore, rfl⟩
    cases hbefore
    exact hmore
  · exact ⟨[], modules, rfl, h, rfl⟩

theorem remember_still {work : Work σ} (hnow : now work.world) (asset : Asset) (unit : CompiledUnit)
    (isNew : Bool) (modules : List (Dependency × Lookup.Modules.Resolved)) :
    Work.Still now work (work.remember tools asset unit isNew modules) := by
  unfold Work.remember
  split
  · exact hanswering.ask work (hanswering.remember _ _ _ _ hnow)
  · exact ⟨rfl, hnow⟩

/-! ## Making an asset ready -/

section Prepare

variable (types : AssetTypes κ) {work : Work σ} (hnow : now work.world) (id : AssetId) (asset : Asset)
include hnow

/-- What becomes of an asset that compiles depends on what its imports lead to. -/
theorem prepare_of_ok {unit : CompiledUnit} {implied : List Dependency}
    (hunit : answers.translate (types.compilerOf asset.identity) asset.identity asset.package = .ok unit)
    (himplied : answers.implied asset.identity asset.kind = .ok implied) :
    ∃ (imports : Imports) (found : Work σ), found.state = work.state.keep id unit ∧ now found.world ∧
      (∀ modules, imports = .found modules ↔
        Leads answers.find asset.identity (unit.dependencies ++ implied) modules) ∧
      ((∃ failure, imports = .failed failure ∧
          work.prepare tools types id asset = (.failed failure, found)) ∨
        (∃ failure, imports = .late failure ∧
          work.prepare tools types id asset = (.late failure, found)) ∨
        ∃ modules before, imports = .found modules ∧ Work.Still now found before ∧
          work.prepare tools types id asset =
            (.ready (Work.recordAll tools types id modules before).1,
              (Work.recordAll tools types id modules before).2)) := by
  obtain ⟨hresult, hcompile⟩ := hanswering.compile_spec types hnow asset
  rw [hunit] at hresult
  unfold Work.prepare
  generalize work.compile tools types asset = compiled at hresult hcompile
  obtain ⟨result, compiled⟩ := compiled
  dsimp only [Except.map] at hresult hcompile
  subst hresult
  obtain ⟨hresult, hdependencies⟩ := hanswering.dependencies_spec hcompile.now asset unit
  rw [himplied] at hresult
  dsimp only
  generalize compiled.dependencies tools asset unit = declared at hresult hdependencies
  obtain ⟨result, declared⟩ := declared
  dsimp only [Except.map] at hresult hdependencies
  subst hresult
  have hkept := hcompile.trans hdependencies
  obtain ⟨hfound, hfind⟩ := @findAll_spec _ _ _ _ _ _ hanswering
    { declared with state := declared.state.keep id unit } hkept.now asset.identity
    (unit.dependencies ++ implied)
  dsimp only
  generalize ({ declared with state := declared.state.keep id unit } : Work σ).findAll tools
    asset.identity (unit.dependencies ++ implied) = found at hfound hfind
  obtain ⟨imports, found⟩ := found
  have hstate : found.state = work.state.keep id unit := by
    rw [hfind.state, hkept.state]
  refine ⟨imports, found, hstate, hfind.now, hfound, ?_⟩
  cases imports with
  | failed failure => exact .inl ⟨failure, rfl, rfl⟩
  | late failure => exact .inr (.inl ⟨failure, rfl, rfl⟩)
  | found modules =>
    exact .inr (.inr ⟨modules, _, rfl, hanswering.remember_still hfind.now asset unit true modules, rfl⟩)

/-- An asset does not become ready if it does not compile, or if it cannot be told what it implies. -/
theorem prepare_of_error
    (h : ∀ unit implied,
      answers.translate (types.compilerOf asset.identity) asset.identity asset.package = .ok unit →
        answers.implied asset.identity asset.kind ≠ .ok implied) :
    (∃ failure, (work.prepare tools types id asset).1 = .failed failure) ∧
      Work.Still now work (work.prepare tools types id asset).2 := by
  obtain ⟨hresult, hcompile⟩ := hanswering.compile_spec types hnow asset
  unfold Work.prepare
  generalize work.compile tools types asset = compiled at hresult hcompile
  obtain ⟨result, compiled⟩ := compiled
  cases htranslate :
      answers.translate (types.compilerOf asset.identity) asset.identity asset.package with
  | error failure =>
    rw [htranslate] at hresult
    dsimp only [Except.map] at hresult hcompile
    subst hresult
    exact ⟨⟨failure, rfl⟩, hcompile⟩
  | ok unit =>
    rw [htranslate] at hresult
    dsimp only [Except.map] at hresult hcompile
    subst hresult
    obtain ⟨hresult, hdependencies⟩ := hanswering.dependencies_spec hcompile.now asset unit
    dsimp only
    generalize compiled.dependencies tools asset unit = declared at hresult hdependencies
    obtain ⟨result, declared⟩ := declared
    cases himplied : answers.implied asset.identity asset.kind with
    | error failure =>
      rw [himplied] at hresult
      dsimp only [Except.map] at hresult hdependencies
      subst hresult
      exact ⟨⟨failure, rfl⟩, hcompile.trans hdependencies⟩
    | ok implied => exact absurd himplied (h unit implied htranslate)

/-- An asset becomes ready just if it compiles and its imports lead somewhere, and the world stays as it is
now. -/
theorem prepare_spec :
    now (work.prepare tools types id asset).2.world ∧
    ((∃ unit modules before, answers.Readies types asset unit modules ∧
        before.state = work.state.keep id unit ∧ now before.world ∧
          work.prepare tools types id asset =
            (.ready (Work.recordAll tools types id modules before).1,
              (Work.recordAll tools types id modules before).2)) ∨
    (∀ children, (work.prepare tools types id asset).1 ≠ .ready children) ∧
      ((work.prepare tools types id asset).2.state = work.state ∨
        ∃ unit, (work.prepare tools types id asset).2.state = work.state.keep id unit) ∧
      ∀ unit modules, ¬ answers.Readies types asset unit modules) := by
  by_cases hcompiles : ∃ unit implied,
      answers.translate (types.compilerOf asset.identity) asset.identity asset.package = .ok unit ∧
        answers.implied asset.identity asset.kind = .ok implied
  · obtain ⟨unit, implied, hunit, himplied⟩ := hcompiles
    obtain ⟨imports, found, hstate, hworld, himports, hcases⟩ :=
      hanswering.prepare_of_ok types hnow id asset hunit himplied
    -- an asset does not become ready unless its imports are found
    have hmissing : (∀ modules, imports ≠ .found modules) → ∀ unit' modules,
        ¬ answers.Readies types asset unit' modules := by
      rintro hnone unit' modules ⟨hunit', implied', himplied', hleads⟩
      obtain rfl : unit = unit' := Except.ok.inj (hunit.symm.trans hunit')
      obtain rfl : implied = implied' := Except.ok.inj (himplied.symm.trans himplied')
      exact hnone modules ((himports modules).2 hleads)
    rcases hcases with ⟨failure, rfl, heq⟩ | ⟨failure, rfl, heq⟩ | ⟨modules, before, rfl, hstill, heq⟩
    · rw [heq]
      exact ⟨hworld, .inr ⟨fun _ h => (by cases h), .inr ⟨unit, hstate⟩,
        hmissing fun _ h => by cases h⟩⟩
    · rw [heq]
      exact ⟨hworld, .inr ⟨fun _ h => (by cases h), .inr ⟨unit, hstate⟩,
        hmissing fun _ h => by cases h⟩⟩
    · rw [heq]
      refine ⟨Work.now_recordAll hanswering.watch types id modules hstill.now, .inl ⟨unit, modules, before,
        ⟨hunit, implied, himplied, (himports modules).1 rfl⟩, hstill.state.trans hstate, hstill.now,
        rfl⟩⟩
  · obtain ⟨⟨failure, hfailed⟩, hstill⟩ := hanswering.prepare_of_error types hnow id asset
      fun unit implied hunit himplied => hcompiles ⟨unit, implied, hunit, himplied⟩
    refine ⟨hstill.now, .inr ⟨?_, .inl hstill.state, ?_⟩⟩
    · intro children hready
      rw [hfailed] at hready
      cases hready
    · rintro unit modules ⟨hunit, implied, himplied, -⟩
      exact hcompiles ⟨unit, implied, hunit, himplied⟩

end Prepare

end Answering
end Build
end ModuleBundler
