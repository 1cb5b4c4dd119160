import ModuleBundler.Build.Pass

/-!
# Taking note of changes

Changes of files can be reported while a build waits for one of its tools.  All
they do is that more assets wait in the queue.  Whatever else a tool brings about
lies in the world, so a step that only asks tools takes note of changes and does
nothing else to the state.

Main results:

- Theorem {lit}`Work.notices_listen`: listening only takes note of changes.
- Theorem {lit}`Work.prepare_cases`: what making an asset ready does to the state.
-/

namespace ModuleBundler
namespace Build
namespace State

/-- Whether all that has happened to a state is that more assets wait. -/
structure Notices (old new : State) : Prop where
  graph : new.graph = old.graph
  start : new.start = old.start
  fingerprints : new.fingerprints = old.fingerprints
  queue : ∀ id ∈ old.queue, id ∈ new.queue

namespace Notices

theorem refl (state : State) : state.Notices state :=
  ⟨rfl, rfl, rfl, fun _ h => h⟩

theorem trans {a b c : State} (hab : a.Notices b) (hbc : b.Notices c) : a.Notices c :=
  ⟨hbc.graph.trans hab.graph, hbc.start.trans hab.start, hbc.fingerprints.trans hab.fingerprints,
    fun id h => hbc.queue id (hab.queue id h)⟩

end Notices

/-- An asset that has to wait is a notice. -/
theorem notices_enqueue (state : State) (id : AssetId) : state.Notices (state.enqueue id) :=
  ⟨rfl, rfl, rfl, fun _ h => mem_includeLast_iff.2 (.inl h)⟩

theorem notices_notify (state : State) (p : Path) : state.Notices (state.notify p).2 := by
  unfold notify
  split
  · exact notices_enqueue state _
  · exact .refl state

end State

namespace Work

variable {κ π σ : Type}

/-! ## Listening -/

theorem notices_notify (work : Work σ) (p : Path) : work.state.Notices (work.notify p).2.state := by
  have hstate := work.state.notices_notify p
  unfold notify
  cases hnotify : work.state.notify p with
  | mk accepted state =>
    rw [hnotify] at hstate
    cases accepted with
    | none => exact .refl _
    | some id => exact hstate

theorem notices_notifyAll (work : Work σ) (changes : List Path) :
    work.state.Notices (work.notifyAll changes).state := by
  unfold notifyAll
  induction changes generalizing work with
  | nil => exact .refl _
  | cons p rest ih => exact (work.notices_notify p).trans (ih _)

/-- Listening only takes note of changes. -/
theorem notices_listen (tools : Toolset κ π σ) (work : Work σ) :
    work.state.Notices (work.listen tools).state := by
  unfold listen
  exact @notices_notifyAll σ { work with world := (tools.arrivals work.world).2 } _

/-- So does listening after the world has changed. -/
theorem notices_ask (tools : Toolset κ π σ) (work : Work σ) (world : σ) :
    work.state.Notices (({ work with world } : Work σ).listen tools).state :=
  notices_listen tools { work with world }

/-! ## Asking tools -/

@[simp]
theorem state_tell (work : Work σ) (notice : Notice) : (work.tell notice).state = work.state := rfl

@[simp]
theorem state_warn (work : Work σ) (warnings : List String) : (work.warn warnings).state = work.state :=
  rfl

@[simp]
theorem state_watch (tools : Toolset κ π σ) (work : Work σ) (p : Path) :
    (work.watch tools p).state = work.state := by
  unfold watch
  split <;> rfl

theorem notices_compile (tools : Toolset κ π σ) (types : AssetTypes κ) (work : Work σ) (asset : Asset) :
    work.state.Notices (work.compile tools types asset).2.state := by
  unfold compile
  split
  · exact notices_ask tools work _
  · rename_i world _
    exact (notices_ask tools work world).trans
      (notices_ask tools (({ work with world } : Work σ).listen tools) _)

theorem notices_dependencies (tools : Toolset κ π σ) (work : Work σ) (asset : Asset)
    (unit : CompiledUnit) : work.state.Notices (work.dependencies tools asset unit).2.state := by
  unfold dependencies
  split
  · exact notices_ask tools work _
  · exact notices_ask tools work _

theorem notices_find (tools : Toolset κ π σ) (work : Work σ) (importer : Path) (dep : Dependency) :
    work.state.Notices (work.find tools importer dep).2.state := by
  have hlisten := notices_listen tools
    ({ work with world := (tools.resolve dep.specifier (some importer) work.world).2 }.warn
      (tools.resolve dep.specifier (some importer) work.world).1.warnings)
  unfold find
  dsimp only
  split
  · exact hlisten
  · split
    · exact hlisten
    · exact hlisten
  · exact hlisten

theorem notices_findEach (tools : Toolset κ π σ) (inOrder : Bool) (importer : Path)
    (dependencies : List Dependency) (imports : Imports) (work : Work σ) :
    work.state.Notices (findEach tools inOrder importer dependencies imports work).2.state := by
  induction dependencies generalizing imports work with
  | nil => exact .refl _
  | cons dep rest ih =>
    have hfind := notices_find tools work importer dep
    unfold findEach
    generalize work.find tools importer dep = found at hfind
    obtain ⟨finding, next⟩ := found
    cases finding with
    | found module => exact hfind.trans (ih _ _)
    | late failure => exact hfind.trans (ih _ _)
    | failed failure =>
      dsimp only
      split
      · exact hfind.trans (ih _ _)
      · exact hfind

theorem notices_findAll (tools : Toolset κ π σ) (work : Work σ) (importer : Path)
    (dependencies : List Dependency) :
    work.state.Notices (work.findAll tools importer dependencies).2.state :=
  notices_findEach _ _ _ _ _ _

theorem notices_remember (tools : Toolset κ π σ) (work : Work σ) (asset : Asset) (unit : CompiledUnit)
    (isNew : Bool) (modules : List (Dependency × Lookup.Modules.Resolved)) :
    work.state.Notices (work.remember tools asset unit isNew modules).state := by
  unfold remember
  split
  · exact notices_ask tools work _
  · exact .refl _

/-! ## Making an asset ready -/

/-- Making an asset ready fails before its output was kept, or it fails afterwards, or the imports of the
asset are recorded. -/
theorem prepare_cases (tools : Toolset κ π σ) (types : AssetTypes κ) (work : Work σ) (id : AssetId)
    (asset : Asset) :
    ((∀ children, (work.prepare tools types id asset).1 ≠ .ready children) ∧
      (work.state.Notices (work.prepare tools types id asset).2.state ∨
        ∃ state unit, work.state.Notices state ∧
          (state.keep id unit).Notices (work.prepare tools types id asset).2.state)) ∨
    ∃ state unit modules next, work.state.Notices state ∧ (state.keep id unit).Notices next.state ∧
      work.prepare tools types id asset =
        (.ready (recordAll tools types id modules next).1, (recordAll tools types id modules next).2) := by
  have hcompile := notices_compile tools types work asset
  unfold prepare
  generalize work.compile tools types asset = compiled at hcompile
  obtain ⟨result, work₁⟩ := compiled
  cases result with
  | error failure => exact .inl ⟨fun _ h => (by cases h), .inl hcompile⟩
  | ok compiled =>
    obtain ⟨unit, isNew⟩ := compiled
    have hdependencies := notices_dependencies tools work₁ asset unit
    dsimp only
    generalize work₁.dependencies tools asset unit = declared at hdependencies
    obtain ⟨result, work₂⟩ := declared
    cases result with
    | error failure => exact .inl ⟨fun _ h => (by cases h), .inl (hcompile.trans hdependencies)⟩
    | ok dependencies =>
      have hfind := notices_findAll tools { work₂ with state := work₂.state.keep id unit } asset.identity
        dependencies
      dsimp only
      generalize ({ work₂ with state := work₂.state.keep id unit } : Work σ).findAll tools asset.identity
        dependencies = found at hfind
      obtain ⟨imports, work₃⟩ := found
      have hkept := hcompile.trans hdependencies
      cases imports with
      | failed failure => exact .inl ⟨fun _ h => (by cases h), .inr ⟨_, unit, hkept, hfind⟩⟩
      | late failure => exact .inl ⟨fun _ h => (by cases h), .inr ⟨_, unit, hkept, hfind⟩⟩
      | found modules =>
        exact .inr ⟨_, unit, modules, work₃.remember tools asset unit isNew modules, hkept,
          hfind.trans (notices_remember _ _ _ _ _ _), rfl⟩

section

variable {tools : Toolset κ π σ} {types : AssetTypes κ} {work next : Work σ} {id : AssetId} {asset : Asset}

/-- An asset that does not become ready was given a unit at most. -/
theorem prepare_unready_cases (h : ∀ children, (work.prepare tools types id asset).1 ≠ .ready children) :
    work.state.Notices (work.prepare tools types id asset).2.state ∨
      ∃ state unit, work.state.Notices state ∧
        (state.keep id unit).Notices (work.prepare tools types id asset).2.state := by
  rcases prepare_cases tools types work id asset with ⟨-, hcases⟩ | ⟨state, unit, modules, found, -, -, hready⟩
  · exact hcases
  · rw [hready] at h
    exact absurd rfl (h _)

/-- An asset that becomes ready was given a unit, and its imports were recorded. -/
theorem prepare_ready_cases {children : List AssetId}
    (h : work.prepare tools types id asset = (.ready children, next)) :
    ∃ state unit modules found, work.state.Notices state ∧ (state.keep id unit).Notices found.state ∧
      recordAll tools types id modules found = (children, next) := by
  rcases prepare_cases tools types work id asset with ⟨hunready, -⟩ |
    ⟨state, unit, modules, found, hbefore, hafter, hready⟩
  · rw [h] at hunready
    exact absurd rfl (hunready _)
  · obtain ⟨hchildren, hnext⟩ := Prod.mk.inj (h.symm.trans hready)
    exact ⟨state, unit, modules, found, hbefore, hafter,
      Prod.ext (Preparation.ready.inj hchildren).symm hnext.symm⟩

end

end Work
end Build
end ModuleBundler
