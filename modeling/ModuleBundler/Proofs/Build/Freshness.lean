import ModuleBundler.Proofs.Build.Consistency

/-!
# Fresh assets

An asset is fresh if it is what the current text of its file is compiled to and its
imports lead to the modules that the resolver finds.  Between passes every asset is
fresh or waits in the queue; so when nothing waits any more, all assets are fresh.
In the middle of a pass the assets that are late and those that are still to be
loaded are exceptions ({lit}`State.Current`).

Main results:

- Theorem {lit}`State.Current.update`: a change of one asset only has to make that asset fresh or late.
- Theorem {lit}`State.Current.drain`: assets that are taken off the queue are loaded from scratch.
- Theorem {lit}`State.Current.fresh`: when nothing waits, all assets are fresh.
-/

namespace ModuleBundler

/-! ## Modules in a graph -/

namespace AssetGraph

/-- Whether an asset stands for a module. -/
def Holds (graph : AssetGraph) (id : AssetId) (module : Lookup.Modules.Resolved) : Prop :=
  ∃ asset, graph.get? id = some asset ∧ asset.identity = module.path ∧ asset.package = module.package

/-- Whether assets stand for the modules that they stood for before. -/
def Carries (old new : AssetGraph) : Prop :=
  ∀ id module, old.Holds id module → new.Holds id module

theorem Carries.refl (graph : AssetGraph) : graph.Carries graph :=
  fun _ _ h => h

theorem Carries.trans {a b c : AssetGraph} (hab : a.Carries b) (hbc : b.Carries c) : a.Carries c :=
  fun id module h => hbc id module (hab id module h)

/-- Whether a specifier leads to an asset that stands for a module. -/
def LeadsTo (graph : AssetGraph) (resolved : Table AssetId) (specifier : String)
    (module : Lookup.Modules.Resolved) : Prop :=
  ∃ target, resolved.get? specifier = some target ∧ graph.Holds target module

theorem LeadsTo.mono {old new : AssetGraph} {resolved : Table AssetId} {specifier : String}
    {module : Lookup.Modules.Resolved} (h : old.LeadsTo resolved specifier module)
    (hcarries : old.Carries new) : new.LeadsTo resolved specifier module := by
  obtain ⟨target, hresolved, hholds⟩ := h
  exact ⟨target, hresolved, hcarries _ _ hholds⟩

/-- Entering a module leaves the modules of all assets alone. -/
theorem carries_insert (graph : AssetGraph) (identity : Path) (kind : Kind) (package : Package) :
    graph.Carries (graph.insert identity kind package).2 := by
  rintro id module ⟨asset, hget, hmodule⟩
  exact ⟨asset, get?_insert_of_get? hget identity kind package, hmodule⟩

/-- Places have nothing to do with the modules of assets. -/
theorem SameContent.carries {old new : AssetGraph} (h : old.SameContent new) : old.Carries new := by
  rintro id module ⟨asset, hget, hmodule⟩
  obtain ⟨after, hafter, hsame⟩ := h.exists_get? hget
  refine ⟨after, hafter, ?_⟩
  exact (Asset.iff_of_withoutPlace hsame
    (p := fun asset => asset.identity = module.path ∧ asset.package = module.package)
    fun _ => Iff.rfl).2 hmodule

end AssetGraph

namespace Asset

/-- Put imports in the place of those with their specifiers, one after another. -/
def putDependencies (dependencies declared : List Dependency) : List Dependency :=
  dependencies.foldl (fun declared dep => putDependency dep declared) declared

theorem mem_putDependency {dep other : Dependency} {declared : List Dependency}
    (h : other ∈ putDependency dep declared) : other = dep ∨ other ∈ declared := by
  induction declared with
  | nil => exact .inl (List.mem_singleton.1 h)
  | cons first rest ih =>
    unfold putDependency at h
    split at h
    · exact (List.mem_cons.1 h).imp_right fun hmem => List.mem_cons_of_mem _ hmem
    · rcases List.mem_cons.1 h with rfl | hmem
      · exact .inr List.mem_cons_self
      · exact (ih hmem).imp_right fun hmem => List.mem_cons_of_mem _ hmem

/-- What is declared in the end was declared before or was put there. -/
theorem mem_putDependencies {other : Dependency} {dependencies declared : List Dependency}
    (h : other ∈ putDependencies dependencies declared) : other ∈ dependencies ∨ other ∈ declared := by
  induction dependencies generalizing declared with
  | nil => exact .inr h
  | cons dep rest ih =>
    rcases ih h with hmem | hmem
    · exact .inl (List.mem_cons_of_mem _ hmem)
    · rcases mem_putDependency hmem with rfl | hmem
      · exact .inl List.mem_cons_self
      · exact .inr hmem

/-- Whether an asset is as it was when it was entered, and still has to be loaded. -/
structure Pristine (asset : Asset) : Prop where
  dirty : asset.dirty = true
  undeclared : asset.dependencies = []

end Asset

theorem AssetGraph.carries_update (graph : AssetGraph) (id : AssetId) {change : Asset → Asset}
    (hmodule : Asset.KeepsModule change) : graph.Carries (graph.update id change) := by
  rintro other module ⟨asset, hget, hidentity, hpackage⟩
  by_cases hother : other = id
  · subst hother
    exact ⟨change asset, by rw [get?_update_self, hget]; rfl, (hmodule.identity asset).trans hidentity,
      (hmodule.package asset).trans hpackage⟩
  · exact ⟨asset, by rw [get?_update_of_ne hother, hget], hidentity, hpackage⟩

namespace Build

/-! ## Fresh assets -/

namespace Rules

variable {κ τ : Type}

/-- Whether the resolver knows every module by one name, in one package. -/
def Canonical (rules : Rules κ τ) : Prop :=
  ∀ {specifier specifier' : String} {importer importer' : Option Path}
    {module module' : Lookup.Modules.Resolved}, rules.find specifier importer = .ok module →
      rules.find specifier' importer' = .ok module' → (module.path == module'.path) = true →
        module = module'

/-- Whether an asset is a module that the resolver finds. -/
structure Sources (rules : Rules κ τ) (types : AssetTypes κ) (asset : Asset) : Prop where
  kind : asset.kind = types.kindOf asset.identity
  found : ∃ specifier importer, rules.find specifier importer = .ok ⟨asset.identity, asset.package⟩

/-- Whether an asset is what a unit, to which its file is compiled, makes of it. -/
structure Makes (rules : Rules κ τ) (types : AssetTypes κ) (text : Path → τ) (graph : AssetGraph)
    (asset : Asset) (unit : CompiledUnit) : Prop where
  clean : asset.dirty = false
  translated : rules.translate (types.compilerOf asset.identity) asset.identity asset.package
    (text asset.identity) = .ok unit
  compiled : asset.compiled = some unit.generated
  hash : asset.hash = some unit.hash
  dependencies : asset.dependencies = Asset.putDependencies unit.dependencies []
  leads : ∀ dep ∈ unit.dependencies, ∃ module,
    rules.find dep.specifier (some asset.identity) = .ok module ∧
      graph.LeadsTo asset.resolved dep.specifier module

/-- Whether an asset is what the current text of its file makes of it. -/
def Fresh (rules : Rules κ τ) (types : AssetTypes κ) (text : Path → τ) (graph : AssetGraph)
    (asset : Asset) : Prop :=
  ∃ unit, rules.Makes types text graph asset unit

variable {rules : Rules κ τ} {types : AssetTypes κ} {text : Path → τ} {old new : AssetGraph}
  {asset : Asset}

theorem Makes.mono {unit : CompiledUnit} (h : rules.Makes types text old asset unit)
    (hcarries : old.Carries new) : rules.Makes types text new asset unit where
  clean := h.clean
  translated := h.translated
  compiled := h.compiled
  hash := h.hash
  dependencies := h.dependencies
  leads := by
    intro dep hdep
    obtain ⟨module, hfind, hleads⟩ := h.leads dep hdep
    exact ⟨module, hfind, hleads.mono hcarries⟩

/-- All imports of an asset that a unit makes lead somewhere. -/
theorem Makes.exists_leads {graph : AssetGraph} {unit : CompiledUnit}
    (h : rules.Makes types text graph asset unit) :
    ∃ modules, Leads rules.find asset.identity unit.dependencies modules := by
  refine Leads.of_forall fun dep hdep => ?_
  obtain ⟨module, hfind, -⟩ := h.leads dep hdep
  exact ⟨module, hfind⟩

/-- The modules to which the imports lead are in the graph. -/
theorem Makes.holds {graph : AssetGraph} {unit : CompiledUnit}
    (h : rules.Makes types text graph asset unit)
    {modules : List (Dependency × Lookup.Modules.Resolved)}
    (hleads : Leads rules.find asset.identity unit.dependencies modules) :
    ∀ link ∈ modules, ∃ owner, graph.Holds owner link.2 := by
  intro link hlink
  obtain ⟨module, hfind, target, -, hholds⟩ := h.leads link.1 (hleads.mem_dependencies hlink)
  have hsame : link.2 = module := Except.ok.inj ((hleads.found link hlink).symm.trans hfind)
  rw [hsame]
  exact ⟨target, hholds⟩

/-- A fresh asset stays fresh as long as assets stand for the same modules. -/
theorem Fresh.mono (h : rules.Fresh types text old asset) (hcarries : old.Carries new) :
    rules.Fresh types text new asset := by
  obtain ⟨unit, hunit⟩ := h
  exact ⟨unit, hunit.mono hcarries⟩

theorem Fresh.clean (h : rules.Fresh types text old asset) : asset.dirty = false := by
  obtain ⟨unit, hunit⟩ := h
  exact hunit.clean

/-- Which module an asset is does not depend on its place. -/
theorem sources_iff (rules : Rules κ τ) (types : AssetTypes κ) {a b : Asset}
    (h : a.withoutPlace = b.withoutPlace) : rules.Sources types a ↔ rules.Sources types b :=
  Asset.iff_of_withoutPlace h fun _ => ⟨fun h => ⟨h.kind, h.found⟩, fun h => ⟨h.kind, h.found⟩⟩

/-- Whether an asset is fresh does not depend on its place. -/
theorem fresh_iff (rules : Rules κ τ) (types : AssetTypes κ) {graph : AssetGraph} {a b : Asset}
    (h : a.withoutPlace = b.withoutPlace) :
    rules.Fresh types text graph a ↔ rules.Fresh types text graph b :=
  Asset.iff_of_withoutPlace h fun _ =>
    ⟨fun ⟨unit, h⟩ => ⟨unit, h.clean, h.translated, h.compiled, h.hash, h.dependencies, h.leads⟩,
      fun ⟨unit, h⟩ => ⟨unit, h.clean, h.translated, h.compiled, h.hash, h.dependencies, h.leads⟩⟩

end Rules

/-! ## Current builds -/

namespace State

variable {κ π τ : Type}

/-- Whether every asset is fresh or waits in the queue, up to some that are late and some that are still
to be loaded. -/
structure Current (rules : Rules κ τ) (setup : Setup κ π) (text : Path → τ)
    (late pending : List AssetId) (state : State) : Prop where
  indexed : state.graph.Indexed
  sourced : ∀ {id : AssetId} {asset : Asset}, state.graph.get? id = some asset →
    rules.Sources setup.types asset
  entered : ∀ {id : AssetId}, state.start = some id → rules.prepared setup.outDir = .ok () ∧
    ∃ module, rules.find setup.entry.text none = .ok module ∧ state.graph.Holds id module
  stage : ∀ {id : AssetId} {asset : Asset}, state.graph.get? id = some asset →
    id ∈ state.queue ∨ id ∈ late ∨ asset.Pristine ∧ id ∈ pending ∨
      rules.Fresh setup.types text state.graph asset

namespace Current

variable {rules : Rules κ τ} {setup : Setup κ π} {text : Path → τ} {late pending : List AssetId}
  {state : State}

/-- More exceptions do no harm. -/
theorem mono {late' pending' : List AssetId} (h : state.Current rules setup text late pending)
    (hlate : ∀ id ∈ late, id ∈ late') (hpending : ∀ id ∈ pending, id ∈ pending') :
    state.Current rules setup text late' pending' where
  indexed := h.indexed
  sourced := h.sourced
  entered := h.entered
  stage := by
    intro id asset hget
    rcases h.stage hget with hqueue | hmem | ⟨hpristine, hmem⟩ | hfresh
    · exact .inl hqueue
    · exact .inr (.inl (hlate id hmem))
    · exact .inr (.inr (.inl ⟨hpristine, hpending id hmem⟩))
    · exact .inr (.inr (.inr hfresh))

/-- An asset is no exception if it is fresh, waits or is another exception. -/
theorem excuse {id : AssetId} (h : state.Current rules setup text (id :: late) pending)
    (hstage : ∀ asset, state.graph.get? id = some asset →
      id ∈ state.queue ∨ id ∈ late ∨ asset.Pristine ∧ id ∈ pending ∨
        rules.Fresh setup.types text state.graph asset) :
    state.Current rules setup text late pending where
  indexed := h.indexed
  sourced := h.sourced
  entered := h.entered
  stage := by
    intro other asset hget
    rcases h.stage hget with hqueue | hmem | hrest
    · exact .inl hqueue
    · rcases List.mem_cons.1 hmem with rfl | hmem
      · exact hstage asset hget
      · exact .inr (.inl hmem)
    · exact .inr (.inr hrest)

/-- A change of one asset keeps a build current if that asset is in order afterwards. -/
theorem update {late' pending' : List AssetId} (h : state.Current rules setup text late pending)
    (id : AssetId) {change : Asset → Asset} (hmodule : Asset.KeepsModule change)
    (hlate : ∀ other ∈ late, other ≠ id → other ∈ late')
    (hpending : ∀ other ∈ pending, other ≠ id → other ∈ pending')
    (hstage : ∀ asset, state.graph.get? id = some asset →
      id ∈ state.queue ∨ id ∈ late' ∨ (change asset).Pristine ∧ id ∈ pending' ∨
        rules.Fresh setup.types text (state.graph.update id change) (change asset)) :
    Current rules setup text late' pending' { state with graph := state.graph.update id change } := by
  have hcarries := state.graph.carries_update id hmodule
  refine ⟨AssetGraph.indexed_update h.indexed id hmodule, ?_, ?_, ?_⟩
  · intro other asset hget
    rcases AssetGraph.get?_update_cases hget with ⟨-, hget⟩ | ⟨before, rfl, hbefore, rfl⟩
    · exact h.sourced hget
    · have hsourced := h.sourced hbefore
      constructor
      · rw [hmodule.kind, hmodule.identity, hsourced.kind]
      · rw [hmodule.identity, hmodule.package]
        exact hsourced.found
  · intro other hstart
    obtain ⟨hprepared, module, hfind, hholds⟩ := h.entered hstart
    exact ⟨hprepared, module, hfind, hcarries _ _ hholds⟩
  · intro other asset hget
    rcases AssetGraph.get?_update_cases hget with ⟨hne, hget⟩ | ⟨before, rfl, hbefore, rfl⟩
    · rcases h.stage hget with hqueue | hmem | ⟨hpristine, hmem⟩ | hfresh
      · exact .inl hqueue
      · exact .inr (.inl (hlate other hmem hne))
      · exact .inr (.inr (.inl ⟨hpristine, hpending other hmem hne⟩))
      · exact .inr (.inr (.inr (hfresh.mono hcarries)))
    · exact hstage before hbefore

/-- A change of a late asset keeps a build current. -/
theorem update_late {id : AssetId} (h : state.Current rules setup text (id :: late) pending)
    {change : Asset → Asset} (hmodule : Asset.KeepsModule change) :
    Current rules setup text (id :: late) pending
      { state with graph := state.graph.update id change } :=
  h.update id hmodule (fun _ hmem _ => hmem) (fun _ hmem _ => hmem)
    fun _ _ => .inr (.inl List.mem_cons_self)

/-- An asset that is claimed is late until it is ready, whatever becomes of it. -/
theorem claimed {id : AssetId} (h : state.Current rules setup text late (id :: pending))
    {change : Asset → Asset} (hmodule : Asset.KeepsModule change) :
    Current rules setup text (id :: late) pending
      { state with graph := state.graph.update id change } := by
  refine h.update id hmodule ?_ ?_ ?_
  · exact fun other hmem _ => List.mem_cons_of_mem _ hmem
  · exact fun other hmem hne => (List.mem_cons.1 hmem).resolve_left hne
  · exact fun _ _ => .inr (.inl List.mem_cons_self)

/-- An asset that cannot be claimed need not be loaded. -/
theorem pass {id : AssetId} (h : state.Current rules setup text late (id :: pending))
    (hclaim : state.claim id = none) : state.Current rules setup text late pending where
  indexed := h.indexed
  sourced := h.sourced
  entered := h.entered
  stage := by
    intro other asset hget
    rcases h.stage hget with hqueue | hmem | ⟨hpristine, hmem⟩ | hfresh
    · exact .inl hqueue
    · exact .inr (.inl hmem)
    · rcases List.mem_cons.1 hmem with rfl | hmem
      · have hdirty := claim_eq_none_iff.1 hclaim asset hget
        rw [hpristine.dirty] at hdirty
        cases hdirty
      · exact .inr (.inr (.inl ⟨hpristine, hmem⟩))
    · exact .inr (.inr (.inr hfresh))

/-- An asset that is given back waits. -/
theorem giveBack {id : AssetId} (h : state.Current rules setup text (id :: late) pending) :
    (state.giveBack id).Current rules setup text late pending := by
  have hdirty : Current rules setup text (id :: late) pending
      { state with graph := state.graph.update id fun asset => { asset with dirty := true } } :=
    h.update_late {}
  have hwaits : (state.giveBack id).Current rules setup text (id :: late) pending := by
    refine ⟨hdirty.indexed, hdirty.sourced, hdirty.entered, fun hget => ?_⟩
    exact (hdirty.stage hget).imp_left fun hmem => mem_includeLast_iff.2 (.inl hmem)
  exact hwaits.excuse fun _ _ => .inl (mem_includeLast _ _)

/-- When nothing waits and nothing is an exception, all assets are fresh. -/
theorem fresh (h : state.Current rules setup text [] []) (hqueue : state.queue = []) {id : AssetId}
    {asset : Asset} (hget : state.graph.get? id = some asset) :
    rules.Fresh setup.types text state.graph asset := by
  rcases h.stage hget with hwaits | hlate | ⟨-, hpending⟩ | hfresh
  · rw [hqueue] at hwaits
    cases hwaits
  · cases hlate
  · cases hpending
  · exact hfresh

/-- Assets that are taken off the queue to be compiled anew are loaded from scratch. -/
theorem drain (h : state.Current rules setup text [] []) :
    (state.drain true).2.Current rules setup text [] (state.drain true).1 := by
  have htaken : Current rules setup text (state.drain true).1 (state.drain true).1
      { state with queue := [] } := by
    refine ⟨h.indexed, h.sourced, h.entered, fun {id asset} hget => ?_⟩
    rcases h.stage hget with hwaits | hlate | ⟨-, hpending⟩ | hfresh
    · refine .inr (.inl (List.mem_filter.2 ⟨hwaits, ?_⟩))
      rw [hget]
      rfl
    · cases hlate
    · cases hpending
    · exact .inr (.inr (.inr hfresh))
  have hinvalidate : ∀ (ids : List AssetId) (graph : AssetGraph),
      (∀ id ∈ ids, id ∈ (state.drain true).1) →
      Current rules setup text ids (state.drain true).1 { state with graph, queue := [] } →
      Current rules setup text [] (state.drain true).1
        { state with
          graph := ids.foldl (fun graph id => graph.update id Asset.invalidate) graph
          queue := [] } := by
    intro ids
    induction ids with
    | nil => exact fun _ _ h => h
    | cons id rest ih =>
      intro graph hids h
      apply ih _ (fun other hmem => hids other (List.mem_cons_of_mem _ hmem))
      refine h.update id {} ?_ (fun _ hmem _ => hmem) ?_
      · exact fun other hmem hne => (List.mem_cons.1 hmem).resolve_left hne
      · exact fun asset _ => .inr (.inr (.inl ⟨⟨rfl, rfl⟩, hids id List.mem_cons_self⟩))
  exact hinvalidate _ state.graph (fun _ hmem => hmem) htaken

/-- Where assets belong does not matter. -/
theorem content (h : state.Current rules setup text late pending) {graph : AssetGraph}
    (hcontent : state.graph.SameContent graph) :
    Current rules setup text late pending { state with graph } := by
  have hcarries := hcontent.carries
  refine ⟨hcontent.indexed h.indexed, ?_, ?_, ?_⟩
  · intro id asset hget
    obtain ⟨before, hbefore, hsame⟩ := hcontent.symm.exists_get? hget
    exact (rules.sources_iff setup.types hsame).1 (h.sourced hbefore)
  · intro id hstart
    obtain ⟨hprepared, module, hfind, hholds⟩ := h.entered hstart
    exact ⟨hprepared, module, hfind, hcarries _ _ hholds⟩
  · intro id asset hget
    obtain ⟨before, hbefore, hsame⟩ := hcontent.symm.exists_get? hget
    have hpristine : before.Pristine ↔ asset.Pristine :=
      Asset.iff_of_withoutPlace hsame fun _ => ⟨fun h => ⟨h.dirty, h.undeclared⟩,
        fun h => ⟨h.dirty, h.undeclared⟩⟩
    rcases h.stage hbefore with hqueue | hmem | hrest | hfresh
    · exact .inl hqueue
    · exact .inr (.inl hmem)
    · exact .inr (.inr (.inl ⟨hpristine.1 hrest.1, hrest.2⟩))
    · exact .inr (.inr (.inr ((rules.fresh_iff setup.types hsame).1 (hfresh.mono hcarries))))

end Current
end State
end Build
end ModuleBundler
