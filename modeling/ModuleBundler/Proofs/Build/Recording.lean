import ModuleBundler.Proofs.Build.Freshness

/-!
# Recording imports

When an asset is ready, its imports are recorded one after another: the module that
an import leads to is entered, unless it is there already, and the specifier leads
to it from then on.  An asset that was loaded from scratch is fresh afterwards, and
what it imports is still to be loaded.

Main results:

- Theorem {lit}`State.Current.insert`: a module is entered under the name that the resolver gives it.
- Theorem {lit}`Work.recordAll_current`: what an asset becomes when its imports are recorded.
- Theorem {lit}`Load.current_invariant`: loading keeps the assets current.
-/

namespace ModuleBundler
namespace Build

variable {κ π σ τ : Type}

/-! ## Entering modules -/

namespace State

/-- A new asset for a module that the resolver finds is still to be loaded. -/
theorem Current.add {rules : Rules κ τ} {setup : Setup κ π} {text : Path → τ}
    {late pending : List AssetId} {state : State} (h : state.Current rules setup text late pending)
    {module : Lookup.Modules.Resolved} {specifier : String} {importer : Option Path}
    (hfind : rules.find specifier importer = .ok module)
    (hnew : state.graph.named? module.path = none)
    (hcarries : state.graph.Carries
      (state.graph.add module.path (setup.types.kindOf module.path) module.package)) :
    Current rules setup text late (⟨state.graph.size⟩ :: pending) { state with
      graph := state.graph.add module.path (setup.types.kindOf module.path) module.package } := by
  refine ⟨AssetGraph.indexed_add h.indexed hnew _ _, ?_, ?_, ?_⟩
  · intro id asset hget
    rw [AssetGraph.get?_add] at hget
    split at hget
    · cases hget
      exact ⟨rfl, specifier, importer, hfind⟩
    · exact h.sourced hget
  · intro id hstart
    obtain ⟨hprepared, first, hfirst, hholds⟩ := h.entered hstart
    exact ⟨hprepared, first, hfirst, hcarries _ _ hholds⟩
  · intro id asset hget
    rw [AssetGraph.get?_add] at hget
    split at hget
    · rename_i hid
      have hmem : id ∈ ⟨state.graph.size⟩ :: pending := List.mem_cons.2 (.inl (congrArg AssetId.mk hid))
      cases hget
      exact .inr (.inr (.inl ⟨⟨rfl, rfl⟩, hmem⟩))
    · rcases h.stage hget with hqueue | hmem | ⟨hpristine, hmem⟩ | hfresh
      · exact .inl hqueue
      · exact .inr (.inl hmem)
      · exact .inr (.inr (.inl ⟨hpristine, List.mem_cons_of_mem _ hmem⟩))
      · exact .inr (.inr (.inr (hfresh.mono hcarries)))

/-- A module that the resolver finds is entered under the name that the resolver gives it, and is still to
be loaded. -/
theorem Current.insert {rules : Rules κ τ} {setup : Setup κ π} {text : Path → τ}
    {late pending : List AssetId} {state : State} (hcanonical : rules.Canonical)
    (h : state.Current rules setup text late pending) {module : Lookup.Modules.Resolved}
    {specifier : String} {importer : Option Path} (hfind : rules.find specifier importer = .ok module) :
    Current rules setup text late
        ((state.graph.insert module.path (setup.types.kindOf module.path) module.package).1.1 :: pending)
        { state with
          graph := (state.graph.insert module.path (setup.types.kindOf module.path) module.package).2 } ∧
      (state.graph.insert module.path (setup.types.kindOf module.path) module.package).2.Holds
        (state.graph.insert module.path (setup.types.kindOf module.path) module.package).1.1 module := by
  have hcarries := state.graph.carries_insert module.path (setup.types.kindOf module.path) module.package
  rcases AssetGraph.insert_cases h.indexed module.path (setup.types.kindOf module.path)
    module.package with ⟨id, asset, hget, hsame, heq⟩ | ⟨hnew, heq⟩
  · -- the resolver has the same name for the module that was there already
    obtain ⟨-, specifier', importer', hfound⟩ := h.sourced hget
    have hmodule := hcanonical hfound hfind hsame
    have hholds : state.graph.Holds id module :=
      ⟨asset, hget, congrArg Lookup.Modules.Resolved.path hmodule,
        congrArg Lookup.Modules.Resolved.package hmodule⟩
    rw [heq]
    exact ⟨h.mono (fun _ hmem => hmem) fun _ hmem => List.mem_cons_of_mem _ hmem, hholds⟩
  · rw [heq] at hcarries ⊢
    exact ⟨h.add hfind hnew hcarries, _, by rw [AssetGraph.get?_add, if_pos rfl], rfl, rfl⟩

/-! ## Recording -/

/-- What recording imports of an asset does to a state: the asset declares the imports and they lead to
their modules, while its other imports lead where they have led before. -/
structure Imported (rules : Rules κ τ) (id : AssetId)
    (modules : List (Dependency × Lookup.Modules.Resolved)) (before after : State) : Prop where
  queue : after.queue = before.queue
  start : after.start = before.start
  carries : before.graph.Carries after.graph
  imports : ∀ asset, before.graph.get? id = some asset → ∃ resolved,
    after.graph.get? id =
        some { asset with
          dependencies := Asset.putDependencies (modules.map Prod.fst) asset.dependencies, resolved } ∧
      (∀ specifier module, rules.find specifier (some asset.identity) = .ok module →
        before.graph.LeadsTo asset.resolved specifier module →
          after.graph.LeadsTo resolved specifier module) ∧
      ∀ link ∈ modules, after.graph.LeadsTo resolved link.1.specifier link.2

namespace Imported

variable {rules : Rules κ τ} {id : AssetId} {modules more : List (Dependency × Lookup.Modules.Resolved)}
  {a b c : State}

theorem nil (rules : Rules κ τ) (id : AssetId) (state : State) : Imported rules id [] state state where
  queue := rfl
  start := rfl
  carries := .refl _
  imports asset hget := ⟨asset.resolved, hget, fun _ _ _ h => h, fun _ h => by cases h⟩

theorem append {importer : Asset} (himporter : a.graph.get? id = some importer)
    (hfind : ∀ link ∈ modules, rules.find link.1.specifier (some importer.identity) = .ok link.2)
    (hab : Imported rules id modules a b) (hbc : Imported rules id more b c) :
    Imported rules id (modules ++ more) a c where
  queue := hbc.queue.trans hab.queue
  start := hbc.start.trans hab.start
  carries := hab.carries.trans hbc.carries
  imports := by
    intro asset hget
    obtain ⟨resolved, hmid, hkept, hfound⟩ := hab.imports asset hget
    obtain ⟨resolved', hend, hkept', hfound'⟩ := hbc.imports _ hmid
    refine ⟨resolved', ?_, ?_, ?_⟩
    · rw [hend, List.map_append]
      simp only [Asset.putDependencies, List.foldl_append]
    · exact fun specifier module hmodule h =>
        hkept' specifier module hmodule (hkept specifier module hmodule h)
    · intro link hlink
      rcases List.mem_append.1 hlink with hlink | hlink
      · have hsame : importer = asset := Option.some.inj (himporter.symm.trans hget)
        exact hkept' _ _ (hsame ▸ hfind link hlink) (hfound link hlink)
      · exact hfound' link hlink

/-- Once its module has been entered, an import is recorded. -/
theorem connect {state : State} {graph : AssetGraph} {link : Dependency × Lookup.Modules.Resolved}
    {importer : Asset} {target : AssetId} (himporter : state.graph.get? id = some importer)
    (hfind : rules.find link.1.specifier (some importer.identity) = .ok link.2)
    (hcarried : state.graph.Carries graph) (hkept : graph.get? id = some importer)
    (hholds : graph.Holds target link.2) :
    Imported rules id [link] state (State.connect { state with graph } id link.1 target) := by
  have hconnected : graph.Carries (graph.update id fun asset =>
      (asset.connect link.1.specifier target).declare link.1) :=
    graph.carries_update id {}
  have hleads : AssetGraph.LeadsTo (graph.update id fun asset =>
      (asset.connect link.1.specifier target).declare link.1)
        (importer.resolved.put link.1.specifier target) link.1.specifier link.2 :=
    ⟨target, Table.get?_put_self _ _ _, hconnected _ _ hholds⟩
  refine ⟨rfl, rfl, hcarried.trans hconnected, fun asset hget => ?_⟩
  have hsame : importer = asset := Option.some.inj (himporter.symm.trans hget)
  subst hsame
  refine ⟨importer.resolved.put link.1.specifier target, ?_, ?_, ?_⟩
  · refine (AssetGraph.get?_update_self _ _ _).trans ?_
    rw [hkept]
    rfl
  · intro specifier module hmodule hbefore
    by_cases hspecifier : specifier = link.1.specifier
    · subst hspecifier
      have hsame : link.2 = module := Except.ok.inj (hfind.symm.trans hmodule)
      rw [← hsame]
      exact hleads
    · obtain ⟨other, hother, hholds⟩ := hbefore.mono (hcarried.trans hconnected)
      exact ⟨other, by rw [Table.get?_put_of_ne hspecifier, hother], hholds⟩
  · intro other hother
    rw [List.mem_singleton.1 hother]
    exact hleads

end Imported
end State

namespace Work

variable {rules : Rules κ τ} {setup : Setup κ π} {text : Path → τ} {id : AssetId}
  {late pending : List AssetId}

/-- Recording an import of a late asset keeps a build current. -/
theorem record_current (tools : Toolset κ π σ) (hcanonical : rules.Canonical)
    {link : Dependency × Lookup.Modules.Resolved} {importer : Asset} {work : Work σ}
    (himporter : work.state.graph.get? id = some importer) (hseparate : link.1.inlined = false)
    (hfind : rules.find link.1.specifier (some importer.identity) = .ok link.2)
    (h : work.state.Current rules setup text (id :: late) pending) :
    (work.record tools setup.types id link).2.state.Current rules setup text (id :: late)
        ((work.record tools setup.types id link).1 ++ pending) ∧
      State.Imported rules id [link] work.state (work.record tools setup.types id link).2.state := by
  obtain ⟨hcurrent, hholds⟩ := h.insert hcanonical hfind
  obtain ⟨hchildren, hstate⟩ := work.record_eq tools setup.types id hseparate
  have hcarried := work.state.graph.carries_insert link.2.path (setup.types.kindOf link.2.path)
    link.2.package
  have hkept := AssetGraph.get?_insert_of_get? himporter link.2.path
    (setup.types.kindOf link.2.path) link.2.package
  rw [hchildren, hstate]
  exact ⟨hcurrent.update_late {}, .connect himporter hfind hcarried hkept hholds⟩

/-- Recording the imports of a late asset keeps a build current. -/
theorem recordAll_current (tools : Toolset κ π σ) (hcanonical : rules.Canonical)
    (modules : List (Dependency × Lookup.Modules.Resolved)) {importer : Asset} {work : Work σ}
    (himporter : work.state.graph.get? id = some importer)
    (hseparate : ∀ link ∈ modules, link.1.inlined = false)
    (hfind : ∀ link ∈ modules, rules.find link.1.specifier (some importer.identity) = .ok link.2)
    (h : work.state.Current rules setup text (id :: late) pending) :
    (recordAll tools setup.types id modules work).2.state.Current rules setup text (id :: late)
        ((recordAll tools setup.types id modules work).1 ++ pending) ∧
      State.Imported rules id modules work.state
        (recordAll tools setup.types id modules work).2.state := by
  induction modules generalizing work pending importer with
  | nil => exact ⟨h, .nil rules id work.state⟩
  | cons link rest ih =>
    obtain ⟨hrecorded, himported⟩ := record_current tools hcanonical himporter
      (hseparate link List.mem_cons_self) (hfind link List.mem_cons_self) h
    obtain ⟨resolved, himporter', -⟩ := himported.imports importer himporter
    obtain ⟨hrest, himported'⟩ := ih himporter'
      (fun other hmem => hseparate other (List.mem_cons_of_mem _ hmem))
      (fun other hmem => hfind other (List.mem_cons_of_mem _ hmem)) hrecorded
    refine ⟨hrest.mono (fun _ hmem => hmem) fun other hmem => ?_, ?_⟩
    · simp only [recordAll, List.mem_append] at hmem ⊢
      rcases hmem with hchildren | hchild | hpending
      · exact .inl (.inr hchildren)
      · exact .inl (.inl hchild)
      · exact .inr hpending
    · refine himported.append himporter (fun other hmem => ?_) himported'
      rw [List.mem_singleton.1 hmem]
      exact hfind link List.mem_cons_self

end Work

/-! ## Loading -/

/-- An asset whose imports were recorded needs no excuse any more: it was loaded from scratch, and is fresh
now, or it is another exception. -/
theorem State.Current.settle {rules : Rules κ τ} {setup : Setup κ π} {text : Path → τ} {id : AssetId}
    {late pending children : List AssetId} {state before after : State} {asset : Asset}
    (h : state.Current rules setup text late (id :: pending))
    (hget : state.graph.get? id = some asset) (hdirty : asset.dirty = true) {unit : CompiledUnit}
    (hunit : rules.translate (setup.types.compilerOf asset.identity) asset.identity asset.package
      (text asset.identity) = .ok unit)
    {modules : List (Dependency × Lookup.Modules.Resolved)}
    (hleads : Leads rules.find asset.identity unit.dependencies modules)
    (hqueue : before.queue = state.queue)
    (hbefore : before.graph.get? id =
      some { asset with dirty := false, compiled := some unit.generated, hash := some unit.hash })
    (himported : State.Imported rules id modules before after)
    (hafter : after.Current rules setup text (id :: late) (children ++ pending)) :
    after.Current rules setup text late (children ++ pending) := by
  refine hafter.excuse fun final hfinal => ?_
  obtain ⟨resolved, hmade, -, hfound⟩ := himported.imports _ hbefore
  rw [hfinal, Option.some.injEq] at hmade
  rcases h.stage hget with hwaits | hlate | ⟨hpristine, -⟩ | hfresh
  · exact .inl (by rw [himported.queue, hqueue]; exact hwaits)
  · exact .inr (.inl hlate)
  · refine .inr (.inr (.inr ⟨unit, ?_⟩))
    subst hmade
    refine ⟨rfl, hunit, rfl, rfl, ?_, ?_⟩
    · dsimp only
      rw [hpristine.undeclared, hleads.declared]
    · intro dep hdep
      rw [← hleads.declared] at hdep
      obtain ⟨link, hlink, rfl⟩ := List.mem_map.1 hdep
      exact ⟨link.2, hleads.found link hlink, hfound link hlink⟩
  · rw [hfresh.clean] at hdirty
    cases hdirty

namespace Load

variable {tools : Toolset κ π σ} {text : σ → Path → τ} {rules : Rules κ τ}

/-- A claimed asset that becomes ready needs no excuse, and its children are still to be loaded. -/
theorem ready_current (hsteady : Steady tools text rules) (hcanonical : rules.Canonical)
    {setup : Setup κ π} {texts : Path → τ} {late pending children : List AssetId} {id : AssetId}
    {asset : Asset} {work claimed next : Work σ} (htext : text work.world = texts)
    (h : work.state.Current rules setup texts late (id :: pending))
    (hclaim : claim work id = some (asset, claimed))
    (hprepare : claimed.prepare tools setup.types id asset = (.ready children, next)) :
    text next.world = texts ∧ next.state.start = work.state.start ∧
      next.state.Current rules setup texts late (children ++ pending) := by
  obtain ⟨hget, hdirty, -⟩ := State.of_claim (of_claim hclaim).1
  obtain ⟨hprepared, unit, modules, before, ⟨hunit, implied, himplied, hleads⟩, hbefore, hself, rfl, rfl⟩ :=
    ready_spec (hsteady.answering texts) htext hclaim hprepare
  cases himplied
  rw [List.append_nil] at hleads
  have hlate : before.state.Current rules setup texts (id :: late) pending := by
    rw [hbefore]
    exact h.claimed (Asset.keepsModule_withOutput unit)
  obtain ⟨hrecorded, himported⟩ := Work.recordAll_current tools hcanonical modules hself
    (hsteady.separate_of_leads hunit hleads) hleads.found hlate
  have hqueue : before.state.queue = work.state.queue := by rw [hbefore]
  have hstart : before.state.start = work.state.start := by rw [hbefore]
  exact ⟨hprepared, himported.start.trans hstart,
    h.settle hget hdirty hunit hleads hqueue hself himported hrecorded⟩

/-- A claimed asset that does not become ready is late. -/
theorem unready_current (hsteady : Steady tools text rules) {setup : Setup κ π} {texts : Path → τ}
    {late pending : List AssetId} {id : AssetId} {asset : Asset} {work claimed : Work σ}
    (htext : text work.world = texts)
    (h : work.state.Current rules setup texts late (id :: pending))
    (hclaim : claim work id = some (asset, claimed))
    (hunready : ∀ children, (claimed.prepare tools setup.types id asset).1 ≠ .ready children) :
    text (claimed.prepare tools setup.types id asset).2.world = texts ∧
      (claimed.prepare tools setup.types id asset).2.state.start = work.state.start ∧
        (claimed.prepare tools setup.types id asset).2.state.Current rules setup texts (id :: late)
          pending := by
  obtain ⟨hprepared, change, hmodule, hafter⟩ := unready_spec (hsteady.answering texts) htext hclaim hunready
  rw [hafter]
  exact ⟨hprepared, rfl, h.claimed hmodule⟩

/-- With steady tools loading keeps a build current; it changes neither the texts nor the asset that the
build starts from. -/
theorem current_invariant (hsteady : Steady tools text rules) (hcanonical : rules.Canonical)
    (setup : Setup κ π) (texts : Path → τ) (start : Option AssetId) :
    Invariant tools setup.types fun late pending work =>
      text work.world = texts ∧ work.state.start = start ∧
        work.state.Current rules setup texts late pending where
  mono hlate h := ⟨h.1, h.2.1, h.2.2.mono hlate fun _ hmem => hmem⟩
  pass h hclaim := ⟨h.1, h.2.1, h.2.2.pass (by simpa [claim] using hclaim)⟩
  unready := by
    rintro late pending id asset work claimed ⟨htext, hstart, h⟩ hclaim hunready
    obtain ⟨htext', hstart', h'⟩ := unready_current hsteady htext h hclaim hunready
    exact ⟨htext', hstart'.trans hstart, h'⟩
  ready := by
    rintro late pending children id asset work claimed next ⟨htext, hstart, h⟩ hclaim hprepare
    obtain ⟨htext', hstart', h'⟩ := ready_current hsteady hcanonical htext h hclaim hprepare
    exact ⟨htext', hstart'.trans hstart, h'⟩
  back h := ⟨h.1, h.2.1,
    (h.2.2.mono (fun _ hmem => List.mem_cons_of_mem _ hmem) fun _ hmem => hmem).giveBack⟩
  settle h := ⟨h.1, h.2.1, h.2.2.giveBack⟩

end Load
end Build
end ModuleBundler
