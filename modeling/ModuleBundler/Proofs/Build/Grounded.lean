import ModuleBundler.Proofs.Build.Lasting
import ModuleBundler.Proofs.Build.Rebuilding

/-!
# Grounded assets

An asset is grounded if it can be made ready and all its imports lead to modules of
its graph.  When all assets of some graph are grounded, then its modules can be
loaded from anywhere: loading them does not fail, and leads to no other modules.
No module is claimed twice, which bounds the depth that loading needs by the number
of modules.

Main results:

- Theorem {lit}`Work.prepare_backed`: an asset that stands for a grounded module becomes ready.
- Theorem {lit}`Load.batch_backed`: loading grounded modules does not fail.
-/

namespace ModuleBundler

/-! ## Graphs with the same modules -/

namespace AssetGraph

/-- Whether every dirty asset of a graph stands for a module of another one. -/
def Backs (goal graph : AssetGraph) : Prop :=
  ∀ id asset, graph.get? id = some asset → asset.dirty = true →
    ∃ other, goal.Holds other ⟨asset.identity, asset.package⟩

theorem Backs.update {goal graph : AssetGraph} (h : goal.Backs graph) (id : AssetId)
    {change : Asset → Asset} (hmodule : Asset.KeepsModule change)
    (hdirty : ∀ asset, graph.get? id = some asset → (change asset).dirty = true →
      ∃ other, goal.Holds other ⟨asset.identity, asset.package⟩) :
    goal.Backs (graph.update id change) := by
  intro other asset hget hother
  rcases get?_update_cases hget with ⟨-, hget⟩ | ⟨before, rfl, hbefore, rfl⟩
  · exact h other asset hget hother
  · rw [hmodule.identity, hmodule.package]
    exact hdirty before hbefore hother

theorem Backs.insert {goal graph : AssetGraph} (h : goal.Backs graph) {module : Lookup.Modules.Resolved}
    {owner : AssetId} (hholds : goal.Holds owner module) (kind : Kind) :
    goal.Backs (graph.insert module.path kind module.package).2 := by
  unfold AssetGraph.insert
  split
  · exact h
  · intro id asset hget hdirty
    rw [get?_add] at hget
    split at hget
    · cases hget
      exact ⟨owner, hholds⟩
    · exact h id asset hget hdirty

/-- Whether assets that are not dirty stay so. -/
def Settles (old new : AssetGraph) : Prop :=
  ∀ id asset, old.get? id = some asset → asset.dirty = false →
    ∃ after, new.get? id = some after ∧ after.identity = asset.identity ∧ after.dirty = false

theorem Settles.trans {a b c : AssetGraph} (hab : a.Settles b) (hbc : b.Settles c) : a.Settles c := by
  intro id asset hget hclean
  obtain ⟨mid, hmid, hidentity, hclean'⟩ := hab id asset hget hclean
  obtain ⟨last, hlast, hidentity', hclean''⟩ := hbc id mid hmid hclean'
  exact ⟨last, hlast, hidentity'.trans hidentity, hclean''⟩

theorem settles_update (graph : AssetGraph) (id : AssetId) {change : Asset → Asset}
    (hmodule : Asset.KeepsModule change)
    (hclean : ∀ asset, asset.dirty = false → (change asset).dirty = false) :
    graph.Settles (graph.update id change) := by
  intro other asset hget hdirty
  by_cases hother : other = id
  · subst hother
    exact ⟨change asset, by rw [get?_update_self, hget]; rfl, hmodule.identity asset, hclean asset hdirty⟩
  · exact ⟨asset, by rw [get?_update_of_ne hother, hget], rfl, hdirty⟩

theorem settles_insert (graph : AssetGraph) (identity : Path) (kind : Kind) (package : Package) :
    graph.Settles (graph.insert identity kind package).2 :=
  fun _ asset hget hclean => ⟨asset, get?_insert_of_get? hget identity kind package, rfl, hclean⟩

theorem settles_makeAlias (graph : AssetGraph) (p : Path) (owner : AssetId) :
    graph.Settles (graph.makeAlias p owner).2 :=
  fun id asset hget hclean => ⟨asset, by rw [get?_makeAlias]; exact hget, rfl, hclean⟩

/-- The assets of a graph for whose modules another graph has no asset yet that is not dirty. -/
def unsettled (goal graph : AssetGraph) : List Asset :=
  goal.live.filter fun asset => (graph.named? asset.identity).all Asset.dirty

/-- The fewer assets are dirty, the fewer are unsettled. -/
theorem unsettled_of_settles {goal old new : AssetGraph} (hold : old.Indexed) (hnew : new.Indexed)
    (h : old.Settles new) : goal.unsettled new =
      (goal.unsettled old).filter fun asset => (new.named? asset.identity).all Asset.dirty := by
  unfold unsettled
  rw [List.filter_filter]
  refine List.filter_congr fun asset _ => ?_
  -- whatever is unsettled now was so before
  cases hbefore : old.named? asset.identity with
  | none => simp
  | some before =>
    cases hdirty : before.dirty with
    | true => simp [hdirty]
    | false =>
      obtain ⟨hget, hsame⟩ := get?_of_named? hold hbefore
      obtain ⟨after, hafter, hidentity, hclean⟩ := h _ _ hget hdirty
      have hnamed : new.named? asset.identity = some after := by
        refine hnew.named?_of_get? hafter ?_
        rw [hidentity]
        exact hsame
      simp [hnamed, hclean]

/-- An asset that was dirty and is not so any more is settled. -/
theorem unsettled_lt {goal old new : AssetGraph} (hgoal : goal.Indexed) (hold : old.Indexed)
    (hnew : new.Indexed) (h : old.Settles new) {id owner : AssetId} {before after : Asset}
    (hbefore : old.get? id = some before) (hdirty : before.dirty = true)
    (hafter : new.get? id = some after) (hclean : after.dirty = false)
    (hidentity : after.identity = before.identity)
    (hholds : goal.Holds owner ⟨before.identity, before.package⟩) :
    (goal.unsettled new).length < (goal.unsettled old).length := by
  obtain ⟨asset, hasset, hsame, -⟩ := hholds
  dsimp only at hsame
  have hlive : asset ∈ goal.live := hgoal.mem_live hasset
  have hold' : old.named? asset.identity = some before := by
    refine hold.named?_of_get? hbefore ?_
    rw [hsame]
    exact Path.beq_refl _
  have hnew' : new.named? asset.identity = some after := by
    refine hnew.named?_of_get? hafter ?_
    rw [hidentity, hsame]
    exact Path.beq_refl _
  rw [unsettled_of_settles hold hnew h, List.length_filter_lt_length_iff_exists]
  refine ⟨asset, List.mem_filter.2 ⟨hlive, ?_⟩, ?_⟩
  · simp [hold', hdirty]
  · simp [hnew', hclean]

end AssetGraph

namespace Build

variable {κ π σ : Type}

/-! ## Grounded assets -/

namespace Leads

/-- Imports lead to the same modules again. -/
theorem unique {find : String → Option Path → Except Failure Lookup.Modules.Resolved} {importer : Path}
    {dependencies : List Dependency} {modules modules' : List (Dependency × Lookup.Modules.Resolved)}
    (h : Leads find importer dependencies modules) (h' : Leads find importer dependencies modules') :
    modules = modules' := by
  induction dependencies generalizing modules modules' with
  | nil => rw [h.eq_nil, h'.eq_nil]
  | cons dep rest ih =>
    obtain ⟨module, others, hmodule, hothers, rfl⟩ := h.cons_inv
    obtain ⟨module', others', hmodule', hothers', rfl⟩ := h'.cons_inv
    obtain rfl : module = module' := Except.ok.inj (hmodule.symm.trans hmodule')
    rw [ih hothers hothers']

end Leads

namespace Answers

variable {answers : Answers κ} {types : AssetTypes κ}

theorem Readies.unique {asset : Asset} {unit unit' : CompiledUnit}
    {modules modules' : List (Dependency × Lookup.Modules.Resolved)}
    (h : answers.Readies types asset unit modules) (h' : answers.Readies types asset unit' modules') :
    unit = unit' ∧ modules = modules' := by
  obtain ⟨hunit, implied, himplied, hleads⟩ := h
  obtain ⟨hunit', implied', himplied', hleads'⟩ := h'
  obtain rfl : unit = unit' := Except.ok.inj (hunit.symm.trans hunit')
  obtain rfl : implied = implied' := Except.ok.inj (himplied.symm.trans himplied')
  exact ⟨rfl, hleads.unique hleads'⟩

/-- Whether an asset can be made ready and its imports lead to modules of a graph. -/
def Grounded (answers : Answers κ) (types : AssetTypes κ) (graph : AssetGraph) (asset : Asset) : Prop :=
  ∃ unit modules, answers.Readies types asset unit modules ∧
    ∀ link ∈ modules, link.1.inlined = false → ∃ owner, graph.Holds owner link.2

theorem Grounded.mono {old new : AssetGraph} {asset : Asset} (h : answers.Grounded types old asset)
    (hcarries : old.Carries new) : answers.Grounded types new asset := by
  obtain ⟨unit, modules, hreadies, hholds⟩ := h
  refine ⟨unit, modules, hreadies, fun link hlink hseparate => ?_⟩
  obtain ⟨owner, howner⟩ := hholds link hlink hseparate
  exact ⟨owner, hcarries _ _ howner⟩

/-- An asset is grounded if another one is that stands for the same module. -/
theorem Grounded.congr {graph : AssetGraph} {a b : Asset} (h : answers.Grounded types graph a)
    (hidentity : a.identity = b.identity) (hpackage : a.package = b.package) (hkind : a.kind = b.kind) :
    answers.Grounded types graph b := by
  obtain ⟨unit, modules, ⟨hunit, implied, himplied, hleads⟩, hholds⟩ := h
  rw [hidentity] at hunit himplied hleads
  rw [hpackage] at hunit
  rw [hkind] at himplied
  exact ⟨unit, modules, ⟨hunit, implied, himplied, hleads⟩, hholds⟩

end Answers

/-! ## Loading what is grounded -/

/-- What loading preserves as long as only modules of a graph are loaded. -/
structure State.Backed (types : AssetTypes κ) (goal : AssetGraph) (state : State) : Prop where
  indexed : state.graph.Indexed
  typed : state.graph.Typed types
  backs : goal.Backs state.graph

/-- A change of an asset that does not make it dirty does no harm. -/
theorem State.Backed.update {types : AssetTypes κ} {goal : AssetGraph} {state : State}
    (h : state.Backed types goal) (id : AssetId) {change : Asset → Asset}
    (hmodule : Asset.KeepsModule change)
    (hclean : ∀ asset, (change asset).dirty = true → asset.dirty = true) :
    State.Backed types goal { state with graph := state.graph.update id change } where
  indexed := AssetGraph.indexed_update h.indexed id hmodule
  typed := (AssetGraph.growing_typed types).update id hmodule h.typed
  backs := h.backs.update id hmodule fun asset hget hdirty => h.backs id asset hget (hclean asset hdirty)

namespace Work

variable (tools : Toolset κ π σ) {types : AssetTypes κ} {goal : AssetGraph}

/-- Recording an import that leads to a module of a graph makes no other module. -/
theorem record_backed (id : AssetId) {found : Dependency × Lookup.Modules.Resolved}
    (hholds : found.1.inlined = false → ∃ owner, goal.Holds owner found.2) {work : Work σ}
    (h : work.state.Backed types goal) :
    (work.record tools types id found).2.state.Backed types goal ∧
      work.state.graph.Settles (work.record tools types id found).2.state.graph := by
  rcases record_cases tools types id found work with ⟨-, hstate⟩ | ⟨hinlined, hstate⟩
  · rw [hstate]
    refine ⟨⟨AssetGraph.indexed_makeAlias h.indexed _ _,
      (AssetGraph.growing_typed types).makeAlias _ _ h.typed, fun other asset hget => ?_⟩,
      AssetGraph.settles_makeAlias _ _ _⟩
    rw [AssetGraph.get?_makeAlias] at hget
    exact h.backs other asset hget
  · obtain ⟨owner, howner⟩ := hholds hinlined
    have hentered : State.Backed types goal { work.state with
        graph := (work.state.graph.insert found.2.path (types.kindOf found.2.path) found.2.package).2 } :=
      ⟨AssetGraph.indexed_insert h.indexed _ _ _,
        (AssetGraph.growing_typed types).insert _ _ h.typed, h.backs.insert howner _⟩
    rw [hstate]
    exact ⟨hentered.update id {} fun _ hdirty => hdirty, AssetGraph.Settles.trans
      (AssetGraph.settles_insert _ _ _ _) (AssetGraph.settles_update _ id {} fun _ hclean => hclean)⟩

/-- Recording imports that lead to modules of a graph makes no other modules. -/
theorem recordAll_backed (id : AssetId) (modules : List (Dependency × Lookup.Modules.Resolved))
    (hholds : ∀ link ∈ modules, link.1.inlined = false → ∃ owner, goal.Holds owner link.2)
    {work : Work σ} (h : work.state.Backed types goal) :
    (recordAll tools types id modules work).2.state.Backed types goal ∧
      work.state.graph.Settles (recordAll tools types id modules work).2.state.graph := by
  induction modules generalizing work with
  | nil => exact ⟨h, fun _ asset hget hclean => ⟨asset, hget, rfl, hclean⟩⟩
  | cons link rest ih =>
    obtain ⟨hbacked, hsettles⟩ := work.record_backed tools id (hholds link List.mem_cons_self) h
    obtain ⟨hbacked', hsettles'⟩ :=
      ih (fun other hmem => hholds other (List.mem_cons_of_mem _ hmem)) hbacked
    exact ⟨hbacked', hsettles.trans hsettles'⟩

end Work

section

variable {tools : Toolset κ π σ} {now : σ → Prop} {answers : Answers κ} {types : AssetTypes κ}
  {goal : AssetGraph}

/-- An asset that stands for a grounded module becomes ready, and is dirty no more. -/
theorem Work.prepare_backed (hanswering : Answering tools now answers) (htyped : goal.Typed types)
    (hgrounded : ∀ {id : AssetId} {asset : Asset}, goal.get? id = some asset →
      answers.Grounded types goal asset)
    {work claimed : Work σ} {id : AssetId} {asset : Asset} (hnow : now work.world)
    (h : work.state.Backed types goal) (hclaim : Load.claim work id = some (asset, claimed)) :
    ∃ children next, claimed.prepare tools types id asset = (.ready children, next) ∧
      now next.world ∧ next.state.Backed types goal ∧ next.state.queue = work.state.queue ∧
        work.state.graph.Settles next.state.graph ∧
          ∃ after, next.state.graph.get? id = some after ∧ after.identity = asset.identity ∧
            after.dirty = false := by
  obtain ⟨hget, hdirty, -⟩ := State.of_claim (Load.of_claim hclaim).1
  -- the module is grounded, so that the asset can be made ready
  obtain ⟨owner, module, hmodule, hidentity, hpackage⟩ := h.backs id asset hget hdirty
  dsimp only at hidentity hpackage
  have hkind : module.kind = asset.kind := by
    rw [htyped owner module hmodule, h.typed id asset hget, hidentity]
  obtain ⟨unit, modules, hreadies, hholds⟩ := (hgrounded hmodule).congr hidentity hpackage hkind
  obtain ⟨children, next, hprepare⟩ := Load.exists_ready hanswering hnow hclaim hreadies
  obtain ⟨hnext, unit', modules', before, hreadies', hbefore, hself, -, hrecorded⟩ :=
    Load.ready_spec hanswering hnow hclaim hprepare
  obtain ⟨rfl, rfl⟩ := hreadies.unique hreadies'
  have hkeeps := Asset.keepsModule_withOutput unit
  have hkept : before.state.Backed types goal := by
    rw [hbefore]
    exact h.update id hkeeps fun _ hdirty => by cases hdirty
  obtain ⟨hbacked, hsettles⟩ := recordAll_backed tools id modules hholds hkept
  have hsettled : work.state.graph.Settles before.state.graph := by
    rw [hbefore]
    exact AssetGraph.settles_update _ id hkeeps fun _ _ => rfl
  have hqueue : (recordAll tools types id modules before).2.state.queue = work.state.queue := by
    rw [queue_recordAll, hbefore]
  rw [hrecorded] at hbacked hsettles hqueue
  obtain ⟨after, hafter, hsame, hclean⟩ := hsettles id _ hself rfl
  exact ⟨children, next, hprepare, hnext, hbacked, hqueue, hsettled.trans hsettles, after, hafter, hsame, hclean⟩

/-- Loading modules of a graph whose assets are grounded does not fail if it may go deeper than there are
modules, and nothing comes to wait. -/
theorem Load.batch_backed (hanswering : Answering tools now answers) (hgoal : goal.Indexed)
    (htyped : goal.Typed types)
    (hgrounded : ∀ {id : AssetId} {asset : Asset}, goal.get? id = some asset →
      answers.Grounded types goal asset)
    {depth : Nat} (ids : List AssetId) {work : Work σ} (hnow : now work.world)
    (h : work.state.Backed types goal) (hdepth : goal.live.length < depth) :
    ∃ next, batch tools types depth ids work = some (none, next) ∧ now next.world ∧
      next.state.queue = work.state.queue := by
  have hload := @load_succeeds κ π σ tools types
    (fun after => now after.world ∧ after.state.Backed types goal ∧
      after.state.queue = work.state.queue)
    (fun after => (goal.unsettled after.state.graph).length) (by
      rintro id asset before claimed ⟨hnow, hbacked, hqueue⟩ hclaim
      obtain ⟨children, next, hprepare, hnow', hbacked', hqueue', hsettles, after, hafter, hsame,
        hclean⟩ := Work.prepare_backed hanswering htyped hgrounded hnow hbacked hclaim
      obtain ⟨hget, hdirty, -⟩ := State.of_claim (of_claim hclaim).1
      obtain ⟨owner, howner⟩ := hbacked.backs id asset hget hdirty
      exact ⟨children, next, hprepare, ⟨hnow', hbacked', hqueue'.trans hqueue⟩, AssetGraph.unsettled_lt
        hgoal hbacked.indexed hbacked'.indexed hsettles hget hdirty hafter hclean hsame howner⟩) depth
  have hleft : (goal.unsettled work.state.graph).length < depth :=
    Nat.lt_of_le_of_lt (List.length_filter_le _ _) hdepth
  obtain ⟨next, hnext, ⟨hnow', -, hqueue⟩, -⟩ := each_succeeds (fun id work h hdepth => hload id h hdepth)
    ids ⟨hnow, h, rfl⟩ hleft
  exact ⟨next, by simp [batch, hnext, Outcome.loaded], hnow', hqueue⟩

end

end Build
end ModuleBundler
