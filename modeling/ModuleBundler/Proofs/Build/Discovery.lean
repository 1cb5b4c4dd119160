import Mathlib.Data.Finset.Card
import Mathlib.Data.Finset.Range
import ModuleBundler.Proofs.Build.Recompiling

/-!
# What a pass can find

The modules that a project has are a list of paths: whatever the resolver finds is among
them, as long as the world is as it is during a pass ({lit}`Toolset.Finds`).  A pass
makes assets of what was found and of nothing else, so it makes no more assets than
there are modules.

Main results:

- Theorem {lit}`AssetGraph.GrownWithin.size_le_add`: a graph grows by no more assets than there are modules.
- Theorem {lit}`Load.finds_invariant`: loading makes assets of modules that were found.
- Theorem {lit}`Pass.enter_finds`: so does finding the entry.
-/

namespace ModuleBundler

/-- Whether a path is in a list, in whatever spelling. -/
def Path.IsAmong (p : Path) (modules : List Path) : Prop :=
  ∃ q ∈ modules, (q == p) = true

instance (p : Path) (modules : List Path) : Decidable (p.IsAmong modules) :=
  inferInstanceAs (Decidable (∃ q ∈ modules, (q == p) = true))

/-! ## Assets from a list of modules -/

namespace AssetGraph

/-- Whether assets of a list of modules were made, and none was removed. -/
structure GrownWithin (modules : List Path) (old new : AssetGraph) : Prop extends Grown old new where
  indexed : new.Indexed
  listed : ∀ {id : AssetId} {asset : Asset}, new.get? id = some asset → old.size ≤ id.index →
    asset.identity.IsAmong modules

/-- The number under which the identity of an asset is listed. -/
def listNumber (graph : AssetGraph) (modules : List Path) (index : Nat) : Nat :=
  modules.findIdx fun p => (graph.get? ⟨index⟩).any fun asset => p == asset.identity

/-- Under its number the identity of a listed asset is found. -/
theorem listNumber_spec {graph : AssetGraph} {modules : List Path} {index : Nat} {asset : Asset}
    (hget : graph.get? ⟨index⟩ = some asset) (hlisted : asset.identity.IsAmong modules) :
    ∃ q, modules[graph.listNumber modules index]? = some q ∧ (q == asset.identity) = true := by
  have hnumber : graph.listNumber modules index = modules.findIdx fun q => q == asset.identity := by
    unfold listNumber
    rw [hget]
    rfl
  have hlt := List.findIdx_lt_length_of_exists hlisted
  rw [hnumber]
  exact ⟨_, List.getElem?_eq_getElem hlt, List.findIdx_getElem (w := hlt)⟩

namespace GrownWithin

variable {modules : List Path} {old new : AssetGraph}

theorem refl {graph : AssetGraph} (h : graph.Indexed) : GrownWithin modules graph graph where
  toGrown := grown_refl graph
  indexed := h
  listed hget hle := absurd (lt_size_of_get? hget) (Nat.not_lt.2 hle)

theorem update (h : GrownWithin modules old new) (id : AssetId) {change : Asset → Asset}
    (hmodule : Asset.KeepsModule change) : GrownWithin modules old (new.update id change) where
  toGrown := h.toGrown.update id change
  indexed := indexed_update h.indexed id hmodule
  listed {other asset} hget hle := by
    rcases get?_update_cases hget with ⟨-, hget⟩ | ⟨before, rfl, hbefore, rfl⟩
    · exact h.listed hget hle
    · rw [hmodule.identity]
      exact h.listed hbefore hle

theorem insert (h : GrownWithin modules old new) {p : Path} (hp : p.IsAmong modules) (kind : Kind)
    (package : Package) : GrownWithin modules old (new.insert p kind package).2 where
  toGrown := h.toGrown.insert p kind package
  indexed := indexed_insert h.indexed p kind package
  listed {id asset} hget hle := by
    rcases insert_cases h.indexed p kind package with ⟨_, _, -, -, heq⟩ | ⟨-, heq⟩
    · rw [heq] at hget
      exact h.listed hget hle
    · rw [heq, get?_add] at hget
      by_cases hid : id.index = new.size
      · rw [if_pos hid] at hget
        cases hget
        exact hp
      · rw [if_neg hid] at hget
        exact h.listed hget hle

theorem makeAlias (h : GrownWithin modules old new) (p : Path) (owner : AssetId) :
    GrownWithin modules old (new.makeAlias p owner).2 where
  toGrown := h.toGrown.makeAlias p owner
  indexed := indexed_makeAlias h.indexed p owner
  listed hget hle := by
    rw [get?_makeAlias] at hget
    exact h.listed hget hle

/-- No more assets were made than there are modules. -/
theorem size_le_add (h : GrownWithin modules old new) : new.size ≤ old.size + modules.length := by
  have hnew : ∀ k < new.size - old.size, ∃ asset, new.get? ⟨old.size + k⟩ = some asset ∧
      asset.identity.IsAmong modules := by
    intro k hk
    obtain ⟨asset, hget⟩ := (h.isLive_iff ⟨old.size + k⟩).2
      (.inr ⟨Nat.le_add_right _ _, show old.size + k < new.size by omega⟩)
    exact ⟨asset, hget, h.listed hget (Nat.le_add_right _ _)⟩
  have hcard : (Finset.range (new.size - old.size)).card ≤ (Finset.range modules.length).card := by
    refine Finset.card_le_card_of_injOn (fun k => new.listNumber modules (old.size + k)) ?_ ?_
    · intro k hk
      obtain ⟨asset, hget, hlisted⟩ := hnew k (Finset.mem_range.1 hk)
      obtain ⟨q, hnumber, -⟩ := listNumber_spec hget hlisted
      exact Finset.mem_coe.2 (Finset.mem_range.2 (List.getElem?_eq_some_iff.1 hnumber).1)
    · intro j hj k hk hsame
      dsimp only at hsame
      obtain ⟨first, hfirst, hlisted⟩ := hnew j (Finset.mem_range.1 hj)
      obtain ⟨second, hsecond, hlisted'⟩ := hnew k (Finset.mem_range.1 hk)
      obtain ⟨p, hp, hidentity⟩ := listNumber_spec hfirst hlisted
      obtain ⟨q, hq, hidentity'⟩ := listNumber_spec hsecond hlisted'
      -- two assets with one number have one identity
      rw [hsame, hq] at hp
      cases hp
      have hid := h.indexed.eq_of_same hfirst hsecond (Path.beq_trans (Path.beq_symm hidentity) hidentity')
      exact Nat.add_left_cancel (congrArg AssetId.index hid)
  rw [Finset.card_range, Finset.card_range] at hcard
  omega

end GrownWithin
end AssetGraph

namespace Build

variable {κ π σ : Type}

/-! ## Finding modules -/

/-- Whether all modules that tools find are in a list, as long as something holds of the world that asking
tools and watching files preserve. -/
structure Toolset.Finds (tools : Toolset κ π σ) (now : σ → Prop) (modules : List Path) : Prop where
  asks : ∀ {world world' : σ}, tools.Asks world world' → now world → now world'
  watch : ∀ p world, now world → now (tools.watch p world).2
  found : ∀ {specifier : String} {importer : Option Path} {world : σ} {module : Lookup.Modules.Resolved},
    now world → (tools.resolve specifier importer world).1.result = .ok module →
      module.path.IsAmong modules

namespace Toolset.Finds

variable {tools : Toolset κ π σ} {now : σ → Prop} {modules : List Path} (hfinds : tools.Finds now modules)
include hfinds

theorem asksAll {world world' : σ} (h : Relation.ReflTransGen tools.Asks world world') (hnow : now world) :
    now world' := by
  induction h with
  | refl => exact hnow
  | tail _ hask ih => exact hfinds.asks hask ih

/-- What asking and watching preserve is preserved until all assets are assembled. -/
theorem linked {outside : Outside σ} {work next : Work σ} {trail : List (Moment σ)}
    (h : Linked tools outside work trail next) (hdeeds : ∀ moment ∈ trail, moment.deed.Assembles)
    (hnow : now work.world) : now next.world := by
  refine (h.always (fun work => now work.world) Deed.Assembles (fun {work moment} hnow hstep hdeed => ?_)
    hdeeds hnow).2
  cases hstep with
  | asked _ hworld => exact hfinds.asksAll hworld hnow
  | noticed p =>
    rw [Work.world_notify]
    exact hnow
  | taken invalidate => exact hnow
  | claimed hclaim =>
    rw [(Load.of_claim hclaim).2]
    exact hnow
  | kept unit _ => exact hnow
  | recorded types links _ => exact Work.now_recordAll hfinds.watch types _ links hnow
  | returned _ => exact hnow
  | entered types module => exact Work.now_enter hfinds.watch types hnow module
  | sent assets => exact hfinds.asks (.update assets work.world) hnow
  | begun => exact hdeed.elim
  | laidOut => exact hdeed.elim
  | written => exact hdeed.elim
  | finished => exact hdeed.elim
  | edited => exact hdeed.elim
  | closed => exact hdeed.elim

theorem listen {work : Work σ} (hnow : now work.world) : now (work.listen tools).world :=
  hfinds.linked (Work.linked_listen tools .anything work)
    (Work.forall_listenTrail Deed.ambient_assembles tools work) hnow

/-- Making a claimed asset ready preserves it. -/
theorem prepare (types : AssetTypes κ) {work : Work σ} {id : AssetId} (asset : Asset)
    (hlive : work.state.graph.IsLive id) (hnow : now work.world) :
    now (work.prepare tools types id asset).2.world :=
  hfinds.linked (Work.linked_prepare tools .anything types work asset hlive)
    (fun moment hmem => (work.readies_prepareTrail tools types id asset moment hmem).fetches.loads.assembles)
    hnow

/-- The module that an import means is in the list. -/
theorem find {work next : Work σ} (hnow : now work.world) {importer : Path} {dep : Dependency}
    {module : Lookup.Modules.Resolved} (h : work.find tools importer dep = (.found module, next)) :
    module.path.IsAmong modules :=
  hfinds.found hnow (Work.find_eq_found_iff.1 (congrArg Prod.fst h))

/-- So are the modules that several imports mean. -/
theorem findEach (inOrder : Bool) (importer : Path) (dependencies : List Dependency) {imports : Imports}
    {work : Work σ} (hnow : now work.world)
    (hseen : ∀ link ∈ imports.modules, link.2.path.IsAmong modules) :
    ∀ link ∈ (Work.findEach tools inOrder importer dependencies imports work).1.modules,
      link.2.path.IsAmong modules := by
  induction dependencies generalizing imports work with
  | nil => exact hseen
  | cons dep rest ih =>
    have hnext : now (work.find tools importer dep).2.world :=
      hfinds.linked (Work.linked_find tools .anything work importer dep)
        (Work.forall_answeredTrail Deed.ambient_assembles tools _) hnow
    unfold Work.findEach
    cases hfind : work.find tools importer dep with
    | mk finding next =>
      rw [hfind] at hnext
      cases finding with
      | found module =>
        refine ih hnext ?_
        cases imports with
        | found links =>
          exact List.forall_mem_append.2 ⟨hseen, List.forall_mem_singleton.2 (hfinds.find hnow hfind)⟩
        | failed failure => exact hseen
        | late failure => exact hseen
      | late failure =>
        refine ih hnext ?_
        cases imports with
        | found links => exact List.forall_mem_nil _
        | failed failure => exact hseen
        | late failure => exact hseen
      | failed failure =>
        dsimp only
        split
        · exact ih hnext hseen
        · exact List.forall_mem_nil _

/-- When an asset is ready, its imports were recorded, and the modules that they mean are in the list. -/
theorem ready (types : AssetTypes κ) {work next : Work σ} {id : AssetId} {asset : Asset}
    {children : List AssetId} (hnow : now work.world)
    (h : work.prepare tools types id asset = (.ready children, next)) :
    ∃ state unit links before, work.state.Notices state ∧ (state.keep id unit).Notices before.state ∧
      next = (Work.recordAll tools types id links before).2 ∧ ∀ link ∈ links, link.2.path.IsAmong modules := by
  have hcompile := Work.notices_compile tools types work asset
  have hcompiled : now (work.compile tools types asset).2.world :=
    hfinds.linked (Work.linked_compile tools .anything types work asset)
      (Work.forall_compileTrail Deed.ambient_assembles tools types work asset) hnow
  unfold Work.prepare at h
  generalize work.compile tools types asset = compiled at hcompile hcompiled h
  obtain ⟨result, work₁⟩ := compiled
  cases result with
  | error failure => cases (Prod.mk.inj h).1
  | ok compiled =>
    obtain ⟨unit, isNew⟩ := compiled
    have hdependencies := Work.notices_dependencies tools work₁ asset unit
    have hdeclared : now (work₁.dependencies tools asset unit).2.world :=
      hfinds.linked (Work.linked_dependencies tools .anything work₁ asset unit)
        (Work.forall_answeredTrail Deed.ambient_assembles tools _) hcompiled
    dsimp only at h
    generalize work₁.dependencies tools asset unit = declared at hdependencies hdeclared h
    obtain ⟨result, work₂⟩ := declared
    cases result with
    | error failure => cases (Prod.mk.inj h).1
    | ok dependencies =>
      have hfind := Work.notices_findAll tools { work₂ with state := work₂.state.keep id unit }
        asset.identity dependencies
      have hlinks : ∀ link ∈ (Work.findEach tools (decide (Work.sideBySide < dependencies.length))
          asset.identity dependencies (.found [])
          ({ work₂ with state := work₂.state.keep id unit } : Work σ)).1.modules,
          link.2.path.IsAmong modules := hfinds.findEach _ _ _ hdeclared (List.forall_mem_nil _)
      dsimp only at h
      unfold Work.findAll at hfind h
      generalize Work.findEach tools (decide (Work.sideBySide < dependencies.length)) asset.identity
        dependencies (.found []) ({ work₂ with state := work₂.state.keep id unit } : Work σ) = found
        at hfind hlinks h
      obtain ⟨imports, work₃⟩ := found
      cases imports with
      | failed failure => cases (Prod.mk.inj h).1
      | late failure => cases (Prod.mk.inj h).1
      | found links =>
        exact ⟨_, unit, links, work₃.remember tools asset unit isNew links, hcompile.trans hdependencies,
          hfind.trans (Work.notices_remember _ _ _ _ _ _), (Prod.mk.inj h).2.symm, hlinks⟩

end Toolset.Finds

/-- A claimed asset is live; claiming it asks nobody and makes no assets. -/
theorem Load.claim_finds {now : σ → Prop} {modules : List Path} {base : AssetGraph} {work claimed : Work σ}
    {id : AssetId} {asset : Asset} (hclaim : claim work id = some (asset, claimed)) (hnow : now work.world)
    (h : AssetGraph.GrownWithin modules base work.state.graph) :
    claimed.state.graph.IsLive id ∧ now claimed.world ∧
      AssetGraph.GrownWithin modules base claimed.state.graph := by
  obtain ⟨hstate, hworld⟩ := of_claim hclaim
  obtain ⟨hget, -, hclaimed⟩ := State.of_claim hstate
  rw [hclaimed, hworld]
  exact ⟨(AssetGraph.isLive_update _ _ _ _).2 ⟨asset, hget⟩, hnow, h.update id {}⟩

section

variable {tools : Toolset κ π σ} {now : σ → Prop} {modules : List Path} (hfinds : tools.Finds now modules)
include hfinds

/-- Loading makes assets of modules that were found. -/
theorem Load.finds_invariant (types : AssetTypes κ) (base : AssetGraph) :
    Invariant tools types fun _ _ work =>
      now work.world ∧ AssetGraph.GrownWithin modules base work.state.graph where
  mono _ h := h
  pass h _ := h
  unready := by
    rintro _ _ id asset work claimed ⟨hnow, h⟩ hclaim hunready
    obtain ⟨hlive, hnow, hgrown⟩ := claim_finds hclaim hnow h
    refine ⟨hfinds.prepare types asset hlive hnow, ?_⟩
    rcases Work.prepare_unready_cases hunready with hnotices | ⟨state, unit, hbefore, hafter⟩
    · rw [hnotices.graph]
      exact hgrown
    · rw [hafter.graph]
      refine AssetGraph.GrownWithin.update ?_ id {}
      rw [hbefore.graph]
      exact hgrown
  ready := by
    rintro _ _ children id asset work claimed next ⟨hnow, h⟩ hclaim hprepare
    obtain ⟨hlive, hnow, hgrown⟩ := claim_finds hclaim hnow h
    have hnext := hfinds.prepare types asset hlive hnow
    rw [hprepare] at hnext
    refine ⟨hnext, ?_⟩
    obtain ⟨state, unit, links, before, hbefore, hafter, rfl, hlinks⟩ := hfinds.ready types hnow hprepare
    refine Work.recordAll_preserves tools id (fun hmodule h => h.update id hmodule)
      (fun link hlink _ h => h.insert (hlinks link hlink) _ _) (fun p h => h.makeAlias p id) ?_
    rw [hafter.graph]
    refine AssetGraph.GrownWithin.update ?_ id {}
    rw [hbefore.graph]
    exact hgrown
  back h := ⟨h.1, h.2.update _ {}⟩
  settle h := ⟨h.1, h.2.update _ {}⟩

/-- So does finding the entry. -/
theorem Pass.enter_finds (setup : Setup κ π) {base : AssetGraph} {work : Work σ} (hnow : now work.world)
    (h : AssetGraph.GrownWithin modules base work.state.graph) :
    now (enter tools setup work).2.world ∧
      AssetGraph.GrownWithin modules base (enter tools setup work).2.state.graph := by
  refine ⟨hfinds.linked (linked_enter tools .anything setup work)
    (fun moment hmem => (enters_enterTrail tools setup work moment hmem).assembles) hnow, ?_⟩
  have hmade := hfinds.asks (.prepare setup.outDir work.world) hnow
  unfold enter
  dsimp only
  rw [show (work.tell (.opened setup.entry setup.outDir)).world = work.world from rfl]
  generalize tools.prepare setup.outDir work.world = made at hmade
  obtain ⟨result, world⟩ := made
  have hprepared := Work.notices_ask tools (work.tell (.opened setup.entry setup.outDir)) world
  have hlistened := @Toolset.Finds.listen _ _ _ _ _ _ hfinds
    { work.tell (.opened setup.entry setup.outDir) with world } hmade
  cases result with
  | error failure =>
    dsimp only
    rw [hprepared.graph]
    exact h
  | ok done =>
    dsimp only
    generalize Work.listen tools ({ work.tell (.opened setup.entry setup.outDir) with world } : Work σ) =
      prepared at hprepared hlistened
    have hresolved := hprepared.trans (Work.notices_listen tools
      (({ prepared with world := (tools.resolve setup.entry.text none prepared.world).2 } : Work σ).warn
        (tools.resolve setup.entry.text none prepared.world).1.warnings))
    generalize Work.listen tools (({ prepared with
        world := (tools.resolve setup.entry.text none prepared.world).2 } : Work σ).warn
          (tools.resolve setup.entry.text none prepared.world).1.warnings) = resolved at hresolved
    have hgraph : AssetGraph.GrownWithin modules base resolved.state.graph := by
      rw [hresolved.graph]
      exact h
    split
    · exact hgraph
    · rename_i module heq
      obtain ⟨-, hstate⟩ := resolved.enter_eq tools setup.types module
      have hentered : (resolved.enter tools setup.types module).2.state.graph = _ :=
        congrArg State.graph hstate
      exact hentered ▸ hgraph.insert (hfinds.found hlistened heq) _ _

end
end Build
end ModuleBundler
