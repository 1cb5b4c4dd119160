import ModuleBundler.Proofs.Build.Answering
import ModuleBundler.Proofs.Build.Balance
import ModuleBundler.Proofs.Build.Blocking
import ModuleBundler.Proofs.Build.Inlining

/-!
# Imports with the same specifier

A source can import with one specifier several times: as part of itself and later on, or
under one media query and under another.  All these imports are resolved, but the asset
keeps its imports by their specifiers.  So it is left with one import for each specifier,
which is the last one that was declared and not put into the asset itself; whether the
others were later ones, and under which media queries they stood, is forgotten.

Main results:

- Theorem {lit}`Session.Trail.distinct`: at no moment of a session does an asset declare a specifier twice.
- Theorem {lit}`Work.recordAll_isLeft`: what is left of the imports of a specifier.
- Theorem {lit}`Load.each_keeps`: loading leaves alone what is loaded already.
- Theorem {lit}`Load.links_processed`: an asset that was made ready and whose children were loaded is left
  with the last import of each specifier.
-/

namespace ModuleBundler

/-! ## Imports by specifiers -/

namespace Asset

/-- Whether no two imports that an asset declares have the same specifier. -/
def Distinct (asset : Asset) : Prop :=
  (asset.dependencies.map Dependency.specifier).Nodup

/-- The imports with a specifier that lead to assets. -/
def linksOf (asset : Asset) (specifier : String) : List (Dependency × AssetId) :=
  asset.links.filter fun link => link.1.specifier = specifier

theorem map_specifier_putDependency (dep : Dependency) (declared : List Dependency) :
    (putDependency dep declared).map Dependency.specifier =
      if dep.specifier ∈ declared.map Dependency.specifier then declared.map Dependency.specifier
      else declared.map Dependency.specifier ++ [dep.specifier] := by
  induction declared with
  | nil => rfl
  | cons other rest ih =>
    unfold putDependency
    by_cases hsame : other.specifier = dep.specifier
    · simp [hsame]
    · rw [if_neg hsame, List.map_cons, ih]
      have hmem : dep.specifier ∈ (other :: rest).map Dependency.specifier ↔
          dep.specifier ∈ rest.map Dependency.specifier := by
        simp [Ne.symm hsame]
      by_cases hrest : dep.specifier ∈ rest.map Dependency.specifier
      · rw [if_pos hrest, if_pos (hmem.2 hrest), List.map_cons]
      · rw [if_neg hrest, if_neg fun h => hrest (hmem.1 h), List.map_cons, List.cons_append]

/-- One more import leaves the specifiers distinct. -/
theorem Distinct.declare {asset : Asset} (h : asset.Distinct) (dep : Dependency) :
    (asset.declare dep).Distinct := by
  unfold Distinct Asset.declare
  rw [map_specifier_putDependency]
  split
  · exact h
  · rename_i hnew
    refine List.nodup_append.2 ⟨h, List.pairwise_singleton _ _, ?_⟩
    rintro specifier hmem _ hlast rfl
    rw [List.mem_singleton.1 hlast] at hmem
    exact hnew hmem

/-- One more import takes the place of that with its specifier. -/
theorem filter_putDependency_self {dep : Dependency} {declared : List Dependency}
    (h : (declared.map Dependency.specifier).Nodup) :
    (putDependency dep declared).filter (fun other => other.specifier = dep.specifier) = [dep] := by
  induction declared with
  | nil => simp [putDependency]
  | cons other rest ih =>
    obtain ⟨hother, hrest⟩ := List.nodup_cons.1 h
    unfold putDependency
    by_cases hsame : other.specifier = dep.specifier
    · have hnone : rest.filter (fun other => other.specifier = dep.specifier) = [] := by
        refine List.filter_eq_nil_iff.2 fun third hthird => ?_
        rw [decide_eq_true_eq, ← hsame]
        exact fun heq => hother (heq ▸ List.mem_map_of_mem hthird)
      rw [if_pos hsame, List.filter_cons_of_pos (by simp), hnone]
    · rw [if_neg hsame, List.filter_cons_of_neg (by simpa using hsame), ih hrest]

/-- The imports with other specifiers stay. -/
theorem filter_putDependency_of_ne {dep : Dependency} {specifier : String} (hne : dep.specifier ≠ specifier)
    (declared : List Dependency) :
    (putDependency dep declared).filter (fun other => other.specifier = specifier) =
      declared.filter (fun other => other.specifier = specifier) := by
  induction declared with
  | nil => simp [putDependency, hne]
  | cons other rest ih =>
    unfold putDependency
    by_cases hsame : other.specifier = dep.specifier
    · simp [hsame, hne]
    · rw [if_neg hsame, List.filter_cons, List.filter_cons, ih]

/-- The imports with a specifier all lead where the specifier leads. -/
theorem linksOf_eq (asset : Asset) (specifier : String) :
    asset.linksOf specifier = (asset.dependencies.filter fun dep => dep.specifier = specifier).filterMap
      fun dep => (asset.resolved.get? specifier).map fun target => (dep, target) := by
  unfold linksOf links
  rw [List.filter_filterMap, List.filterMap_filter]
  refine congrArg (List.filterMap · asset.dependencies) (funext fun dep => ?_)
  by_cases hsame : dep.specifier = specifier
  · simp only [hsame, decide_true, if_true]
    cases asset.resolved.get? specifier <;> simp [Option.filter, hsame]
  · simp only [hsame, decide_false, Bool.false_eq_true, if_false]
    cases asset.resolved.get? dep.specifier <;> simp [Option.filter, hsame]

/-- An asset is left with the import of a specifier that was recorded last. -/
theorem linksOf_record_self {asset : Asset} (h : asset.Distinct) (dep : Dependency) (target : AssetId) :
    ((asset.connect dep.specifier target).declare dep).linksOf dep.specifier = [(dep, target)] := by
  rw [linksOf_eq]
  simp only [declare, connect]
  rw [filter_putDependency_self h, Table.get?_put_self]
  rfl

/-- It keeps its imports of other specifiers. -/
theorem linksOf_record_of_ne {dep : Dependency} {specifier : String} (hne : dep.specifier ≠ specifier)
    (asset : Asset) (target : AssetId) :
    ((asset.connect dep.specifier target).declare dep).linksOf specifier = asset.linksOf specifier := by
  rw [linksOf_eq, linksOf_eq]
  simp only [declare, connect]
  rw [filter_putDependency_of_ne hne, Table.get?_put_of_ne hne.symm]

end Asset

namespace AssetGraph

/-- Whether no asset declares a specifier twice. -/
def Distinct (graph : AssetGraph) : Prop :=
  ∀ id asset, graph.get? id = some asset → asset.Distinct

/-- Whether an asset stands for the module of a path. -/
def StandsFor (graph : AssetGraph) (id : AssetId) (p : Path) : Prop :=
  ∃ asset, graph.get? id = some asset ∧ (asset.identity == p) = true

/-- Whether an asset is left with one import of a specifier, and that is the given one. -/
def IsLeft (graph : AssetGraph) (id : AssetId) (specifier : String)
    (link : Dependency × Lookup.Modules.Resolved) : Prop :=
  ∃ importer target, graph.get? id = some importer ∧
    importer.linksOf specifier = [(link.1, target)] ∧ graph.StandsFor target link.2.path

/-- Whether an asset has an import as it was declared: it leads to the same module, as early or as late and
under the same media query. -/
def Honours (graph : AssetGraph) (id : AssetId) (link : Dependency × Lookup.Modules.Resolved) : Prop :=
  ∃ importer edge, graph.get? id = some importer ∧ edge ∈ importer.links ∧
    edge.1.specifier = link.1.specifier ∧ edge.1.dynamic = link.1.dynamic ∧
    edge.1.media = link.1.media ∧ graph.StandsFor edge.2 link.2.path

/-- If one import of a specifier is left, an asset has just those imports as they were declared that say the
same. -/
theorem IsLeft.honours_iff {graph : AssetGraph} {id : AssetId}
    {link last : Dependency × Lookup.Modules.Resolved} (h : graph.IsLeft id link.1.specifier last) :
    graph.Honours id link ↔ last.1.dynamic = link.1.dynamic ∧ last.1.media = link.1.media ∧
      (last.2.path == link.2.path) = true := by
  obtain ⟨importer, target, hget, hlinks, asset, hasset, hsame⟩ := h
  have hleft : (last.1, target) ∈ importer.linksOf link.1.specifier := by rw [hlinks]; exact List.mem_singleton_self _
  obtain ⟨hmem, hspecifier⟩ := List.mem_filter.1 hleft
  constructor
  · rintro ⟨other, edge, hother, hedge, hsame', hdynamic, hmedia, found, hfound, hpath⟩
    rw [hget, Option.some.injEq] at hother
    subst hother
    have hof : edge ∈ importer.linksOf link.1.specifier := List.mem_filter.2 ⟨hedge, by simpa using hsame'⟩
    rw [hlinks, List.mem_singleton] at hof
    subst hof
    rw [hasset, Option.some.injEq] at hfound
    subst hfound
    exact ⟨hdynamic, hmedia, Path.beq_trans (Path.beq_symm hsame) hpath⟩
  · rintro ⟨hdynamic, hmedia, hpath⟩
    exact ⟨importer, (last.1, target), hget, hmem, by simpa using hspecifier, hdynamic, hmedia, asset, hasset,
      Path.beq_trans hsame hpath⟩

/-- Loading leaves alone what assets stand for. -/
theorem growing_standsFor {κ : Type} (types : AssetTypes κ) (id : AssetId) (p : Path) :
    Growing types fun graph => graph.StandsFor id p where
  update other change hmodule := by
    rintro ⟨asset, hget, hsame⟩
    by_cases hother : id = other
    · subst hother
      exact ⟨change asset, by rw [get?_update_self, hget]; rfl, by rwa [hmodule.identity]⟩
    · exact ⟨asset, by rw [get?_update_of_ne hother, hget], hsame⟩
  insert q package := by
    rintro ⟨asset, hget, hsame⟩
    exact ⟨asset, get?_insert_of_get? hget _ _ _, hsame⟩
  makeAlias q owner := by
    rintro ⟨asset, hget, hsame⟩
    exact ⟨asset, by rw [get?_makeAlias, hget], hsame⟩

/-- What is inserted stands for its module. -/
theorem standsFor_insert {graph : AssetGraph} (h : graph.Indexed) (p : Path) (kind : Kind)
    (package : Package) :
    (graph.insert p kind package).2.StandsFor (graph.insert p kind package).1.1 p := by
  rcases insert_cases h p kind package with ⟨id, asset, hget, hsame, heq⟩ | ⟨-, heq⟩
  · rw [heq]
    exact ⟨asset, hget, hsame⟩
  · rw [heq]
    exact ⟨{ id := ⟨graph.size⟩, identity := p, kind, package },
      (get?_add graph p kind package _).trans (if_pos rfl), Path.beq_refl p⟩

theorem Distinct.update {graph : AssetGraph} (h : graph.Distinct) (id : AssetId) {change : Asset → Asset}
    (hchange : ∀ asset, asset.Distinct → (change asset).Distinct) : (graph.update id change).Distinct := by
  intro other asset hget
  rcases get?_update_cases hget with ⟨-, hget⟩ | ⟨before, -, hbefore, rfl⟩
  · exact h _ _ hget
  · exact hchange before (h _ _ hbefore)

theorem Distinct.insert {graph : AssetGraph} (h : graph.Distinct) (p : Path) (kind : Kind)
    (package : Package) : (graph.insert p kind package).2.Distinct := by
  unfold AssetGraph.insert
  split
  · exact h
  · intro id asset hget
    rw [get?_add] at hget
    split at hget
    · cases hget
      exact List.nodup_nil
    · exact h _ _ hget

theorem Distinct.makeAlias {graph : AssetGraph} (h : graph.Distinct) (p : Path) (owner : AssetId) :
    (graph.makeAlias p owner).2.Distinct :=
  fun _ _ hget => h _ _ ((get?_makeAlias graph p owner _).symm.trans hget)

theorem Distinct.remove {graph : AssetGraph} (h : graph.Distinct) (id : AssetId) :
    (graph.remove id).2.Distinct := by
  intro other asset hget
  by_cases hother : other = id
  · rw [hother, get?_remove_self] at hget
    cases hget
  · rw [get?_remove_of_ne hother] at hget
    exact h _ _ hget

theorem Distinct.content {old new : AssetGraph} (h : old.Distinct) (hcontent : old.SameContent new) :
    new.Distinct := by
  intro id asset hget
  obtain ⟨before, hbefore, hsame⟩ := hcontent.symm.exists_get? hget
  exact (Asset.iff_of_withoutPlace hsame (p := Asset.Distinct) fun _ => Iff.rfl).1 (h _ _ hbefore)

end AssetGraph

namespace Build

variable {κ π σ : Type}

/-! ## Recording imports -/

namespace Work

/-- What was recorded last of the imports with a specifier that an asset has not put into itself. -/
def lastImport (specifier : String) (modules : List (Dependency × Lookup.Modules.Resolved)) :
    Option (Dependency × Lookup.Modules.Resolved) :=
  (modules.filter fun link => !link.1.inlined && link.1.specifier = specifier).getLast?

theorem record_distinct (tools : Toolset κ π σ) (types : AssetTypes κ) (id : AssetId)
    (found : Dependency × Lookup.Modules.Resolved) {work : Work σ} (h : work.state.graph.Distinct) :
    (work.record tools types id found).2.state.graph.Distinct := by
  rcases record_cases tools types id found work with ⟨-, hstate⟩ | ⟨-, hstate⟩
  · rw [hstate]
    exact h.makeAlias _ _
  · rw [hstate]
    -- a connection adds no import
    exact (h.insert _ _ _).update id fun _ hasset => Asset.Distinct.declare hasset found.1

theorem recordAll_distinct (tools : Toolset κ π σ) (types : AssetTypes κ) (id : AssetId)
    (modules : List (Dependency × Lookup.Modules.Resolved)) {work : Work σ}
    (h : work.state.graph.Distinct) :
    (recordAll tools types id modules work).2.state.graph.Distinct := by
  induction modules generalizing work with
  | nil => exact h
  | cons found rest ih => exact ih (record_distinct tools types id found h)

variable {tools : Toolset κ π σ} {types : AssetTypes κ} {id : AssetId} {specifier : String}
  {link found : Dependency × Lookup.Modules.Resolved} {work : Work σ}

theorem record_indexed (h : work.state.graph.Indexed) :
    (work.record tools types id found).2.state.graph.Indexed := by
  rcases record_cases tools types id found work with ⟨-, hstate⟩ | ⟨-, hstate⟩
  · rw [hstate]
    exact AssetGraph.indexed_makeAlias h _ _
  · rw [hstate]
    exact AssetGraph.indexed_update (AssetGraph.indexed_insert h _ _ _) id {}

/-- What an asset is after an import was recorded that was not put into it. -/
theorem get?_record {importer : Asset} (hget : work.state.graph.get? id = some importer)
    (hseparate : found.1.inlined = false) :
    (work.record tools types id found).2.state.graph.get? id =
      some ((importer.connect found.1.specifier (work.state.graph.insert found.2.path
        (types.kindOf found.2.path) found.2.package).1.1).declare found.1) := by
  rw [(work.record_eq tools types id hseparate).2]
  refine (AssetGraph.get?_update_self _ _ _).trans ?_
  rw [AssetGraph.get?_insert_of_get? hget]
  rfl

/-- An import that is recorded is left of those with its specifier. -/
theorem record_isLeft_self (hindexed : work.state.graph.Indexed) (hdistinct : work.state.graph.Distinct)
    (hlive : work.state.graph.IsLive id) (hseparate : found.1.inlined = false) :
    (work.record tools types id found).2.state.graph.IsLeft id found.1.specifier found := by
  obtain ⟨importer, hget⟩ := hlive
  refine ⟨_, _, get?_record hget hseparate, Asset.linksOf_record_self (hdistinct _ _ hget) _ _, ?_⟩
  rw [(work.record_eq tools types id hseparate).2]
  exact (AssetGraph.growing_standsFor types _ _).update id {} (AssetGraph.standsFor_insert hindexed _ _ _)

/-- Of the imports with another specifier the same one is left, and nothing comes of an import that was put
into the asset. -/
theorem record_isLeft_of_ne (hother : found.1.inlined = true ∨ found.1.specifier ≠ specifier)
    (h : work.state.graph.IsLeft id specifier link) :
    (work.record tools types id found).2.state.graph.IsLeft id specifier link := by
  obtain ⟨importer, target, hget, hlinks, hstands⟩ := h
  have hstill : (work.record tools types id found).2.state.graph.StandsFor target link.2.path :=
    recordAll_growing (AssetGraph.growing_standsFor types target link.2.path) tools id [found] hstands
  rcases record_cases tools types id found work with ⟨-, hstate⟩ | ⟨hinlined, -⟩
  · refine ⟨importer, target, ?_, hlinks, hstill⟩
    rw [hstate]
    exact (AssetGraph.get?_makeAlias _ _ _ _).trans hget
  · have hne : found.1.specifier ≠ specifier := hother.resolve_left (by simp [hinlined])
    exact ⟨_, target, get?_record hget hinlined, (Asset.linksOf_record_of_ne hne importer _).trans hlinks, hstill⟩

theorem lastImport_cons (found : Dependency × Lookup.Modules.Resolved)
    (rest : List (Dependency × Lookup.Modules.Resolved)) :
    lastImport specifier (found :: rest) = (lastImport specifier rest).or
      (if found.1.inlined = false ∧ found.1.specifier = specifier then some found else none) := by
  unfold lastImport
  by_cases hcounts : found.1.inlined = false ∧ found.1.specifier = specifier
  · rw [if_pos hcounts, List.filter_cons_of_pos (by simp [hcounts]), List.getLast?_cons]
    cases (rest.filter fun link => !link.1.inlined && link.1.specifier = specifier).getLast? <;> rfl
  · rw [if_neg hcounts, List.filter_cons_of_neg (by simpa using hcounts), Option.or_none]

/-- Where a specifier is declared for an import of its own, some import with it is the last. -/
theorem exists_lastImport {modules : List (Dependency × Lookup.Modules.Resolved)} (hmem : link ∈ modules)
    (hseparate : link.1.inlined = false) : ∃ last, lastImport link.1.specifier modules = some last := by
  have hcounts : link ∈ modules.filter fun other =>
      !other.1.inlined && other.1.specifier = link.1.specifier :=
    List.mem_filter.2 ⟨hmem, by simp [hseparate]⟩
  exact ⟨_, List.getLast?_eq_some_getLast (List.ne_nil_of_mem hcounts)⟩

/-- When the imports of an asset are recorded, the last one of each specifier is left, or else the one that
was left before. -/
theorem recordAll_isLeft {modules : List (Dependency × Lookup.Modules.Resolved)}
    {before : Option (Dependency × Lookup.Modules.Resolved)} (hindexed : work.state.graph.Indexed)
    (hdistinct : work.state.graph.Distinct) (hlive : work.state.graph.IsLive id)
    (hbefore : ∀ link, before = some link → work.state.graph.IsLeft id specifier link)
    (hlast : (lastImport specifier modules).or before = some link) :
    (recordAll tools types id modules work).2.state.graph.IsLeft id specifier link := by
  induction modules generalizing work before with
  | nil => exact hbefore link hlast
  | cons found rest ih =>
    rw [lastImport_cons, Option.or_assoc] at hlast
    refine @ih (work.record tools types id found).2 _ (record_indexed hindexed)
      (record_distinct tools types id found hdistinct) ?_ (fun other hother => ?_) hlast
    · exact recordAll_growing (AssetGraph.growing_isLive types id) tools id [found] hlive
    by_cases hcounts : found.1.inlined = false ∧ found.1.specifier = specifier
    · rw [if_pos hcounts] at hother
      cases hother
      rw [← hcounts.2]
      exact record_isLeft_self hindexed hdistinct hlive hcounts.1
    · rw [if_neg hcounts, Option.none_or] at hother
      refine record_isLeft_of_ne ?_ (hbefore other hother)
      cases hinlined : found.1.inlined with
      | true => exact .inl rfl
      | false => exact .inr fun hspecifier => hcounts ⟨hinlined, hspecifier⟩

/-! ## Resolved imports -/

/-- Imports have been found only if the resolver had an answer to each of them. -/
theorem findEach_found {inOrder : Bool} {importer : Path} {dependencies : List Dependency}
    {imports : Imports} {next : Work σ} {modules : List (Dependency × Lookup.Modules.Resolved)}
    (h : findEach tools inOrder importer dependencies imports work = (.found modules, next)) :
    ∃ before more, imports = .found before ∧ modules = before ++ more ∧
      more.map Prod.fst = dependencies ∧ ∀ link ∈ more, ∃ world,
        (tools.resolve link.1.specifier (some importer) world).1.result = .ok link.2 := by
  induction dependencies generalizing imports work with
  | nil =>
    cases h
    exact ⟨modules, [], rfl, (List.append_nil _).symm, rfl, List.forall_mem_nil _⟩
  | cons dep rest ih =>
    unfold findEach at h
    cases hfind : work.find tools importer dep with
    | mk finding asked =>
      rw [hfind] at h
      cases finding with
      | found module =>
        obtain ⟨before, more, himports, rfl, hdeclared, hfound⟩ := ih h
        obtain ⟨earlier, rfl, rfl⟩ := Imports.add_eq_found_iff.1 himports
        refine ⟨earlier, (dep, module) :: more, rfl, by simp, by rw [List.map_cons, hdeclared], ?_⟩
        have hmodule := find_eq_found_iff.1 (congrArg Prod.fst hfind)
        exact List.forall_mem_cons.2 ⟨⟨work.world, hmodule⟩, hfound⟩
      | late failure =>
        obtain ⟨before, -, himports, -⟩ := ih h
        exact absurd himports (Imports.miss_ne_found failure)
      | failed failure =>
        dsimp only at h
        split at h
        · rename_i hlate
          obtain ⟨before, -, rfl, -⟩ := ih h
          simp [Imports.isLate] at hlate
        · cases h

end Work

/-! ## Loading -/

namespace State

/-- Whether what was loaded in a state is still there as it was. -/
def Keeps (old new : State) : Prop :=
  ∀ id asset, old.graph.get? id = some asset → asset.dirty = false → new.graph.get? id = some asset

theorem Keeps.refl (state : State) : state.Keeps state :=
  fun _ _ h _ => h

theorem Keeps.trans {a b c : State} (hab : a.Keeps b) (hbc : b.Keeps c) : a.Keeps c :=
  fun id asset hget hclean => hbc id asset (hab id asset hget hclean) hclean

end State

/-- Making an asset ready does not touch the others. -/
theorem Work.get?_prepare_of_ne (tools : Toolset κ π σ) (types : AssetTypes κ) {work : Work σ}
    {id other : AssetId} (hother : other ≠ id) (asset : Asset) {found : Asset}
    (hget : work.state.graph.get? other = some found) :
    (work.prepare tools types id asset).2.state.graph.get? other = some found := by
  have hkeep {before after : State} {unit : CompiledUnit} (hbefore : work.state.Notices before)
      (hafter : (before.keep id unit).Notices after) : after.graph.get? other = some found := by
    rw [hafter.graph]
    refine (AssetGraph.get?_update_of_ne hother _ _).trans ?_
    rw [hbefore.graph, hget]
  rcases prepare_cases tools types work id asset with ⟨-, hnotices | ⟨state, unit, hbefore, hafter⟩⟩ |
    ⟨state, unit, modules, next, hbefore, hafter, hready⟩
  · rw [hnotices.graph, hget]
  · exact hkeep hbefore hafter
  · rw [hready]
    exact get?_recordAll_of_ne tools types hother modules (hkeep hbefore hafter)

namespace Load

variable {tools : Toolset κ π σ} {types : AssetTypes κ}

theorem each_keeps {load : AssetId → Work σ → Option (Outcome × Work σ)}
    (hload : ∀ {id : AssetId} {work next : Work σ} {outcome : Outcome},
      load id work = some (outcome, next) → work.state.Keeps next.state)
    {ids : List AssetId} {work next : Work σ} {outcome : Outcome}
    (heach : each load ids work = some (outcome, next)) : work.state.Keeps next.state := by
  induction ids generalizing work next outcome with
  | nil =>
    cases heach
    exact .refl _
  | cons id rest ih =>
    obtain ⟨first, between, more, hfirst, hmore, rfl⟩ := each_cons_cases heach
    exact (hload hfirst).trans (ih hmore)

/-- What comes after the children of an asset touches at most that asset. -/
theorem get?_conclude_of_ne {id other : AssetId} (hother : other ≠ id) (children : Outcome) (work : Work σ) :
    (conclude id children work).2.state.graph.get? other = work.state.graph.get? other := by
  unfold conclude
  split
  · rfl
  · exact AssetGraph.get?_update_of_ne hother _ _
  · rfl

/-- Loading an asset leaves alone what is loaded already, whether it fails or not. -/
theorem load_keeps {depth : Nat} {id : AssetId} {work next : Work σ} {outcome : Outcome}
    (hload : load tools types depth id work = some (outcome, next)) : work.state.Keeps next.state := by
  induction depth generalizing id work outcome next with
  | zero => simp [load] at hload
  | succ depth ih =>
    intro other found hget hclean
    -- whoever is loaded already cannot be claimed
    have hprepared {asset : Asset} {claimed : Work σ} (hclaim : claim work id = some (asset, claimed)) :
        other ≠ id ∧ (claimed.prepare tools types id asset).2.state.graph.get? other = some found := by
      obtain ⟨hasset, hdirty, hclaimed⟩ := State.of_claim (of_claim hclaim).1
      have hother : other ≠ id := by
        rintro rfl
        rw [hasset, Option.some.injEq] at hget
        rw [hget, hclean] at hdirty
        cases hdirty
      refine ⟨hother, Work.get?_prepare_of_ne tools types hother asset ?_⟩
      rw [hclaimed]
      exact (AssetGraph.get?_update_of_ne hother _ _).trans hget
    cases load_course hload with
    | passed _ => exact hget
    | failed hclaim hprepare =>
      obtain ⟨hother, hstays⟩ := hprepared hclaim
      rw [hprepare] at hstays
      exact (AssetGraph.get?_update_of_ne hother _ _).trans hstays
    | late hclaim hprepare =>
      obtain ⟨-, hstays⟩ := hprepared hclaim
      rwa [hprepare] at hstays
    | ready hclaim hprepare hmore =>
      obtain ⟨hother, hstays⟩ := hprepared hclaim
      rw [hprepare] at hstays
      rw [get?_conclude_of_ne hother]
      exact each_keeps ih hmore other found hstays hclean

/-- Loading several assets preserves what survives growth. -/
theorem each_growing {holds : AssetGraph → Prop} (hgrowing : AssetGraph.Growing types holds) {depth : Nat}
    {ids : List AssetId} {work next : Work σ} {outcome : Outcome}
    (heach : each (load tools types depth) ids work = some (outcome, next))
    (h : holds work.state.graph) : holds next.state.graph := by
  have hinvariant := growing_invariant hgrowing tools
  exact @each_invariant _ _ _ _ _ _ hinvariant _ (@load_invariant _ _ _ _ _ _ hinvariant depth) ids [] [] _ _ _ h
    heach

/-- Loading children leaves alone what is left of the imports of an asset that is loaded. -/
theorem each_isLeft {depth : Nat} {ids : List AssetId} {id : AssetId} {work next : Work σ}
    {outcome : Outcome} (heach : each (load tools types depth) ids work = some (outcome, next))
    (hloaded : work.state.isLoaded id = true) {specifier : String}
    {link : Dependency × Lookup.Modules.Resolved} (h : work.state.graph.IsLeft id specifier link) :
    next.state.graph.IsLeft id specifier link := by
  obtain ⟨importer, target, hget, hlinks, hstands⟩ := h
  obtain ⟨asset, hasset, hclean⟩ := State.isLoaded_iff.1 hloaded
  rw [hget, Option.some.injEq] at hasset
  subst hasset
  exact ⟨importer, target, each_keeps load_keeps heach id importer hget hclean, hlinks,
    each_growing (AssetGraph.growing_standsFor types target link.2.path) heach hstands⟩

section

variable {work claimed compiled declared found : Work σ} {id : AssetId} {asset : Asset} {unit : CompiledUnit}
  {isNew : Bool} {dependencies : List Dependency} {modules : List (Dependency × Lookup.Modules.Resolved)}

theorem prepare_of_found (hcompile : claimed.compile tools types asset = (.ok (unit, isNew), compiled))
    (hdependencies : compiled.dependencies tools asset unit = (.ok dependencies, declared))
    (hfound : Work.findAll tools { declared with state := declared.state.keep id unit } asset.identity
      dependencies = (.found modules, found)) :
    claimed.prepare tools types id asset =
      (.ready (Work.recordAll tools types id modules (found.remember tools asset unit isNew modules)).1,
        (Work.recordAll tools types id modules (found.remember tools asset unit isNew modules)).2) := by
  unfold Work.prepare
  rw [hcompile]
  dsimp only
  rw [hdependencies]
  dsimp only
  rw [hfound]

/-- What the imports of a claimed asset are recorded in. -/
theorem recorded_from (hindexed : work.state.graph.Indexed) (hdistinct : work.state.graph.Distinct)
    (hclaim : claim work id = some (asset, claimed))
    (hcompile : claimed.compile tools types asset = (.ok (unit, isNew), compiled))
    (hdependencies : compiled.dependencies tools asset unit = (.ok dependencies, declared))
    (hfound : Work.findAll tools { declared with state := declared.state.keep id unit } asset.identity
      dependencies = (.found modules, found)) :
    (found.remember tools asset unit isNew modules).state.graph.Indexed ∧
      (found.remember tools asset unit isNew modules).state.graph.Distinct ∧
      (found.remember tools asset unit isNew modules).state.graph.get? id =
        some { asset with dirty := false, compiled := some unit.generated, hash := some unit.hash } := by
  have hstate := (of_claim hclaim).1
  obtain ⟨-, -, hclaimed⟩ := State.of_claim hstate
  have hkept : (found.remember tools asset unit isNew modules).state.graph =
      (claimed.state.keep id unit).graph := by
    have hcompiled := Work.notices_compile tools types claimed asset
    have hdeclared := Work.notices_dependencies tools compiled asset unit
    have hasked := Work.notices_findAll tools { declared with state := declared.state.keep id unit }
      asset.identity dependencies
    rw [hcompile] at hcompiled
    rw [hdependencies] at hdeclared
    rw [hfound] at hasked
    rw [(Work.notices_remember tools found asset unit isNew modules).graph, hasked.graph]
    show (declared.state.keep id unit).graph = _
    unfold State.keep
    rw [hdeclared.graph.trans hcompiled.graph]
  have hbefore : claimed.state.graph.Indexed ∧ claimed.state.graph.Distinct := by
    rw [hclaimed]
    exact ⟨AssetGraph.indexed_update hindexed id {}, hdistinct.update id fun _ h => h⟩
  rw [hkept]
  exact ⟨AssetGraph.indexed_update hbefore.1 id {}, hbefore.2.update id fun _ h => h,
    State.get?_keep_of_claim hstate unit⟩

/-- When an asset was claimed, and its imports were all resolved, then it is made ready, and the last import
of each specifier is left.  It stays so while the children are loaded.  So the asset has an import as it was
declared just if the last one with its specifier says the same. -/
theorem links_processed (hindexed : work.state.graph.Indexed) (hdistinct : work.state.graph.Distinct)
    (hclaim : claim work id = some (asset, claimed))
    (hcompile : claimed.compile tools types asset = (.ok (unit, isNew), compiled))
    (hdependencies : compiled.dependencies tools asset unit = (.ok dependencies, declared))
    (hfound : Work.findAll tools { declared with state := declared.state.keep id unit } asset.identity
      dependencies = (.found modules, found)) :
    (modules.map Prod.fst = dependencies ∧ ∀ link ∈ modules, ∃ world,
      (tools.resolve link.1.specifier (some asset.identity) world).1.result = .ok link.2) ∧
    ∃ children prepared, claimed.prepare tools types id asset = (.ready children, prepared) ∧
      ∀ {depth : Nat} {outcome : Outcome} {next : Work σ},
        each (load tools types depth) children prepared = some (outcome, next) →
        ∀ link ∈ modules, link.1.inlined = false → ∃ last,
          Work.lastImport link.1.specifier modules = some last ∧
          next.state.graph.IsLeft id link.1.specifier last ∧
          (next.state.graph.Honours id link ↔ last.1.dynamic = link.1.dynamic ∧
            last.1.media = link.1.media ∧ (last.2.path == link.2.path) = true) := by
  obtain ⟨before, more, hnone, hmore, hdeclared, hresolved⟩ := Work.findEach_found hfound
  cases hnone
  obtain rfl : modules = more := hmore
  refine ⟨⟨hdeclared, hresolved⟩, _, _, prepare_of_found hcompile hdependencies hfound, ?_⟩
  obtain ⟨hindexed', hdistinct', hget⟩ := recorded_from hindexed hdistinct hclaim hcompile hdependencies hfound
  intro depth outcome next heach link hmem hseparate
  obtain ⟨last, hlast⟩ := Work.exists_lastImport hmem hseparate
  have hrecorded := @Work.recordAll_isLeft _ _ _ tools types id link.1.specifier last
    (found.remember tools asset unit isNew modules) modules none hindexed' hdistinct' ⟨_, hget⟩
    (fun _ hnone => by cases hnone) (by rw [hlast]; rfl)
  have hloaded : (Work.recordAll tools types id modules
      (found.remember tools asset unit isNew modules)).2.state.isLoaded id = true := by
    rw [(Work.progress_recordAll tools types id modules _).isLoaded_eq]
    exact State.isLoaded_iff.2 ⟨_, hget, rfl⟩
  have hleft := each_isLeft heach hloaded hrecorded
  exact ⟨last, hlast, hleft, hleft.honours_iff⟩

end

/-! ### A module that is imported as part of its importer and later on -/

/-- A project whose main module imports another one twice, first as part of itself and then later on. -/
def twiceSketch : Sketch where
  files := Path.Map.empty
    |>.put ⟨"/main.js"⟩
      { content := "main", hash := some "main"
        dependencies := [{ specifier := "/b.js" }, { specifier := "/b.js", dynamic := true }] }
    |>.put ⟨"/b.js"⟩ { content := "b", hash := some "b" }

/-- A build in which the main module waits to be loaded. -/
def twiceWork : Work Sketch :=
  ⟨{ graph := (AssetGraph.empty.insert ⟨"/main.js"⟩ .js {}).2 }, twiceSketch, []⟩

/-- The imports of the main module and the modules that they mean. -/
def twiceModules : List (Dependency × Lookup.Modules.Resolved) :=
  [({ specifier := "/b.js" }, ⟨⟨"/b.js"⟩, {}⟩),
    ({ specifier := "/b.js", dynamic := true }, ⟨⟨"/b.js"⟩, {}⟩)]

/-- The main module is left with the later import. -/
theorem twice_processed : ∃ asset claimed unit compiled dependencies declared found children prepared next,
    claim twiceWork ⟨0⟩ = some (asset, claimed) ∧
      claimed.compile twiceSketch.tools (.ofFallback ()) asset = (.ok (unit, true), compiled) ∧
      compiled.dependencies twiceSketch.tools asset unit = (.ok dependencies, declared) ∧
      Work.findAll twiceSketch.tools { declared with state := declared.state.keep ⟨0⟩ unit } asset.identity
        dependencies = (.found twiceModules, found) ∧
      claimed.prepare twiceSketch.tools (.ofFallback ()) ⟨0⟩ asset = (.ready children, prepared) ∧
      each (load twiceSketch.tools (.ofFallback ()) 1) children prepared = some (.loaded, next) ∧
      (next.state.graph.get? ⟨0⟩).map Asset.links =
        some [({ specifier := "/b.js", dynamic := true }, ⟨1⟩)] :=
  ⟨_, _, _, _, _, _, _, _, _, _, rfl, rfl, rfl, rfl, rfl, rfl, by decide +kernel⟩

/-- What becomes of the two imports of the main module. -/
theorem links_processed_twice : ∃ asset claimed children prepared next,
    claim twiceWork ⟨0⟩ = some (asset, claimed) ∧
      claimed.prepare twiceSketch.tools (.ofFallback ()) ⟨0⟩ asset = (.ready children, prepared) ∧
      each (load twiceSketch.tools (.ofFallback ()) 1) children prepared = some (.loaded, next) ∧
      ∀ link ∈ twiceModules, next.state.graph.Honours ⟨0⟩ link ↔ link.1.dynamic = true := by
  obtain ⟨asset, claimed, unit, compiled, dependencies, declared, found, children, prepared, next, hclaim,
    hcompile, hdependencies, hfound, hprepare, heach, -⟩ := twice_processed
  have hindexed : twiceWork.state.graph.Indexed := AssetGraph.indexed_insert AssetGraph.indexed_empty _ _ _
  have hdistinct : twiceWork.state.graph.Distinct :=
    AssetGraph.Distinct.insert (fun _ _ h => by cases h) _ _ _
  obtain ⟨-, children', prepared', hprepare', hleft⟩ :=
    links_processed hindexed hdistinct hclaim hcompile hdependencies hfound
  cases hprepare.symm.trans hprepare'
  refine ⟨asset, claimed, children, prepared, next, hclaim, hprepare, heach, fun link hmem => ?_⟩
  have hseparate : link.1.inlined = false := by revert link; decide
  obtain ⟨last, hlast, -, hhonours⟩ := hleft heach link hmem hseparate
  rw [hhonours]
  simp only [twiceModules, List.mem_cons, List.not_mem_nil, or_false] at hmem
  rcases hmem with rfl | rfl
  · cases hlast
    decide
  · cases hlast
    decide

/-- An import is not always left as it was declared: here the module is imported as part of its importer,
but the asset is left with the later import only. -/
theorem exists_lost_import : ¬ ∀ (sketch : Sketch) (work claimed compiled declared found prepared next : Work Sketch)
    (id : AssetId) (asset : Asset) (unit : CompiledUnit) (isNew : Bool) (dependencies : List Dependency)
    (modules : List (Dependency × Lookup.Modules.Resolved)) (children : List AssetId) (depth : Nat),
    claim work id = some (asset, claimed) →
      claimed.compile sketch.tools (.ofFallback ()) asset = (.ok (unit, isNew), compiled) →
      compiled.dependencies sketch.tools asset unit = (.ok dependencies, declared) →
      Work.findAll sketch.tools { declared with state := declared.state.keep id unit } asset.identity
        dependencies = (.found modules, found) →
      claimed.prepare sketch.tools (.ofFallback ()) id asset = (.ready children, prepared) →
      each (load sketch.tools (.ofFallback ()) depth) children prepared = some (.loaded, next) →
      ∀ link ∈ modules, link.1.inlined = false → next.state.graph.Honours id link := by
  intro h
  obtain ⟨asset, claimed, unit, compiled, dependencies, declared, found, children, prepared, next, hclaim,
    hcompile, hdependencies, hfound, hprepare, heach, hlinks⟩ := twice_processed
  obtain ⟨importer, edge, hget, hedge, -, hdynamic, -⟩ := h _ _ _ _ _ _ _ _ _ _ _ _ _ _ _ _ hclaim hcompile
    hdependencies hfound hprepare heach _ List.mem_cons_self rfl
  rw [hget, Option.map_some, Option.some.injEq] at hlinks
  rw [hlinks, List.mem_singleton] at hedge
  rw [hedge] at hdynamic
  cases hdynamic

end Load

/-! ## Sessions -/

/-- No step makes an asset declare a specifier twice. -/
theorem Step.distinct {tools : Toolset κ π σ} {outside : Outside σ} {work : Work σ} {moment : Moment σ}
    (h : Step tools outside work moment) (hdistinct : work.state.graph.Distinct) :
    moment.work.state.graph.Distinct := by
  cases h with
  | begun hstate _ => exact hstate ▸ hdistinct
  | asked hstate _ => exact hstate ▸ hdistinct
  | noticed p =>
    rw [(Work.notices_notify work p).graph]
    exact hdistinct
  | taken invalidate =>
    exact State.graph_drain AssetGraph.Distinct invalidate
      (fun id _ h => h.update id fun _ _ => List.nodup_nil) hdistinct
  | claimed hclaim =>
    obtain ⟨-, -, hclaimed⟩ := State.of_claim (Load.of_claim hclaim).1
    rw [hclaimed]
    exact hdistinct.update _ fun _ h => h
  | kept unit _ => exact hdistinct.update _ fun _ h => h
  | recorded types modules _ => exact Work.recordAll_distinct tools types _ modules hdistinct
  | returned _ => exact hdistinct.update _ fun _ h => h
  | entered types module =>
    show (work.enter tools types module).2.state.graph.Distinct
    rw [(work.enter_eq tools types module).2]
    exact hdistinct.insert _ _ _
  | sent assets => exact hdistinct
  | laidOut outDir start =>
    exact hdistinct.content (work.state.graph.sameContent_withoutPlace.trans
      (Layout.sameContent_ofGraph (work.state.graph.updateAll Asset.withoutPlace) outDir start))
  | written _ => exact hdistinct
  | finished hashes =>
    exact State.unload_invariant (fun state => state.graph.Distinct) (fun id h => h.remove id) hdistinct
  | edited _ => exact hdistinct
  | closed _ => exact hdistinct

/-- At no moment of a session does an asset declare a specifier twice. -/
theorem Session.Trail.distinct {outside : Outside σ} {session : Session κ π σ} {trail : List (Moment σ)}
    (h : session.Trail outside trail) :
    (∀ moment ∈ trail, moment.work.state.graph.Distinct) ∧ session.work.state.graph.Distinct := by
  obtain ⟨world, -, hlinked⟩ := h.linked
  exact hlinked.always (fun work => work.state.graph.Distinct) (fun _ => True)
    (fun hwork hstep _ => hstep.distinct hwork) (fun _ _ => trivial) (fun _ _ h => by cases h)

end Build
end ModuleBundler
