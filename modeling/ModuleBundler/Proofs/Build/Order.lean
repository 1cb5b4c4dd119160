import ModuleBundler.Build.State
import ModuleBundler.Proofs.Asset.Indexing
import ModuleBundler.Proofs.Build.Noticing

/-!
# Assets in order

In the middle of a pass two kinds of assets are exceptions to what is promised of
a build: assets that are still to be loaded and assets that are late.  All others
are in order ({lit}`State.Orderly`): whoever is dirty waits in the queue, whoever
is not has output, and imports lead to live assets.  This module says what the
steps of a build do to the exceptions.

Main results:

- Theorem {lit}`State.Orderly.update`: a change of one asset only has to put that asset in order.
- Theorem {lit}`State.Orderly.claim` and theorem {lit}`State.Orderly.giveBack`: a claimed asset is late, and
  an asset that is given back is not.
- Theorem {lit}`State.Orderly.insert`: a new asset is still to be loaded.
-/

namespace ModuleBundler
namespace Asset

/-- What an asset declares after one more import. -/
theorem declares_declare (asset : Asset) (dep : Dependency) (specifier : String) :
    (asset.declare dep).declares specifier = true ↔
      asset.declares specifier = true ∨ specifier = dep.specifier := by
  have hput : ∀ dependencies : List Dependency,
      ((putDependency dep dependencies).any fun other => other.specifier == specifier) = true ↔
        (dependencies.any fun other => other.specifier == specifier) = true ∨
          specifier = dep.specifier := by
    intro dependencies
    induction dependencies with
    | nil =>
      simp only [putDependency, List.any_cons, List.any_nil, Bool.or_false, beq_iff_eq,
        Bool.false_eq_true, false_or]
      exact eq_comm
    | cons other rest ih =>
      unfold putDependency
      split
      · rename_i hsame
        simp only [List.any_cons, Bool.or_eq_true, beq_iff_eq, hsame]
        constructor
        · rintro (h | h)
          · exact .inr h.symm
          · exact .inl (.inr h)
        · rintro ((h | h) | h)
          · exact .inl h
          · exact .inr h
          · exact .inl h.symm
      · simp only [List.any_cons, Bool.or_eq_true]
        rw [ih, or_assoc]
  exact hput asset.dependencies

end Asset

namespace Build

/-! ## Assets in order -/

namespace State

/-- What is claimed is live and dirty, and then it is dirty no more. -/
theorem of_claim {state state' : State} {id : AssetId} {asset : Asset}
    (h : state.claim id = some (asset, state')) : state.graph.get? id = some asset ∧
      asset.dirty = true ∧
        state' = { state with graph := state.graph.update id fun a => { a with dirty := false } } := by
  unfold claim at h
  split at h
  · rename_i found hget
    split at h
    · rename_i hdirty
      simp only [Option.some.injEq, Prod.mk.injEq] at h
      obtain ⟨rfl, rfl⟩ := h
      exact ⟨hget, hdirty, rfl⟩
    · cases h
  · cases h

/-- What an asset is after it was claimed and its output was kept. -/
theorem get?_keep_of_claim {state state' : State} {id : AssetId} {asset : Asset}
    (h : state.claim id = some (asset, state')) (unit : CompiledUnit) :
    (state'.keep id unit).graph.get? id =
      some { asset with dirty := false, compiled := some unit.generated, hash := some unit.hash } := by
  obtain ⟨hget, -, rfl⟩ := of_claim h
  refine (AssetGraph.get?_update_self _ _ _).trans ?_
  rw [AssetGraph.get?_update_self, hget]
  rfl

/-- Whether the assets of a build are in order, up to some that are late and some that are still to be
loaded. -/
structure Orderly (late pending : List AssetId) (state : State) : Prop where
  indexed : state.graph.Indexed
  waits : ∀ {id : AssetId} {asset : Asset}, state.graph.get? id = some asset → asset.dirty = true →
    id ∈ state.queue ∨ id ∈ pending
  made : ∀ {id : AssetId} {asset : Asset}, state.graph.get? id = some asset → asset.dirty = false →
    asset.compiled.isSome = true ∧ asset.hash.isSome = true ∨ id ∈ late
  leads : ∀ {id target : AssetId} {asset : Asset} {specifier : String},
    state.graph.get? id = some asset → asset.resolved.get? specifier = some target →
      state.graph.IsLive target
  declared : ∀ {id target : AssetId} {asset : Asset} {specifier : String},
    state.graph.get? id = some asset → asset.resolved.get? specifier = some target →
      asset.declares specifier = true

namespace Orderly

variable {late pending : List AssetId} {state : State}

/-- An import that leads somewhere is declared and leads to a live asset. -/
theorem imports (h : state.Orderly late pending) {id target : AssetId} {asset : Asset}
    {specifier : String} (hget : state.graph.get? id = some asset)
    (hresolved : asset.resolved.get? specifier = some target) :
    state.graph.IsLive target ∧ asset.declares specifier = true :=
  ⟨h.leads hget hresolved, h.declared hget hresolved⟩

/-- More exceptions do no harm. -/
theorem mono {late' pending' : List AssetId} (h : state.Orderly late pending)
    (hlate : ∀ id ∈ late, id ∈ late') (hpending : ∀ id ∈ pending, id ∈ pending') :
    state.Orderly late' pending' where
  indexed := h.indexed
  waits hget hdirty := (h.waits hget hdirty).imp_right (hpending _)
  made hget hclean := (h.made hget hclean).imp_right (hlate _)
  leads := h.leads
  declared := h.declared

/-- Taking note of changes keeps the assets in order. -/
theorem notices {state' : State} (h : state.Orderly late pending) (hnotices : state.Notices state') :
    state'.Orderly late pending := by
  have hgraph := hnotices.graph
  refine ⟨by rw [hgraph]; exact h.indexed, ?_, ?_, ?_, ?_⟩
  · intro id asset hget hdirty
    rw [hgraph] at hget
    exact (h.waits hget hdirty).imp_left (hnotices.queue id)
  · intro id asset hget
    rw [hgraph] at hget
    exact h.made hget
  · intro id target asset specifier hget
    rw [hgraph] at hget ⊢
    exact h.leads hget
  · intro id target asset specifier hget
    rw [hgraph] at hget
    exact h.declared hget

/-- A change of one asset keeps the assets in order if that asset is in order afterwards. -/
theorem update {late' pending' : List AssetId} (h : state.Orderly late pending) (id : AssetId)
    {change : Asset → Asset} (hmodule : Asset.KeepsModule change)
    (hlate : ∀ other ∈ late, other ≠ id → other ∈ late')
    (hpending : ∀ other ∈ pending, other ≠ id → other ∈ pending')
    (hwaits : ∀ asset, state.graph.get? id = some asset → (change asset).dirty = true →
      id ∈ state.queue ∨ id ∈ pending')
    (hmade : ∀ asset, state.graph.get? id = some asset → (change asset).dirty = false →
      (change asset).compiled.isSome = true ∧ (change asset).hash.isSome = true ∨ id ∈ late')
    (hleads : ∀ asset specifier target, state.graph.get? id = some asset →
      (change asset).resolved.get? specifier = some target →
        state.graph.IsLive target ∧ (change asset).declares specifier = true) :
    Orderly late' pending' { state with graph := state.graph.update id change } := by
  refine ⟨AssetGraph.indexed_update h.indexed id hmodule, ?_, ?_, ?_, ?_⟩
  · intro other asset hget hdirty
    rcases AssetGraph.get?_update_cases hget with ⟨hne, hget⟩ | ⟨before, rfl, hbefore, rfl⟩
    · exact (h.waits hget hdirty).imp_right fun hmem => hpending _ hmem hne
    · exact hwaits before hbefore hdirty
  · intro other asset hget hclean
    rcases AssetGraph.get?_update_cases hget with ⟨hne, hget⟩ | ⟨before, rfl, hbefore, rfl⟩
    · exact (h.made hget hclean).imp_right fun hmem => hlate _ hmem hne
    · exact hmade before hbefore hclean
  · intro other target asset specifier hget hresolved
    rw [AssetGraph.isLive_update]
    rcases AssetGraph.get?_update_cases hget with ⟨-, hget⟩ | ⟨before, rfl, hbefore, rfl⟩
    · exact h.leads hget hresolved
    · exact (hleads before specifier target hbefore hresolved).1
  · intro other target asset specifier hget hresolved
    rcases AssetGraph.get?_update_cases hget with ⟨-, hget⟩ | ⟨before, rfl, hbefore, rfl⟩
    · exact h.declared hget hresolved
    · exact (hleads before specifier target hbefore hresolved).2

/-- An asset whose output is kept is in order. -/
theorem keep {id : AssetId} (h : state.Orderly (id :: late) pending) (unit : CompiledUnit) :
    (state.keep id unit).Orderly late pending := by
  refine h.update id {} ?_ (fun _ hmem _ => hmem) ?_ ?_ ?_
  · intro other hmem hne
    exact (List.mem_cons.1 hmem).resolve_left hne
  · exact fun asset hget hdirty => h.waits hget hdirty
  · exact fun asset hget hclean => .inl ⟨rfl, rfl⟩
  · intro asset specifier target hget hresolved
    have himports := h.imports hget hresolved
    exact himports

/-- An import that leads to a live asset keeps the assets in order. -/
theorem connect (h : state.Orderly late pending) (id : AssetId) (dep : Dependency) {target : AssetId}
    (hlive : state.graph.IsLive target) : (state.connect id dep target).Orderly late pending := by
  refine h.update id {} (fun _ hmem _ => hmem) (fun _ hmem _ => hmem) ?_ ?_ ?_
  · exact fun asset hget hdirty => h.waits hget hdirty
  · intro asset hget hclean
    have hmade := h.made hget hclean
    exact hmade
  · intro asset specifier other hget hresolved
    by_cases hspecifier : specifier = dep.specifier
    · subst hspecifier
      have hput := Table.get?_put_self asset.resolved dep.specifier target
      rw [show (asset.resolved.put dep.specifier target).get? dep.specifier = some other from hresolved,
        Option.some.injEq] at hput
      subst hput
      exact ⟨hlive, (Asset.declares_declare _ dep _).2 (.inr rfl)⟩
    · have hput := Table.get?_put_of_ne hspecifier asset.resolved target
      rw [show (asset.resolved.put dep.specifier target).get? specifier = some other from hresolved] at hput
      have himports := h.imports hget hput.symm
      exact ⟨himports.1, (Asset.declares_declare _ dep _).2 (.inl himports.2)⟩

/-- An asset that waits in the queue need not be loaded now. -/
theorem enqueue {id : AssetId} (h : state.Orderly late (id :: pending)) :
    (state.enqueue id).Orderly late pending where
  indexed := h.indexed
  waits := by
    intro other asset hget hdirty
    rcases h.waits hget hdirty with hqueue | hmem
    · exact .inl (mem_includeLast_iff.2 (.inl hqueue))
    · rcases List.mem_cons.1 hmem with rfl | hrest
      · exact .inl (mem_includeLast _ _)
      · exact .inr hrest
  made := h.made
  leads := h.leads
  declared := h.declared

/-- An asset that is given back is late no more. -/
theorem giveBack {id : AssetId} (h : state.Orderly (id :: late) pending) :
    (state.giveBack id).Orderly late pending := by
  refine enqueue (h.update id {} ?_ ?_ ?_ ?_ ?_)
  · intro other hmem hne
    exact (List.mem_cons.1 hmem).resolve_left hne
  · exact fun other hmem _ => List.mem_cons_of_mem _ hmem
  · exact fun asset hget hdirty => .inr List.mem_cons_self
  · intro asset hget hclean
    cases hclean
  · intro asset specifier target hget hresolved
    have himports := h.imports hget hresolved
    exact himports

/-- An asset that is claimed is late until it is ready. -/
theorem claim {id : AssetId} {asset : Asset} {state' : State} (h : state.Orderly late (id :: pending))
    (hclaim : state.claim id = some (asset, state')) : state'.Orderly (id :: late) pending := by
  obtain ⟨-, -, rfl⟩ := of_claim hclaim
  refine h.update id {} ?_ ?_ ?_ ?_ ?_
  · exact fun other hmem _ => List.mem_cons_of_mem _ hmem
  · exact fun other hmem hne => (List.mem_cons.1 hmem).resolve_left hne
  · intro asset hget hdirty
    cases hdirty
  · exact fun asset hget hclean => .inr List.mem_cons_self
  · intro asset specifier target hget hresolved
    have himports := h.imports hget hresolved
    exact himports

/-- An asset that cannot be claimed need not be loaded. -/
theorem pass {id : AssetId} (h : state.Orderly late (id :: pending)) (hclaim : state.claim id = none) :
    state.Orderly late pending where
  indexed := h.indexed
  waits := by
    intro other asset hget hdirty
    refine (h.waits hget hdirty).imp_right fun hmem => (List.mem_cons.1 hmem).resolve_left ?_
    rintro rfl
    rw [claim_eq_none_iff.1 hclaim asset hget] at hdirty
    cases hdirty
  made := h.made
  leads := h.leads
  declared := h.declared

/-- A new asset is still to be loaded. -/
theorem insert (h : state.Orderly late pending) (identity : Path) (kind : Kind) (package : Package) :
    Orderly late ((state.graph.insert identity kind package).1.1 :: pending)
        { state with graph := (state.graph.insert identity kind package).2 } ∧
      (state.graph.insert identity kind package).2.IsLive
        (state.graph.insert identity kind package).1.1 := by
  rcases AssetGraph.insert_cases h.indexed identity kind package with ⟨id, asset, hget, -, heq⟩ |
    ⟨hnew, heq⟩
  · rw [heq]
    exact ⟨h.mono (fun _ hmem => hmem) fun _ hmem => List.mem_cons_of_mem _ hmem, asset, hget⟩
  · rw [heq]
    have hgrown : ∀ {id : AssetId}, state.graph.IsLive id →
        (state.graph.add identity kind package).IsLive id := by
      rintro id ⟨asset, hget⟩
      have hlt := AssetGraph.lt_size_of_get? hget
      exact ⟨asset, by rw [AssetGraph.get?_add, if_neg (by omega), hget]⟩
    refine ⟨⟨AssetGraph.indexed_add h.indexed hnew kind package, ?_, ?_, ?_, ?_⟩, ?_⟩
    · intro id asset hget hdirty
      rw [AssetGraph.get?_add] at hget
      split at hget
      · rename_i hid
        exact .inr (List.mem_cons.2 (.inl (congrArg AssetId.mk hid)))
      · exact (h.waits hget hdirty).imp_right fun hmem => List.mem_cons_of_mem _ hmem
    · intro id asset hget hclean
      rw [AssetGraph.get?_add] at hget
      split at hget
      · cases hget
        cases hclean
      · exact h.made hget hclean
    · intro id target asset specifier hget hresolved
      rw [AssetGraph.get?_add] at hget
      split at hget
      · cases hget
        cases hresolved
      · exact hgrown (h.leads hget hresolved)
    · intro id target asset specifier hget hresolved
      rw [AssetGraph.get?_add] at hget
      split at hget
      · cases hget
        cases hresolved
      · exact h.declared hget hresolved
    · exact ⟨_, by rw [AssetGraph.get?_add, if_pos rfl]⟩

/-- An alias keeps the assets in order. -/
theorem makeAlias (h : state.Orderly late pending) (p : Path) (owner : AssetId) :
    Orderly late pending { state with graph := (state.graph.makeAlias p owner).2 } := by
  have hget := state.graph.get?_makeAlias p owner
  refine ⟨AssetGraph.indexed_makeAlias h.indexed p owner, ?_, ?_, ?_, ?_⟩
  · exact fun h' => h.waits (by rwa [hget] at h')
  · exact fun h' => h.made (by rwa [hget] at h')
  · intro id target asset specifier h' hresolved
    rw [hget] at h'
    obtain ⟨other, hother⟩ := h.leads h' hresolved
    exact ⟨other, by rw [hget]; exact hother⟩
  · exact fun h' => h.declared (by rwa [hget] at h')

end Orderly
end State

end Build
end ModuleBundler
