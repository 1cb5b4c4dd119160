import ModuleBundler.Asset.Graph

/-!
# The index of an asset graph

Every live asset is found under its own id and, by way of the index, under its
identity.  That holds of the empty graph, and all that happens to a graph
preserves it ({lit}`AssetGraph.Indexed`).

Main results:

- Theorem {lit}`AssetGraph.named?_eq_some_iff`: the index finds exactly the live assets.
- Theorem {lit}`AssetGraph.insert_cases`: inserting leads to a live asset with the identity.
- Theorem {lit}`AssetGraph.indexed_insert` and theorem {lit}`AssetGraph.indexed_remove`: the index stays
  right.
-/

namespace ModuleBundler

namespace AssetGraph

/-- Whether an asset is live. -/
def IsLive (graph : AssetGraph) (id : AssetId) : Prop :=
  ∃ asset, graph.get? id = some asset

theorem isLive_iff_isSome {graph : AssetGraph} {id : AssetId} :
    graph.IsLive id ↔ (graph.get? id).isSome = true :=
  Option.isSome_iff_exists.symm

/-- What holds of every graph: assets have the ids under which they are found, and the index leads from
their identities to them. -/
structure Indexed (graph : AssetGraph) : Prop where
  named : ∀ {id : AssetId} {asset : Asset}, graph.get? id = some asset → asset.id = id
  found : ∀ {id : AssetId} {asset : Asset}, graph.get? id = some asset →
    graph.index.get? asset.identity = some id

/-- The empty graph is indexed. -/
theorem indexed_empty : empty.Indexed where
  named h := by simp [empty, get?] at h
  found h := by simp [empty, get?] at h

/-- The asset with an identity is a live one. -/
theorem get?_of_named? {graph : AssetGraph} (hindexed : graph.Indexed) {p : Path} {asset : Asset}
    (h : graph.named? p = some asset) :
    graph.get? asset.id = some asset ∧ (asset.identity == p) = true := by
  unfold named? at h
  obtain ⟨hbind, hsame⟩ := Option.filter_eq_some_iff.1 h
  obtain ⟨id, -, hget⟩ := Option.bind_eq_some_iff.1 hbind
  exact ⟨by rw [hindexed.named hget]; exact hget, hsame⟩

/-- A path leads where another spelling of it leads. -/
theorem index_get?_congr (graph : AssetGraph) {p q : Path} (h : (p == q) = true) :
    graph.index.get? p = graph.index.get? q :=
  graph.index.get?_congr h

/-- The index finds exactly the live assets. -/
theorem named?_eq_some_iff {graph : AssetGraph} (hindexed : graph.Indexed) {p : Path} {asset : Asset} :
    graph.named? p = some asset ↔
      graph.get? asset.id = some asset ∧ (asset.identity == p) = true := by
  refine ⟨get?_of_named? hindexed, fun ⟨hget, hsame⟩ => ?_⟩
  unfold named?
  rw [← graph.index_get?_congr hsame, hindexed.found hget]
  simp [hget, hsame]

/-- A live asset is found under every spelling of its identity. -/
theorem Indexed.named?_of_get? {graph : AssetGraph} (h : graph.Indexed) {id : AssetId} {asset : Asset}
    (hget : graph.get? id = some asset) {p : Path} (hsame : (asset.identity == p) = true) :
    graph.named? p = some asset := by
  refine (named?_eq_some_iff h).2 ⟨?_, hsame⟩
  rw [h.named hget]
  exact hget

/-- Live assets with the same identity are the same. -/
theorem Indexed.eq_of_same {graph : AssetGraph} (h : graph.Indexed) {a b : AssetId} {assetA assetB : Asset}
    (ha : graph.get? a = some assetA) (hb : graph.get? b = some assetB)
    (hsame : (assetA.identity == assetB.identity) = true) : a = b := by
  have hfound := h.found ha
  rw [graph.index_get?_congr hsame, h.found hb, Option.some.injEq] at hfound
  exact hfound.symm

end AssetGraph

/-! ## Changing an asset -/

/-- Whether a change of an asset leaves alone which module it is. -/
structure Asset.KeepsModule (change : Asset → Asset) : Prop where
  id : ∀ asset, (change asset).id = asset.id := by intro; rfl
  identity : ∀ asset, (change asset).identity = asset.identity := by intro; rfl
  kind : ∀ asset, (change asset).kind = asset.kind := by intro; rfl
  package : ∀ asset, (change asset).package = asset.package := by intro; rfl

/-- A compiled asset: it has the output of its compilation, and is not dirty. -/
def Asset.withOutput (unit : CompiledUnit) (asset : Asset) : Asset :=
  { asset with dirty := false, compiled := some unit.generated, hash := some unit.hash }

theorem Asset.keepsModule_withOutput (unit : CompiledUnit) : Asset.KeepsModule (Asset.withOutput unit) := {}

namespace AssetGraph

/-- Two changes of an asset are one. -/
theorem update_update (graph : AssetGraph) (id : AssetId) (first second : Asset → Asset) :
    (graph.update id first).update id second = graph.update id (second ∘ first) := by
  unfold update
  rw [List.modify_modify_eq, Option.map_comp_map]

/-- After a change an asset is as it was before, or it is the changed one. -/
theorem get?_update_cases {graph : AssetGraph} {id other : AssetId} {change : Asset → Asset}
    {asset : Asset} (hget : (graph.update id change).get? other = some asset) :
    (other ≠ id ∧ graph.get? other = some asset) ∨
      ∃ before, other = id ∧ graph.get? id = some before ∧ asset = change before := by
  by_cases hother : other = id
  · subst hother
    rw [get?_update_self] at hget
    obtain ⟨before, hbefore, rfl⟩ := Option.map_eq_some_iff.1 hget
    exact .inr ⟨before, rfl, hbefore, rfl⟩
  · rw [get?_update_of_ne hother] at hget
    exact .inl ⟨hother, hget⟩

/-- A change that leaves the module of an asset alone keeps a graph indexed. -/
theorem indexed_update {graph : AssetGraph} (h : graph.Indexed) (id : AssetId)
    {change : Asset → Asset} (hmodule : Asset.KeepsModule change) : (graph.update id change).Indexed := by
  constructor
  · intro other asset hget
    rcases get?_update_cases hget with ⟨-, hget⟩ | ⟨before, rfl, hbefore, rfl⟩
    · exact h.named hget
    · rw [hmodule.id, h.named hbefore]
  · intro other asset hget
    rw [index_update]
    rcases get?_update_cases hget with ⟨-, hget⟩ | ⟨before, rfl, hbefore, rfl⟩
    · exact h.found hget
    · rw [hmodule.identity, h.found hbefore]

/-- A change makes no asset live and removes none. -/
theorem isLive_update (graph : AssetGraph) (id other : AssetId) (change : Asset → Asset) :
    (graph.update id change).IsLive other ↔ graph.IsLive other := by
  rw [isLive_iff_isSome, isLive_iff_isSome]
  by_cases hother : other = id
  · subst hother
    rw [get?_update_self, Option.isSome_map]
  · rw [get?_update_of_ne hother]

/-! ## Inserting -/

/-- The new asset is found under the next id, and nothing else changes. -/
theorem get?_add (graph : AssetGraph) (identity : Path) (kind : Kind) (package : Package)
    (id : AssetId) :
    (graph.add identity kind package).get? id =
      if id.index = graph.size then some { id := ⟨graph.size⟩, identity, kind, package }
      else graph.get? id := by
  unfold get? add
  by_cases hid : id.index = graph.size
  · rw [if_pos hid]
    simp only [size] at hid
    simp [hid, size]
  · rw [if_neg hid]
    simp only [size] at hid
    by_cases hlt : id.index < graph.slots.length
    · rw [List.getElem?_append_left hlt]
    · rw [List.getElem?_eq_none (by simp; omega), List.getElem?_eq_none (by omega)]

/-- No asset is live under an id that was not given out yet. -/
theorem lt_size_of_get? {graph : AssetGraph} {id : AssetId} {asset : Asset}
    (h : graph.get? id = some asset) : id.index < graph.size := by
  obtain ⟨hlt, -⟩ := List.getElem?_eq_some_iff.1 (Option.join_eq_some_iff.1 h)
  exact hlt

/-- A new asset keeps a graph indexed. -/
theorem indexed_add {graph : AssetGraph} (h : graph.Indexed) {identity : Path}
    (hnew : graph.named? identity = none) (kind : Kind) (package : Package) :
    (graph.add identity kind package).Indexed := by
  constructor
  · intro id asset hget
    rw [get?_add] at hget
    split at hget
    · rename_i hid
      cases hget
      exact congrArg AssetId.mk hid.symm
    · exact h.named hget
  · intro id asset hget
    rw [get?_add] at hget
    split at hget
    · rename_i hid
      cases hget
      have hself := Path.Map.get?_put_self (Path.beq_refl identity) graph.index ⟨graph.size⟩
      exact hself.trans (congrArg some (congrArg AssetId.mk hid.symm))
    · have hne : (identity == asset.identity) = false := by
        cases hcase : identity == asset.identity with
        | false => rfl
        | true =>
          have hnamed := h.named?_of_get? hget (Path.beq_symm hcase)
          rw [hnew] at hnamed
          cases hnamed
      exact (Path.Map.get?_put_of_ne hne graph.index _).trans (h.found hget)

/-- Inserting keeps a graph indexed. -/
theorem indexed_insert {graph : AssetGraph} (h : graph.Indexed) (identity : Path) (kind : Kind)
    (package : Package) : (graph.insert identity kind package).2.Indexed := by
  unfold insert
  cases hnamed : graph.named? identity with
  | some asset => exact h
  | none => exact indexed_add h hnamed kind package

/-- Inserting leads to a live asset with the identity: one that was there, or the new one. -/
theorem insert_cases {graph : AssetGraph} (h : graph.Indexed) (identity : Path) (kind : Kind)
    (package : Package) :
    (∃ id asset, graph.get? id = some asset ∧ (asset.identity == identity) = true ∧
      graph.insert identity kind package = ((id, false), graph)) ∨
    (graph.named? identity = none ∧
      graph.insert identity kind package = ((⟨graph.size⟩, true), graph.add identity kind package)) := by
  unfold insert
  cases hnamed : graph.named? identity with
  | some asset =>
    obtain ⟨hget, hsame⟩ := get?_of_named? h hnamed
    exact .inl ⟨asset.id, asset, hget, hsame, rfl⟩
  | none => exact .inr ⟨rfl, rfl⟩

/-- Live assets stay as they are when another one is inserted. -/
theorem get?_insert_of_get? {graph : AssetGraph} {id : AssetId} {asset : Asset}
    (hget : graph.get? id = some asset) (identity : Path) (kind : Kind) (package : Package) :
    (graph.insert identity kind package).2.get? id = some asset := by
  unfold insert
  split
  · exact hget
  · have hlt := lt_size_of_get? hget
    rw [get?_add, if_neg (by omega), hget]

/-! ## Aliases -/

/-- An alias changes no asset. -/
theorem get?_makeAlias (graph : AssetGraph) (p : Path) (owner id : AssetId) :
    (graph.makeAlias p owner).2.get? id = graph.get? id := by
  unfold makeAlias
  split <;> rfl

theorem size_makeAlias (graph : AssetGraph) (p : Path) (owner : AssetId) :
    (graph.makeAlias p owner).2.size = graph.size := by
  unfold makeAlias
  split <;> rfl

/-- An alias keeps a graph indexed. -/
theorem indexed_makeAlias {graph : AssetGraph} (h : graph.Indexed) (p : Path) (owner : AssetId) :
    (graph.makeAlias p owner).2.Indexed := by
  refine ⟨fun hget => h.named (by rwa [get?_makeAlias] at hget), fun {id asset} hget => ?_⟩
  rw [get?_makeAlias] at hget
  unfold makeAlias
  cases hnamed : graph.named? p with
  | some other => exact h.found hget
  | none =>
    have hne : (p == asset.identity) = false := by
      cases hcase : p == asset.identity with
      | false => rfl
      | true =>
        have hsome := h.named?_of_get? hget (Path.beq_symm hcase)
        rw [hnamed] at hsome
        cases hsome
    exact (Path.Map.get?_put_of_ne hne graph.index owner).trans (h.found hget)

/-! ## Removing -/

theorem get?_remove_of_ne {id other : AssetId} (h : other ≠ id) (graph : AssetGraph) :
    (graph.remove id).2.get? other = graph.get? other := by
  have hne : id.index ≠ other.index := fun heq => h (congrArg AssetId.mk heq.symm)
  unfold remove
  split
  · rfl
  · simp [get?, hne]

/-- There is nothing to remove where no asset is live. -/
theorem remove_of_get?_none {graph : AssetGraph} {id : AssetId} (h : graph.get? id = none) :
    graph.remove id = ([], graph) := by
  simp [remove, h]

/-- After a removal the paths that led to the asset lead nowhere, and all others lead where they led. -/
theorem index_remove_of_isLive {graph : AssetGraph} {id : AssetId} (h : graph.IsLive id) (q : Path) :
    (graph.remove id).2.index.get? q = (graph.index.get? q).filter (· != id) := by
  obtain ⟨asset, hget⟩ := h
  simp only [remove, hget]
  exact Path.Map.get?_filter _ _ _

/-- A removed asset releases exactly the paths that led to it. -/
theorem released_iff_of_isLive {graph : AssetGraph} {id : AssetId} (h : graph.IsLive id) (q : Path) :
    (∃ p ∈ (graph.remove id).1, (p == q) = true) ↔ graph.index.get? q = some id := by
  obtain ⟨asset, hget⟩ := h
  simp only [remove, hget, pathsOf]
  rw [Path.Map.exists_path_iff, Path.Map.has, Path.Map.get?_filter]
  cases graph.index.get? q with
  | none => simp
  | some other => by_cases hother : other = id <;> simp [Option.filter, hother]

theorem size_remove (graph : AssetGraph) (id : AssetId) :
    (graph.remove id).2.size = graph.size := by
  unfold remove
  split
  · rfl
  · simp [size]

/-- Removing keeps a graph indexed. -/
theorem indexed_remove {graph : AssetGraph} (h : graph.Indexed) (id : AssetId) :
    (graph.remove id).2.Indexed := by
  have hbefore : ∀ {other : AssetId} {asset : Asset}, (graph.remove id).2.get? other = some asset →
      other ≠ id ∧ graph.get? other = some asset := by
    intro other asset hget
    have hne : other ≠ id := by
      rintro rfl
      rw [get?_remove_self] at hget
      cases hget
    exact ⟨hne, by rwa [get?_remove_of_ne hne] at hget⟩
  refine ⟨fun hget => h.named (hbefore hget).2, fun {other asset} hget => ?_⟩
  obtain ⟨hne, hget'⟩ := hbefore hget
  unfold remove
  split
  · exact h.found hget'
  · have hkeep : (other != id) = true := by simpa using hne
    rw [Path.Map.get?_filter, h.found hget']
    simp [Option.filter, hkeep]

/-! ## Live assets -/

/-- The live assets are those that are found under their ids. -/
theorem mem_live_iff {graph : AssetGraph} (h : graph.Indexed) {asset : Asset} :
    asset ∈ graph.live ↔ graph.get? asset.id = some asset := by
  constructor
  · intro hmem
    obtain ⟨slot, hslot, rfl⟩ := List.mem_filterMap.1 hmem
    obtain ⟨i, hi, hslot⟩ := List.getElem_of_mem hslot
    have hget : graph.get? ⟨i⟩ = some asset := by
      rw [get?, List.getElem?_eq_getElem hi, hslot]
      rfl
    rw [h.named hget]
    exact hget
  · intro hget
    exact List.mem_filterMap.2 ⟨some asset, List.mem_of_getElem? (Option.join_eq_some_iff.1 hget), rfl⟩

theorem Indexed.mem_live {graph : AssetGraph} (h : graph.Indexed) {id : AssetId} {asset : Asset}
    (hget : graph.get? id = some asset) : asset ∈ graph.live := by
  apply (mem_live_iff h).2
  rw [h.named hget]
  exact hget

/-- No identity occurs twice among the live assets. -/
theorem pairwise_live {graph : AssetGraph} (h : graph.Indexed) :
    graph.live.Pairwise fun a b => a.identity ≠ b.identity := by
  unfold live
  rw [List.pairwise_filterMap, List.pairwise_iff_getElem]
  intro i j hi hj hlt a ha b hb hsame
  have hfound : ∀ {k : Nat} (hk : k < graph.slots.length) {asset : Asset},
      id graph.slots[k] = some asset → graph.get? ⟨k⟩ = some asset := by
    intro k hk asset hslot
    rw [get?, List.getElem?_eq_getElem hk]
    exact congrArg some hslot ▸ rfl
  have heq := h.eq_of_same (hfound hi ha) (hfound hj hb) (by rw [hsame]; exact Path.beq_refl _)
  exact Nat.ne_of_lt hlt (congrArg AssetId.index heq)

/-- The orphans are the live assets that belong to no bundle. -/
theorem mem_orphans_iff {graph : AssetGraph} (h : graph.Indexed) {id : AssetId} :
    id ∈ graph.orphans ↔ ∃ asset, graph.get? id = some asset ∧ asset.home = none := by
  unfold orphans
  constructor
  · intro hmem
    obtain ⟨asset, hasset, rfl⟩ := List.mem_map.1 hmem
    obtain ⟨hlive, hhome⟩ := List.mem_filter.1 hasset
    exact ⟨asset, (mem_live_iff h).1 hlive, by simpa using hhome⟩
  · rintro ⟨asset, hget, hhome⟩
    have hmem : asset ∈ graph.live.filter fun asset => asset.home.isNone :=
      List.mem_filter.2 ⟨h.mem_live hget, by simp [hhome]⟩
    exact List.mem_map.2 ⟨asset, hmem, h.named hget⟩

end AssetGraph
end ModuleBundler
