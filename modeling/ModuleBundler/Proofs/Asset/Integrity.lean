import ModuleBundler.Proofs.Asset.Indexing

/-!
# What every run of a graph keeps

A graph is changed by three operations: an asset is made, a path becomes an alias, an
asset is removed.  They share one index, in which a later entry takes the place of an
earlier one, and an alias may be given to any id at all: to one that was removed, or
to one that nobody has yet.  Whatever is done to the empty graph, in whatever order,
live assets are found under their ids and under their identities, no id is given
twice, and a removal releases what led to the asset and nothing else.

Main results:

- Theorem {lit}`AssetGraph.makeAlias_eq_false_iff`: just the identities of live assets are refused.
- Theorem {lit}`AssetGraph.owner?_remove`: a removal takes nothing from other assets.
- Theorem {lit}`AssetGraph.Ledger.apply_kept`: each operation keeps the account of a graph.
- Theorem {lit}`AssetGraph.run_integrity`: what holds of every run.
-/

namespace ModuleBundler
namespace AssetGraph

/-! ## Single operations -/

/-- An alias is refused just if the path is the identity of a live asset. -/
theorem makeAlias_eq_false_iff {graph : AssetGraph} (h : graph.Indexed) (p : Path) (owner : AssetId) :
    (graph.makeAlias p owner).1 = false ↔ ∃ asset ∈ graph.live, (asset.identity == p) = true := by
  unfold makeAlias
  cases hnamed : graph.named? p with
  | some asset =>
    obtain ⟨hget, hsame⟩ := get?_of_named? h hnamed
    exact iff_of_true rfl ⟨asset, h.mem_live hget, hsame⟩
  | none =>
    refine iff_of_false Bool.noConfusion ?_
    rintro ⟨asset, hmem, hsame⟩
    rw [h.named?_of_get? ((mem_live_iff h).1 hmem) hsame] at hnamed
    cases hnamed

/-- A path leads to a live asset just if the index says so. -/
theorem owner?_eq_some_iff {graph : AssetGraph} {id : AssetId} (h : graph.IsLive id) (p : Path) :
    graph.owner? p = some id ↔ graph.index.get? p = some id := by
  unfold owner?
  rw [Option.filter_eq_some_iff]
  exact and_iff_left (isLive_iff_isSome.1 h)

/-- Once a live asset is removed, the paths that led to it lead nowhere, and all others lead where they
led: also a path whose entry in the index is an id that is not live. -/
theorem owner?_remove {graph : AssetGraph} {id : AssetId} (h : graph.IsLive id) (p : Path) :
    (graph.remove id).2.owner? p = if graph.owner? p = some id then none else graph.owner? p := by
  split
  case isTrue hleads =>
    have hget := (owner?_eq_some_iff h p).1 hleads
    simp [owner?, index_remove_of_isLive h, hget, Option.filter]
  case isFalse hother =>
    rw [owner?_eq_some_iff h] at hother
    unfold owner?
    rw [index_remove_of_isLive h]
    cases hget : graph.index.get? p with
    | none => rfl
    | some other =>
      have hne : other ≠ id := fun heq => hother (by rw [hget, heq])
      simp [Option.filter, hne, get?_remove_of_ne hne]

/-- No path is released twice. -/
theorem pairwise_released (graph : AssetGraph) (id : AssetId) :
    (graph.remove id).1.Pairwise fun p q => (p == q) = false := by
  unfold remove
  split
  · exact .nil
  · exact List.pairwise_map.2 (graph.index.filter fun _ owner => owner == id).apart

/-- The identities of live assets are apart, in all their spellings. -/
theorem pairwise_live_beq {graph : AssetGraph} (h : graph.Indexed) :
    graph.live.Pairwise fun a b => (a.identity == b.identity) = false := by
  have hlive : graph.live.Pairwise fun a b => a ∈ graph.live ∧ b ∈ graph.live ∧ a.identity ≠ b.identity :=
    List.Pairwise.and_mem.1 (pairwise_live h)
  refine hlive.imp fun {a b} ⟨ha, hb, hne⟩ => ?_
  cases hsame : a.identity == b.identity with
  | false => rfl
  | true =>
    -- both are found under one id, so they are one asset
    have hgetA := (mem_live_iff h).1 ha
    have hgetB := (mem_live_iff h).1 hb
    rw [h.eq_of_same hgetA hgetB hsame, hgetB, Option.some.injEq] at hgetA
    exact absurd (congrArg Asset.identity hgetA.symm) hne

/-! ## Runs -/

/-- What is done to a graph. -/
inductive Operation where
  | insert (identity : Path) (kind : Kind) (package : Package)
  | makeAlias (p : Path) (owner : AssetId)
  | remove (id : AssetId)

/-- A graph with the ids that were given to new assets so far, in order. -/
structure Ledger where
  graph : AssetGraph
  issued : List AssetId

namespace Ledger

/-- Do one thing to a graph; the id of a new asset is written down. -/
def apply (ledger : Ledger) : Operation → Ledger
  | .insert identity kind package =>
    let ((id, created), graph) := ledger.graph.insert identity kind package
    { graph, issued := if created then ledger.issued ++ [id] else ledger.issued }
  | .makeAlias p owner => { ledger with graph := (ledger.graph.makeAlias p owner).2 }
  | .remove id => { ledger with graph := (ledger.graph.remove id).2 }

/-- The account of a graph: its assets are found, and ids are given out by counting. -/
structure Kept (ledger : Ledger) : Prop where
  indexed : ledger.graph.Indexed
  counted : ledger.issued = (List.range ledger.graph.size).map AssetId.mk

/-- Each operation keeps the account. -/
theorem apply_kept {ledger : Ledger} (h : ledger.Kept) (operation : Operation) :
    (ledger.apply operation).Kept := by
  cases operation with
  | insert identity kind package =>
    rcases insert_cases h.indexed identity kind package with ⟨id, asset, -, -, hinsert⟩ | ⟨hnew, hinsert⟩
    · simp only [apply, hinsert]
      exact h
    · simp only [apply, hinsert]
      refine ⟨indexed_add h.indexed hnew kind package, ?_⟩
      have hsize : (ledger.graph.add identity kind package).size = ledger.graph.size + 1 := by
        simp [add, size]
      simp [hsize, h.counted, List.range_succ]
  | makeAlias p owner =>
    exact ⟨indexed_makeAlias h.indexed p owner, by simpa [apply, size_makeAlias] using h.counted⟩
  | remove id =>
    exact ⟨indexed_remove h.indexed id, by simpa [apply, size_remove] using h.counted⟩

/-- An account shows no id twice. -/
theorem Kept.nodup {ledger : Ledger} (h : ledger.Kept) : ledger.issued.Nodup := by
  rw [h.counted]
  exact List.pairwise_map.2 (List.nodup_range.imp fun hne heq => hne (congrArg AssetId.index heq))

end Ledger

/-- What is left after a list of operations on the empty graph. -/
def run (operations : List Operation) : Ledger :=
  operations.foldl Ledger.apply ⟨empty, []⟩

/-- Every run keeps the account. -/
theorem run_kept (operations : List Operation) : (run operations).Kept := by
  suffices h : ∀ {ledger : Ledger}, ledger.Kept → (operations.foldl Ledger.apply ledger).Kept from
    h ⟨indexed_empty, rfl⟩
  induction operations with
  | nil => exact id
  | cons operation rest ih => exact fun h => ih (Ledger.apply_kept h operation)

/-- The order of a graph with the ids given out so far: what holds of its assets, of its ids, of the next
alias and of the next removal. -/
structure Integrity (graph : AssetGraph) (issued : List AssetId) : Prop where
  /-- A live asset is in the slot that its id names, and its identity leads to it. -/
  found : ∀ (i : Nat) (asset : Asset), graph.slots[i]? = some (some asset) →
    asset.id = ⟨i⟩ ∧ graph.index.get? asset.identity = some asset.id
  /-- No two live assets have the same identity. -/
  distinct : graph.live.Pairwise fun a b => (a.identity == b.identity) = false
  /-- No id is given out twice. -/
  fresh : issued.Nodup
  /-- Just the identities of live assets cannot become aliases. -/
  refused : ∀ p owner,
    (graph.makeAlias p owner).1 = false ↔ ∃ asset ∈ graph.live, (asset.identity == p) = true
  /-- Exactly the paths that lead to a live asset are released with it, each one once. -/
  released : ∀ id, graph.IsLive id →
    (graph.remove id).1.Pairwise (fun p q => (p == q) = false) ∧
      ∀ p, (∃ q ∈ (graph.remove id).1, (q == p) = true) ↔ graph.owner? p = some id
  /-- They lead nowhere then, and every other path leads where it led. -/
  rerouted : ∀ id, graph.IsLive id → ∀ p,
    (graph.remove id).2.owner? p = if graph.owner? p = some id then none else graph.owner? p

/-- Whatever is done to the empty graph leaves it in order. -/
theorem run_integrity (operations : List Operation) :
    Integrity (run operations).graph (run operations).issued := by
  have hkept := run_kept operations
  have hindexed := hkept.indexed
  constructor
  case found =>
    intro i asset hslot
    have hget : (run operations).graph.get? ⟨i⟩ = some asset := by simp [get?, hslot]
    exact ⟨hindexed.named hget, by rw [hindexed.named hget]; exact hindexed.found hget⟩
  case distinct => exact pairwise_live_beq hindexed
  case fresh => exact hkept.nodup
  case refused => exact makeAlias_eq_false_iff hindexed
  case released =>
    intro id hlive
    refine ⟨pairwise_released _ id, fun p => ?_⟩
    rw [released_iff_of_isLive hlive, owner?_eq_some_iff hlive]
  case rerouted => exact fun id hlive p => owner?_remove hlive p

/-- A path may be the alias of an id that nobody has yet; it leads to the asset that gets the id. -/
example :
    let ledger := run [.insert ⟨"/src/a.css"⟩ .css {}, .remove ⟨0⟩, .makeAlias ⟨"/src/b.css"⟩ ⟨1⟩,
      .insert ⟨"/src/c.css"⟩ .css {}]
    ledger.graph.owner? ⟨"/src/b.css"⟩ = some ⟨1⟩ ∧ ledger.graph.owner? ⟨"/src/a.css"⟩ = none := by
  decide +kernel

end AssetGraph
end ModuleBundler
