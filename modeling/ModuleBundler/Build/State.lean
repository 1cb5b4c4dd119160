import ModuleBundler.Asset.Graph
import ModuleBundler.Bundle.Packaging

/-!
# The state of a build

What a build remembers from one pass to the next: its assets, those of them that
wait to be loaded, the asset it starts from and the fingerprints of the bundles
that were written.

Main results:

- Theorem {lit}`State.mem_queue_notify`: an accepted change waits in the queue.
- Theorem {lit}`State.nodup_queue_enqueue`: nothing waits twice.
- Theorem {lit}`State.claim_eq_none_iff`: exactly the live assets that are dirty can be claimed.
-/

namespace ModuleBundler
namespace Build

/-- What a build remembers. -/
structure State where
  graph : AssetGraph := .empty
  /-- The assets that wait to be loaded, each of them once, in the order of arrival. -/
  queue : List AssetId := []
  /-- The asset that the build starts from. -/
  start : Option AssetId := none
  /-- The fingerprints of the bundles of the latest successful pass. -/
  fingerprints : Option Packaging.Fingerprints := none

namespace State

/-! ## The queue -/

/-- Let an asset wait to be loaded. -/
def enqueue (state : State) (id : AssetId) : State :=
  { state with queue := includeLast id state.queue }

/-- Take note of a change of a file: the asset that the path leads to has to wait. -/
def notify (state : State) (p : Path) : Option AssetId × State :=
  match state.graph.owner? p with
  | some id => (some id, state.enqueue id)
  | none => (none, state)

/-- The identities of the waiting assets. -/
def waiting (state : State) : List Path :=
  state.queue.filterMap fun id => (state.graph.get? id).map Asset.identity

/-- Take everything off the queue.  The live assets among what was taken are the next batch; if
asked to, they are made dirty. -/
def drain (state : State) (invalidate : Bool) : List AssetId × State :=
  let batch := state.queue.filter fun id => (state.graph.get? id).isSome
  let graph :=
    if invalidate then batch.foldl (fun graph id => graph.update id Asset.invalidate) state.graph
    else state.graph
  (batch, { state with graph, queue := [] })

/-! ## Loading -/

/-- Take a dirty asset to load it; from then on it is not dirty. -/
def claim (state : State) (id : AssetId) : Option (Asset × State) :=
  match state.graph.get? id with
  | some asset =>
    if asset.dirty then
      some (asset, { state with graph := state.graph.update id fun a => { a with dirty := false } })
    else none
  | none => none

/-- Give an asset back that could not be loaded: it is dirty again, and waits. -/
def giveBack (state : State) (id : AssetId) : State :=
  { state with graph := state.graph.update id fun a => { a with dirty := true } }.enqueue id

/-- Keep the output of a compilation. -/
def keep (state : State) (id : AssetId) (unit : CompiledUnit) : State :=
  { state with
    graph := state.graph.update id fun a =>
      { a with compiled := some unit.generated, hash := some unit.hash } }

/-- Record an import of an asset and the asset that it leads to. -/
def connect (state : State) (id : AssetId) (dep : Dependency) (target : AssetId) : State :=
  { state with
    graph := state.graph.update id fun a => (a.connect dep.specifier target).declare dep }

/-! ## The end of a pass -/

/-- Remove the assets that belong to no bundle.  Their paths are released. -/
def unload (state : State) : List Path × State :=
  state.graph.orphans.foldl
    (fun (released, state) id =>
      let (paths, graph) := state.graph.remove id
      (released ++ paths, { state with graph, queue := state.queue.filter (· != id) }))
    ([], state)

/-! ### Laws -/

theorem nodup_queue_enqueue {state : State} (h : state.queue.Nodup) (id : AssetId) :
    (state.enqueue id).queue.Nodup :=
  nodup_includeLast h id

theorem mem_queue_notify {state : State} {p : Path} {id : AssetId}
    (h : (state.notify p).1 = some id) : id ∈ (state.notify p).2.queue := by
  unfold notify at h ⊢
  split at h
  · simp only [Option.some.injEq] at h
    subst h
    exact mem_includeLast _ _
  · simp at h

theorem claim_eq_none_iff {state : State} {id : AssetId} :
    state.claim id = none ↔ ∀ asset, state.graph.get? id = some asset → asset.dirty = false := by
  unfold claim
  cases h : state.graph.get? id with
  | none => simp
  | some asset => cases hd : asset.dirty <;> simp [hd]

@[simp]
theorem queue_drain (state : State) (invalidate : Bool) :
    (state.drain invalidate).2.queue = [] := rfl

end State
end Build
end ModuleBundler
