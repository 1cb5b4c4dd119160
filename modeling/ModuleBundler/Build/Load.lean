import ModuleBundler.Build.Work

/-!
# Loading

An asset is loaded together with all it imports.  Whoever finds an asset dirty
claims it, so that the other importers pass it by; the asset is then made ready,
and its children are loaded in turn.  An asset that cannot be loaded, or one of
whose children cannot, is given back: it is dirty again and waits in the queue.

A failure that shows a place in a source is late: it is settled when all other
loading is done, and so are the failures of the importers that wait for it.

The recursion goes as deep as a chain of claimed assets is long, which depends on
how many modules can be found.  That number is given as {lit}`depth`; the result
is {lit}`none` if it was too small.

Main results:

- Theorem {lit}`Load.load_of_clean`: an asset that is not dirty is passed by.
- Theorem {lit}`Load.each_append`: assets are loaded one after another.
- Theorem {lit}`Outcome.failure?_and`: the first failure counts.
-/

namespace ModuleBundler
namespace Build

/-- What came of loading. -/
structure Outcome where
  /-- The first failure. -/
  failure? : Option Failure := none
  /-- The assets that are still to be given back, in that order. -/
  late : List AssetId := []

namespace Outcome

/-- Everything was loaded. -/
def loaded : Outcome :=
  {}

/-- What came of loading two things. -/
def and (first second : Outcome) : Outcome where
  failure? := first.failure? <|> second.failure?
  late := first.late ++ second.late

@[simp]
theorem loaded_and (outcome : Outcome) : loaded.and outcome = outcome := by
  simp [loaded, and]

@[simp]
theorem and_loaded (outcome : Outcome) : outcome.and loaded = outcome := by
  cases outcome with
  | mk failure? late => cases failure? <;> simp [loaded, and]

theorem and_assoc (a b c : Outcome) : (a.and b).and c = a.and (b.and c) := by
  cases a with
  | mk failure? late => cases failure? <;> simp [and]

theorem failure?_and (first second : Outcome) :
    (first.and second).failure? = (first.failure? <|> second.failure?) := rfl

end Outcome

namespace Load

variable {κ π σ : Type}

/-- Give an asset back at once. -/
def giveBack (work : Work σ) (id : AssetId) : Work σ :=
  { work with state := work.state.giveBack id }

/-- The outcome for an asset whose children were loaded with the given outcome. -/
def conclude (id : AssetId) (children : Outcome) (work : Work σ) : Outcome × Work σ :=
  match children.failure?, children.late with
  | none, _ => (.loaded, work)
  | some failure, [] => (⟨some failure, []⟩, giveBack work id)
  | some failure, late => (⟨some failure, late ++ [id]⟩, work)

/-- Load assets one after another, each of them also when another one has failed. -/
def each (load : AssetId → Work σ → Option (Outcome × Work σ)) :
    List AssetId → Work σ → Option (Outcome × Work σ)
  | [], work => some (.loaded, work)
  | id :: rest, work =>
    match load id work with
    | none => none
    | some (outcome, work) =>
      match each load rest work with
      | none => none
      | some (more, work) => some (outcome.and more, work)

/-- Take a dirty asset and announce it. -/
def claim (work : Work σ) (id : AssetId) : Option (Asset × Work σ) :=
  (work.state.claim id).map fun (asset, state) =>
    (asset, { work with state }.tell (.building asset.identity.basename))

/-- Load an asset and all it imports. -/
def load (tools : Toolset κ π σ) (types : AssetTypes κ) :
    (depth : Nat) → AssetId → Work σ → Option (Outcome × Work σ)
  | 0, _, _ => none
  | depth + 1, id, work =>
    match claim work id with
    | none => some (.loaded, work)
    | some (asset, work) =>
      match work.prepare tools types id asset with
      | (.failed failure, work) => some (⟨some failure, []⟩, giveBack work id)
      | (.late failure, work) => some (⟨some failure, [id]⟩, work)
      | (.ready children, work) =>
        match each (load tools types depth) children work with
        | none => none
        | some (outcome, work) => some (conclude id outcome work)

/-- Load a batch of assets, and settle what is late. -/
def batch (tools : Toolset κ π σ) (types : AssetTypes κ) (depth : Nat) (ids : List AssetId)
    (work : Work σ) : Option (Option Failure × Work σ) :=
  match each (load tools types depth) ids work with
  | none => none
  | some (outcome, work) => some (outcome.failure?, outcome.late.foldl giveBack work)

/-! ### Laws -/

theorem claim_eq_none_iff {work : Work σ} {id : AssetId} :
    claim work id = none ↔
      ∀ asset, work.state.graph.get? id = some asset → asset.dirty = false := by
  simp [claim, State.claim_eq_none_iff]

theorem load_of_clean (tools : Toolset κ π σ) (types : AssetTypes κ) (depth : Nat) {id : AssetId}
    {work : Work σ} (h : ∀ asset, work.state.graph.get? id = some asset → asset.dirty = false) :
    load tools types (depth + 1) id work = some (.loaded, work) := by
  simp [load, claim_eq_none_iff.2 h]

theorem each_append (load : AssetId → Work σ → Option (Outcome × Work σ)) (ids more : List AssetId)
    (work : Work σ) :
    each load (ids ++ more) work =
      match each load ids work with
      | none => none
      | some (outcome, work) =>
        (each load more work).map fun result => (outcome.and result.1, result.2) := by
  induction ids generalizing work with
  | nil => cases h : each load more work <;> simp [each, h]
  | cons id rest ih =>
    simp only [List.cons_append, each]
    cases h : load id work with
    | none => rfl
    | some result =>
      simp only [ih]
      cases hr : each load rest result.2 with
      | none => rfl
      | some next =>
        cases hm : each load more next.2 with
        | none => simp [hm]
        | some last => simp [hm, Outcome.and_assoc]

/-- More depth does not change a result. -/
theorem load_succ (tools : Toolset κ π σ) (types : AssetTypes κ) :
    ∀ {depth : Nat} {id : AssetId} {work : Work σ} {result : Outcome × Work σ},
      load tools types depth id work = some result →
        load tools types (depth + 1) id work = some result := by
  intro depth
  induction depth with
  | zero => intro id work result h; simp [load] at h
  | succ depth ih =>
    have each_succ : ∀ (ids : List AssetId) {work : Work σ} {result : Outcome × Work σ},
        each (load tools types depth) ids work = some result →
          each (load tools types (depth + 1)) ids work = some result := by
      intro ids
      induction ids with
      | nil => intro work result h; exact h
      | cons id rest ihr =>
        intro work result h
        simp only [each] at h ⊢
        cases hl : load tools types depth id work with
        | none => simp [hl] at h
        | some first =>
          simp only [hl] at h
          simp only [ih hl]
          cases hr : each (load tools types depth) rest first.2 with
          | none => simp [hr] at h
          | some second =>
            simp only [hr] at h
            simp only [ihr hr, h]
    intro id work result h
    rw [load] at h ⊢
    split at h
    · exact h
    · split at h
      · exact h
      · exact h
      · rename_i children work heq
        cases he : each (load tools types depth) children work with
        | none => simp [he] at h
        | some next =>
          simp only [he] at h
          simp only [each_succ children he, h]

end Load
end Build
end ModuleBundler
