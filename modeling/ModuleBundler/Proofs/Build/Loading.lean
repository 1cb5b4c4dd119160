import ModuleBundler.Build.Pass

/-!
# What loading preserves

Loading claims assets, makes them ready and gives them back, again and again and
in depth.  An invariant of these steps is stated with two lists: the assets that
are still to be loaded, and those that are late and will be given back in the
end.  What every step preserves is preserved by loading a whole batch.

Main results:

- Theorem {lit}`Load.late_of_failure?_none`: where nothing has failed, nothing is given back.
- Theorem {lit}`Load.load_invariant`: loading an asset preserves an invariant.
- Theorem {lit}`Load.batch_invariant`: loading a batch preserves an invariant.
- Theorem {lit}`Load.load_succeeds`: loading does not fail if every asset becomes ready.
- Theorem {lit}`Pass.drain_invariant`: loading all batches preserves an invariant.
- Theorems {lit}`Pass.gather_cases`, {lit}`Pass.assemble_cases`, {lit}`Pass.run_cases`: what a pass can come to.
-/

namespace ModuleBundler
namespace Build
namespace Outcome

/-! ## Outcomes -/

/-- Where nothing has failed, nothing is to be given back. -/
def Honest (outcome : Outcome) : Prop :=
  outcome.failure? = none → outcome.late = []

theorem honest_loaded : loaded.Honest :=
  fun _ => rfl

theorem honest_failed (failure : Failure) (late : List AssetId) : Honest ⟨some failure, late⟩ :=
  fun h => by cases h

/-- Two things are loaded without failure if both of them are. -/
theorem failure?_and_eq_none_iff {first second : Outcome} :
    (first.and second).failure? = none ↔ first.failure? = none ∧ second.failure? = none := by
  rw [failure?_and, Option.orElse_eq_orElse, Option.orElse_eq_or, Option.or_eq_none_iff]

theorem honest_and {first second : Outcome} (hfirst : first.Honest) (hsecond : second.Honest) :
    (first.and second).Honest := by
  intro h
  obtain ⟨hnone, hnone'⟩ := failure?_and_eq_none_iff.1 h
  simp [Outcome.and, hfirst hnone, hsecond hnone']

end Outcome

namespace Load

variable {κ π σ : Type}

/-! ## How loading goes -/

/-- Several assets are loaded by loading the first one and then the others. -/
theorem each_cons_cases {load : AssetId → Work σ → Option (Outcome × Work σ)} {id : AssetId}
    {rest : List AssetId} {work next : Work σ} {outcome : Outcome}
    (h : each load (id :: rest) work = some (outcome, next)) :
    ∃ first between more, load id work = some (first, between) ∧
      each load rest between = some (more, next) ∧ outcome = first.and more := by
  unfold each at h
  cases hfirst : load id work with
  | none => simp [hfirst] at h
  | some result =>
    obtain ⟨first, between⟩ := result
    cases hmore : each load rest between with
    | none => simp [hfirst, hmore] at h
    | some result =>
      obtain ⟨more, last⟩ := result
      simp only [hfirst, hmore, Option.some.injEq, Prod.mk.injEq] at h
      obtain ⟨rfl, rfl⟩ := h
      exact ⟨first, between, more, rfl, hmore, rfl⟩

/-- The courses that loading an asset can take. -/
inductive Course (tools : Toolset κ π σ) (types : AssetTypes κ) (depth : Nat) (id : AssetId) (work : Work σ) :
    Outcome → Work σ → Prop where
  | passed : claim work id = none → Course tools types depth id work .loaded work
  | failed {asset : Asset} {claimed prepared : Work σ} {failure : Failure} :
      claim work id = some (asset, claimed) →
        claimed.prepare tools types id asset = (.failed failure, prepared) →
          Course tools types depth id work ⟨some failure, []⟩ (giveBack prepared id)
  | late {asset : Asset} {claimed prepared : Work σ} {failure : Failure} :
      claim work id = some (asset, claimed) →
        claimed.prepare tools types id asset = (.late failure, prepared) →
          Course tools types depth id work ⟨some failure, [id]⟩ prepared
  | ready {asset : Asset} {claimed prepared loaded : Work σ} {children : List AssetId} {more : Outcome} :
      claim work id = some (asset, claimed) →
        claimed.prepare tools types id asset = (.ready children, prepared) →
          each (load tools types depth) children prepared = some (more, loaded) →
            Course tools types depth id work (conclude id more loaded).1 (conclude id more loaded).2

theorem load_course {tools : Toolset κ π σ} {types : AssetTypes κ} {depth : Nat} {id : AssetId}
    {work next : Work σ} {outcome : Outcome}
    (h : load tools types (depth + 1) id work = some (outcome, next)) :
    Course tools types depth id work outcome next := by
  unfold load at h
  cases hclaim : claim work id with
  | none =>
    rw [hclaim] at h
    cases h
    exact .passed hclaim
  | some found =>
    obtain ⟨asset, claimed⟩ := found
    simp only [hclaim] at h
    cases hprepare : claimed.prepare tools types id asset with
    | mk preparation prepared =>
      rw [hprepare] at h
      cases preparation with
      | failed failure =>
        cases h
        exact .failed hclaim hprepare
      | late failure =>
        cases h
        exact .late hclaim hprepare
      | ready children =>
        dsimp only at h
        cases hmore : each (load tools types depth) children prepared with
        | none => simp [hmore] at h
        | some result =>
          obtain ⟨more, loaded⟩ := result
          have hcourse : Course tools types depth id work _ _ := .ready hclaim hprepare hmore
          simp only [hmore, Option.some.injEq] at h
          rwa [h] at hcourse

/-- A batch is loaded, and what is late is given back. -/
theorem batch_cases {tools : Toolset κ π σ} {types : AssetTypes κ} {depth : Nat} {ids : List AssetId}
    {work next : Work σ} {failure? : Option Failure}
    (h : batch tools types depth ids work = some (failure?, next)) :
    ∃ outcome loaded, each (load tools types depth) ids work = some (outcome, loaded) ∧
      failure? = outcome.failure? ∧ next = outcome.late.foldl giveBack loaded := by
  unfold batch at h
  split at h
  · cases h
  · rename_i outcome loaded heach
    cases h
    exact ⟨outcome, loaded, heach, rfl, rfl⟩

/-- An asset that is loaded without failure has children that were. -/
theorem children_of_conclude {id : AssetId} {children : Outcome} {work : Work σ}
    (hnone : (conclude id children work).1.failure? = none) :
    children.failure? = none ∧ (conclude id children work).2 = work := by
  obtain ⟨failure?, late⟩ := children
  cases failure? with
  | none => exact ⟨rfl, rfl⟩
  | some failure =>
    -- the failure of a child becomes that of the asset, whether it is late or not
    cases late with
    | nil => cases hnone
    | cons first rest => cases hnone

/-! ## What is late -/

theorem honest_conclude (id : AssetId) (children : Outcome) (work : Work σ) :
    (conclude id children work).1.Honest := by
  unfold conclude
  split
  · exact Outcome.honest_loaded
  · exact Outcome.honest_failed _ _
  · exact Outcome.honest_failed _ _

theorem honest_each {load : AssetId → Work σ → Option (Outcome × Work σ)}
    (hload : ∀ {id : AssetId} {work next : Work σ} {outcome : Outcome},
      load id work = some (outcome, next) → outcome.Honest)
    (ids : List AssetId) {work next : Work σ} {outcome : Outcome}
    (h : each load ids work = some (outcome, next)) : outcome.Honest := by
  induction ids generalizing work next outcome with
  | nil =>
    cases h
    exact Outcome.honest_loaded
  | cons id rest ih =>
    obtain ⟨first, between, more, hfirst, hmore, rfl⟩ := each_cons_cases h
    exact Outcome.honest_and (hload hfirst) (ih hmore)

/-- Where nothing has failed, nothing is given back. -/
theorem late_of_failure?_none {tools : Toolset κ π σ} {types : AssetTypes κ} {depth : Nat} {id : AssetId}
    {work next : Work σ} {outcome : Outcome}
    (h : load tools types depth id work = some (outcome, next)) : outcome.Honest := by
  cases depth with
  | zero => simp [load] at h
  | succ depth =>
    cases load_course h with
    | passed _ => exact Outcome.honest_loaded
    | failed _ _ => exact Outcome.honest_failed _ _
    | late _ _ => exact Outcome.honest_failed _ _
    | ready _ _ _ => exact honest_conclude _ _ _

/-- A batch that is loaded without failure gives nothing back. -/
theorem batch_none_cases {tools : Toolset κ π σ} {types : AssetTypes κ} {depth : Nat} {ids : List AssetId}
    {work next : Work σ} (h : batch tools types depth ids work = some (none, next)) :
    ∃ outcome, each (load tools types depth) ids work = some (outcome, next) ∧ outcome.failure? = none := by
  obtain ⟨outcome, loaded, heach, hnone, rfl⟩ := batch_cases h
  rw [honest_each late_of_failure?_none ids heach hnone.symm]
  exact ⟨outcome, heach, hnone.symm⟩

/-! ## Invariants -/

/-- An invariant of the steps of loading.  Its first list holds the assets that are late, its second list
those that are still to be loaded. -/
structure Invariant (tools : Toolset κ π σ) (types : AssetTypes κ)
    (holds : List AssetId → List AssetId → Work σ → Prop) : Prop where
  /-- More assets can be late. -/
  mono : ∀ {held held' pending : List AssetId} {work : Work σ}, (∀ id ∈ held, id ∈ held') →
    holds held pending work → holds held' pending work
  /-- An asset that cannot be claimed is passed by. -/
  pass : ∀ {held pending : List AssetId} {id : AssetId} {work : Work σ}, holds held (id :: pending) work →
    claim work id = none → holds held pending work
  /-- An asset that was claimed but is not ready is late. -/
  unready : ∀ {held pending : List AssetId} {id : AssetId} {asset : Asset} {work claimed : Work σ},
    holds held (id :: pending) work → claim work id = some (asset, claimed) →
      (∀ children, (claimed.prepare tools types id asset).1 ≠ .ready children) →
        holds (id :: held) pending (claimed.prepare tools types id asset).2
  /-- When an asset is ready, its children are still to be loaded. -/
  ready : ∀ {held pending children : List AssetId} {id : AssetId} {asset : Asset}
    {work claimed next : Work σ}, holds held (id :: pending) work →
      claim work id = some (asset, claimed) →
        claimed.prepare tools types id asset = (.ready children, next) →
          holds held (children ++ pending) next
  /-- Any asset can be given back. -/
  back : ∀ {held pending : List AssetId} {id : AssetId} {work : Work σ}, holds held pending work →
    holds held pending (giveBack work id)
  /-- An asset that is given back is late no more. -/
  settle : ∀ {held pending : List AssetId} {id : AssetId} {work : Work σ},
    holds (id :: held) pending work → holds held pending (giveBack work id)

section

variable {tools : Toolset κ π σ} {types : AssetTypes κ}
  {holds : List AssetId → List AssetId → Work σ → Prop}

/-- Loading several assets preserves what loading each of them preserves. -/
theorem each_invariant (hinv : Invariant tools types holds)
    {load : AssetId → Work σ → Option (Outcome × Work σ)}
    (hload : ∀ {held pending : List AssetId} {id : AssetId} {work next : Work σ} {outcome : Outcome},
      holds held (id :: pending) work → load id work = some (outcome, next) →
        holds (outcome.late ++ held) pending next)
    (ids : List AssetId) {held pending : List AssetId} {work next : Work σ} {outcome : Outcome}
    (h : holds held (ids ++ pending) work) (heach : each load ids work = some (outcome, next)) :
    holds (outcome.late ++ held) pending next := by
  induction ids generalizing held work next outcome with
  | nil =>
    cases heach
    exact h
  | cons id rest ih =>
    obtain ⟨first, between, more, hfirst, hmore, rfl⟩ := each_cons_cases heach
    have hrest := ih (hload h hfirst) hmore
    refine hinv.mono ?_ hrest
    intro other hmem
    simp only [Outcome.and, List.mem_append] at hmem ⊢
    rcases hmem with h₂ | h₁ | hheld
    · exact .inl (.inr h₂)
    · exact .inl (.inl h₁)
    · exact .inr hheld

/-- What comes after the children of an asset preserves an invariant. -/
theorem conclude_invariant (hinv : Invariant tools types holds) {held pending : List AssetId}
    {id : AssetId} {children : Outcome} (hhonest : children.Honest) {work : Work σ}
    (h : holds (children.late ++ held) pending work) :
    holds ((conclude id children work).1.late ++ held) pending (conclude id children work).2 := by
  unfold conclude
  split
  · rename_i hnone
    rw [hhonest hnone] at h
    exact h
  · rename_i failure hsome hlate
    rw [hlate] at h
    exact hinv.back h
  · refine hinv.mono ?_ h
    intro other hmem
    simp only [List.mem_append] at hmem ⊢
    rcases hmem with hlate | hheld
    · exact .inl (.inl hlate)
    · exact .inr hheld

/-- Loading an asset preserves an invariant. -/
theorem load_invariant (hinv : Invariant tools types holds) {depth : Nat} {held pending : List AssetId}
    {id : AssetId} {work next : Work σ} {outcome : Outcome} (h : holds held (id :: pending) work)
    (hload : load tools types depth id work = some (outcome, next)) :
    holds (outcome.late ++ held) pending next := by
  induction depth generalizing held pending id work outcome next with
  | zero => simp [load] at hload
  | succ depth ih =>
    cases load_course hload with
    | passed hnone => exact hinv.pass h hnone
    | failed hclaim hprepare =>
      -- the asset is given back at once
      have hunready := @hinv.unready _ _ _ _ _ _ h hclaim
      rw [hprepare] at hunready
      exact hinv.settle (hunready fun _ h => by cases h)
    | late hclaim hprepare =>
      have hunready := @hinv.unready _ _ _ _ _ _ h hclaim
      rw [hprepare] at hunready
      exact hunready fun _ h => by cases h
    | ready hclaim hprepare hmore =>
      have hchildren := each_invariant hinv ih _ (hinv.ready h hclaim hprepare) hmore
      exact conclude_invariant hinv (honest_each late_of_failure?_none _ hmore) hchildren

/-- Loading a batch preserves an invariant, and nothing is late afterwards. -/
theorem batch_invariant (hinv : Invariant tools types holds) {depth : Nat} {ids : List AssetId}
    {work next : Work σ} {failure? : Option Failure} (h : holds [] ids work)
    (hbatch : batch tools types depth ids work = some (failure?, next)) : holds [] [] next := by
  have hsettle : ∀ (late : List AssetId) (work : Work σ), holds late [] work →
      holds [] [] (late.foldl giveBack work) := by
    intro late
    induction late with
    | nil => exact fun _ h => h
    | cons id rest ih => exact fun work h => ih _ (hinv.settle h)
  obtain ⟨outcome, loaded, heach, -, rfl⟩ := batch_cases hbatch
  apply hsettle _ _
  rw [← List.append_nil outcome.late]
  refine each_invariant hinv (load_invariant hinv) ids ?_ heach
  rwa [List.append_nil]

end

/-! ## Loading without failure -/

/-- Loading several assets without failure preserves what loading each of them without failure does. -/
theorem each_induction {holds : Work σ → Prop} {load : AssetId → Work σ → Option (Outcome × Work σ)}
    (hload : ∀ {id : AssetId} {work next : Work σ} {outcome : Outcome}, holds work →
      load id work = some (outcome, next) → outcome.failure? = none → holds next)
    {ids : List AssetId} {work next : Work σ} {outcome : Outcome} (h : holds work)
    (heach : each load ids work = some (outcome, next)) (hnone : outcome.failure? = none) :
    holds next := by
  induction ids generalizing work next outcome with
  | nil =>
    cases heach
    exact h
  | cons id rest ih =>
    obtain ⟨first, between, more, hfirst, hmore, rfl⟩ := each_cons_cases heach
    obtain ⟨hnone, hnone'⟩ := Outcome.failure?_and_eq_none_iff.1 hnone
    exact ih (hload h hfirst hnone) hmore hnone'

/-- If each asset can be loaded, several can. -/
theorem each_succeeds {holds : Work σ → Prop} {left : Work σ → Nat} {depth : Nat}
    {load : AssetId → Work σ → Option (Outcome × Work σ)}
    (hload : ∀ (id : AssetId) (work : Work σ), holds work → left work < depth →
      ∃ next, load id work = some (.loaded, next) ∧ holds next ∧ left next ≤ left work)
    (ids : List AssetId) {work : Work σ} (h : holds work) (hdepth : left work < depth) :
    ∃ next, each load ids work = some (.loaded, next) ∧ holds next ∧ left next ≤ left work := by
  induction ids generalizing work with
  | nil => exact ⟨work, rfl, h, Nat.le_refl _⟩
  | cons id rest ih =>
    obtain ⟨first, hfirst, hholds, hle⟩ := hload id work h hdepth
    obtain ⟨next, hnext, hholds', hle'⟩ := ih hholds (by omega)
    refine ⟨next, ?_, hholds', by omega⟩
    simp only [each, hfirst, hnext, Outcome.loaded_and]

section

variable {tools : Toolset κ π σ} {types : AssetTypes κ} {holds : Work σ → Prop}

/-- Loading without failure only makes assets ready, one after another. -/
theorem load_induction
    (hready : ∀ {id : AssetId} {asset : Asset} {work claimed next : Work σ} {children : List AssetId},
      holds work → claim work id = some (asset, claimed) →
        claimed.prepare tools types id asset = (.ready children, next) → holds next)
    {depth : Nat} {id : AssetId} {work next : Work σ} {outcome : Outcome} (h : holds work)
    (hload : load tools types depth id work = some (outcome, next)) (hnone : outcome.failure? = none) :
    holds next := by
  induction depth generalizing id work outcome next with
  | zero => simp [load] at hload
  | succ depth ih =>
    cases load_course hload with
    | passed _ => exact h
    | failed _ _ => cases hnone
    | late _ _ => cases hnone
    | ready hclaim hprepare hmore =>
      obtain ⟨hchildren, hsame⟩ := children_of_conclude hnone
      rw [hsame]
      exact each_induction ih (hready h hclaim hprepare) hmore hchildren

/-- Neither does loading a batch without failure. -/
theorem batch_induction
    (hready : ∀ {id : AssetId} {asset : Asset} {work claimed next : Work σ} {children : List AssetId},
      holds work → claim work id = some (asset, claimed) →
        claimed.prepare tools types id asset = (.ready children, next) → holds next)
    {depth : Nat} {ids : List AssetId} {work next : Work σ} (h : holds work)
    (hbatch : batch tools types depth ids work = some (none, next)) : holds next := by
  obtain ⟨outcome, heach, hnone⟩ := batch_none_cases hbatch
  exact each_induction (fun h hload hnone => load_induction hready h hload hnone) h heach hnone

/-- If each asset that can be claimed becomes ready, and only so many assets can be claimed, then loading
does not fail. -/
theorem load_succeeds {left : Work σ → Nat}
    (hready : ∀ {id : AssetId} {asset : Asset} {work claimed : Work σ}, holds work →
      claim work id = some (asset, claimed) → ∃ children next,
        claimed.prepare tools types id asset = (.ready children, next) ∧ holds next ∧
          left next < left work)
    {depth : Nat} (id : AssetId) {work : Work σ} (h : holds work) (hdepth : left work < depth) :
    ∃ next, load tools types depth id work = some (.loaded, next) ∧ holds next ∧
      left next ≤ left work := by
  induction depth generalizing id work with
  | zero => omega
  | succ depth ih =>
    unfold load
    cases hclaim : claim work id with
    | none => exact ⟨work, rfl, h, Nat.le_refl _⟩
    | some found =>
      obtain ⟨asset, claimed⟩ := found
      obtain ⟨children, prepared, hprepare, hprepared, hless⟩ := hready h hclaim
      obtain ⟨next, hnext, hholds, hle⟩ := each_succeeds
        (fun id work h hleft => ih id h hleft) children hprepared (by omega)
      dsimp only
      rw [hprepare]
      dsimp only
      rw [hnext]
      exact ⟨next, rfl, hholds, by omega⟩

end

end Load

/-! ## Batches -/

namespace Pass

variable {κ π σ : Type}

/-- The work on which a batch is loaded: the batch was taken off the queue, and after the first pass also
dropped from the cache. -/
def begin (tools : Toolset κ π σ) (first : Bool) (work : Work σ) : Work σ :=
  let taken := { work with state := (work.state.drain (!first)).2 }
  if first then taken else forgetAll tools (work.state.drain (!first)).1 taken

theorem begin_eq (tools : Toolset κ π σ) (first : Bool) (work : Work σ) :
    begin tools first work =
      if first = true then ({ work with state := (work.state.drain (!first)).2 } : Work σ)
      else forgetAll tools (work.state.drain (!first)).1
        { work with state := (work.state.drain (!first)).2 } := rfl

/-- The queue is empty, or a batch fails, or a batch is loaded and the next one follows. -/
theorem drain_cases {tools : Toolset κ π σ} {types : AssetTypes κ} {first : Bool} {depth batches : Nat}
    {loaded : List AssetId} {work next : Work σ} {result : Except Failure (List AssetId)}
    (h : drain tools types first depth (batches + 1) loaded work = some (result, next)) :
    ((work.state.drain (!first)).1 = [] ∧ result = .ok loaded ∧
      next = { work with state := (work.state.drain (!first)).2 }) ∨
    (∃ failure, (work.state.drain (!first)).1 ≠ [] ∧ result = .error failure ∧
      Load.batch tools types depth (work.state.drain (!first)).1 (begin tools first work) =
        some (some failure, next)) ∨
    ∃ after, (work.state.drain (!first)).1 ≠ [] ∧
      Load.batch tools types depth (work.state.drain (!first)).1 (begin tools first work) =
        some (none, after) ∧
      drain tools types first depth batches
        ((work.state.drain (!first)).1.foldl (fun loaded id => includeLast id loaded) loaded) after =
          some (result, next) := by
  unfold drain at h
  dsimp only at h
  by_cases hempty : (work.state.drain (!first)).1.isEmpty = true
  · rw [if_pos hempty] at h
    cases h
    exact .inl ⟨List.isEmpty_iff.1 hempty, rfl, rfl⟩
  · rw [if_neg hempty, ← begin_eq tools first work] at h
    have hsome := mt List.isEmpty_iff.2 hempty
    split at h
    · cases h
    · rename_i failure after hbatch
      cases h
      exact .inr (.inl ⟨failure, hsome, rfl, hbatch⟩)
    · rename_i after hbatch
      exact .inr (.inr ⟨after, hsome, hbatch, h⟩)

/-- What taking a batch and loading it preserve holds when loading ends; unless it failed, the queue is
empty then. -/
theorem drain_invariant {tools : Toolset κ π σ} {types : AssetTypes κ}
    {holds : List AssetId → List AssetId → Work σ → Prop} (hinv : Load.Invariant tools types holds)
    {first : Bool}
    (htake : ∀ {work : Work σ}, holds [] [] work →
      holds [] (work.state.drain (!first)).1 { work with state := (work.state.drain (!first)).2 })
    (hforget : ∀ {pending : List AssetId} {work : Work σ} (ids : List AssetId), holds [] pending work →
      holds [] pending (forgetAll tools ids work))
    {depth batches : Nat} {loaded : List AssetId} {work next : Work σ}
    {result : Except Failure (List AssetId)} (h : holds [] [] work)
    (hdrain : drain tools types first depth batches loaded work = some (result, next)) :
    holds [] [] next ∧ ∀ ids, result = .ok ids → next.state.queue = [] := by
  induction batches generalizing loaded work with
  | zero => simp [drain] at hdrain
  | succ batches ih =>
    have htaken := htake h
    have hbegun : holds [] (work.state.drain (!first)).1 (begin tools first work) := by
      unfold begin
      split
      · exact htaken
      · exact hforget _ htaken
    rcases drain_cases hdrain with ⟨hempty, -, rfl⟩ | ⟨failure, -, rfl, hbatch⟩ | ⟨after, -, hbatch, hrest⟩
    · rw [hempty] at htaken
      exact ⟨htaken, fun _ _ => rfl⟩
    · exact ⟨Load.batch_invariant hinv hbegun hbatch, fun _ hok => by cases hok⟩
    · exact ih (Load.batch_invariant hinv hbegun hbatch) hrest

/-! ## How a pass goes -/

/-- The work that loading leaves behind: after the first pass, what was loaded was sent. -/
def sent (tools : Toolset κ π σ) (first : Bool) (loaded : List AssetId) (work : Work σ) : Work σ :=
  if first then work else sendUpdate tools loaded work

section

variable {tools : Toolset κ π σ} {setup : Setup κ π} {depth : Nat} {work next : Work σ}

/-- Loading fails, or all that waits is loaded and sent. -/
theorem gather_cases {types : AssetTypes κ} {first : Bool} {result : Except Failure AssetId}
    (h : gather tools types first depth work = some (result, next)) :
    (∃ failure, result = .error failure ∧
      drain tools types first depth depth [] work = some (.error failure, next)) ∨
    ∃ loaded drained, drain tools types first depth depth [] work = some (.ok loaded, drained) ∧
      next = sent tools first loaded drained ∧
      ∀ start, result = .ok start → next.state.start = some start := by
  unfold gather at h
  cases hdrain : drain tools types first depth depth [] work with
  | none => simp [hdrain] at h
  | some found =>
    obtain ⟨outcome, drained⟩ := found
    rw [hdrain] at h
    cases outcome with
    | error failure =>
      cases h
      exact .inl ⟨failure, rfl, rfl⟩
    | ok loaded =>
      refine .inr ⟨loaded, drained, rfl, ?_⟩
      dsimp only at h
      split at h
      · cases h
        exact ⟨rfl, nofun⟩
      · rename_i start hstart
        cases h
        exact ⟨rfl, fun _ hok => Except.ok.inj hok ▸ hstart⟩

/-- A first pass does not find the entry, or it finds it and loads what waits; a later pass only does the
latter. -/
theorem assemble_cases {result : Except Failure AssetId}
    (h : assemble tools setup depth work = some (result, next)) :
    (∃ failure, work.state.start = none ∧ result = .error failure ∧
      enter tools setup work = (.error failure, next)) ∨
    (∃ entered, work.state.start = none ∧ enter tools setup work = (.ok (), entered) ∧
      gather tools setup.types true depth entered = some (result, next)) ∨
    ∃ start, work.state.start = some start ∧
      gather tools setup.types false depth work = some (result, next) := by
  unfold assemble at h
  cases hstart : work.state.start with
  | none =>
    simp only [hstart, Option.isNone_none, if_true] at h
    cases henter : enter tools setup work with
    | mk found entered =>
      rw [henter] at h
      cases found with
      | error failure =>
        cases h
        exact .inl ⟨failure, rfl, rfl, rfl⟩
      | ok done => exact .inr (.inl ⟨entered, rfl, rfl, h⟩)
  | some start =>
    rw [hstart] at h
    exact .inr (.inr ⟨start, rfl, h⟩)

/-- A pass fails before the layout, or it comes to the end. -/
theorem run_cases {result : Except Failure Report} (h : run tools setup depth work = some (result, next)) :
    (∃ failure, result = .error failure ∧
      assemble tools setup depth work = some (.error failure, next)) ∨
    ∃ start assembled, assemble tools setup depth work = some (.ok start, assembled) ∧
      finish tools setup start assembled = (result, next) := by
  unfold run at h
  split at h
  · cases h
  · rename_i failure assembled hassemble
    cases h
    exact .inl ⟨failure, rfl, hassemble⟩
  · rename_i start assembled hassemble
    exact .inr ⟨start, assembled, hassemble, Option.some.inj h⟩

end

end Pass
end Build
end ModuleBundler
