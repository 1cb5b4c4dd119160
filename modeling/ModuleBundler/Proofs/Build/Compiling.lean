import ModuleBundler.Proofs.Build.Balance
import ModuleBundler.Proofs.Build.Ending

/-!
# How often a pass compiles

Only a claimed asset is handed to the compiler, and at most once for every claim:
what a pass has started to compile is compared with what it has claimed, function by
function ({lit}`Related`).  Together with the balance of claims and returns this
tells how often a pass compiles an asset.

Main results:

- Theorem {lit}`Session.related_pass`: without a cache an asset is compiled as often as it is claimed, and
  never more often.
- Theorem {lit}`Session.History.balanced`: when no changes are reported, the accounts of a pass are balanced,
  whether it succeeds or fails.
- Theorem {lit}`Session.History.count_started_le`: then an asset is compiled at most once more often than it
  is given back.
- Theorem {lit}`Session.exists_compiled_twice`: a pass that fails can compile an asset twice.
-/

namespace ModuleBundler
namespace Build

variable {κ π σ : Type}

/-! ## Compilations and claims -/

/-- Whether a comparison of numbers survives addition and holds for each claim: of what is compiled until a
claimed asset is ready, and the one claim. -/
structure Compares (compare : Nat → Nat → Prop) (tools : Toolset κ π σ) (types : AssetTypes κ) : Prop where
  zero : compare 0 0
  add : ∀ {a b c d : Nat}, compare a b → compare c d → compare (a + c) (b + d)
  claim : ∀ (work : Work σ) (id : AssetId) (asset : Asset) (other : AssetId),
    compare ((work.prepareEvents tools types id asset).count (.started other)) (if id = other then 1 else 0)

/-- For a claim at most one compilation is started. -/
theorem compares_le (tools : Toolset κ π σ) (types : AssetTypes κ) : Compares (· ≤ ·) tools types where
  zero := Nat.le_refl 0
  add := Nat.add_le_add
  claim work id asset other := by
    obtain ⟨rest, hrest, hsplit⟩ := work.prepareEvents_split tools types id asset
    rw [hsplit, List.count_append, hrest.count_started, Nat.add_zero]
    unfold Work.compileEvents
    split
    · rw [(Work.quiet_heard tools _).count_started]
      exact Nat.zero_le _
    · rw [List.count_append, List.count_cons, (Work.quiet_heard tools _).count_started,
        (Work.quiet_heard tools _).count_started]
      simp

/-- How often each asset was compiled, compared with how often it was claimed. -/
def Related (compare : Nat → Nat → Prop) (events : List Event) (trail : List (Moment σ)) : Prop :=
  ∀ id, compare (events.count (.started id)) ((Deed.claimed id).times trail)

section

variable {compare : Nat → Nat → Prop} {tools : Toolset κ π σ} {types : AssetTypes κ}
  (hcompare : Compares compare tools types)
include hcompare

theorem Related.append {events more : List Event} {trail rest : List (Moment σ)}
    (h : Related compare events trail) (hmore : Related compare more rest) :
    Related compare (events ++ more) (trail ++ rest) := by
  intro id
  rw [List.count_append, Deed.times_append]
  exact hcompare.add (h id) (hmore id)

/-- Where nothing is compiled and nothing is claimed there is nothing to compare. -/
theorem related_of_none {events : List Event} {trail : List (Moment σ)}
    (hevents : ∀ id, events.count (.started id) = 0) (htrail : ∀ id, (Deed.claimed id).times trail = 0) :
    Related compare events trail := by
  intro id
  rw [hevents, htrail]
  exact hcompare.zero

theorem related_nil : Related compare [] ([] : List (Moment σ)) :=
  related_of_none hcompare (fun _ => rfl) fun _ => rfl

theorem related_of_idle {events : List Event} {trail : List (Moment σ)} (hquiet : Event.Quiet events)
    (hidle : ∀ moment ∈ trail, moment.deed.Idle) : Related compare events trail :=
  related_of_none hcompare hquiet.count_started (Deed.times_claimed_of_idle hidle)

end

/-! ## Loading -/

namespace Load

/-- Nothing is claimed when assets are given back. -/
theorem claimed_returnTrail (ids : List AssetId) (work : Work σ) (id : AssetId) :
    (Deed.claimed id).times (returnTrail ids work) = 0 := by
  induction ids generalizing work with
  | nil => rfl
  | cons other rest ih => simp [returnTrail, Deed.times_cons, ih]

theorem claimed_concludeTrail (parent : AssetId) (children : Outcome) (work : Work σ) (id : AssetId) :
    (Deed.claimed id).times (concludeTrail parent children work) = 0 := by
  unfold concludeTrail
  split
  · exact claimed_returnTrail _ _ _
  · rfl

variable {tools : Toolset κ π σ} {types : AssetTypes κ} {compare : Nat → Nat → Prop}
  (hcompare : Compares compare tools types)

section
include hcompare

theorem related_each {load : AssetId → Work σ → Option (Outcome × Work σ)}
    {events : AssetId → Work σ → List Event} {trail : AssetId → Work σ → List (Moment σ)}
    (hload : ∀ id work, Related compare (events id work) (trail id work)) (ids : List AssetId)
    (work : Work σ) : Related compare (eachEvents load events ids work) (eachTrail load trail ids work) := by
  induction ids generalizing work with
  | nil => exact related_nil hcompare
  | cons id rest ih =>
    unfold eachEvents eachTrail
    refine (hload id work).append hcompare ?_
    cases load id work with
    | none => exact related_nil hcompare
    | some result => exact ih result.2

/-- While an asset is loaded, whatever is compiled was claimed. -/
theorem related_load (depth : Nat) (id : AssetId) (work : Work σ) :
    Related compare (loadEvents tools types depth id work) (loadTrail tools types depth id work) := by
  induction depth generalizing id work with
  | zero => exact related_nil hcompare
  | succ depth ih =>
    unfold loadEvents loadTrail
    cases claim work id with
    | none => exact related_nil hcompare
    | some found =>
      obtain ⟨asset, claimed⟩ := found
      have hclaimed : Related compare (claimed.prepareEvents tools types id asset)
          (⟨.claimed id, claimed⟩ :: claimed.prepareTrail tools types id asset) := by
        intro other
        have hidle : (Deed.claimed other).times (claimed.prepareTrail tools types id asset) = 0 :=
          Deed.times_claimed_of_idle (fun moment hmem =>
            (claimed.readies_prepareTrail tools types id asset moment hmem).idle) other
        rw [Deed.times_cons, hidle, Nat.zero_add]
        simpa using hcompare.claim claimed id asset other
      refine hclaimed.append hcompare ?_
      generalize claimed.prepare tools types id asset = prepared
      obtain ⟨preparation, prepared⟩ := prepared
      cases preparation with
      | failed failure => exact related_of_none hcompare (fun _ => rfl) (claimed_returnTrail [id] prepared)
      | late failure => exact related_nil hcompare
      | ready children =>
        dsimp only
        rw [← List.append_nil (eachEvents _ _ _ _)]
        refine (related_each hcompare ih children prepared).append hcompare ?_
        split
        · exact related_nil hcompare
        · exact related_of_none hcompare (fun _ => rfl) (claimed_concludeTrail id _ _)

theorem related_batch (depth : Nat) (ids : List AssetId) (work : Work σ) :
    Related compare (batchEvents tools types depth ids work) (batchTrail tools types depth ids work) := by
  unfold batchEvents batchTrail
  rw [← List.append_nil (eachEvents _ _ _ _)]
  refine (related_each hcompare (related_load hcompare depth) ids work).append hcompare ?_
  split
  · exact related_nil hcompare
  · exact related_of_none hcompare (fun _ => rfl) (claimed_returnTrail _ _)

end
end Load

/-! ## Passes -/

namespace Pass

variable {tools : Toolset κ π σ} {types : AssetTypes κ} {compare : Nat → Nat → Prop}
  (hcompare : Compares compare tools types)

section
include hcompare

theorem related_drain (first : Bool) (depth batches : Nat) (work : Work σ) :
    Related compare (drainEvents tools types first depth batches work)
      (drainTrail tools types first depth batches work) := by
  induction batches generalizing work with
  | zero => exact related_nil hcompare
  | succ batches ih =>
    unfold drainEvents drainTrail
    dsimp only
    have htaken : Related compare [.taken first (work.state.drain (!first)).1]
        [⟨.taken (work.state.drain (!first)).1, { work with state := (work.state.drain (!first)).2 }⟩] :=
      related_of_none hcompare (by simp) (by simp [Deed.times_cons])
    by_cases hempty : (work.state.drain (!first)).1.isEmpty = true
    · rw [if_pos hempty, if_pos hempty]
      exact htaken
    · rw [if_neg hempty, if_neg hempty, List.append_assoc]
      have hbegun : Related compare (beginEvents tools first work) (beginTrail tools first work) :=
        related_of_idle hcompare (quiet_beginEvents tools first work)
          fun moment hmem => ((begin_spec tools first work).2.2 moment hmem).2
      refine htaken.append hcompare
        (hbegun.append hcompare ((Load.related_batch hcompare depth _ _).append hcompare ?_))
      generalize Load.batch tools types depth (work.state.drain (!first)).1 (begin tools first work) = outcome
      cases outcome with
      | none => exact related_nil hcompare
      | some result =>
        obtain ⟨failure?, after⟩ := result
        cases failure? with
        | some failure => exact related_nil hcompare
        | none => exact ih after

theorem related_gather (first : Bool) (depth : Nat) (work : Work σ) :
    Related compare (gatherEvents tools types first depth work)
      (gatherTrail tools types first depth work) := by
  unfold gatherEvents gatherTrail
  refine (related_drain hcompare first depth depth work).append hcompare ?_
  have hsent : ∀ loaded (next : Work σ), Related compare (sendEvents tools loaded next)
      (sendTrail tools loaded next) := fun loaded next =>
    related_of_idle hcompare (Work.quiet_heard tools _) (List.forall_mem_cons.2
      ⟨fun _ => ⟨nofun, nofun⟩, Work.forall_listenTrail Deed.ambient_idle tools _⟩)
  generalize drain tools types first depth depth [] work = outcome
  match outcome, first with
  | none, _ => exact related_nil hcompare
  | some (.error failure, next), _ => exact related_nil hcompare
  | some (.ok loaded, next), true => exact related_nil hcompare
  | some (.ok loaded, next), false => exact hsent loaded next

end

theorem related_assemble {setup : Setup κ π} (hcompare : Compares compare tools setup.types) (depth : Nat)
    (work : Work σ) :
    Related compare (assembleEvents tools setup depth work) (assembleTrail tools setup depth work) := by
  unfold assembleEvents assembleTrail
  split
  · refine (related_of_idle hcompare (quiet_enterEvents tools setup work) fun moment hmem =>
      (enters_enterTrail tools setup work moment hmem).idle).append hcompare ?_
    generalize enter tools setup work = entered
    match entered with
    | (.error failure, next) => exact related_nil hcompare
    | (.ok done, next) => exact related_gather hcompare true depth next
  · exact related_gather hcompare false depth work

end Pass

namespace Session

/-- A comparison that holds for each claim holds for a whole pass. -/
theorem related_pass {compare : Nat → Nat → Prop} {session : Session κ π σ}
    (hcompare : Compares compare session.tools session.setup.types) (depth : Nat) :
    Related compare (session.passEvents depth) (session.passTrail depth) := by
  obtain ⟨rest, htrail, hrest⟩ := session.passTrail_cases depth
  have hpass : Related compare (session.passEvents depth)
      (Pass.assembleTrail session.tools session.setup depth session.opening ++ rest) := by
    unfold passEvents Pass.runEvents
    refine (Pass.related_assemble hcompare depth session.opening).append hcompare
      (related_of_idle hcompare ?_ fun moment hmem => (hrest moment hmem).idle)
    split
    · exact Work.quiet_heard session.tools _
    · exact Event.quiet_nil
  rw [htrail]
  intro id
  rw [Deed.times_cons]
  exact hpass id

/-! ## The accounts of a pass -/

variable {session session' : Session κ π σ}

/-- Before the entry is found, nothing is loaded. -/
theorem History.not_loaded (h : session.History) (hstart : session.work.state.start = none)
    (id : AssetId) : session.work.state.isLoaded id = false := by
  obtain ⟨events, hchronicle⟩ := h.exists_chronicle
  exact (hchronicle.untouched hstart id).1

/-- Whatever is claimed or given back in a pass is so until the assets are assembled. -/
theorem times_passTrail (session : Session κ π σ) (depth : Nat) (id : AssetId) :
    (Deed.claimed id).times (session.passTrail depth) =
        (Deed.claimed id).times (Pass.assembleTrail session.tools session.setup depth session.opening) ∧
      (Deed.returned id).times (session.passTrail depth) =
        (Deed.returned id).times (Pass.assembleTrail session.tools session.setup depth session.opening) := by
  obtain ⟨rest, htrail, hrest⟩ := session.passTrail_cases depth
  have hidle : ∀ moment ∈ rest, moment.deed.Idle := fun moment hmem => (hrest moment hmem).idle
  rw [htrail]
  constructor
  · simp [Deed.times_cons, Deed.times_append, Deed.times_claimed_of_idle hidle]
  · simp [Deed.times_cons, Deed.times_append, Deed.times_returned_of_idle hidle]

/-- When no changes are reported, the accounts of a pass are balanced up to the layout, whether it succeeds or
fails: whoever was loaded and did not wait need not be claimed.  A pass that comes to lay out bundles gives
nothing back. -/
theorem History.balanced (h : session.History) {depth : Nat} {outcome : Except Failure AssetId}
    {assembled : Work σ}
    (hassemble : Pass.assemble session.tools session.setup depth session.opening = some (outcome, assembled))
    (hquiet : Pass.Undisturbed (session.passTrail depth)) :
    (∀ id, (assembled.state.isLoaded id).toNat + (Deed.returned id).times (session.passTrail depth) =
        (session.work.state.rests id).toNat + (Deed.claimed id).times (session.passTrail depth)) ∧
      ∀ start, outcome = .ok start → ∀ id, (Deed.returned id).times (session.passTrail depth) = 0 := by
  obtain ⟨rest, htrail, -⟩ := session.passTrail_cases depth
  rw [htrail] at hquiet
  obtain ⟨-, hquiet⟩ := List.forall_mem_cons.1 hquiet
  obtain ⟨hbalanced, hsilent⟩ := Pass.assemble_balanced hassemble (List.forall_mem_append.1 hquiet).1
    h.not_loaded
  refine ⟨fun id => ?_, fun start hok id => ?_⟩
  · rw [(session.times_passTrail depth id).1, (session.times_passTrail depth id).2]
    exact hbalanced id
  · rw [(session.times_passTrail depth id).2]
    exact hsilent start hok id

end Session
end Build
end ModuleBundler
