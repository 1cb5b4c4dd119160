import ModuleBundler.Proofs.Build.Intake
import ModuleBundler.Proofs.Build.Progress
import ModuleBundler.Proofs.Build.Rebuilding

/-!
# The balance of claims and returns

An asset is loaded from the moment when it is claimed, until it is given back.  It
can be claimed only if it is not loaded, and while it is loaded nobody but the one
who has claimed it gives it back.  So one can keep accounts of every asset: what it
was claimed more often than it was given back is just what it has become loaded
({lit}`State.Balanced`), whether loading fails or not.

Main results:

- Theorem {lit}`Load.tallied_traced`: the accounts of loading are balanced, and whatever was loaded before is
  loaded afterwards.
- Theorem {lit}`Load.balanced_batch`: so are the accounts of a batch, when all that is late was given back.
- Theorem {lit}`Pass.drain_balanced`: when no changes are reported, so are those of loading what waits.
-/

namespace ModuleBundler
namespace Build

variable {κ π σ : Type}

/-! ## Counting deeds -/

namespace Deed

/-- Whether a change is reported. -/
def isNoticed : Deed → Bool
  | .noticed _ => true
  | _ => false

theorem isNoticed_eq_false_iff {deed : Deed} : deed.isNoticed = false ↔ ∀ p, deed ≠ .noticed p := by
  cases deed <;> simp [isNoticed]

/-- How often something is done in a trail. -/
def times (deed : Deed) (trail : List (Moment σ)) : Nat :=
  (trail.map Moment.deed).count deed

variable {deed : Deed}

@[simp]
theorem times_nil (deed : Deed) : deed.times ([] : List (Moment σ)) = 0 := rfl

theorem times_cons (deed : Deed) (moment : Moment σ) (rest : List (Moment σ)) :
    deed.times (moment :: rest) = deed.times rest + if moment.deed = deed then 1 else 0 := by
  simp only [times, List.map_cons, List.count_cons, beq_iff_eq]

theorem times_append (deed : Deed) (trail more : List (Moment σ)) :
    deed.times (trail ++ more) = deed.times trail + deed.times more := by
  simp only [times, List.map_append, List.count_append]

/-- What is never done is done zero times. -/
theorem times_of_never {trail : List (Moment σ)} (h : ∀ moment ∈ trail, moment.deed ≠ deed) :
    deed.times trail = 0 := by
  refine List.count_eq_zero.2 fun hmem => ?_
  obtain ⟨moment, hmoment, hdeed⟩ := List.mem_map.1 hmem
  exact h moment hmoment hdeed

/-- What is done zero times is never done. -/
theorem never_of_times {trail : List (Moment σ)} (h : deed.times trail = 0) :
    ∀ moment ∈ trail, moment.deed ≠ deed := by
  intro moment hmem hdeed
  exact List.count_eq_zero.1 h (hdeed ▸ List.mem_map_of_mem hmem)

/-- Whether a deed neither claims an asset nor gives one back. -/
def Idle (deed : Deed) : Prop :=
  ∀ id, deed ≠ .claimed id ∧ deed ≠ .returned id

theorem ambient_idle : Ambient Idle :=
  ⟨fun _ => ⟨nofun, nofun⟩, fun _ _ => ⟨nofun, nofun⟩⟩

theorem Readies.idle {id : AssetId} (h : deed.Readies id) : deed.Idle := by
  intro other
  constructor <;> rintro rfl <;> exact h.elim

theorem Enters.idle (h : deed.Enters) : deed.Idle := by
  intro other
  constructor <;> rintro rfl <;> exact h.elim

theorem Concludes.idle (h : deed.Concludes) : deed.Idle := by
  intro other
  constructor <;> rintro rfl <;> exact h.elim

theorem times_claimed_of_idle {trail : List (Moment σ)} (h : ∀ moment ∈ trail, moment.deed.Idle)
    (id : AssetId) : (claimed id).times trail = 0 :=
  times_of_never fun moment hmem => (h moment hmem id).1

theorem times_returned_of_idle {trail : List (Moment σ)} (h : ∀ moment ∈ trail, moment.deed.Idle)
    (id : AssetId) : (returned id).times trail = 0 :=
  times_of_never fun moment hmem => (h moment hmem id).2

end Deed

/-! ## Balanced accounts -/

namespace State

/-- A claimed asset was not loaded and is loaded now; nothing else changes. -/
theorem isLoaded_claim {state claimed : State} {id : AssetId} {asset : Asset}
    (h : state.claim id = some (asset, claimed)) :
    state.isLoaded id = false ∧ claimed.isLoaded id = true ∧
      ∀ other, other ≠ id → claimed.isLoaded other = state.isLoaded other := by
  obtain ⟨hget, hdirty, rfl⟩ := of_claim h
  refine ⟨?_, ?_, fun other hother => ?_⟩
  · simp [isLoaded, hget, hdirty]
  · simp [isLoaded, AssetGraph.get?_update_self, hget]
  · exact isLoaded_congr (AssetGraph.get?_update_of_ne hother _ _)

/-- An asset that was given back is not loaded; nothing else changes. -/
theorem isLoaded_giveBack (state : State) (id : AssetId) :
    (state.giveBack id).isLoaded id = false ∧
      ∀ other, other ≠ id → (state.giveBack id).isLoaded other = state.isLoaded other := by
  have hgraph : (state.giveBack id).graph = state.graph.update id fun a => { a with dirty := true } := rfl
  refine ⟨?_, fun other hother => isLoaded_congr ?_⟩
  · unfold isLoaded
    rw [hgraph, AssetGraph.get?_update_self]
    cases state.graph.get? id <;> rfl
  · rw [hgraph, AssetGraph.get?_update_of_ne hother]

/-- Whether each asset was claimed more often than it was given back just if it has become loaded, and less
often just if it is loaded no more. -/
def Balanced (old : State) (trail : List (Moment σ)) (new : State) : Prop :=
  ∀ id, (new.isLoaded id).toNat + (Deed.returned id).times trail =
    (old.isLoaded id).toNat + (Deed.claimed id).times trail

namespace Balanced

theorem trans {a b c : State} {trail more : List (Moment σ)} (hab : a.Balanced trail b)
    (hbc : b.Balanced more c) : a.Balanced (trail ++ more) c := by
  intro id
  have h₁ := hab id
  have h₂ := hbc id
  rw [Deed.times_append, Deed.times_append]
  omega

/-- Where nothing is claimed, nothing is given back and nothing has become loaded, the accounts are
balanced. -/
theorem of_idle {old new : State} {trail : List (Moment σ)}
    (hloaded : ∀ id, new.isLoaded id = old.isLoaded id) (hidle : ∀ moment ∈ trail, moment.deed.Idle) :
    old.Balanced trail new := by
  intro id
  rw [hloaded, Deed.times_claimed_of_idle hidle, Deed.times_returned_of_idle hidle]

theorem of_graph_eq {old new : State} {trail : List (Moment σ)} (hgraph : new.graph = old.graph)
    (hidle : ∀ moment ∈ trail, moment.deed.Idle) : old.Balanced trail new :=
  of_idle (fun id => isLoaded_congr (congrArg (·.get? id) hgraph)) hidle

theorem nil (state : State) : state.Balanced ([] : List (Moment σ)) state :=
  of_graph_eq rfl (List.forall_mem_nil _)

/-- Claiming an asset is balanced. -/
theorem claimed {state : State} {claimed : Work σ} {id : AssetId} {asset : Asset}
    (h : state.claim id = some (asset, claimed.state)) :
    state.Balanced [⟨.claimed id, claimed⟩] claimed.state := by
  obtain ⟨hbefore, hafter, hother⟩ := isLoaded_claim h
  intro other
  rw [Deed.times_cons, Deed.times_cons]
  by_cases heq : other = id
  · subst heq
    simp [hbefore, hafter]
  · simp [hother other heq, Ne.symm heq]

/-- Giving a loaded asset back is balanced. -/
theorem returned {work : Work σ} {id : AssetId} (h : work.state.isLoaded id = true) :
    work.state.Balanced [⟨.returned id, Load.giveBack work id⟩] (Load.giveBack work id).state := by
  have hstate : (Load.giveBack work id).state = work.state.giveBack id := rfl
  obtain ⟨hafter, hother⟩ := work.state.isLoaded_giveBack id
  intro other
  rw [Deed.times_cons, Deed.times_cons, hstate]
  by_cases heq : other = id
  · subst heq
    simp [h, hafter]
  · simp [hother other heq, Ne.symm heq]

end Balanced
end State

/-! ## Loading -/

/-- Making an asset ready leaves alone what is loaded, whether it succeeds or not. -/
theorem Work.progress_prepare (tools : Toolset κ π σ) (types : AssetTypes κ) (work : Work σ) (id : AssetId)
    (asset : Asset) : work.state.Progress [] (work.prepare tools types id asset).2.state := by
  rcases Work.prepare_cases tools types work id asset with ⟨-, hnotices | ⟨state, unit, hbefore, hafter⟩⟩ |
    ⟨state, unit, modules, next, hbefore, hafter, hready⟩
  · exact State.progress_notices hnotices
  · exact (State.progress_notices hbefore).trans <| (State.progress_keep _ _ _).trans
      (State.progress_notices hafter)
  · rw [hready]
    exact (State.progress_notices hbefore).trans <| (State.progress_keep _ _ _).trans <|
      (State.progress_notices hafter).trans (Work.progress_recordAll tools types id modules next)

/-- Where no compilation was started, what is loaded has not changed. -/
theorem State.Progress.isLoaded_eq {old new : State} (h : old.Progress [] new) (id : AssetId) :
    new.isLoaded id = old.isLoaded id := by
  have htally := h.tally id
  cases hold : old.isLoaded id <;> cases hnew : new.isLoaded id <;> simp [hold, hnew] at htally ⊢

namespace Load

variable {tools : Toolset κ π σ} {types : AssetTypes κ}

/-- Whether the accounts of loading are balanced: whatever was loaded still is, whatever is late has become
loaded, and nothing was given back unless loading has failed. -/
structure Tallied (old : Work σ) (trail : List (Moment σ)) (outcome : Outcome) (new : Work σ) : Prop where
  balanced : old.state.Balanced trail new.state
  keeps : ∀ id, old.state.isLoaded id = true → new.state.isLoaded id = true
  late : ∀ id ∈ outcome.late, old.state.isLoaded id = false ∧ new.state.isLoaded id = true
  nodup : outcome.late.Nodup
  silent : outcome.failure? = none → ∀ id, (Deed.returned id).times trail = 0

/-- The same for what is done with a claimed asset, which may be given back or be late itself. -/
structure Settled (id : AssetId) (old : Work σ) (trail : List (Moment σ)) (outcome : Outcome)
    (new : Work σ) : Prop where
  balanced : old.state.Balanced trail new.state
  keeps : ∀ other, other ≠ id → old.state.isLoaded other = true → new.state.isLoaded other = true
  late : ∀ other ∈ outcome.late,
    (other = id ∨ old.state.isLoaded other = false) ∧ new.state.isLoaded other = true
  nodup : outcome.late.Nodup
  silent : outcome.failure? = none → ∀ other, (Deed.returned other).times trail = 0

/-- A claimed asset that cannot be made ready is given back. -/
theorem settled_failed {id : AssetId} {work : Work σ} (hid : work.state.isLoaded id = true)
    (failure : Failure) :
    Settled id work (returnTrail [id] work) ⟨some failure, []⟩ (giveBack work id) where
  balanced := .returned hid
  keeps other hother hloaded := ((work.state.isLoaded_giveBack id).2 other hother).trans hloaded
  late _ hmem := by cases hmem
  nodup := .nil
  silent hnone := by cases hnone

/-- Or it is late. -/
theorem settled_late {id : AssetId} {work : Work σ} (hid : work.state.isLoaded id = true)
    (failure : Failure) : Settled id work [] ⟨some failure, [id]⟩ work where
  balanced := .nil _
  keeps _ _ hloaded := hloaded
  late other hmem := by
    obtain rfl := List.mem_singleton.1 hmem
    exact ⟨.inl rfl, hid⟩
  nodup := List.pairwise_singleton _ id
  silent hnone := by cases hnone

/-- When its children were loaded, a claimed asset stays loaded, or it is given back, or it is late. -/
theorem Tallied.conclude {old work : Work σ} {trail : List (Moment σ)} {id : AssetId} {children : Outcome}
    (h : Tallied old trail children work) (hid : old.state.isLoaded id = true) :
    Settled id old (trail ++ concludeTrail id children work) (conclude id children work).1
      (conclude id children work).2 := by
  obtain ⟨failure?, late⟩ := children
  cases failure? with
  | none =>
    refine ⟨h.balanced.trans (.nil _), fun other _ => h.keeps other, nofun, .nil,
      fun _ other => ?_⟩
    exact (Deed.times_append _ _ _).trans (congrArg (· + 0) (h.silent rfl other))
  | some failure =>
    cases late with
    | nil =>
      obtain ⟨hbalanced, hkeeps, -, -, -⟩ := settled_failed (h.keeps id hid) failure
      exact ⟨h.balanced.trans hbalanced, fun other hother hloaded => hkeeps other hother (h.keeps other hloaded),
        nofun, .nil, nofun⟩
    | cons first rest =>
      refine ⟨h.balanced.trans (.nil _), fun other _ => h.keeps other, fun other hmem => ?_, ?_,
        nofun⟩
      · rcases List.mem_append.1 hmem with hlate | hlate
        · exact (h.late other hlate).imp_left .inr
        · obtain rfl := List.mem_singleton.1 hlate
          exact ⟨.inl rfl, h.keeps other hid⟩
      · refine List.nodup_append.2 ⟨h.nodup, List.pairwise_singleton _ id, ?_⟩
        rintro other hother _ hlate rfl
        obtain rfl := List.mem_singleton.1 hlate
        have hbefore := (h.late other hother).1
        simp [hid] at hbefore

/-- An asset that is claimed, made ready or not, and settled was loaded as a whole. -/
theorem Settled.tallied {id : AssetId} {asset : Asset} {work claimed next : Work σ}
    {rest : List (Moment σ)} {outcome : Outcome} (hclaim : claim work id = some (asset, claimed))
    (h : Settled id (claimed.prepare tools types id asset).2 rest outcome next) :
    Tallied work (⟨.claimed id, claimed⟩ :: (claimed.prepareTrail tools types id asset ++ rest)) outcome
      next := by
  obtain ⟨hbefore, hclaimed, hothers⟩ := State.isLoaded_claim (of_claim hclaim).1
  have hsame := (claimed.progress_prepare tools types id asset).isLoaded_eq
  have hidle : ∀ moment ∈ claimed.prepareTrail tools types id asset, moment.deed.Idle :=
    fun moment hmem => (claimed.readies_prepareTrail tools types id asset moment hmem).idle
  -- whoever was loaded already is somebody else
  have hkeeps : ∀ other, work.state.isLoaded other = true → other ≠ id ∧
      (claimed.prepare tools types id asset).2.state.isLoaded other = true := by
    intro other hloaded
    have hother : other ≠ id := by
      rintro rfl
      simp [hbefore] at hloaded
    exact ⟨hother, (hsame other).trans ((hothers other hother).trans hloaded)⟩
  refine ⟨?_, fun other hloaded => ?_, fun other hmem => ?_, h.nodup, fun hnone other => ?_⟩
  · have hprepared : claimed.state.Balanced (claimed.prepareTrail tools types id asset) _ :=
      .of_idle hsame hidle
    exact (State.Balanced.claimed (of_claim hclaim).1).trans (hprepared.trans h.balanced)
  · obtain ⟨hother, hbetween⟩ := hkeeps other hloaded
    exact h.keeps other hother hbetween
  · refine (h.late other hmem).imp_left fun hcases => ?_
    rcases hcases with rfl | hbetween
    · exact hbefore
    · exact Bool.eq_false_iff.2 fun hloaded => by simp [(hkeeps other hloaded).2] at hbetween
  · rw [Deed.times_cons, Deed.times_append, h.silent hnone other, Deed.times_returned_of_idle hidle]
    simp

/-- A claimed asset is loaded, whether it was made ready or not. -/
theorem isLoaded_prepare (tools : Toolset κ π σ) (types : AssetTypes κ) {id : AssetId} {asset : Asset}
    {work claimed : Work σ} (hclaim : claim work id = some (asset, claimed)) :
    (claimed.prepare tools types id asset).2.state.isLoaded id = true :=
  ((claimed.progress_prepare tools types id asset).isLoaded_eq id).trans
    (State.isLoaded_claim (of_claim hclaim).1).2.1

/-- The accounts of loading are balanced, and whatever was loaded before is loaded afterwards. -/
theorem tallied_traced : Traced tools types Tallied where
  nil _ := ⟨.nil _, fun _ h => h, List.forall_mem_nil _, .nil, fun _ _ => rfl⟩
  append {_ _ _ trail more _ _} hhead htail := by
    refine ⟨hhead.balanced.trans htail.balanced, fun _ h => htail.keeps _ (hhead.keeps _ h), ?_, ?_, ?_⟩
    · intro other hmem
      rcases List.mem_append.1 hmem with hlate | hlate
      · exact (hhead.late other hlate).imp_right (htail.keeps other)
      · -- what was not loaded in between was not loaded before
        refine (htail.late other hlate).imp_left fun hbetween => ?_
        exact Bool.eq_false_iff.2 fun hloaded => by simp [hhead.keeps other hloaded] at hbetween
    · refine List.nodup_append.2 ⟨hhead.nodup, htail.nodup, ?_⟩
      rintro other hother _ hlate rfl
      have hbetween := (hhead.late other hother).2
      simp [(htail.late other hlate).1] at hbetween
    · intro hnone other
      obtain ⟨hfirst, hsecond⟩ := Outcome.failure?_and_eq_none_iff.1 hnone
      rw [Deed.times_append, hhead.silent hfirst, htail.silent hsecond]
  failed hclaim hprepare := by
    have hid := isLoaded_prepare tools types hclaim
    refine Settled.tallied hclaim ?_
    rw [hprepare] at hid ⊢
    exact settled_failed hid _
  late hclaim hprepare := by
    have hid := isLoaded_prepare tools types hclaim
    refine Settled.tallied hclaim ?_
    rw [hprepare] at hid ⊢
    exact settled_late hid _
  ready hclaim hprepare hchildren := by
    have hid := isLoaded_prepare tools types hclaim
    refine Settled.tallied hclaim ?_
    rw [hprepare] at hid ⊢
    exact hchildren.conclude hid

/-- Giving loaded assets back is balanced. -/
theorem balanced_return (ids : List AssetId) (hnodup : ids.Nodup) {work : Work σ}
    (hloaded : ∀ id ∈ ids, work.state.isLoaded id = true) :
    work.state.Balanced (returnTrail ids work) (ids.foldl giveBack work).state := by
  induction ids generalizing work with
  | nil => exact .nil _
  | cons id rest ih =>
    obtain ⟨hid, hrest⟩ := List.forall_mem_cons.1 hloaded
    obtain ⟨hnot, hnodup'⟩ := List.nodup_cons.1 hnodup
    refine (State.Balanced.returned hid).trans (ih hnodup' fun other hmem => ?_)
    have hother : other ≠ id := fun heq => hnot (heq ▸ hmem)
    exact ((work.state.isLoaded_giveBack id).2 other hother).trans (hrest other hmem)

/-- The accounts of a batch are balanced, and a batch that does not fail gives nothing back. -/
theorem balanced_batch {depth : Nat} {ids : List AssetId} {work next : Work σ} {failure? : Option Failure}
    (hbatch : batch tools types depth ids work = some (failure?, next)) :
    work.state.Balanced (batchTrail tools types depth ids work) next.state ∧
      (failure? = none → ∀ id, (Deed.returned id).times (batchTrail tools types depth ids work) = 0) := by
  obtain ⟨trail, outcome, loaded, heach, hloaded, htrail, rfl, rfl⟩ := tallied_traced.batch hbatch
  rw [htrail]
  refine ⟨hloaded.balanced.trans (balanced_return _ hloaded.nodup fun id hmem => (hloaded.late id hmem).2),
    fun hnone id => ?_⟩
  -- where nothing has failed, nothing is late
  rw [Deed.times_append, hloaded.silent hnone id, honest_each late_of_failure?_none ids heach hnone]
  rfl

end Load

/-! ## Batches -/

/-- Whether a deed of loading lets no asset wait: no change is reported, and nothing is given back. -/
def Deed.Calm (deed : Deed) : Prop :=
  deed.Loads ∧ (∀ p, deed ≠ .noticed p) ∧ ∀ id, deed ≠ .returned id

/-- When nothing waits and no asset is let wait, nothing waits in the end. -/
theorem Linked.queue_of_calm {tools : Toolset κ π σ} {outside : Outside σ} {work next : Work σ}
    {trail : List (Moment σ)} (h : Linked tools outside work trail next)
    (hcalm : ∀ moment ∈ trail, moment.deed.Calm) (hqueue : work.state.queue = []) :
    next.state.queue = [] := by
  refine (h.always (fun work => work.state.queue = []) Deed.Calm ?_ hcalm hqueue).2
  intro work moment hqueue hstep hdeed
  obtain ⟨hloads, hnoticed, hreturned⟩ := hdeed
  cases hstep with
  | asked hstate _ => exact (congrArg State.queue hstate).trans hqueue
  | noticed p => exact absurd rfl (hnoticed p)
  | taken invalidate => rfl
  | claimed hclaim =>
    obtain ⟨-, -, hclaimed⟩ := State.of_claim (Load.of_claim hclaim).1
    exact (congrArg State.queue hclaimed).trans hqueue
  | kept unit _ => exact hqueue
  | recorded types modules _ => exact (work.queue_recordAll tools types _ modules).trans hqueue
  | returned _ => exact absurd rfl (hreturned _)
  | begun => exact hloads.elim
  | entered => exact hloads.elim
  | sent => exact hloads.elim
  | laidOut => exact hloads.elim
  | written => exact hloads.elim
  | finished => exact hloads.elim
  | edited => exact hloads.elim
  | closed => exact hloads.elim

namespace State

/-- Whether an asset is loaded and does not wait. -/
def rests (state : State) (id : AssetId) : Bool :=
  state.isLoaded id && !state.queue.contains id

/-- What is loaded after a batch was invalidated is what was loaded and did not wait. -/
theorem isLoaded_drain_eq (state : State) (id : AssetId) :
    (state.drain true).2.isLoaded id = state.rests id := by
  have hstays : ∀ (ids : List AssetId) (graph : AssetGraph), id ∉ ids →
      (ids.foldl (fun graph id => graph.update id Asset.invalidate) graph).get? id = graph.get? id := by
    intro ids
    induction ids with
    | nil => exact fun _ _ => rfl
    | cons other rest ih =>
      intro graph hnot
      obtain ⟨hother, hrest⟩ := not_or.1 (mt List.mem_cons.2 hnot)
      exact (ih _ hrest).trans (AssetGraph.get?_update_of_ne hother _ _)
  unfold rests
  by_cases hbatch : id ∈ (state.drain true).1
  · rw [isLoaded_drain hbatch, List.contains_iff_mem.2 (List.mem_filter.1 hbatch).1, Bool.not_true,
      Bool.and_false]
  · rw [isLoaded_congr (hstays (state.drain true).1 state.graph hbatch)]
    by_cases hqueue : id ∈ state.queue
    · -- it waits, but it is not live
      have hnone : state.isLoaded id = false := by
        refine Bool.eq_false_iff.2 fun hloaded => hbatch (List.mem_filter.2 ⟨hqueue, ?_⟩)
        obtain ⟨asset, hget, -⟩ := isLoaded_iff.1 hloaded
        rw [hget]
        rfl
      rw [hnone, Bool.false_and]
    · have hcontains : state.queue.contains id = false := by simpa using hqueue
      rw [hcontains, Bool.not_false, Bool.and_true]

end State

namespace Pass

variable {tools : Toolset κ π σ} {types : AssetTypes κ}

/-- Whether no changes are reported in a trail. -/
def Undisturbed (trail : List (Moment σ)) : Prop :=
  ∀ moment ∈ trail, ∀ p, moment.deed ≠ .noticed p

instance (trail : List (Moment σ)) : Decidable (Undisturbed trail) :=
  decidable_of_iff (∀ moment ∈ trail, moment.deed.isNoticed = false)
    (forall₂_congr fun _ _ => Deed.isNoticed_eq_false_iff)

/-- Until its loading begins, a batch is at most dropped from the cache. -/
theorem begin_spec (tools : Toolset κ π σ) (first : Bool) (work : Work σ) :
    Linked tools .anything { work with state := (work.state.drain (!first)).2 } (beginTrail tools first work)
        (begin tools first work) ∧
      (work.state.drain (!first)).2.Balanced (beginTrail tools first work) (begin tools first work).state ∧
      ∀ moment ∈ beginTrail tools first work, moment.deed.Loads ∧ moment.deed.Idle := by
  refine ⟨linked_begin tools _ first work, ?_⟩
  unfold beginTrail begin
  cases first with
  | true => exact ⟨.nil _, List.forall_mem_nil _⟩
  | false =>
    have hnotices := notices_forgetAll tools (work.state.drain true).1
      { work with state := (work.state.drain true).2 }
    exact ⟨.of_graph_eq hnotices.graph (Work.forall_answeredTrail Deed.ambient_idle tools _),
      fun moment hmem => ⟨Work.forall_answeredTrail Deed.ambient_loads tools _ moment hmem,
        Work.forall_answeredTrail Deed.ambient_idle tools _ moment hmem⟩⟩

/-- When nothing waits, there is no other batch. -/
theorem drain_idle {first : Bool} {depth batches : Nat} {loaded : List AssetId} {work next : Work σ}
    {result : Except Failure (List AssetId)} (hqueue : work.state.queue = [])
    (hdrain : drain tools types first depth batches loaded work = some (result, next)) :
    next = work ∧ drainTrail tools types first depth batches work = [⟨.taken [], work⟩] := by
  have hempty := State.drain_of_empty hqueue (!first)
  cases batches with
  | zero => simp [drain] at hdrain
  | succ batches =>
    rcases drain_cases hdrain with ⟨-, -, rfl⟩ | ⟨failure, hsome, -⟩ | ⟨after, hsome, -⟩
    · simp [drainTrail, hempty]
    · exact absurd (congrArg Prod.fst hempty) hsome
    · exact absurd (congrArg Prod.fst hempty) hsome

/-- When no changes are reported, a batch that does not fail leaves nothing waiting. -/
theorem queue_of_batch {first : Bool} {depth : Nat} {work after : Work σ}
    (hbatch : Load.batch tools types depth (work.state.drain (!first)).1 (begin tools first work) =
      some (none, after))
    (hbegin : Undisturbed (beginTrail tools first work))
    (hquiet : Undisturbed (Load.batchTrail tools types depth (work.state.drain (!first)).1
      (begin tools first work))) : after.state.queue = [] := by
  obtain ⟨hlinked, -, hbegun⟩ := begin_spec tools first work
  refine (hlinked.append (Load.linked_batch .anything types hbatch)).queue_of_calm ?_ rfl
  refine List.forall_mem_append.2 ⟨fun moment hmem => ?_, fun moment hmem => ?_⟩
  · obtain ⟨hloads, hidle⟩ := hbegun moment hmem
    exact ⟨hloads, hbegin moment hmem, fun id => (hidle id).2⟩
  · refine ⟨(Load.fetches_batchTrail tools types depth _ _ moment hmem).loads, hquiet moment hmem, fun id => ?_⟩
    exact Deed.never_of_times ((Load.balanced_batch hbatch).2 rfl id) moment hmem

/-- When no changes are reported, one batch is loaded at most.  The accounts are balanced from the moment
when it was taken off the queue, and nothing is given back unless loading fails. -/
theorem drain_balanced {first : Bool} {depth batches : Nat} {loaded : List AssetId} {work next : Work σ}
    {result : Except Failure (List AssetId)}
    (hdrain : drain tools types first depth batches loaded work = some (result, next))
    (hquiet : Undisturbed (drainTrail tools types first depth batches work)) :
    (work.state.drain (!first)).2.Balanced (drainTrail tools types first depth batches work) next.state ∧
      ∀ ids, result = .ok ids → ∀ id,
        (Deed.returned id).times (drainTrail tools types first depth batches work) = 0 := by
  cases batches with
  | zero => simp [drain] at hdrain
  | succ batches =>
    have htaken : ∀ (state : State) (ids : List AssetId) (taken : Work σ),
        state.Balanced [⟨.taken ids, taken⟩] state := fun _ _ _ =>
      .of_graph_eq rfl (List.forall_mem_singleton.2 fun _ => ⟨fun h => (by cases h), fun h => (by cases h)⟩)
    rcases drainTrail_cases hdrain with ⟨-, -, rfl, htrail⟩ |
      ⟨failure?, after, more, hbatch, htrail, hrest⟩
    · rw [htrail]
      exact ⟨htaken _ _ _, fun _ _ id => by simp [Deed.times_cons]⟩
    · obtain ⟨-, hbegun, hidle⟩ := begin_spec tools first work
      obtain ⟨hbalanced, hsilent⟩ := Load.balanced_batch hbatch
      rw [htrail] at hquiet ⊢
      have hdone := (htaken _ (work.state.drain (!first)).1
        { work with state := (work.state.drain (!first)).2 }).trans (hbegun.trans hbalanced)
      rcases hrest with ⟨failure, rfl, rfl, rfl, rfl⟩ | ⟨rfl, hrest, rfl⟩
      · refine ⟨?_, fun ids hok => by cases hok⟩
        rw [List.append_nil]
        exact hdone
      · obtain ⟨-, hquiet⟩ := List.forall_mem_cons.1 hquiet
        obtain ⟨hquiet₁, hquiet⟩ := List.forall_mem_append.1 hquiet
        obtain ⟨hquiet₂, -⟩ := List.forall_mem_append.1 hquiet
        obtain ⟨rfl, hmore⟩ := drain_idle (queue_of_batch hbatch hquiet₁ hquiet₂) hrest
        rw [hmore]
        refine ⟨?_, fun _ _ id => ?_⟩
        · have hlast := hdone.trans (htaken next.state [] next)
          simpa only [List.append_assoc, List.cons_append, List.nil_append] using hlast
        · have hforgotten : (Deed.returned id).times (beginTrail tools first work) = 0 :=
            Deed.times_returned_of_idle (fun moment hmem => (hidle moment hmem).2) id
          simp [Deed.times_cons, Deed.times_append, hforgotten, hsilent rfl id]

/-- The same with the live update that follows. -/
theorem gather_balanced {first : Bool} {depth : Nat} {work next : Work σ} {result : Except Failure AssetId}
    (hgather : gather tools types first depth work = some (result, next))
    (hquiet : Undisturbed (gatherTrail tools types first depth work)) :
    (work.state.drain (!first)).2.Balanced (gatherTrail tools types first depth work) next.state ∧
      ∀ start, result = .ok start → ∀ id,
        (Deed.returned id).times (gatherTrail tools types first depth work) = 0 := by
  unfold gatherTrail at hquiet ⊢
  obtain ⟨hquiet, -⟩ := List.forall_mem_append.1 hquiet
  rcases gather_cases hgather with ⟨failure, rfl, hdrain⟩ | ⟨loaded, drained, hdrain, rfl, -⟩
  · obtain ⟨hbalanced, -⟩ := drain_balanced hdrain hquiet
    rw [hdrain]
    exact ⟨hbalanced.trans (.nil _), nofun⟩
  · obtain ⟨hbalanced, hsilent⟩ := drain_balanced hdrain hquiet
    have hidle : ∀ moment ∈ (if first = true then [] else sendTrail tools loaded drained),
        moment.deed.Idle := by
      split
      · exact List.forall_mem_nil _
      · exact List.forall_mem_cons.2
          ⟨fun _ => ⟨nofun, nofun⟩, Work.forall_listenTrail Deed.ambient_idle tools _⟩
    have hsent := (notices_sent tools first loaded drained).graph
    rw [hdrain]
    refine ⟨hbalanced.trans (.of_graph_eq hsent hidle), fun _ _ id => ?_⟩
    dsimp only
    rw [Deed.times_append, hsilent loaded rfl id, Deed.times_returned_of_idle hidle]

/-- When no changes are reported, the accounts of a pass are balanced up to the layout: whoever was loaded
before and did not wait need not be loaded.  Before the entry is found, nobody is loaded. -/
theorem assemble_balanced {setup : Setup κ π} {depth : Nat} {work next : Work σ}
    {result : Except Failure AssetId}
    (hassemble : assemble tools setup depth work = some (result, next))
    (hquiet : Undisturbed (assembleTrail tools setup depth work))
    (hfirst : work.state.start = none → ∀ id, work.state.isLoaded id = false) :
    (∀ id, (next.state.isLoaded id).toNat +
        (Deed.returned id).times (assembleTrail tools setup depth work) =
      (work.state.rests id).toNat + (Deed.claimed id).times (assembleTrail tools setup depth work)) ∧
      ∀ start, result = .ok start → ∀ id,
        (Deed.returned id).times (assembleTrail tools setup depth work) = 0 := by
  unfold assembleTrail at hquiet ⊢
  have hidle : ∀ moment ∈ enterTrail tools setup work, moment.deed.Idle :=
    fun moment hmem => (enters_enterTrail tools setup work moment hmem).idle
  have hrests (hstart : work.state.start = none) (id : AssetId) :
      work.state.rests id = work.state.isLoaded id := by
    rw [State.rests, hfirst hstart id, Bool.false_and]
  rcases assemble_cases hassemble with ⟨failure, hstart, rfl, henter⟩ | ⟨entered, hstart, henter, hgather⟩ |
    ⟨start, hstart, hgather⟩
  · rw [hstart, henter]
    have hbalanced : work.state.Balanced (enterTrail tools setup work) next.state :=
      .of_graph_eq (notices_of_enter_error henter).graph hidle
    refine ⟨fun id => ?_, nofun⟩
    rw [hrests hstart]
    exact (hbalanced.trans (.nil _)) id
  · rw [hstart, henter] at hquiet ⊢
    obtain ⟨-, hquiet⟩ := List.forall_mem_append.1 hquiet
    obtain ⟨hgathered, hsilent⟩ := gather_balanced hgather hquiet
    -- the entry is made, but it is not loaded yet
    obtain ⟨found, module, hnotices, rfl⟩ := enter_ok_cases henter
    have hentered := (State.progress_notices hnotices).trans (found.progress_enter tools setup.types module)
    have hbalanced : work.state.Balanced (enterTrail tools setup work)
        (found.enter tools setup.types module).2.state := .of_idle hentered.isLoaded_eq hidle
    refine ⟨fun id => ?_, fun start hok id => ?_⟩
    · rw [hrests hstart]
      exact (hbalanced.trans hgathered) id
    · simp only [Option.isNone_none, if_true]
      rw [Deed.times_append, Deed.times_returned_of_idle hidle, hsilent start hok id]
  · rw [hstart] at hquiet ⊢
    obtain ⟨hgathered, hsilent⟩ := gather_balanced hgather hquiet
    refine ⟨fun id => ?_, hsilent⟩
    rw [← work.state.isLoaded_drain_eq id]
    exact hgathered id

end Pass
end Build
end ModuleBundler
