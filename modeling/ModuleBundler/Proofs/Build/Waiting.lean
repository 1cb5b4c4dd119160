import Mathlib.Data.List.Induction
import ModuleBundler.Proofs.Build.Assembling
import ModuleBundler.Proofs.Build.Rebuilding
import ModuleBundler.Proofs.Build.Routing
import ModuleBundler.Proofs.History

/-!
# Waiting assets

An asset that waits in the queue waits until a batch is taken off the queue, for a
batch takes whatever waits.  The only other way out of the queue is to be unloaded at
the end of a pass.  An asset that has waited when the pass began has been taken off
by then, so that only a change that is reported while the pass works can be lost in
this way, together with the asset that it concerns.

Main results:

- Theorem {lit}`Step.waits`: how an asset can leave the queue.
- Theorem {lit}`Linked.waits_of_since`: an asset that a change concerned waits until it leaves the queue.
- Theorem {lit}`Session.waits_passTrail`: whoever waits when a pass begins waits until it is taken.
-/

namespace ModuleBundler
namespace Build

variable {κ π σ : Type} {tools : Toolset κ π σ} {outside : Outside σ} {id : AssetId}

/-! ## Ways into the queue and out of it -/

namespace Moment

/-- Whether a change was reported that concerns an asset. -/
def Accepts (id : AssetId) (moment : Moment σ) : Prop :=
  ∃ p, moment.deed = .noticed p ∧ moment.work.state.graph.owner? p = some id

/-- Whether an asset was taken off the queue in a batch. -/
def Takes (id : AssetId) (moment : Moment σ) : Prop :=
  ∃ ids, moment.deed = .taken ids ∧ id ∈ ids

/-- Whether an asset was unloaded, or was not there any more. -/
def Unloads (id : AssetId) (moment : Moment σ) : Prop :=
  moment.deed = .finished ∧ ¬ moment.work.state.graph.IsLive id

end Moment

/-- Whatever waits is in the next batch. -/
theorem State.Routed.mem_drain {state : State} (h : state.Routed) (hid : id ∈ state.queue)
    (invalidate : Bool) : id ∈ (state.drain invalidate).1 :=
  List.mem_filter.2 ⟨hid, AssetGraph.isLive_iff_isSome.1 (h.waiting id hid)⟩

namespace Step

variable {work : Work σ} {moment : Moment σ}

/-- A batch takes whatever waits. -/
theorem takes (h : Step tools outside work moment) (hrouted : work.state.Routed)
    (hid : id ∈ work.state.queue) {ids : List AssetId} (hdeed : moment.deed = .taken ids) :
    moment.Takes id := by
  cases h with
  | taken invalidate => exact ⟨_, rfl, hrouted.mem_drain hid invalidate⟩
  | _ => cases hdeed

/-- An asset waits until it is taken in a batch or unloaded. -/
theorem waits (h : Step tools outside work moment) (hrouted : work.state.Routed)
    (hid : id ∈ work.state.queue) :
    moment.Takes id ∨ moment.Unloads id ∨ id ∈ moment.work.state.queue := by
  cases h with
  | begun hstate _ => exact .inr (.inr (hstate ▸ hid))
  | asked hstate _ => exact .inr (.inr (hstate ▸ hid))
  | noticed p => exact .inr (.inr ((work.notices_notify p).queue id hid))
  | taken invalidate => exact .inl ⟨_, rfl, hrouted.mem_drain hid invalidate⟩
  | claimed hclaim =>
    obtain ⟨-, -, hclaimed⟩ := State.of_claim (Load.of_claim hclaim).1
    rw [hclaimed]
    exact .inr (.inr hid)
  | recorded types modules _ =>
    rw [Work.queue_recordAll]
    exact .inr (.inr hid)
  | returned _ => exact .inr (.inr (mem_includeLast_iff.2 (.inl hid)))
  | entered types module =>
    refine .inr (.inr (mem_includeLast_iff.2 (.inl ?_)))
    rw [(work.enter_eq tools types module).2]
    exact hid
  | finished hashes =>
    have hindexed : ({ work.state with fingerprints := some hashes } : State).graph.Indexed := hrouted.indexed
    obtain ⟨-, hget, hqueue, -⟩ := State.unload_spec hindexed
    by_cases horphan : id ∈ work.state.graph.orphans
    · refine .inr (.inl ⟨rfl, ?_⟩)
      rintro ⟨asset, hasset⟩
      cases hasset.symm.trans ((hget id).trans (if_pos horphan))
    · exact .inr (.inr ((hqueue id).2 ⟨hid, horphan⟩))
  | kept _ _ => exact .inr (.inr hid)
  | sent _ => exact .inr (.inr hid)
  | laidOut _ _ => exact .inr (.inr hid)
  | written _ => exact .inr (.inr hid)
  | edited _ => exact .inr (.inr hid)
  | closed _ => exact .inr (.inr hid)

/-- An asset that a change concerns waits. -/
theorem queue_of_accepts (h : Step tools outside work moment) (haccepts : moment.Accepts id) :
    id ∈ moment.work.state.queue := by
  obtain ⟨p, hdeed, howner⟩ := haccepts
  cases h with
  | noticed q =>
    cases hdeed
    rw [(work.notices_notify p).graph] at howner
    have hnotify : work.state.notify p = (some id, work.state.enqueue id) := by
      unfold State.notify
      rw [howner]
    unfold Work.notify
    rw [hnotify]
    exact mem_includeLast id work.state.queue
  | _ => cases hdeed

end Step

/-! ## Trails -/

namespace Linked

variable {work next : Work σ} {trail : List (Moment σ)}

/-- In a trail in which nothing is unloaded an asset waits until it is taken. -/
theorem waits (h : Linked tools outside work trail next) (hrouted : work.state.Routed)
    (hid : id ∈ work.state.queue) (htakes : ∀ moment ∈ trail, ¬ moment.Takes id)
    (hfinished : ∀ moment ∈ trail, moment.deed ≠ .finished) :
    next.state.Routed ∧ id ∈ next.state.queue := by
  refine (h.always (fun work => work.state.Routed ∧ id ∈ work.state.queue)
    (fun deed => (¬ ∃ ids, deed = .taken ids ∧ id ∈ ids) ∧ deed ≠ .finished) ?_
    (fun moment hmem => ⟨htakes moment hmem, hfinished moment hmem⟩) ⟨hrouted, hid⟩).2
  intro work moment hwork hstep hdeed
  refine ⟨hstep.routed hwork.1, ?_⟩
  rcases hstep.waits hwork.1 hwork.2 with htaken | hunloaded | hqueue
  · exact absurd htaken hdeed.1
  · exact absurd hunloaded.1 hdeed.2
  · exact hqueue

/-- In a trail in which nothing is unloaded an asset that waits at its beginning is in the first batch. -/
theorem exists_takes (h : Linked tools outside work trail next) (hrouted : work.state.Routed)
    (hid : id ∈ work.state.queue) (hfinished : ∀ moment ∈ trail, moment.deed ≠ .finished)
    {taken : Moment σ} (hmem : taken ∈ trail) {ids : List AssetId} (hdeed : taken.deed = .taken ids) :
    ∃ moment ∈ trail, moment.Takes id := by
  refine Classical.byContradiction fun hnone => ?_
  have htakes : ∀ moment ∈ trail, ¬ moment.Takes id := fun moment hmem htakes => hnone ⟨moment, hmem, htakes⟩
  obtain ⟨before, after, rfl⟩ := List.append_of_mem hmem
  obtain ⟨reached, hbefore, hstep⟩ := h.split.1.last
  obtain ⟨hrouted, hqueue⟩ := hbefore.waits hrouted hid
    (fun moment hmem => htakes moment (List.mem_append_left _ hmem))
    (fun moment hmem => hfinished moment (List.mem_append_left _ hmem))
  exact htakes taken (by simp) (hstep.takes hrouted hqueue hdeed)

/-- An asset that a change concerned waits unless it was taken in a batch or unloaded since. -/
theorem waits_of_since (h : Linked tools outside work trail next) (hrouted : work.state.Routed)
    (hsince : Since (Moment.Accepts id) (fun moment => moment.Takes id ∨ moment.Unloads id) trail) :
    next.state.Routed ∧ id ∈ next.state.queue := by
  induction trail using List.reverseRecOn generalizing next with
  | nil => exact absurd hsince since_nil
  | append_singleton trail moment ih =>
    obtain ⟨before, hbefore, hstep⟩ := h.last
    obtain rfl : moment.work = next := by
      cases h.split.2
      rfl
    rcases since_append.1 hsince with haccepts | ⟨hsince, hnot⟩
    · obtain ⟨-, hready⟩ := hbefore.always (fun work => work.state.Routed) (fun _ => True)
        (fun hwork hstep _ => hstep.routed hwork) (fun _ _ => trivial) hrouted
      exact ⟨hstep.routed hready, hstep.queue_of_accepts haccepts⟩
    · obtain ⟨hready, hqueue⟩ := ih hbefore hsince
      refine ⟨hstep.routed hready, ?_⟩
      rcases hstep.waits hready hqueue with htakes | hunloads | hqueue
      · exact absurd (.inl htakes) hnot
      · exact absurd (.inr hunloads) hnot
      · exact hqueue

end Linked

/-- Whether an asset waits at every moment of a trail, and in the work to which it leads, until it is taken. -/
structure Waits (id : AssetId) (trail : List (Moment σ)) (work : Work σ) : Prop where
  moments : ∀ before moment later, trail = before ++ moment :: later →
    (∀ earlier ∈ before ++ [moment], ¬ earlier.Takes id) → id ∈ moment.work.state.queue
  work : (∀ moment ∈ trail, ¬ moment.Takes id) → id ∈ work.state.queue

namespace Waits

variable {work mid next : Work σ} {trail more : List (Moment σ)}

theorem nil (hid : id ∈ work.state.queue) : Waits id [] work where
  moments _ _ _ heq := by simp at heq
  work _ := hid

/-- Who waits at one more moment waits to the end of it. -/
theorem single {moment : Moment σ} (hid : id ∈ moment.work.state.queue) :
    Waits id [moment] moment.work where
  moments before last later heq _ := by
    rcases List.singleton_eq_append_iff.1 heq with ⟨-, hlast⟩ | ⟨-, hnil⟩
    · rwa [(List.cons.inj hlast).1]
    · simp at hnil
  work _ := hid

/-- Who has waited goes on to wait. -/
theorem append (h : Waits id trail mid) (hmore : id ∈ mid.state.queue → Waits id more next) :
    Waits id (trail ++ more) next where
  moments before moment later heq htakes := by
    rcases List.append_eq_append_iff.1 heq with ⟨rest, rfl, rfl⟩ | ⟨rest, rfl, hrest⟩
    · rw [List.append_assoc] at htakes
      obtain ⟨htrail, hrest⟩ := List.forall_mem_append.1 htakes
      exact (hmore (h.work htrail)).moments rest moment later rfl hrest
    · cases rest with
      | nil =>
        obtain ⟨htrail, hmoment⟩ := List.forall_mem_append.1 htakes
        rw [List.append_nil] at h
        exact (hmore (h.work htrail)).moments [] moment later hrest.symm hmoment
      | cons first rest =>
        obtain ⟨rfl, rfl⟩ := List.cons.inj hrest
        exact h.moments before moment rest rfl htakes
  work htakes := by
    obtain ⟨htrail, hrest⟩ := List.forall_mem_append.1 htakes
    exact (hmore (h.work htrail)).work hrest

end Waits

/-! ## Passes -/

namespace Pass

/-- Assets are assembled only after a batch was taken off the queue. -/
theorem exists_taken {setup : Setup κ π} {depth : Nat} {start : AssetId} {work next : Work σ}
    (hassemble : assemble tools setup depth work = some (.ok start, next)) :
    ∃ moment ∈ assembleTrail tools setup depth work, ∃ ids, moment.deed = .taken ids := by
  have hgather : ∀ {types : AssetTypes κ} {first : Bool} {work : Work σ} {result : Except Failure AssetId},
      gather tools types first depth work = some (result, next) →
        ∃ moment ∈ gatherTrail tools types first depth work, ∃ ids, moment.deed = .taken ids := by
    intro types first work result hgather
    cases depth with
    | zero => simp [gather, drain] at hgather
    | succ depth =>
      unfold gatherTrail drainTrail
      exact ⟨_, List.mem_append_left _ List.mem_cons_self, _, rfl⟩
  unfold assembleTrail
  rcases assemble_cases hassemble with ⟨failure, -, hfailure, -⟩ | ⟨entered, hstart, henter, hgathered⟩ |
    ⟨origin, hstart, hgathered⟩
  · cases hfailure
  · obtain ⟨moment, hmem, htaken⟩ := hgather hgathered
    rw [hstart, henter]
    exact ⟨moment, List.mem_append_right _ hmem, htaken⟩
  · rw [hstart]
    exact hgather hgathered

end Pass

namespace Session

variable {session session' : Session κ π σ} {depth : Nat} {result : Except Failure Report}

/-- What a pass does until its assets are assembled. -/
def assemblingTrail (session : Session κ π σ) (depth : Nat) : List (Moment σ) :=
  ⟨.begun session.opening.state.start.isNone, session.opening⟩ ::
    Pass.assembleTrail session.tools session.setup depth session.opening

theorem not_finished_assemblingTrail (session : Session κ π σ) (depth : Nat) :
    ∀ moment ∈ session.assemblingTrail depth, moment.deed ≠ .finished := by
  refine List.forall_mem_cons.2 ⟨nofun, fun moment hmem heq => ?_⟩
  have hassembles := Pass.assembles_assembleTrail session.tools session.setup depth session.opening moment hmem
  rw [heq] at hassembles
  exact hassembles

/-- A pass that unloads assets has taken a batch off the queue while it assembled them. -/
theorem exists_taken_of_finished {moment : Moment σ} (hmem : moment ∈ session.passTrail depth)
    (hdeed : moment.deed = .finished) :
    ∃ taken ∈ session.assemblingTrail depth, ∃ ids, taken.deed = .taken ids := by
  rcases mem_passTrail_cases hmem with hbegun | hmem | ⟨start, assembled, hassemble, -⟩ | hasked | hclosed
  · cases hdeed.symm.trans hbegun
  · exact absurd hdeed (not_finished_assemblingTrail session depth moment (List.mem_cons_of_mem _ hmem))
  · obtain ⟨taken, hmem, htaken⟩ := Pass.exists_taken hassemble
    exact ⟨taken, List.mem_cons_of_mem _ hmem, htaken⟩
  · cases hdeed.symm.trans hasked
  · cases hdeed.symm.trans hclosed

/-- Who waits when a pass begins is taken before anything is unloaded. -/
theorem not_finished_of_not_takes (hbundle : session.bundle? depth = some (result, session'))
    (hrouted : session.work.state.Routed) (hid : id ∈ session.work.state.queue)
    {front back : List (Moment σ)} (htrail : session.passTrail depth = front ++ back)
    (htakes : ∀ moment ∈ front, ¬ moment.Takes id) : ∀ moment ∈ front, moment.deed ≠ .finished := by
  intro finished hmem hdeed
  have hassembling := session.not_finished_assemblingTrail depth
  have htaken := exists_taken_of_finished (htrail ▸ List.mem_append_left back hmem) hdeed
  have hlinked := linked_passTrail .anything hbundle
  obtain ⟨rest, hpass, -⟩ : ∃ rest, session.passTrail depth = session.assemblingTrail depth ++ rest ∧ _ :=
    session.passTrail_cases depth
  rw [hpass] at htrail hlinked
  rcases List.append_eq_append_iff.1 htrail with ⟨more, rfl, -⟩ | ⟨more, hsplit, -⟩
  · -- the assets have been assembled by then, and the asset was in the first batch
    obtain ⟨taken, hmem, ids, hdeed⟩ := htaken
    obtain ⟨before, after, hsplit⟩ := List.append_of_mem hmem
    rw [hsplit, List.append_assoc] at htakes hlinked
    rw [hsplit] at hassembling
    have hwithin : ∀ moment ∈ before ++ [taken], moment ∈ before ++ taken :: after := by
      intro moment hmem
      rcases List.mem_append.1 hmem with hmem | hmem
      · exact List.mem_append_left _ hmem
      · simp [List.mem_singleton.1 hmem]
    obtain ⟨moment, hmem, hmoment⟩ := hlinked.split.1.exists_takes hrouted hid
      (fun moment hmem => hassembling moment (hwithin moment hmem)) (by simp) hdeed
    refine htakes moment ?_ hmoment
    rw [← List.append_assoc]
    exact List.mem_append_left _ (hwithin moment hmem)
  · exact hassembling finished (hsplit ▸ List.mem_append_left _ hmem) hdeed

/-- Who waits when a pass begins waits until it is taken. -/
theorem waits_passTrail (hbundle : session.bundle? depth = some (result, session'))
    (hrouted : session.work.state.Routed) (hid : id ∈ session.work.state.queue) :
    Waits id (session.passTrail depth) session'.work where
  moments before moment later heq htakes := by
    have hlinked := linked_passTrail .anything hbundle
    rw [heq] at hlinked
    have hfront : session.passTrail depth = (before ++ [moment]) ++ later := by rw [heq]; simp
    exact (hlinked.split.1.waits hrouted hid htakes
      (not_finished_of_not_takes hbundle hrouted hid hfront htakes)).2
  work htakes := (linked_passTrail .anything hbundle).waits hrouted hid htakes
    (not_finished_of_not_takes hbundle hrouted hid (List.append_nil _).symm htakes) |>.2

end Session

end Build
end ModuleBundler
