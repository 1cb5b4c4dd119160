import ModuleBundler.Proofs.Build.Assembling
import ModuleBundler.Proofs.Build.Stepping

/-!
# What a pass takes in

A pass takes batches off the queue and claims assets.  It claims an asset only if the
asset is dirty, and it keeps output of an asset, or gives the asset back, only after
it has claimed it.  Whoever was dirty before the pass has waited in the queue, and
new assets have no home in any bundle.  So whatever a pass compiles was taken off the
queue by the same pass, or it has no home.

Main results:

- Theorem {lit}`Load.handled_traced`: an asset is kept or given back only after it was claimed.
- Theorem {lit}`Pass.proper_drain`: what was loaded is what was taken off the queue.
- Theorem {lit}`Linked.reserved`: what was claimed was taken off the queue or has no home.
-/

namespace ModuleBundler

/-! ## Lists without repetition -/

theorem mem_foldl_includeLast {α : Type} [BEq α] [LawfulBEq α] {a : α} (more as : List α) :
    a ∈ more.foldl (fun as b => includeLast b as) as ↔ a ∈ as ∨ a ∈ more := by
  induction more generalizing as with
  | nil => simp
  | cons b rest ih =>
    refine (ih _).trans ?_
    rw [mem_includeLast_iff, List.mem_cons, or_assoc]

theorem nodup_foldl_includeLast {α : Type} [BEq α] [LawfulBEq α] (more : List α) {as : List α}
    (h : as.Nodup) : (more.foldl (fun as b => includeLast b as) as).Nodup := by
  induction more generalizing as with
  | nil => exact h
  | cons b rest ih => exact ih (nodup_includeLast h b)

namespace AssetGraph

/-! ## Assets with a home -/

/-- Whether the assets with a home had it before, and were not made dirty. -/
def Spares (old new : AssetGraph) : Prop :=
  ∀ id asset, new.get? id = some asset → asset.home = none ∨
    ∃ before, old.get? id = some before ∧ before.home = asset.home ∧
      (asset.dirty = true → before.dirty = true)

namespace Spares

theorem refl (graph : AssetGraph) : graph.Spares graph :=
  fun _ asset hget => .inr ⟨asset, hget, rfl, fun h => h⟩

theorem trans {a b c : AssetGraph} (hab : a.Spares b) (hbc : b.Spares c) : a.Spares c := by
  intro id asset hget
  rcases hbc id asset hget with hhome | ⟨between, hbetween, hhome, hdirty⟩
  · exact .inl hhome
  · rcases hab id between hbetween with hnone | ⟨before, hbefore, hsame, hdirty'⟩
    · exact .inl (hhome.symm.trans hnone)
    · exact .inr ⟨before, hbefore, hsame.trans hhome, fun h => hdirty' (hdirty h)⟩

theorem of_get? {old new : AssetGraph} (h : ∀ id, new.get? id = old.get? id) : old.Spares new :=
  fun id asset hget => .inr ⟨asset, (h id).symm.trans hget, rfl, fun h => h⟩

theorem update (graph : AssetGraph) (id : AssetId) {change : Asset → Asset}
    (hhome : ∀ asset, (change asset).home = asset.home)
    (hdirty : ∀ asset, (change asset).dirty = true → asset.dirty = true) :
    graph.Spares (graph.update id change) := by
  intro other asset hget
  rcases get?_update_cases hget with ⟨-, hget⟩ | ⟨before, rfl, hbefore, rfl⟩
  · exact .inr ⟨asset, hget, rfl, fun h => h⟩
  · exact .inr ⟨before, hbefore, (hhome before).symm, hdirty before⟩

/-- A new asset has no home. -/
theorem insert (graph : AssetGraph) (p : Path) (kind : Kind) (package : Package) :
    graph.Spares (graph.insert p kind package).2 := by
  unfold AssetGraph.insert
  split
  · exact refl graph
  · intro id asset hget
    rw [get?_add] at hget
    split at hget
    · cases hget
      exact .inl rfl
    · exact .inr ⟨asset, hget, rfl, fun h => h⟩

end Spares

end AssetGraph

namespace Build

variable {κ π σ : Type}

/-! ## Taking in -/

/-- The assets that a pass has taken off the queue, and those that it has claimed. -/
structure Intake where
  taken : List AssetId := []
  claimed : List AssetId := []

namespace Intake

/-- What was taken in after a deed. -/
def next (intake : Intake) : Deed → Intake
  | .taken ids => { intake with taken := ids ++ intake.taken }
  | .claimed id => { intake with claimed := id :: intake.claimed }
  | _ => intake

/-- What was taken in after a trail. -/
def after (intake : Intake) (trail : List (Moment σ)) : Intake :=
  trail.foldl (fun intake moment => intake.next moment.deed) intake

/-- Whether a deed concerns no other assets than claimed ones. -/
def Admits (intake : Intake) : Deed → Prop
  | .kept id _ | .returned id => id ∈ intake.claimed
  | _ => True

/-- Whether assets are kept and given back only after they were claimed. -/
def Proper (intake : Intake) : List (Moment σ) → Prop
  | [] => True
  | moment :: rest => intake.Admits moment.deed ∧ (intake.next moment.deed).Proper rest

variable {intake : Intake} {trail more : List (Moment σ)} {id : AssetId}

theorem after_append (intake : Intake) (trail more : List (Moment σ)) :
    intake.after (trail ++ more) = (intake.after trail).after more :=
  List.foldl_append

theorem Proper.append (h : intake.Proper trail) (hmore : (intake.after trail).Proper more) :
    intake.Proper (trail ++ more) := by
  induction trail generalizing intake with
  | nil => exact hmore
  | cons moment rest ih => exact ⟨h.1, ih h.2 hmore⟩

/-! ### Deeds that take nothing in -/

/-- Whether a deed takes nothing in and is admitted. -/
def Passes (intake : Intake) (deed : Deed) : Prop :=
  intake.next deed = intake ∧ intake.Admits deed

theorem ambient_passes (intake : Intake) : Deed.Ambient intake.Passes :=
  ⟨⟨rfl, trivial⟩, fun _ => ⟨rfl, trivial⟩⟩

theorem passes_of_readies (hclaimed : id ∈ intake.claimed) {deed : Deed} (h : deed.Readies id) :
    intake.Passes deed := by
  cases deed <;> first | exact h.elim | exact ⟨rfl, trivial⟩ | exact ⟨rfl, h ▸ hclaimed⟩

theorem of_passes (h : ∀ moment ∈ trail, intake.Passes moment.deed) :
    intake.Proper trail ∧ intake.after trail = intake := by
  induction trail with
  | nil => exact ⟨trivial, rfl⟩
  | cons moment rest ih =>
    obtain ⟨⟨hnext, hadmits⟩, hrest⟩ := List.forall_mem_cons.1 h
    obtain ⟨hproper, hafter⟩ := ih hrest
    refine ⟨⟨hadmits, by rwa [hnext]⟩, ?_⟩
    rw [show intake.after (moment :: rest) = (intake.next moment.deed).after rest from rfl, hnext, hafter]

/-! ### What was taken in -/

theorem mem_claimed_next (h : id ∈ intake.claimed) (deed : Deed) : id ∈ (intake.next deed).claimed := by
  cases deed <;> first | exact h | exact List.mem_cons_of_mem _ h

theorem mem_claimed_after (h : id ∈ intake.claimed) (trail : List (Moment σ)) :
    id ∈ (intake.after trail).claimed := by
  induction trail generalizing intake with
  | nil => exact h
  | cons moment rest ih => exact ih (mem_claimed_next h moment.deed)

/-- What is kept in a proper trail was claimed. -/
theorem Proper.mem_claimed (h : intake.Proper trail) {unit : CompiledUnit} {kept : Work σ}
    (hmem : ⟨.kept id unit, kept⟩ ∈ trail) : id ∈ (intake.after trail).claimed := by
  induction trail generalizing intake with
  | nil => cases hmem
  | cons moment rest ih =>
    rcases List.mem_cons.1 hmem with heq | hmem
    · have hadmits : intake.Admits moment.deed := h.1
      rw [← heq] at hadmits
      exact mem_claimed_after (mem_claimed_next hadmits moment.deed) rest
    · exact ih h.2 hmem

theorem mem_taken_next (intake : Intake) (deed : Deed) :
    id ∈ (intake.next deed).taken ↔ id ∈ intake.taken ∨ ∃ ids, deed = .taken ids ∧ id ∈ ids := by
  cases deed <;> simp [next, or_comm]

/-- What was taken in was taken before or is taken in the trail. -/
theorem mem_taken_after (intake : Intake) (trail : List (Moment σ)) :
    id ∈ (intake.after trail).taken ↔
      id ∈ intake.taken ∨ ∃ ids taken, ⟨.taken ids, taken⟩ ∈ trail ∧ id ∈ ids := by
  induction trail generalizing intake with
  | nil => simp [after]
  | cons moment rest ih =>
    refine (ih (intake.next moment.deed)).trans ?_
    rw [mem_taken_next, or_assoc]
    refine or_congr_right ⟨?_, ?_⟩
    · rintro (⟨ids, hdeed, hid⟩ | ⟨ids, taken, hmem, hid⟩)
      · exact ⟨ids, moment.work, List.mem_cons.2 (.inl (hdeed ▸ rfl)), hid⟩
      · exact ⟨ids, taken, List.mem_cons_of_mem _ hmem, hid⟩
    · rintro ⟨ids, taken, hmem, hid⟩
      rcases List.mem_cons.1 hmem with rfl | hmem
      · exact .inl ⟨ids, rfl, hid⟩
      · exact .inr ⟨ids, taken, hmem, hid⟩

/-- While a batch is loaded, nothing is taken off the queue. -/
theorem taken_after_of_fetches (intake : Intake) (h : ∀ moment ∈ trail, moment.deed.Fetches) :
    (intake.after trail).taken = intake.taken := by
  induction trail generalizing intake with
  | nil => rfl
  | cons moment rest ih =>
    obtain ⟨hmoment, hrest⟩ := List.forall_mem_cons.1 h
    refine (ih (intake.next moment.deed) hrest).trans ?_
    generalize moment.deed = deed at hmoment
    cases deed <;> first | rfl | exact hmoment.elim

end Intake

/-! ## Loading -/

namespace Load

variable {tools : Toolset κ π σ} {types : AssetTypes κ}

/-- Whether assets are kept and given back only after they were claimed, also those that are late. -/
structure Handled (intake : Intake) (trail : List (Moment σ)) (outcome : Outcome) : Prop where
  proper : intake.Proper trail
  late : ∀ id ∈ outcome.late, id ∈ (intake.after trail).claimed

/-- Giving claimed assets back is proper. -/
theorem proper_return {intake : Intake} (ids : List AssetId) (work : Work σ)
    (hclaimed : ∀ id ∈ ids, id ∈ intake.claimed) : intake.Proper (returnTrail ids work) := by
  induction ids generalizing work with
  | nil => exact trivial
  | cons id rest ih =>
    obtain ⟨hid, hrest⟩ := List.forall_mem_cons.1 hclaimed
    exact ⟨hid, ih _ hrest⟩

theorem handled_conclude {intake : Intake} {id : AssetId} {children : Outcome} (work : Work σ)
    (hid : id ∈ intake.claimed) (hlate : ∀ other ∈ children.late, other ∈ intake.claimed) :
    Handled intake (concludeTrail id children work) (conclude id children work).1 := by
  unfold concludeTrail conclude
  split
  · rename_i failure hsome hnil
    rw [hsome, hnil]
    exact ⟨proper_return [id] work (List.forall_mem_singleton.2 hid), fun _ hmem => by cases hmem⟩
  · rename_i hnot
    split
    · exact ⟨trivial, fun _ hmem => by cases hmem⟩
    · rename_i failure hsome hnil
      exact absurd hnil (hnot failure hsome)
    · refine ⟨trivial, fun other hmem => ?_⟩
      rcases List.mem_append.1 hmem with hmem | hmem
      · exact hlate other hmem
      · exact List.mem_singleton.1 hmem ▸ hid

/-- After it was claimed, an asset can be kept and given back. -/
theorem Handled.claimed {intake : Intake} {id : AssetId} {asset : Asset} {claimed : Work σ}
    {rest : List (Moment σ)} {outcome : Outcome} (h : Handled (intake.next (.claimed id)) rest outcome) :
    Handled intake (⟨.claimed id, claimed⟩ :: (claimed.prepareTrail tools types id asset ++ rest)) outcome := by
  have hid : id ∈ (intake.next (.claimed id)).claimed := List.mem_cons_self
  obtain ⟨hproper, hafter⟩ := Intake.of_passes fun moment hmem =>
    Intake.passes_of_readies hid (claimed.readies_prepareTrail tools types id asset moment hmem)
  refine ⟨⟨trivial, hproper.append (by rw [hafter]; exact h.proper)⟩, fun other hmem => ?_⟩
  show other ∈ ((intake.next (.claimed id)).after _).claimed
  rw [Intake.after_append, hafter]
  exact h.late other hmem

/-- While assets are loaded, they are kept and given back only after they were claimed. -/
theorem handled_traced : Traced tools types fun _ trail outcome _ => ∀ intake, Handled intake trail outcome where
  nil _ _ := ⟨trivial, nofun⟩
  append {_ _ _ trail more _ _} hhead htail intake := by
    have hmore := htail (intake.after trail)
    refine ⟨(hhead intake).proper.append hmore.proper, fun other hmem => ?_⟩
    rw [Intake.after_append]
    rcases List.mem_append.1 hmem with hlate | hlate
    · exact Intake.mem_claimed_after ((hhead intake).late other hlate) _
    · exact hmore.late other hlate
  failed {id _ _ _ prepared _} _ _ _ :=
    .claimed ⟨proper_return [id] prepared (List.forall_mem_singleton.2 List.mem_cons_self), nofun⟩
  late _ _ _ := .claimed ⟨trivial, List.forall_mem_singleton.2 List.mem_cons_self⟩
  ready {id _ _ _ _ loaded _ _ _} _ _ hchildren intake := by
    have hmore := hchildren (intake.next (.claimed id))
    have hconclude := handled_conclude loaded (Intake.mem_claimed_after List.mem_cons_self _) hmore.late
    refine .claimed ⟨hmore.proper.append hconclude.proper, ?_⟩
    rw [Intake.after_append]
    exact hconclude.late

/-- While a batch is loaded, assets are kept and given back only after they were claimed. -/
theorem proper_batch {depth : Nat} {ids : List AssetId} {work next : Work σ} {failure? : Option Failure}
    (intake : Intake) (hbatch : batch tools types depth ids work = some (failure?, next)) :
    intake.Proper (batchTrail tools types depth ids work) := by
  obtain ⟨trail, outcome, loaded, -, hloaded, htrail, -⟩ := handled_traced.batch hbatch
  rw [htrail]
  exact (hloaded intake).proper.append (proper_return outcome.late loaded (hloaded intake).late)

end Load

/-! ## Loading batches -/

namespace Pass

variable {tools : Toolset κ π σ} {types : AssetTypes κ}

/-- Dropping a batch from the cache takes nothing in. -/
theorem passes_beginTrail (tools : Toolset κ π σ) (intake : Intake) (first : Bool) (work : Work σ) :
    ∀ moment ∈ beginTrail tools first work, intake.Passes moment.deed := by
  unfold beginTrail
  split
  · exact List.forall_mem_nil _
  · exact Work.forall_answeredTrail intake.ambient_passes tools _

/-- While batches are loaded, assets are kept and given back only after they were claimed, and what is
loaded is what was taken off the queue. -/
theorem proper_drain {first : Bool} {depth batches : Nat} {loaded : List AssetId} {work next : Work σ}
    {result : Except Failure (List AssetId)} (intake : Intake)
    (hloaded : ∀ id, id ∈ loaded ↔ id ∈ intake.taken)
    (hdrain : drain tools types first depth batches loaded work = some (result, next)) :
    intake.Proper (drainTrail tools types first depth batches work) ∧ ∀ ids, result = .ok ids →
      ∀ id, id ∈ ids ↔ id ∈ (intake.after (drainTrail tools types first depth batches work)).taken := by
  induction batches generalizing loaded work intake with
  | zero => simp [drain] at hdrain
  | succ batches ih =>
    rcases drainTrail_cases hdrain with ⟨-, rfl, -, htrail⟩ | ⟨failure?, after, more, hbatch, htrail, hrest⟩
    · rw [htrail]
      exact ⟨⟨trivial, trivial⟩, fun found hok => by cases hok; exact hloaded⟩
    · rw [htrail]
      generalize (work.state.drain (!first)).1 = ids at hbatch hrest ⊢
      obtain ⟨hproper, hafter⟩ := Intake.of_passes
        (passes_beginTrail tools (intake.next (.taken ids)) first work)
      have hproper' := Load.proper_batch (intake.next (.taken ids)) hbatch
      have htaken := (intake.next (.taken ids)).taken_after_of_fetches
        (Load.fetches_batchTrail tools types depth ids (begin tools first work))
      rcases hrest with ⟨failure, -, rfl, -, rfl⟩ | ⟨-, hrest, rfl⟩
      · refine ⟨⟨trivial, hproper.append ?_⟩, fun _ hok => by cases hok⟩
        rw [hafter]
        exact hproper'.append trivial
      · obtain ⟨hmore, hfound⟩ := ih _ (fun id => by
          rw [mem_foldl_includeLast, htaken, hloaded id]
          exact or_comm.trans List.mem_append.symm) hrest
        refine ⟨⟨trivial, hproper.append ?_⟩, fun found hok id => (hfound found hok id).trans ?_⟩
        · rw [hafter]
          exact hproper'.append hmore
        · rw [show intake.after (_ :: _) = (intake.next (.taken ids)).after _ from rfl,
            Intake.after_append, hafter, Intake.after_append]

end Pass

/-! ## Assets in reserve -/

/-- Whether whoever is dirty, and whoever was claimed, was taken off the queue or has no home. -/
structure Reserved (intake : Intake) (graph : AssetGraph) : Prop where
  dirty : ∀ {id : AssetId} {asset : Asset}, graph.get? id = some asset → asset.dirty = true →
    id ∈ intake.taken ∨ asset.home = none
  claimed : ∀ {id : AssetId} {asset : Asset}, graph.get? id = some asset → id ∈ intake.claimed →
    id ∈ intake.taken ∨ asset.home = none

namespace Reserved

variable {intake : Intake} {graph : AssetGraph}

theorem spares {new : AssetGraph} (h : Reserved intake graph) (hspares : graph.Spares new) :
    Reserved intake new where
  dirty := by
    intro id asset hget hdirty
    rcases hspares id asset hget with hhome | ⟨before, hbefore, hhome, hsame⟩
    · exact .inr hhome
    · exact hhome ▸ h.dirty hbefore (hsame hdirty)
  claimed := by
    intro id asset hget hclaimed
    rcases hspares id asset hget with hhome | ⟨before, hbefore, hhome, -⟩
    · exact .inr hhome
    · exact hhome ▸ h.claimed hbefore hclaimed

/-- A claimed asset is in reserve when it is given back. -/
theorem giveBack {id : AssetId} (h : Reserved intake graph) (hclaimed : id ∈ intake.claimed) :
    Reserved intake (graph.update id fun asset => { asset with dirty := true }) where
  dirty := by
    intro other asset hget hdirty
    rcases AssetGraph.get?_update_cases hget with ⟨-, hget⟩ | ⟨before, rfl, hbefore, rfl⟩
    · exact h.dirty hget hdirty
    · have hbefore := h.claimed hbefore hclaimed
      exact hbefore
  claimed := by
    intro other asset hget hother
    rcases AssetGraph.get?_update_cases hget with ⟨-, hget⟩ | ⟨before, rfl, hbefore, rfl⟩
    · exact h.claimed hget hother
    · have hbefore := h.claimed hbefore hother
      exact hbefore

/-- A dirty asset is in reserve when it is claimed. -/
theorem claim {state state' : State} {id : AssetId} {asset : Asset} (h : Reserved intake state.graph)
    (hclaim : state.claim id = some (asset, state')) :
    Reserved (intake.next (.claimed id)) state'.graph := by
  obtain ⟨hget, hdirty, rfl⟩ := State.of_claim hclaim
  have hspares : state.graph.Spares (state.graph.update id fun asset => { asset with dirty := false }) :=
    .update _ _ (fun _ => rfl) fun _ h => by cases h
  refine ⟨(h.spares hspares).dirty, fun {other found} hfound hclaimed => ?_⟩
  rcases List.mem_cons.1 hclaimed with rfl | hclaimed
  · rw [AssetGraph.get?_update_self, hget] at hfound
    cases hfound
    have hreserved := h.dirty hget hdirty
    exact hreserved
  · exact (h.spares hspares).claimed hfound hclaimed

/-- What is taken off the queue is in reserve. -/
theorem drain {state : State} (h : Reserved intake state.graph) (invalidate : Bool) :
    Reserved (intake.next (.taken (state.drain invalidate).1)) (state.drain invalidate).2.graph := by
  have hmore : Reserved (intake.next (.taken (state.drain invalidate).1)) state.graph :=
    ⟨fun hget hdirty => (h.dirty hget hdirty).imp_left (List.mem_append_right _),
      fun hget hclaimed => (h.claimed hget hclaimed).imp_left (List.mem_append_right _)⟩
  refine state.graph_drain (Reserved _) invalidate (fun id hid h => ⟨?_, ?_⟩) hmore
  · intro other asset hget hdirty
    rcases AssetGraph.get?_update_cases hget with ⟨-, hget⟩ | ⟨before, rfl, -, rfl⟩
    · exact h.dirty hget hdirty
    · exact .inl (List.mem_append_left _ hid)
  · intro other asset hget hclaimed
    rcases AssetGraph.get?_update_cases hget with ⟨-, hget⟩ | ⟨before, rfl, -, rfl⟩
    · exact h.claimed hget hclaimed
    · exact .inl (List.mem_append_left _ hid)

end Reserved

/-- Recording the imports of an asset spares the assets with a home. -/
theorem Work.spares_recordAll (tools : Toolset κ π σ) (types : AssetTypes κ) (id : AssetId)
    (modules : List (Dependency × Lookup.Modules.Resolved)) (work : Work σ) :
    work.state.graph.Spares (recordAll tools types id modules work).2.state.graph := by
  induction modules generalizing work with
  | nil => exact .refl _
  | cons found rest ih =>
    have hrecord : work.state.graph.Spares (work.record tools types id found).2.state.graph := by
      rcases record_cases tools types id found work with ⟨-, hstate⟩ | ⟨-, hstate⟩
      · rw [hstate]
        exact .of_get? fun other => AssetGraph.get?_makeAlias _ _ _ other
      · rw [hstate]
        exact .trans (.insert _ _ _ _) (.update _ _ (fun _ => rfl) fun _ h => h)
    exact hrecord.trans (ih _)

/-- What is claimed was taken off the queue or has no home, and so has whatever is dirty. -/
theorem Reserved.step {tools : Toolset κ π σ} {outside : Outside σ} {intake : Intake} {work : Work σ}
    {moment : Moment σ} (h : Reserved intake work.state.graph) (hstep : Step tools outside work moment)
    (hloads : moment.deed.Loads) (hadmits : intake.Admits moment.deed) :
    Reserved (intake.next moment.deed) moment.work.state.graph := by
  cases hstep with
  | asked hstate _ =>
    show Reserved intake _
    rw [hstate]
    exact h
  | noticed p =>
    show Reserved intake _
    rw [(work.notices_notify p).graph]
    exact h
  | taken invalidate => exact h.drain invalidate
  | claimed hclaim => exact h.claim (Load.of_claim hclaim).1
  | kept unit _ => exact h.spares (.update _ _ (fun _ => rfl) fun _ h => h)
  | recorded types modules _ => exact h.spares (work.spares_recordAll tools types _ modules)
  | returned _ => exact h.giveBack hadmits
  | begun => exact hloads.elim
  | entered => exact hloads.elim
  | sent => exact hloads.elim
  | laidOut => exact hloads.elim
  | written => exact hloads.elim
  | finished => exact hloads.elim
  | edited => exact hloads.elim
  | closed => exact hloads.elim

/-- While batches are loaded, what is claimed was taken off the queue or has no home. -/
theorem Linked.reserved {tools : Toolset κ π σ} {outside : Outside σ} {intake : Intake}
    {work next : Work σ} {trail : List (Moment σ)} (hlinked : Linked tools outside work trail next)
    (hloads : ∀ moment ∈ trail, moment.deed.Loads) (hproper : intake.Proper trail)
    (h : Reserved intake work.state.graph) : Reserved (intake.after trail) next.state.graph := by
  induction hlinked generalizing intake with
  | nil => exact h
  | cons hstep _ ih =>
    obtain ⟨hmoment, hrest⟩ := List.forall_mem_cons.1 hloads
    exact ih hrest hproper.2 (h.step hstep hmoment hproper.1)

/-- When batches were loaded, what was claimed was taken off the queue or has no home. -/
theorem Pass.reserved_drain {tools : Toolset κ π σ} {types : AssetTypes κ} {first : Bool} {depth batches : Nat}
    {loaded : List AssetId} {work next : Work σ} {result : Except Failure (List AssetId)}
    (h : work.state.Orderly [] [])
    (hdrain : drain tools types first depth batches loaded work = some (result, next))
    (hproper : Intake.Proper {} (drainTrail tools types first depth batches work)) :
    Reserved (Intake.after {} (drainTrail tools types first depth batches work)) next.state.graph := by
  have hlinked := linked_drain tools .anything types hdrain
  have hloads := loads_drainTrail tools types first depth batches work
  cases batches with
  | zero => simp [drain] at hdrain
  | succ batches =>
    unfold drainTrail at hlinked hloads hproper ⊢
    cases hlinked with
    | cons _ hrest =>
      -- whoever was dirty before the batch was taken has waited
      have hdrained := h.drain (!first)
      have htaken : Reserved (Intake.next {} (.taken (work.state.drain (!first)).1))
          (work.state.drain (!first)).2.graph :=
        ⟨fun hget hdirty => .inl (List.mem_append_left _
            ((hdrained.waits hget hdirty).resolve_left (by simp))),
          fun _ hclaimed => by cases hclaimed⟩
      exact hrest.reserved (List.forall_mem_cons.1 hloads).2 hproper.2 htaken

end Build
end ModuleBundler
