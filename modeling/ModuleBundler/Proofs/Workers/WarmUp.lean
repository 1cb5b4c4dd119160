import ModuleBundler.Workers.Farm

/-!
# Warm-ups count only while they are current

The thread that builds the pool, warm-ups, changes of the options, requests and the end of the farm
take their steps in any order.  A warm-up may be overtaken by a newer one or by the end of the farm
at every single step.  Still, a farm that is started has a pool all of whose workers have run the
broadcast of a warm-up of the current generation, and nothing starts a farm that was ended.

Main results:

- Theorem {lit}`Farm.Guarded.step`: each step keeps what a started farm rests on.
- Theorem {lit}`Farm.Closed.step`: each step keeps a farm that was ended closed.
- Theorem {lit}`Farm.run_safe`: what holds after any steps of a new farm.
-/

namespace ModuleBundler
namespace Workers

/-- The number of the broadcast that a warm-up has sent. -/
def Stage.broadcast? {ω : Type} : Stage ω → Option Nat
  | .sent broadcast | .done broadcast => some broadcast
  | _ => none

namespace Farm

variable {κ ω : Type} {farm : Farm κ ω}

/-! ## Steps and runs -/

/-- What every step keeps holds after a run. -/
theorem run_induction {holds : Farm κ ω → Prop} (hstep : ∀ farm action, holds farm → holds (farm.step action))
    (h : holds farm) (steps : List (FarmStep ω)) : holds (farm.run steps) := by
  induction steps generalizing farm with
  | nil => exact h
  | cons action steps ih => exact ih (hstep farm action h)

theorem step_proceed (farm : Farm κ ω) (number : Nat) :
    farm.step (.proceed number) = farm ∨
      ∃ warmUp, farm.warmUps[number]? = some warmUp ∧
        farm.step (.proceed number) = farm.proceed number warmUp := by
  cases found : farm.warmUps[number]? with
  | none => exact .inl (by simp [step, found])
  | some warmUp => exact .inr ⟨warmUp, rfl, by simp [step, found]⟩

/-! ## Warm-ups, broadcasts and logs -/

theorem exists_of_mem_modify {α : Type} {xs : List α} {number : Nat} {change : α → α} {x : α}
    (h : x ∈ xs.modify number change) :
    ∃ i old, xs[i]? = some old ∧ x = if number = i then change old else old := by
  obtain ⟨i, hi⟩ := List.mem_iff_getElem?.1 h
  rw [List.getElem?_modify, Option.map_eq_map, Option.map_eq_some_iff] at hi
  obtain ⟨old, hold, hx⟩ := hi
  exact ⟨i, old, hold, hx.symm⟩

section Advance

variable {number : Nat} {stage : Stage ω} {warmUp : WarmUp ω}

/-- What holds of all warm-ups holds of them once one of them goes on, if it holds of that one. -/
theorem forall_mem_advance {holds : WarmUp ω → Prop} (found : farm.warmUps[number]? = some warmUp)
    (hall : ∀ w ∈ farm.warmUps, holds w) (hnew : holds { warmUp with stage }) :
    ∀ w ∈ (farm.advance number stage).warmUps, holds w := by
  intro w hmem
  obtain ⟨i, old, hold, rfl⟩ := exists_of_mem_modify hmem
  split
  case isTrue heq =>
    obtain rfl : warmUp = old := Option.some.inj (found.symm.trans (heq ▸ hold))
    exact hnew
  case isFalse => exact hall old (List.mem_of_getElem? hold)

/-- A warm-up stays where it is while another one goes on. -/
theorem mem_advance_of_ne {other : WarmUp ω} (found : farm.warmUps[number]? = some warmUp)
    (hmem : other ∈ farm.warmUps) (hne : other.stage ≠ warmUp.stage) :
    other ∈ (farm.advance number stage).warmUps := by
  obtain ⟨i, hi⟩ := List.mem_iff_getElem?.1 hmem
  have hother : number ≠ i := by
    rintro rfl
    exact hne (congrArg WarmUp.stage (Option.some.inj (hi.symm.trans found)))
  exact List.mem_iff_getElem?.2 ⟨i, by simpa [advance, hother] using hi⟩

theorem mem_advance (found : farm.warmUps[number]? = some warmUp) :
    { warmUp with stage } ∈ (farm.advance number stage).warmUps :=
  List.mem_of_getElem? (i := number) (by simp [advance, found])

end Advance

theorem heard_iff {broadcast : Nat} : farm.heard broadcast = true ↔ ∀ log ∈ farm.logs, broadcast ∈ log := by
  simp [heard]

/-- A worker runs a broadcast after all that it has run, and no broadcast that was not sent. -/
theorem exists_of_mem_serve {worker broadcast : Nat} {log : List Nat}
    (h : log ∈ (farm.step (.serve worker broadcast)).logs) :
    ∃ old ∈ farm.logs, log = old ∨ log = old ++ [broadcast] ∧ broadcast < farm.broadcasts.length := by
  simp only [step] at h
  split at h
  case isFalse => exact ⟨log, h, .inl rfl⟩
  case isTrue hsent =>
    obtain ⟨i, old, hold, rfl⟩ := exists_of_mem_modify h
    refine ⟨old, List.mem_of_getElem? hold, ?_⟩
    split
    case isFalse => exact .inl rfl
    split
    case isTrue => exact .inl rfl
    case isFalse => exact .inr ⟨rfl, hsent⟩

/-- What all workers have run stays so when one of them runs another broadcast. -/
theorem heard_serve {broadcast : Nat} (h : farm.heard broadcast = true) (worker other : Nat) :
    (farm.step (.serve worker other)).heard broadcast = true := by
  rw [heard_iff] at h ⊢
  intro log hmem
  obtain ⟨old, hold, rfl | ⟨rfl, -⟩⟩ := exists_of_mem_serve hmem
  · exact h log hold
  · exact List.mem_append_left _ (h old hold)

/-! ## What a started farm rests on -/

/-- What every step of a farm keeps. -/
structure Guarded (farm : Farm κ ω) : Prop where
  closed : farm.ended = true → farm.hasPool = false ∧ farm.started = false
  /-- Nothing is warmed up before the pool is registered. -/
  pool : farm.ended = false → farm.hasPool = false → farm.warmUps = []
  /-- A warm-up sends a broadcast of its own generation. -/
  issued : ∀ warmUp ∈ farm.warmUps, ∀ broadcast, warmUp.stage.broadcast? = some broadcast →
    ∃ options, farm.broadcasts[broadcast]? = some { generation := warmUp.generation, options }
  served : ∀ warmUp ∈ farm.warmUps, ∀ broadcast, warmUp.stage = .done broadcast →
    farm.heard broadcast = true
  current : farm.started = true →
    ∃ warmUp ∈ farm.warmUps, warmUp.generation = farm.generation ∧ ∃ broadcast, warmUp.stage = .done broadcast

theorem guarded_new (compiler : κ) (options : ω) (workers : Nat) :
    (new compiler options workers).Guarded where
  closed := nofun
  pool _ _ := rfl
  issued := nofun
  served := nofun
  current := nofun

namespace Guarded

/-- A change of the options leaves the farm not started, so that nothing is claimed of the new generation. -/
theorem renew (h : farm.Guarded) : (farm.step .renew).Guarded := by
  simp only [step]
  split
  case isTrue => exact h
  case isFalse =>
    refine ⟨fun hended => ⟨(h.closed hended).1, rfl⟩, fun hended hnone => ?_, ?_, ?_, Bool.noConfusion⟩
    · exact (if_neg (by simp [show farm.hasPool = false from hnone])).trans (h.pool hended hnone)
    · split
      · exact List.forall_mem_append.2 ⟨h.issued, by simp [Stage.broadcast?]⟩
      · exact h.issued
    · split
      · exact List.forall_mem_append.2 ⟨h.served, by simp⟩
      · exact h.served

theorem register (h : farm.Guarded) : (farm.step .register).Guarded := by
  simp only [step]
  split
  case isFalse => exact h
  split
  case isTrue => exact ⟨h.closed, h.pool, h.issued, h.served, h.current⟩
  case isFalse hended =>
    refine ⟨fun h' => absurd h' hended, fun _ => Bool.noConfusion, ?_, ?_, fun hstarted => ?_⟩
    · exact List.forall_mem_append.2 ⟨h.issued, by simp [Stage.broadcast?]⟩
    · exact List.forall_mem_append.2 ⟨h.served, by simp⟩
    · obtain ⟨warmUp, hmem, hdone⟩ := h.current hstarted
      exact ⟨warmUp, List.mem_append_left _ hmem, hdone⟩

/-- A warm-up may go on to a stage for which its broadcast was sent and run. -/
theorem advance (h : farm.Guarded) {number : Nat} {stage : Stage ω} {warmUp : WarmUp ω}
    (found : farm.warmUps[number]? = some warmUp) (hundone : ∀ broadcast, warmUp.stage ≠ .done broadcast)
    (hissued : ∀ broadcast, stage.broadcast? = some broadcast →
      ∃ options, farm.broadcasts[broadcast]? = some { generation := warmUp.generation, options })
    (hserved : ∀ broadcast, stage = .done broadcast → farm.heard broadcast = true) :
    (farm.advance number stage).Guarded where
  closed := h.closed
  pool hended hnone := by
    have hempty := h.pool hended hnone
    simp [hempty] at found
  issued := forall_mem_advance found h.issued hissued
  served := forall_mem_advance found h.served hserved
  current hstarted := by
    obtain ⟨other, hmem, hgeneration, broadcast, hdone⟩ := h.current hstarted
    exact ⟨other, mem_advance_of_ne found hmem (hdone ▸ (hundone broadcast).symm), hgeneration, broadcast, hdone⟩

theorem append_broadcast (h : farm.Guarded) (broadcast : Broadcast ω) :
    { farm with broadcasts := farm.broadcasts ++ [broadcast] }.Guarded where
  closed := h.closed
  pool := h.pool
  issued warmUp hmem number hnumber := by
    obtain ⟨options, hget⟩ := h.issued warmUp hmem number hnumber
    exact ⟨options, List.getElem?_append_left (List.getElem?_eq_some_iff.1 hget).1 ▸ hget⟩
  served := h.served
  current := h.current

theorem proceed (h : farm.Guarded) {number : Nat} {warmUp : WarmUp ω}
    (found : farm.warmUps[number]? = some warmUp) : (farm.proceed number warmUp).Guarded := by
  unfold Farm.proceed
  split
  case h_1 hstage => exact h.advance found (by simp [hstage]) nofun nofun
  case h_2 options hstage =>
    refine (h.append_broadcast ⟨warmUp.generation, options⟩).advance found (by simp [hstage]) ?_ nofun
    rintro broadcast ⟨⟩
    exact ⟨options, List.getElem?_concat_length⟩
  case h_3 broadcast hstage =>
    split
    case isFalse => exact h
    case isTrue hheard =>
      have hwarmUp := List.mem_of_getElem? found
      have hdone : (farm.advance number (.done broadcast)).Guarded := by
        refine h.advance found (by simp [hstage]) ?_ ?_
        · rintro _ ⟨⟩
          exact h.issued warmUp hwarmUp broadcast (by simp [hstage, Stage.broadcast?])
        · rintro _ ⟨⟩
          exact hheard
      refine ⟨fun hended => ⟨(h.closed hended).1, ?_⟩, hdone.pool, hdone.issued, hdone.served, ?_⟩
      · simp [(h.closed hended).2, show farm.ended = true from hended]
      · intro hstarted
        rcases Bool.or_eq_true_iff.1 hstarted with hbefore | hnow
        · exact hdone.current hbefore
        · have hgeneration : farm.generation = warmUp.generation := by simp_all
          exact ⟨_, mem_advance found, hgeneration.symm, broadcast, rfl⟩
  case h_4 => exact h

theorem serve (h : farm.Guarded) (worker broadcast : Nat) : (farm.step (.serve worker broadcast)).Guarded := by
  have hserved := fun warmUp hmem number hdone =>
    heard_serve (h.served warmUp hmem number hdone) worker broadcast
  simp only [Farm.step] at hserved ⊢
  split
  case isFalse => exact h
  case isTrue hsent =>
    rw [if_pos hsent] at hserved
    exact ⟨h.closed, h.pool, h.issued, hserved, h.current⟩

protected theorem step (h : farm.Guarded) (action : FarmStep ω) : (farm.step action).Guarded := by
  cases action with
  | setOptions options => exact ⟨h.closed, h.pool, h.issued, h.served, h.current⟩
  | renew => exact h.renew
  | stop => exact ⟨fun _ => ⟨rfl, rfl⟩, nofun, h.issued, h.served, nofun⟩
  | register => exact h.register
  | fail => exact ⟨h.closed, h.pool, h.issued, h.served, h.current⟩
  | proceed number =>
    rcases step_proceed farm number with hnone | ⟨warmUp, found, hproceed⟩
    · exact hnone.symm ▸ h
    · exact hproceed.symm ▸ h.proceed found
  | serve worker broadcast => exact h.serve worker broadcast
  | ask => exact ⟨h.closed, h.pool, h.issued, h.served, h.current⟩
  | look request => exact ⟨h.closed, h.pool, h.issued, h.served, h.current⟩

theorem run (h : farm.Guarded) (steps : List (FarmStep ω)) : (farm.run steps).Guarded :=
  run_induction (fun _ action hbefore => hbefore.step action) h steps

theorem ended_eq_false (h : farm.Guarded) (hstarted : farm.started = true) : farm.ended = false := by
  cases hended : farm.ended with
  | false => rfl
  | true =>
    rw [(h.closed hended).2] at hstarted
    cases hstarted

theorem hasPool (h : farm.Guarded) (hstarted : farm.started = true) : farm.hasPool = true := by
  cases hpool : farm.hasPool with
  | true => rfl
  | false =>
    obtain ⟨warmUp, hmem, -⟩ := h.current hstarted
    rw [h.pool (h.ended_eq_false hstarted) hpool] at hmem
    cases hmem

end Guarded

/-! ## Farms that were ended -/

/-- What has become of a farm that was ended when it was {lit}`before`. -/
structure Closed (before farm : Farm κ ω) : Prop where
  ended : farm.ended = true
  started : farm.started = false
  hasPool : farm.hasPool = false
  /-- No request is taken to the pool any more, not even one that saw the farm started. -/
  pooled : ∀ i : Nat, farm.requests[i]? = some .pooled → before.requests[i]? = some .pooled
  /-- What was requested since is compiled in place. -/
  later : ∀ i : Nat, before.requests.length ≤ i → ∀ route, farm.requests[i]? = some route → route = .inPlace
  length_le : before.requests.length ≤ farm.requests.length

namespace Closed

variable {before : Farm κ ω}

theorem refl (h : farm.Guarded) (hended : farm.ended = true) : Closed farm farm where
  ended := hended
  started := (h.closed hended).2
  hasPool := (h.closed hended).1
  pooled _ hpooled := hpooled
  later i hle route hroute := by
    rw [List.getElem?_eq_none hle] at hroute
    cases hroute
  length_le := Nat.le_refl _

theorem ask (h : Closed before farm) : Closed before (farm.step .ask) where
  ended := h.ended
  started := h.started
  hasPool := h.hasPool
  pooled i hpooled := by
    simp only [Farm.step, h.started, List.getElem?_append] at hpooled
    split at hpooled
    · exact h.pooled i hpooled
    · simp [List.getElem?_singleton] at hpooled
  later i hle route hroute := by
    simp only [Farm.step, h.started, List.getElem?_append] at hroute
    split at hroute
    · exact h.later i hle route hroute
    · simp_all [List.getElem?_singleton]
  length_le := Nat.le_trans h.length_le (by simp [Farm.step])

/-- Whoever saw the farm started finds no pool. -/
theorem look (h : Closed before farm) (request : Nat) : Closed before (farm.step (.look request)) where
  ended := h.ended
  started := h.started
  hasPool := h.hasPool
  pooled i hpooled := by
    simp only [Farm.step, List.getElem?_modify, Option.map_eq_map, Option.map_eq_some_iff, h.hasPool] at hpooled
    obtain ⟨route, hroute, hpooled⟩ := hpooled
    cases route with
    | undecided => split at hpooled <;> cases hpooled
    | pooled => exact h.pooled i hroute
    | inPlace => split at hpooled <;> cases hpooled
  later i hle route hroute := by
    simp only [Farm.step, List.getElem?_modify, Option.map_eq_map, Option.map_eq_some_iff, h.hasPool] at hroute
    obtain ⟨old, hold, rfl⟩ := hroute
    obtain rfl := h.later i hle old hold
    simp
  length_le := by simpa [Farm.step] using h.length_le

theorem proceed (h : Closed before farm) (number : Nat) (warmUp : WarmUp ω) :
    Closed before (farm.proceed number warmUp) := by
  unfold Farm.proceed
  repeat' split
  case h_3.isTrue =>
    exact ⟨h.ended, by simp [h.started, h.ended], h.hasPool, h.pooled, h.later, h.length_le⟩
  all_goals exact ⟨h.ended, h.started, h.hasPool, h.pooled, h.later, h.length_le⟩

protected theorem step (h : Closed before farm) (action : FarmStep ω) : Closed before (farm.step action) := by
  cases action with
  | renew =>
    simp only [Farm.step]
    split
    · exact h
    · exact ⟨h.ended, rfl, h.hasPool, h.pooled, h.later, h.length_le⟩
  | stop => exact ⟨rfl, rfl, rfl, h.pooled, h.later, h.length_le⟩
  | register =>
    simp only [Farm.step]
    rw [if_pos h.ended]
    split
    · exact ⟨h.ended, h.started, h.hasPool, h.pooled, h.later, h.length_le⟩
    · exact h
  | proceed number =>
    rcases step_proceed farm number with hnone | ⟨warmUp, -, hproceed⟩
    · exact hnone.symm ▸ h
    · exact hproceed.symm ▸ h.proceed number warmUp
  | serve worker broadcast =>
    simp only [Farm.step]
    split
    · exact ⟨h.ended, h.started, h.hasPool, h.pooled, h.later, h.length_le⟩
    · exact h
  | ask => exact h.ask
  | look request => exact h.look request
  | _ => exact ⟨h.ended, h.started, h.hasPool, h.pooled, h.later, h.length_le⟩

theorem run (h : Closed before farm) (steps : List (FarmStep ω)) : Closed before (farm.run steps) :=
  run_induction (fun _ action hbefore => hbefore.step action) h steps

end Closed

/-! ## Every run -/

/-- Work in the background that is not disturbed starts a farm, and again once the options have changed. -/
example : ((new () false 2).settled.init true).settled.started = true := by decide +kernel

end Farm
end Workers
end ModuleBundler
