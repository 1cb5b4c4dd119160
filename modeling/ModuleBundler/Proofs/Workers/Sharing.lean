import ModuleBundler.Proofs.Workers.WarmUp

/-!
# Farms that are shared

Three parts of a farm hold a compiler: the farm hands its own to the pool that it builds,
the pool gives it to the requests that it takes, and what is compiled in place gets the
compiler that was set aside for this when the farm was made.  All of them are the one that
the farm was made with, so that it makes no difference where a request goes.

Whoever asks for the shared farm gets the one that there is, and brings a compiler and
options along.  The options are told to the farm, but the compiler is used only if the farm
has yet to be made: until it is ended, all who share a farm get what the first one of them
has brought.  The chores of farms go on meanwhile, and may fall between any two steps.

Main results:

- Theorem {lit}`Equipment.Matches.step`: each step keeps all parts of a farm at one compiler.
- Theorem {lit}`Ledger.Sound.after`: what calls and chores keep.
- Theorem {lit}`Ledger.share_serves`: what those who share a farm get, and what becomes of it in the end.
- Theorem {lit}`Ledger.exists_served_by_other`: a request that another compiler is used for.
-/

namespace ModuleBundler
namespace Workers

variable {κ ω : Type} {farm : Farm κ ω}

/-- A warm-up that goes on changes nothing but warm-ups, broadcasts and whether the farm is started. -/
theorem Farm.exists_step_proceed_eq (farm : Farm κ ω) (number : Nat) :
    ∃ warmUps broadcasts started,
      farm.step (.proceed number) = { farm with warmUps, broadcasts, started } := by
  rcases step_proceed farm number with hnone | ⟨warmUp, -, hproceed⟩
  · exact ⟨_, _, _, hnone⟩
  · rw [hproceed, proceed]
    repeat' split
    all_goals exact ⟨_, _, _, rfl⟩

/-! ## Compilers at hand -/

/-- The compilers that the parts of a farm hold, and those that its requests were given to. -/
structure Equipment (κ : Type) where
  /-- The compiler for what is compiled in place. -/
  inPlace : κ
  /-- The compiler of the pool, once there is one. -/
  pool : Option κ := none
  /-- The compilers of the requests; none while it is open where a request goes. -/
  picks : List (Option κ) := []
deriving DecidableEq, Repr

/-- The compiler that a request gets if all parts of the farm hold the same one. -/
def Route.pick (compiler : κ) : Route → Option κ
  | .undecided => none
  | .pooled => some compiler
  | .inPlace => some compiler

namespace Equipment

/-- What a step of a farm makes of its equipment. -/
def step (equipment : Equipment κ) (farm : Farm κ ω) : FarmStep ω → Equipment κ
  | .register =>
    if farm.building && !farm.ended then { equipment with pool := some farm.compiler } else equipment
  | .stop => { equipment with pool := none }
  | .ask =>
    { equipment with picks := equipment.picks ++ [if farm.started then none else some equipment.inPlace] }
  | .look request =>
    { equipment with
      picks := equipment.picks.modify request fun pick => pick.or (equipment.pool.getD equipment.inPlace) }
  | _ => equipment

/-- Whether all parts of a farm hold its compiler, and each request gets it that has gone somewhere. -/
structure Matches (equipment : Equipment κ) (farm : Farm κ ω) : Prop where
  inPlace : equipment.inPlace = farm.compiler
  pool : equipment.pool = if farm.hasPool then some farm.compiler else none
  picks : equipment.picks = farm.requests.map (Route.pick farm.compiler)

theorem matches_new (compiler : κ) (options : ω) (workers : Nat) :
    Matches { inPlace := compiler } (Farm.new compiler options workers) :=
  ⟨rfl, rfl, rfl⟩

namespace Matches

variable {equipment : Equipment κ}

/-- Equipment goes on to match a farm that has kept its compiler, its pool and its requests. -/
theorem congr {other : Farm κ ω} (h : equipment.Matches farm) (hcompiler : other.compiler = farm.compiler)
    (hpool : other.hasPool = farm.hasPool) (hrequests : other.requests = farm.requests) :
    equipment.Matches other := by
  refine ⟨?_, ?_, ?_⟩
  · rw [h.inPlace, hcompiler]
  · rw [h.pool, hpool, hcompiler]
  · rw [h.picks, hrequests, hcompiler]

/-- A request that finds a pool gets its compiler, and otherwise the one for what is compiled in place. -/
theorem look (h : equipment.Matches farm) (request : Nat) :
    (equipment.step farm (.look request)).Matches (farm.step (.look request)) := by
  have hpick : equipment.pool.getD equipment.inPlace = farm.compiler := by
    rw [h.pool, h.inPlace]
    split <;> rfl
  refine ⟨h.inPlace, h.pool, ?_⟩
  simp only [step, Farm.step, hpick, h.picks]
  apply List.ext_getElem?
  intro i
  simp only [List.getElem?_modify, List.getElem?_map]
  cases farm.requests[i]? with
  | none => simp
  | some route => cases route <;> by_cases hi : request = i <;> cases farm.hasPool <;> simp [hi, Route.pick]

protected theorem step (h : equipment.Matches farm) (action : FarmStep ω) :
    (equipment.step farm action).Matches (farm.step action) := by
  cases action with
  | setOptions options => exact h.congr rfl rfl rfl
  | renew =>
    simp only [step, Farm.step]
    split
    · exact h
    · exact h.congr rfl rfl rfl
  | stop => exact ⟨h.inPlace, rfl, h.picks⟩
  | register =>
    cases hbuilding : farm.building <;> cases hended : farm.ended <;>
      simp only [step, Farm.step, hbuilding, hended]
    · exact h
    · exact h
    · exact ⟨h.inPlace, rfl, h.picks⟩
    · exact h.congr rfl rfl rfl
  | fail => exact h.congr rfl rfl rfl
  | proceed number =>
    obtain ⟨warmUps, broadcasts, started, hproceed⟩ := farm.exists_step_proceed_eq number
    rw [hproceed]
    exact h.congr rfl rfl rfl
  | serve worker broadcast =>
    simp only [step, Farm.step]
    split
    · exact h.congr rfl rfl rfl
    · exact h
  | ask =>
    refine ⟨h.inPlace, h.pool, ?_⟩
    cases hstarted : farm.started <;> simp [step, Farm.step, hstarted, h.picks, h.inPlace, Route.pick]
  | look request => exact h.look request

end Matches
end Equipment

/-! ## Chores -/

/-- What goes on in a farm by itself, and the requests to it. -/
inductive Chore where
  | register
  | fail
  | proceed (warmUp : Nat)
  | serve (worker broadcast : Nat)
  | ask
  | look (request : Nat)
deriving DecidableEq, Repr

/-- The step of a farm that a chore is. -/
def Chore.toStep : Chore → FarmStep ω
  | .register => .register
  | .fail => .fail
  | .proceed warmUp => .proceed warmUp
  | .serve worker broadcast => .serve worker broadcast
  | .ask => .ask
  | .look request => .look request

/-- No chore ends a farm. -/
theorem Chore.toStep_ne_stop (chore : Chore) : (chore.toStep : FarmStep ω) ≠ .stop := by
  cases chore <;> exact nofun

/-- No chore changes options. -/
theorem Chore.toStep_ne_setOptions (chore : Chore) (options : ω) : chore.toStep ≠ .setOptions options := by
  cases chore <;> exact nofun

namespace Farm

/-- Nothing but the end of a farm ends it. -/
theorem ended_step (farm : Farm κ ω) {action : FarmStep ω} (h : action ≠ .stop) :
    (farm.step action).ended = farm.ended := by
  cases action with
  | stop => exact absurd rfl h
  | proceed number =>
    obtain ⟨warmUps, broadcasts, started, hproceed⟩ := farm.exists_step_proceed_eq number
    rw [hproceed]
  | _ => simp only [step] <;> (repeat' split) <;> rfl

/-- A farm that was ended stays so. -/
theorem ended_step_of_ended {farm : Farm κ ω} (h : farm.ended = true) (action : FarmStep ω) :
    (farm.step action).ended = true := by
  by_cases hstop : action = .stop
  · rw [hstop]
    rfl
  · rw [ended_step farm hstop, h]

/-- The options change only when they are told to. -/
theorem options_step (farm : Farm κ ω) {action : FarmStep ω} (h : ∀ options, action ≠ .setOptions options) :
    (farm.step action).options = farm.options := by
  cases action with
  | setOptions options => exact absurd rfl (h options)
  | proceed number =>
    obtain ⟨warmUps, broadcasts, started, hproceed⟩ := farm.exists_step_proceed_eq number
    rw [hproceed]
  | _ => simp only [step] <;> (repeat' split) <;> rfl

end Farm

/-! ## Calls -/

/-- All farms, and their equipment in the order of their numbers. -/
structure Ledger (κ ω : Type) where
  farms : Farms κ ω
  equipment : List (Equipment κ) := []

/-- What happens to farms. -/
inductive Event (κ ω : Type) where
  /-- Someone asks for the shared farm.  What goes on {lit}`meanwhile` falls between telling the options and
  warming up the workers again. -/
  | share (compiler : κ) (options : ω) (meanwhile : List (Nat × Chore))
  /-- The shared farm is ended. -/
  | finish
  /-- A chore of the farm with a number. -/
  | chore (number : Nat) (chore : Chore)

namespace Ledger

/-- No farms so far. -/
def ofWorkers (workers : Nat) : Ledger κ ω where
  farms := .ofWorkers workers

/-- A step of the farm with a number. -/
def step (ledger : Ledger κ ω) (number : Nat) (action : FarmStep ω) : Ledger κ ω where
  farms := ledger.farms.update number (·.step action)
  equipment := ledger.equipment.modify number fun equipment =>
    (ledger.farms.get? number).elim equipment (equipment.step · action)

/-- Chores of farms that are known by their numbers. -/
def run (ledger : Ledger κ ω) (chores : List (Nat × Chore)) : Ledger κ ω :=
  chores.foldl (fun ledger chore => ledger.step chore.1 chore.2.toStep) ledger

/-- A new farm, which is the shared one. -/
def made (ledger : Ledger κ ω) (compiler : κ) (options : ω) : Ledger κ ω where
  farms :=
    { ledger.farms with
      farms := ledger.farms.farms ++ [.new compiler options ledger.farms.workers]
      shared := some ledger.farms.farms.length }
  equipment := ledger.equipment ++ [{ inPlace := compiler }]

/-- Ask for the shared farm. -/
def share (ledger : Ledger κ ω) (compiler : κ) (options : ω) (meanwhile : List (Nat × Chore)) :
    Nat × Ledger κ ω :=
  match ledger.farms.shared with
  | some number => (number, ((ledger.step number (.setOptions options)).run meanwhile).step number .renew)
  | none => (ledger.farms.farms.length, (ledger.made compiler options).run meanwhile)

/-- End the shared farm. -/
def finish (ledger : Ledger κ ω) : Ledger κ ω where
  farms := ledger.farms.endShared
  equipment := ledger.farms.shared.elim ledger.equipment fun number => (ledger.step number .stop).equipment

/-- The ledger after an event. -/
def next (ledger : Ledger κ ω) : Event κ ω → Ledger κ ω
  | .share compiler options meanwhile => (ledger.share compiler options meanwhile).2
  | .finish => ledger.finish
  | .chore number chore => ledger.step number chore.toStep

/-- The ledger after events. -/
def after (ledger : Ledger κ ω) (events : List (Event κ ω)) : Ledger κ ω :=
  events.foldl next ledger

/-- If nothing goes on meanwhile, the farms are those after asking for the shared one. -/
theorem share_nil (ledger : Ledger κ ω) (compiler : κ) (options : ω) :
    (ledger.share compiler options []).1 = (ledger.farms.share compiler options).1 ∧
      (ledger.share compiler options []).2.farms = (ledger.farms.share compiler options).2 := by
  unfold share
  cases hshared : ledger.farms.shared with
  | none =>
    simp only [Farms.share, hshared]
    exact ⟨rfl, rfl⟩
  | some number =>
    simp only [Farms.share, hshared, true_and]
    simp [run, step, Farms.update, List.modify_modify_eq, Farm.init, Farm.run]
    rfl

/-! ## Farms and their equipment -/

theorem get?_step (ledger : Ledger κ ω) (number other : Nat) (action : FarmStep ω) :
    (ledger.step number action).farms.get? other =
      (ledger.farms.get? other).map fun farm => if number = other then farm.step action else farm := by
  simp [step, Farms.update, Farms.get?, List.getElem?_modify]

/-- What a step keeps of every farm is kept of the farm with a number, whichever farm takes the step. -/
theorem exists_get?_step {ledger : Ledger κ ω} {number : Nat} {holds : Farm κ ω → Prop} {action : FarmStep ω}
    (h : ∃ farm, ledger.farms.get? number = some farm ∧ holds farm)
    (hstep : ∀ farm, holds farm → holds (farm.step action)) (other : Nat) :
    ∃ farm, (ledger.step other action).farms.get? number = some farm ∧ holds farm := by
  obtain ⟨farm, hfarm, hholds⟩ := h
  refine ⟨if other = number then farm.step action else farm, ?_, ?_⟩
  · rw [get?_step, hfarm, Option.map_some]
  · split
    · exact hstep farm hholds
    · exact hholds

/-- Each step of a farm is a step of its equipment, and other farms are left alone. -/
structure Equipped (ledger : Ledger κ ω) : Prop where
  length_eq : ledger.equipment.length = ledger.farms.farms.length
  fits : ∀ number farm equipment, ledger.farms.get? number = some farm →
    ledger.equipment[number]? = some equipment → equipment.Matches farm

namespace Equipped

variable {ledger : Ledger κ ω}

/-- There is equipment for each farm. -/
theorem exists_equipment (h : ledger.Equipped) {number : Nat} {farm : Farm κ ω}
    (hfarm : ledger.farms.get? number = some farm) :
    ∃ equipment, ledger.equipment[number]? = some equipment ∧ equipment.Matches farm := by
  have hlt : number < ledger.equipment.length := by
    rw [h.length_eq]
    exact (List.getElem?_eq_some_iff.1 hfarm).1
  have hequipment := List.getElem?_eq_getElem hlt
  exact ⟨_, hequipment, h.fits number farm _ hfarm hequipment⟩

protected theorem step (h : ledger.Equipped) (number : Nat) (action : FarmStep ω) :
    (ledger.step number action).Equipped where
  length_eq := by simp [Ledger.step, Farms.update, h.length_eq]
  fits := by
    intro other farm equipment hfarm hequipment
    rw [get?_step, Option.map_eq_some_iff] at hfarm
    obtain ⟨farm, hold, rfl⟩ := hfarm
    simp only [Ledger.step, List.getElem?_modify, Option.map_eq_map, Option.map_eq_some_iff] at hequipment
    obtain ⟨equipment, hbefore, rfl⟩ := hequipment
    have hfits := h.fits other farm equipment hold hbefore
    by_cases heq : number = other
    · subst heq
      rw [if_pos rfl, if_pos rfl, hold]
      exact hfits.step action
    · rwa [if_neg heq, if_neg heq]

/-- A farm that is made comes with equipment. -/
theorem made (h : ledger.Equipped) (compiler : κ) (options : ω) : (ledger.made compiler options).Equipped where
  length_eq := by simp [Ledger.made, h.length_eq]
  fits := by
    intro number farm equipment hfarm hequipment
    simp only [Ledger.made, Farms.get?] at hfarm hequipment
    rcases Nat.lt_trichotomy number ledger.farms.farms.length with hlt | rfl | hgt
    · refine h.fits number farm equipment ?_ ?_
      · rwa [List.getElem?_append_left hlt] at hfarm
      · rwa [List.getElem?_append_left (h.length_eq ▸ hlt)] at hequipment
    · rw [List.getElem?_concat_length] at hfarm
      rw [← h.length_eq, List.getElem?_concat_length] at hequipment
      obtain rfl := Option.some.inj hfarm
      obtain rfl := Option.some.inj hequipment
      exact Equipment.matches_new compiler options _
    · rw [List.getElem?_eq_none (by simp; omega)] at hfarm
      cases hfarm

end Equipped

/-! ## What calls keep -/

/-- What every chore keeps holds after chores. -/
theorem run_induction {holds : Ledger κ ω → Prop}
    (hstep : ∀ ledger number (chore : Chore), holds ledger → holds (ledger.step number chore.toStep))
    {ledger : Ledger κ ω} (h : holds ledger) (chores : List (Nat × Chore)) : holds (ledger.run chores) := by
  induction chores generalizing ledger with
  | nil => exact h
  | cons chore chores ih => exact ih (hstep ledger chore.1 chore.2 h)

/-- The compiler in use once an event has happened to farms with a compiler in use. -/
def adopt (inUse : Option κ) : Event κ ω → Option κ
  | .share compiler _ _ => some (inUse.getD compiler)
  | .finish => none
  | .chore _ _ => inUse

/-- The compiler in use after events: the one that was brought along first since the last end, if any was. -/
def inUse (events : List (Event κ ω)) : Option κ :=
  events.foldl adopt none

/-- Whether the farm with a number is shared, compiles with a compiler and reports options. -/
structure Serves (ledger : Ledger κ ω) (number : Nat) (compiler : κ) (options : ω) : Prop where
  shared : ledger.farms.shared = some number
  /-- The compiler is that of all its parts and of all requests to it. -/
  exists_farm : ∃ farm equipment, ledger.farms.get? number = some farm ∧
    ledger.equipment[number]? = some equipment ∧ farm.compiler = compiler ∧ farm.options = options ∧
    farm.ended = false ∧ equipment.Matches farm

/-- What calls and chores keep, with the compiler in use. -/
structure Sound (ledger : Ledger κ ω) (held : Option κ) : Prop extends ledger.Equipped where
  shared : ∀ number, ledger.farms.shared = some number →
    ∃ farm, ledger.farms.get? number = some farm ∧ farm.ended = false ∧ held = some farm.compiler
  vacant : ledger.farms.shared = none → held = none

section Calls

variable {ledger : Ledger κ ω} {number : Nat} {compiler : κ} {options : ω} {held : Option κ}

namespace Serves

/-- A farm serves on while it is neither ended nor told other options. -/
protected theorem step (h : ledger.Serves number compiler options) (other : Nat) {action : FarmStep ω}
    (hstop : action ≠ .stop) (hoptions : ∀ told, action ≠ .setOptions told) :
    (ledger.step other action).Serves number compiler options where
  shared := h.shared
  exists_farm := by
    obtain ⟨farm, equipment, hfarm, hequipment, hcompiler, htold, hended, hmatches⟩ := h.exists_farm
    rw [get?_step, hfarm]
    simp only [Ledger.step, List.getElem?_modify, hequipment, Option.map_eq_map, Option.map_some]
    by_cases heq : other = number
    · subst heq
      refine ⟨_, _, congrArg some (if_pos rfl), congrArg some (if_pos rfl), ?_, ?_, ?_, ?_⟩
      · rw [Farm.compiler_step, hcompiler]
      · rw [Farm.options_step farm hoptions, htold]
      · rw [Farm.ended_step farm hstop, hended]
      · rw [hfarm]
        exact hmatches.step action
    · exact ⟨_, _, congrArg some (if_neg heq), congrArg some (if_neg heq), hcompiler, htold, hended, hmatches⟩

theorem run (h : ledger.Serves number compiler options) (chores : List (Nat × Chore)) :
    (ledger.run chores).Serves number compiler options :=
  run_induction
    (fun ledger other chore (hbefore : ledger.Serves number compiler options) =>
      hbefore.step other chore.toStep_ne_stop chore.toStep_ne_setOptions)
    h chores

protected theorem sound (h : ledger.Serves number compiler options) (hequipped : ledger.Equipped) :
    ledger.Sound (some compiler) where
  toEquipped := hequipped
  shared := by
    intro other hother
    obtain rfl := Option.some.inj (h.shared.symm.trans hother)
    obtain ⟨farm, _, hfarm, -, hcompiler, -, hended, -⟩ := h.exists_farm
    exact ⟨farm, hfarm, hended, congrArg some hcompiler.symm⟩
  vacant hvacant := by simp [h.shared] at hvacant

end Serves

namespace Equipped

theorem run (h : ledger.Equipped) (chores : List (Nat × Chore)) : (ledger.run chores).Equipped :=
  run_induction (fun ledger number chore (hbefore : ledger.Equipped) => hbefore.step number chore.toStep) h chores

theorem share (h : ledger.Equipped) (compiler : κ) (options : ω) (meanwhile : List (Nat × Chore)) :
    (ledger.share compiler options meanwhile).2.Equipped := by
  unfold Ledger.share
  split
  case h_1 number _ => exact ((h.step number _).run meanwhile).step number _
  case h_2 => exact (h.made compiler options).run meanwhile

theorem finish (h : ledger.Equipped) : ledger.finish.Equipped := by
  unfold Ledger.finish Farms.endShared
  cases ledger.farms.shared with
  | none => exact h
  | some number =>
    have hstop := h.step number .stop
    exact ⟨hstop.length_eq, hstop.fits⟩

end Equipped

namespace Sound

theorem ofWorkers (workers : Nat) : (Ledger.ofWorkers workers : Ledger κ ω).Sound none where
  length_eq := rfl
  fits := by simp [Ledger.ofWorkers, Farms.ofWorkers, Farms.get?]
  shared := nofun
  vacant _ := rfl

protected theorem step (h : ledger.Sound held) (number : Nat) {action : FarmStep ω} (hstop : action ≠ .stop) :
    (ledger.step number action).Sound held where
  toEquipped := h.toEquipped.step number action
  shared := by
    intro shared hshared
    refine exists_get?_step (h.shared shared hshared) (fun farm hfarm => ?_) number
    obtain ⟨hended, hheld⟩ := hfarm
    exact ⟨(Farm.ended_step farm hstop).trans hended, by rw [Farm.compiler_step, hheld]⟩
  vacant := h.vacant

theorem run (h : ledger.Sound held) (chores : List (Nat × Chore)) : (ledger.run chores).Sound held :=
  run_induction
    (fun ledger number chore (hbefore : ledger.Sound held) => hbefore.step number chore.toStep_ne_stop) h chores

/-- Whoever asks for the shared farm is served with the compiler in use, and with the own one if there is none. -/
theorem serves (h : ledger.Sound held) (compiler : κ) (options : ω) (meanwhile : List (Nat × Chore)) :
    (ledger.share compiler options meanwhile).2.Serves (ledger.share compiler options meanwhile).1
      (held.getD compiler) options := by
  unfold Ledger.share
  split
  case h_1 number hshared =>
    obtain ⟨farm, hfarm, hended, rfl⟩ := h.shared number hshared
    obtain ⟨equipment, hequipment, hmatches⟩ := h.exists_equipment hfarm
    have htold : (ledger.step number (.setOptions options)).Serves number farm.compiler options := by
      refine ⟨hshared, farm.step (.setOptions options), equipment, ?_, ?_, rfl, rfl, hended,
        hmatches.step (.setOptions options)⟩
      · simp [get?_step, hfarm]
      · simp [Ledger.step, hequipment, hfarm, Equipment.step]
    exact (htold.run meanwhile).step number nofun nofun
  case h_2 hshared =>
    obtain rfl := h.vacant hshared
    have hmade : (ledger.made compiler options).Serves ledger.farms.farms.length compiler options := by
      refine ⟨rfl, _, _, List.getElem?_concat_length, ?_, rfl, rfl, rfl, Equipment.matches_new ..⟩
      rw [← h.length_eq]
      exact List.getElem?_concat_length
    exact hmade.run meanwhile

theorem share (h : ledger.Sound held) (compiler : κ) (options : ω) (meanwhile : List (Nat × Chore)) :
    (ledger.share compiler options meanwhile).2.Sound (some (held.getD compiler)) :=
  (h.serves compiler options meanwhile).sound (h.toEquipped.share compiler options meanwhile)

theorem finish (h : ledger.Sound held) : ledger.finish.Sound none where
  toEquipped := h.toEquipped.finish
  shared := by simp [Ledger.finish, Farms.shared_endShared]
  vacant _ := rfl

theorem next (h : ledger.Sound held) (event : Event κ ω) : (ledger.next event).Sound (adopt held event) := by
  cases event with
  | share compiler options meanwhile => exact h.share compiler options meanwhile
  | finish => exact h.finish
  | chore number chore => exact h.step number chore.toStep_ne_stop

/-- The compiler in use is that of the shared farm after any calls and chores. -/
theorem after (h : ledger.Sound held) (events : List (Event κ ω)) :
    (ledger.after events).Sound (events.foldl adopt held) := by
  induction events generalizing ledger held with
  | nil => exact h
  | cons event events ih => exact ih (h.next event)

theorem shared_eq_none (h : ledger.Sound none) : ledger.farms.shared = none := by
  cases hshared : ledger.farms.shared with
  | none => rfl
  | some number =>
    obtain ⟨_, -, -, hheld⟩ := h.shared number hshared
    cases hheld

end Sound

/-! ## Ends -/

/-- Whether the farm with a number was ended. -/
def Over (ledger : Ledger κ ω) (number : Nat) : Prop :=
  ∃ farm, ledger.farms.get? number = some farm ∧ farm.ended = true

namespace Over

theorem run (h : ledger.Over number) (chores : List (Nat × Chore)) : (ledger.run chores).Over number :=
  run_induction
    (fun ledger other chore (hbefore : ledger.Over number) =>
      exists_get?_step hbefore (fun _ hended => Farm.ended_step_of_ended hended chore.toStep) other)
    h chores

/-- The end of the shared farm ends the one that serves. -/
theorem finish (h : ledger.Serves number compiler options) : ledger.finish.Over number := by
  obtain ⟨farm, _, hfarm, -⟩ := h.exists_farm
  refine ⟨farm.stop, ?_, rfl⟩
  have hstep := get?_step ledger number number .stop
  rw [hfarm, Option.map_some, if_pos rfl] at hstep
  simp only [Ledger.finish, Farms.endShared, h.shared]
  exact hstep

end Over

/-- With no shared farm a new one is made. -/
theorem get?_share_of_vacant (h : ledger.farms.shared = none) (compiler : κ) (options : ω)
    (meanwhile : List (Nat × Chore)) : ledger.farms.get? (ledger.share compiler options meanwhile).1 = none := by
  simp [share, Farms.get?, h]

end Calls

/-- After any calls and whatever goes on meanwhile, the farm that someone gets who asks for the shared one compiles with
the compiler that was brought along first since the last end, in place as in the pool, and reports the options of this
call.  Once it is ended it stays so, and whoever asks next gets a new farm, which compiles with the compiler of that
call. -/
theorem share_serves (workers : Nat) (before : List (Event κ ω)) (compiler : κ) (options : ω)
    (meanwhile later : List (Nat × Chore)) :
    let call := ((ofWorkers workers).after before).share compiler options meanwhile
    let now := call.2.run later
    now.Serves call.1 ((inUse before).getD compiler) options ∧
      ∀ idle : List (Nat × Chore), let closed := now.finish.run idle
        closed.farms.shared = none ∧ closed.Over call.1 ∧
          ∀ (other : κ) (told : ω) (during rest : List (Nat × Chore)), let next := closed.share other told during
            next.1 ≠ call.1 ∧ closed.farms.get? next.1 = none ∧ (next.2.run rest).Serves next.1 other told := by
  intro call now
  have hbefore := (Sound.ofWorkers workers).after before
  have hnow : now.Serves call.1 ((inUse before).getD compiler) options :=
    (hbefore.serves compiler options meanwhile).run later
  refine ⟨hnow, fun idle => ?_⟩
  intro closed
  have hover : closed.Sound none := (((hbefore.share compiler options meanwhile).run later).finish).run idle
  have hended : closed.Over call.1 := (Over.finish hnow).run idle
  refine ⟨hover.shared_eq_none, hended, fun other told during rest => ?_⟩
  intro next
  have hfresh : closed.farms.get? next.1 = none := get?_share_of_vacant hover.shared_eq_none other told during
  refine ⟨?_, hfresh, (hover.serves other told during).run rest⟩
  intro heq
  obtain ⟨farm, hfarm, -⟩ := hended
  rw [heq, hfarm] at hfresh
  cases hfresh

/-- The second one who asks brings a compiler along, but the request is given to that of the first one. -/
theorem exists_served_by_other :
    let first := (ofWorkers 1 : Ledger String Bool).share "first" false []
    let second := first.2.share "second" false []
    let now := second.2.run [(second.1, .ask)]
    (now.equipment[second.1]?.map Equipment.picks) = some [some "first"] := by
  decide

end Ledger
end Workers
end ModuleBundler
