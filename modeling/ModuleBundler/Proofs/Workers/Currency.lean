import ModuleBundler.Proofs.Workers.WarmUp

/-!
# What the workers were told last

The generation of a warm-up is looked at when the pool is to be started, not when the options are
sent.  So a warm-up that was overtaken still sends the options that it has read, and it may do so
after the newer one has started the pool.  The workers of a started farm were told the current
options, then, but not always last: what a worker was told last is either current, or it comes from
a warm-up of an older generation that sent its broadcast after that of the current one.

Main results:

- Theorem {lit}`Farm.Informed.step`: each step keeps what is known of the options that are on their way.
- Theorem {lit}`Farm.told_of_started`: what a worker of a started farm was told last.
- Theorem {lit}`Farm.told_of_sorted`: it is current if warm-ups send in the order of their generations.
- Theorem {lit}`Farm.exists_outdated`: otherwise it may be out of date for good.
-/

namespace ModuleBundler
namespace Workers
namespace Farm

variable {κ ω : Type} {farm : Farm κ ω}

/-! ## Options on their way -/

/-- Whether options that were read for a generation are current if the generation is, once no change of the
options is under way. -/
def Fits (farm : Farm κ ω) (generation : Nat) (options : ω) : Prop :=
  generation ≤ farm.generation ∧
    (generation = farm.generation → farm.changing = 0 → options = farm.options)

/-- Nothing is claimed of the options of older generations. -/
theorem fits_of_lt {generation : Nat} {options : ω} (h : generation < farm.generation) :
    farm.Fits generation options :=
  ⟨Nat.le_of_lt h, fun hsame => absurd hsame (Nat.ne_of_lt h)⟩

/-- What every step keeps of the options that warm-ups have read and sent. -/
structure Informed (farm : Farm κ ω) : Prop where
  generation_le : ∀ warmUp ∈ farm.warmUps, warmUp.generation ≤ farm.generation
  ready : ∀ warmUp ∈ farm.warmUps, ∀ options, warmUp.stage = .ready options →
    farm.Fits warmUp.generation options
  sent : ∀ broadcast ∈ farm.broadcasts, farm.Fits broadcast.generation broadcast.options
  logged : ∀ log ∈ farm.logs, ∀ broadcast ∈ log, broadcast < farm.broadcasts.length

theorem informed_new (compiler : κ) (options : ω) (workers : Nat) :
    (new compiler options workers).Informed where
  generation_le := nofun
  ready := nofun
  sent := nofun
  logged log hmem := by
    rw [List.eq_of_mem_replicate hmem]
    exact nofun

namespace Informed

/-- While options change nothing is claimed of those that were read. -/
theorem setOptions (h : farm.Informed) (options : ω) : (farm.step (.setOptions options)).Informed where
  generation_le := h.generation_le
  ready warmUp hmem read hstage := ⟨(h.ready warmUp hmem read hstage).1, fun _ hquiet => nomatch hquiet⟩
  sent broadcast hmem := ⟨(h.sent broadcast hmem).1, fun _ hquiet => nomatch hquiet⟩
  logged := h.logged

/-- A warm-up that has just begun has neither read nor sent anything. -/
theorem enlist (h : farm.Informed) {generation : Nat} (hle : generation ≤ farm.generation) :
    { farm with warmUps := farm.warmUps ++ [(⟨generation, .begun⟩ : WarmUp ω)] }.Informed where
  generation_le := List.forall_mem_append.2 ⟨h.generation_le, by simpa using hle⟩
  ready := List.forall_mem_append.2 ⟨h.ready, by simp⟩
  sent := h.sent
  logged := h.logged

theorem renew (h : farm.Informed) : (farm.step .renew).Informed := by
  simp only [step]
  split
  case isTrue => exact h
  case isFalse =>
    -- What was read so far is of an older generation then.
    have hnext : { farm with
        generation := farm.generation + 1, changing := farm.changing - 1, started := false }.Informed :=
      ⟨fun warmUp hmem => Nat.le_succ_of_le (h.generation_le warmUp hmem),
        fun warmUp hmem _ _ => fits_of_lt (Nat.lt_succ_of_le (h.generation_le warmUp hmem)),
        fun broadcast hmem => fits_of_lt (Nat.lt_succ_of_le (h.sent broadcast hmem).1), h.logged⟩
    split
    · exact hnext.enlist (Nat.le_refl _)
    · exact hnext

theorem register (h : farm.Informed) : (farm.step .register).Informed := by
  have hbuilt : { farm with building := false }.Informed := ⟨h.generation_le, h.ready, h.sent, h.logged⟩
  simp only [step]
  split
  case isFalse => exact h
  split
  case isTrue => exact hbuilt
  case isFalse =>
    have hlisted := hbuilt.enlist (Nat.le_refl farm.generation)
    exact ⟨hlisted.generation_le, hlisted.ready, hlisted.sent, hlisted.logged⟩

theorem advance (h : farm.Informed) {number : Nat} {stage : Stage ω} {warmUp : WarmUp ω}
    (found : farm.warmUps[number]? = some warmUp)
    (hready : ∀ options, stage = .ready options → farm.Fits warmUp.generation options) :
    (farm.advance number stage).Informed where
  generation_le := forall_mem_advance found h.generation_le
    (h.generation_le warmUp (List.mem_of_getElem? found))
  ready := forall_mem_advance found h.ready hready
  sent := h.sent
  logged := h.logged

theorem proceed (h : farm.Informed) {number : Nat} {warmUp : WarmUp ω}
    (found : farm.warmUps[number]? = some warmUp) : (farm.proceed number warmUp).Informed := by
  have hwarmUp := List.mem_of_getElem? found
  unfold Farm.proceed
  split
  case h_1 =>
    refine h.advance found ?_
    rintro _ ⟨⟩
    exact ⟨h.generation_le warmUp hwarmUp, fun _ _ => rfl⟩
  case h_2 options hstage =>
    have hsent : { farm with
        broadcasts := farm.broadcasts ++ [(⟨warmUp.generation, options⟩ : Broadcast ω)] }.Informed := by
      refine ⟨h.generation_le, h.ready, ?_, fun log hlog broadcast hmem => ?_⟩
      · have hready := h.ready warmUp hwarmUp options hstage
        exact List.forall_mem_append.2 ⟨h.sent, List.forall_mem_singleton.2 hready⟩
      · exact Nat.lt_of_lt_of_le (h.logged log hlog broadcast hmem) (by simp)
    exact hsent.advance found nofun
  case h_3 broadcast hstage =>
    have hdone : (farm.advance number (.done broadcast)).Informed := h.advance found nofun
    split
    case isTrue => exact ⟨hdone.generation_le, hdone.ready, hdone.sent, hdone.logged⟩
    case isFalse => exact h
  case h_4 => exact h

theorem serve (h : farm.Informed) (worker broadcast : Nat) : (farm.step (.serve worker broadcast)).Informed := by
  have hlogged : ∀ log ∈ (farm.step (.serve worker broadcast)).logs, ∀ number ∈ log,
      number < farm.broadcasts.length := by
    intro log hlog number hmem
    obtain ⟨old, hold, rfl | ⟨rfl, hsent⟩⟩ := exists_of_mem_serve hlog
    · exact h.logged log hold number hmem
    · rcases List.mem_append.1 hmem with hbefore | hnew
      · exact h.logged old hold number hbefore
      · exact List.mem_singleton.1 hnew ▸ hsent
  simp only [Farm.step] at hlogged ⊢
  split
  case isFalse => exact h
  case isTrue hsent =>
    rw [if_pos hsent] at hlogged
    exact ⟨h.generation_le, h.ready, h.sent, hlogged⟩

protected theorem step (h : farm.Informed) (action : FarmStep ω) : (farm.step action).Informed := by
  cases action with
  | setOptions options => exact h.setOptions options
  | renew => exact h.renew
  | register => exact h.register
  | proceed number =>
    rcases step_proceed farm number with hnone | ⟨warmUp, found, hproceed⟩
    · exact hnone.symm ▸ h
    · exact hproceed.symm ▸ h.proceed found
  | serve worker broadcast => exact h.serve worker broadcast
  | _ => exact ⟨h.generation_le, h.ready, h.sent, h.logged⟩

theorem run (h : farm.Informed) (steps : List (FarmStep ω)) : (farm.run steps).Informed :=
  run_induction (fun _ action hbefore => hbefore.step action) h steps

end Informed

/-! ## What a worker was told last -/

/-- Whether every worker has run the broadcasts in the order in which they were sent. -/
def InOrder (farm : Farm κ ω) : Prop :=
  ∀ log ∈ farm.logs, log = List.range log.length

instance (farm : Farm κ ω) : Decidable farm.InOrder :=
  inferInstanceAs (Decidable (∀ log ∈ farm.logs, log = List.range log.length))

/-- The options of the last broadcast that a worker has run. -/
def told (farm : Farm κ ω) (log : List Nat) : Option ω :=
  (log.getLast?.bind fun number => farm.broadcasts[number]?).map Broadcast.options

/-- Whether the last broadcast that a worker has run is of an older generation, and was sent after one of the
current generation. -/
def Outdated (farm : Farm κ ω) (log : List Nat) : Prop :=
  ∃ current late : Broadcast ω, ∃ earlier last : Nat, earlier < last ∧ log.getLast? = some last ∧
    farm.broadcasts[earlier]? = some current ∧ current.generation = farm.generation ∧
    farm.broadcasts[last]? = some late ∧ late.generation < farm.generation

theorem Informed.told_or_outdated (h : farm.Informed) (hguarded : farm.Guarded) (hordered : farm.InOrder)
    (hstarted : farm.started = true) (hquiet : farm.changing = 0) {log : List Nat} (hlog : log ∈ farm.logs) :
    farm.told log = some farm.options ∨ farm.Outdated log := by
  obtain ⟨warmUp, hmem, hgeneration, earlier, hdone⟩ := hguarded.current hstarted
  obtain ⟨read, hsent⟩ := hguarded.issued warmUp hmem earlier (by simp [hdone, Stage.broadcast?])
  have hearlier : earlier ∈ log := heard_iff.1 (hguarded.served warmUp hmem earlier hdone) log hlog
  have hrange := hordered log hlog
  have hlt : earlier < log.length := List.mem_range.1 (hrange ▸ hearlier)
  have hlast : log.getLast? = some (log.length - 1) := by
    rw [hrange, List.getLast?_range, List.length_range]
    exact if_neg (Nat.ne_of_gt (Nat.zero_lt_of_lt hlt))
  have hbound := h.logged log hlog _ (List.mem_of_getLast? hlast)
  have hlate := List.getElem?_eq_getElem hbound
  have htold : farm.told log = some farm.broadcasts[log.length - 1].options := by
    simp [told, hlast, hlate]
  obtain ⟨hle, hcurrent⟩ := h.sent _ (List.mem_of_getElem? hlate)
  rcases Nat.eq_or_lt_of_le hle with hsame | holder
  · exact .inl (htold.trans (congrArg some (hcurrent hsame hquiet)))
  · -- The broadcast of the current generation is not the last one then, so it is an earlier one.
    have hother : earlier ≠ log.length - 1 := by
      rintro rfl
      rw [hlate, Option.some.injEq] at hsent
      rw [hsent, hgeneration] at holder
      exact Nat.lt_irrefl _ holder
    exact .inr ⟨_, _, earlier, log.length - 1, by omega, hlast, hsent, hgeneration, hlate, holder⟩

/-- Whether some steps lead from a new farm to this one. -/
def Reached (farm : Farm κ ω) : Prop :=
  ∃ compiler options workers steps, (new compiler options workers).run steps = farm

theorem Reached.guarded (h : farm.Reached) : farm.Guarded := by
  obtain ⟨compiler, options, workers, steps, rfl⟩ := h
  exact (guarded_new compiler options workers).run steps

theorem Reached.informed (h : farm.Reached) : farm.Informed := by
  obtain ⟨compiler, options, workers, steps, rfl⟩ := h
  exact (informed_new compiler options workers).run steps

/-- If workers run broadcasts in the order in which these were sent, then the last options that a worker of a
started farm was told are current, unless they come from a warm-up that was overtaken. -/
theorem told_of_started (h : farm.Reached) (hordered : farm.InOrder) (hstarted : farm.started = true)
    (hquiet : farm.changing = 0) {log : List Nat} (hlog : log ∈ farm.logs) :
    farm.told log = some farm.options ∨ farm.Outdated log :=
  h.informed.told_or_outdated h.guarded hordered hstarted hquiet hlog

/-- A farm with two workers that is started, and started again after a change of the options. -/
theorem told_of_started_twice :
    let farm := (new () false 2).run [.register, .proceed 0, .proceed 0, .serve 0 0, .serve 1 0, .proceed 0,
      .setOptions true, .renew, .proceed 1, .proceed 1, .serve 1 1, .serve 0 1, .proceed 1]
    [0, 1] ∈ farm.logs ∧ (farm.told [0, 1] = some true ∨ farm.Outdated [0, 1]) :=
  ⟨by decide, told_of_started ⟨(), false, 2, _, rfl⟩ (by decide) (by decide) (by decide) (by decide)⟩

/-- If warm-ups have sent in the order of their generations, all workers of a started farm were told the current
options last. -/
theorem told_of_sorted (h : farm.Reached) (hordered : farm.InOrder) (hstarted : farm.started = true)
    (hquiet : farm.changing = 0) (hsorted : farm.broadcasts.Pairwise (·.generation ≤ ·.generation))
    {log : List Nat} (hlog : log ∈ farm.logs) : farm.told log = some farm.options := by
  rcases h.informed.told_or_outdated h.guarded hordered hstarted hquiet hlog with hcurrent |
    ⟨current, late, earlier, last, hlt, -, hfirst, hsame, hlate, holder⟩
  · exact hcurrent
  · obtain ⟨hearlier, rfl⟩ := List.getElem?_eq_some_iff.1 hfirst
    obtain ⟨hlast, rfl⟩ := List.getElem?_eq_some_iff.1 hlate
    have hle := List.pairwise_iff_getElem.1 hsorted earlier last hearlier hlast hlt
    omega

/-- The options change before the warm-up for the first ones sends them.  The warm-up for the new ones starts the
pool; only then the first one sends what it has read, and both workers run it. -/
def overtaken : List (FarmStep Bool) :=
  [.register, .proceed 0, .setOptions true, .renew, .proceed 1, .proceed 1, .serve 0 0, .serve 1 0, .proceed 1,
    .proceed 0, .serve 0 1, .serve 1 1, .proceed 0]

/-- Without that order a farm that is started and has nothing left to do may have told all its workers options
last that are out of date. -/
theorem exists_outdated :
    ∃ farm : Farm Unit Bool, farm.Reached ∧ farm.InOrder ∧ farm.started = true ∧ farm.changing = 0 ∧
      farm.settled = farm ∧ ∀ log ∈ farm.logs, farm.told log ≠ some farm.options :=
  ⟨(new () false 2).run overtaken, ⟨(), false, 2, overtaken, rfl⟩, by decide, by decide, by decide,
    by decide +kernel, by decide⟩

end Farm
end Workers
end ModuleBundler
