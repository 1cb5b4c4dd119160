import Mathlib.Data.List.Forall2
import Mathlib.Data.List.SplitBy
import ModuleBundler.Build.Debounce

/-!
# Bursts of changes

The changes that a build hears of come in bursts: in a burst one change follows
another before it was quiet for a window.  Every change starts a timer of its own, but
only the timer of the latest change counts, and it is running just as long as the
window after that change is not over ({lit}`Debounce.Keeps`).  So while time passes, a
pass falls due once for each burst, one window after its last change.

Main results:

- Theorem {lit}`Debounce.ends_append_of_near`: a change in a burst is its last one from then on.
- Theorem {lit}`Debounce.ends_append_of_far`: a change after a quiet window begins a burst.
- Theorem {lit}`Debounce.Keeps.due_iff`: a pass falls due one window after the latest change.
- Theorem {lit}`Debounce.Keeps.advance_advance`: how a wait is cut into waits makes no difference.
- Theorem {lit}`Debounce.Serves.advance`: a wait serves the burst that is over after it.
-/

namespace ModuleBundler
namespace Build
namespace Debounce

/-! ## Bursts -/

/-- Times of changes, cut where it was quiet for a window. -/
def bursts (heard : List Nat) : List (List Nat) :=
  heard.splitBy fun earlier later => decide (later < earlier + window)

/-- The last change of every burst. -/
def ends (heard : List Nat) : List Nat :=
  (bursts heard).filterMap List.getLast?

/-- The last changes of the bursts that are over at some time. -/
def settled (clock : Nat) (heard : List Nat) : List Nat :=
  (ends heard).filter fun last => decide (last + window ≤ clock)

variable {heard : List Nat} {last t : Nat}

/-- Soon after a change another one belongs to the same burst. -/
theorem bursts_append_of_near (h : heard.getLast? = some last) (hnear : t < last + window) :
    ∃ earlier burst, bursts heard = earlier ++ [burst] ∧
      bursts (heard ++ [t]) = earlier ++ [burst ++ [t]] := by
  rcases List.eq_nil_or_concat (bursts heard) with hnil | ⟨earlier, burst, hbursts⟩
  · rw [bursts, List.splitBy_eq_nil] at hnil
    simp [hnil] at h
  rw [List.concat_eq_append] at hbursts
  refine ⟨earlier, burst, hbursts, ?_⟩
  obtain ⟨hflat, hnonempty, hchains, hcuts⟩ := List.splitBy_eq_iff.1 hbursts
  obtain ⟨hearlier, hburst⟩ : [] ∉ earlier ∧ [] ≠ burst := by simpa using hnonempty
  have hlast : burst.getLast? = some last := by
    rw [← h, hflat, List.flatten_append, List.flatten_singleton, List.getLast?_append_of_ne_nil _ hburst.symm]
  refine List.splitBy_eq_iff.2 ⟨?_, by simp [hearlier], fun piece hmem => ?_, ?_⟩
  · simp [hflat]
  · rcases List.mem_append.1 hmem with hmem | hmem
    · exact hchains piece (List.mem_append_left _ hmem)
    · rw [List.mem_singleton.1 hmem]
      refine List.isChain_append.2 ⟨hchains burst (by simp), List.isChain_singleton t, ?_⟩
      simpa [hlast] using hnear
  · -- the longer burst begins where the burst began
    obtain ⟨hcuts, -, hcut⟩ := List.isChain_append.1 hcuts
    refine List.isChain_append.2 ⟨hcuts, List.isChain_singleton _, fun piece hpiece longer hlonger => ?_⟩
    obtain ⟨hne, hne', hquiet⟩ := hcut piece hpiece burst (by simp)
    obtain rfl : burst ++ [t] = longer := by simpa using hlonger
    refine ⟨hne, by simp, ?_⟩
    rwa [List.head_append_of_ne_nil hne']

/-- A change in a burst is its last one from then on. -/
theorem ends_append_of_near (h : heard.getLast? = some last) (hnear : t < last + window) :
    ends (heard ++ [t]) = (ends heard).dropLast ++ [t] := by
  obtain ⟨earlier, burst, hbursts, hlonger⟩ := bursts_append_of_near h hnear
  have hne : burst ≠ [] := List.ne_nil_of_mem_splitBy (l := heard) (by rw [← bursts, hbursts]; simp)
  simp [ends, hbursts, hlonger, List.getLast?_eq_some_getLast hne]

/-- A change after a quiet window begins a burst. -/
theorem ends_append_of_far (h : ∀ last ∈ heard.getLast?, last + window ≤ t) :
    ends (heard ++ [t]) = ends heard ++ [t] := by
  have hbursts : bursts (heard ++ [t]) = bursts heard ++ [[t]] :=
    List.splitBy_append_cons [] fun last hlast => by simpa using h last hlast
  simp [ends, hbursts]

theorem near_or_far (heard : List Nat) (t : Nat) :
    (∃ last, heard.getLast? = some last ∧ t < last + window) ∨
      ∀ last ∈ heard.getLast?, last + window ≤ t := by
  cases hlast : heard.getLast? with
  | none => simp
  | some last =>
    by_cases hnear : t < last + window
    · exact .inl ⟨last, rfl, hnear⟩
    · simpa using Or.inr (Nat.le_of_not_lt hnear)

/-- The latest change is the last one of its burst. -/
theorem getLast?_ends (heard : List Nat) : (ends heard).getLast? = heard.getLast? := by
  rcases List.eq_nil_or_concat heard with rfl | ⟨earlier, t, rfl⟩
  · rfl
  rw [List.concat_eq_append]
  rcases near_or_far earlier t with ⟨last, hlast, hnear⟩ | hfar
  · simp [ends_append_of_near hlast hnear]
  · simp [ends_append_of_far hfar]

theorem ends_of_none (h : heard.getLast? = none) : ends heard = [] := by
  rw [List.getLast?_eq_none_iff.1 h]
  rfl

theorem ends_eq (h : heard.getLast? = some last) : ends heard = (ends heard).dropLast ++ [last] :=
  (List.dropLast_append_getLast? last ((getLast?_ends heard).trans h)).symm

example : ends [0, 30, 60, 200, 290, 390] = [60, 290, 390] := by decide

/-! ## Timers -/

variable {debounce : Debounce}

/-- Whether the timers are those of changes at the given times.  Of all timers only that of the latest change
counts; it is running until the window after the change is over. -/
structure Keeps (debounce : Debounce) (heard : List Nat) : Prop where
  numbers : ∀ timer ∈ debounce.timers, timer.change ≤ debounce.changes
  latest : ∀ timer, (timer ∈ debounce.timers ∧ timer.change = debounce.changes) ↔
    ∃ last ∈ heard.getLast?, debounce.clock < last + window ∧ timer = ⟨last + window, debounce.changes⟩
  /-- All bursts but the latest one are over. -/
  earlier : ∀ last ∈ (ends heard).dropLast, last + window ≤ debounce.clock

theorem keeps_nil : ({} : Debounce).Keeps [] where
  numbers := by simp
  latest := by simp
  earlier := by simp [ends_of_none List.getLast?_nil]

namespace Keeps

/-- A pass falls due one window after the latest change. -/
theorem due_iff (h : debounce.Keeps heard) (milliseconds : Nat) :
    (debounce.advance milliseconds).1 = true ↔ ∃ last ∈ heard.getLast?,
      debounce.clock < last + window ∧ last + window ≤ debounce.clock + milliseconds := by
  simp only [Debounce.advance, List.any_eq_true, List.mem_filter, decide_eq_true_eq, beq_iff_eq]
  constructor
  · rintro ⟨timer, ⟨hmem, hdue⟩, hchange⟩
    obtain ⟨last, hlast, hrunning, rfl⟩ := (h.latest timer).1 ⟨hmem, hchange⟩
    exact ⟨last, hlast, hrunning, hdue⟩
  · rintro ⟨last, hlast, hrunning, hdue⟩
    obtain ⟨hmem, hchange⟩ := (h.latest _).2 ⟨last, hlast, hrunning, rfl⟩
    exact ⟨_, ⟨hmem, hdue⟩, hchange⟩

/-- While time passes, the timers keep to the changes. -/
theorem advance (h : debounce.Keeps heard) (milliseconds : Nat) :
    (debounce.advance milliseconds).2.Keeps heard where
  numbers timer hmem := h.numbers timer (List.mem_of_mem_filter hmem)
  latest timer := by
    simp only [Debounce.advance, List.mem_filter, decide_eq_true_eq, and_right_comm, h.latest]
    constructor
    · rintro ⟨⟨last, hlast, -, rfl⟩, hrunning⟩
      exact ⟨last, hlast, hrunning, rfl⟩
    · rintro ⟨last, hlast, hrunning, rfl⟩
      exact ⟨⟨last, hlast, by omega, rfl⟩, hrunning⟩
  earlier last hmem := (h.earlier last hmem).trans (Nat.le_add_right _ _)

/-- Of the bursts all but the latest one are over. -/
theorem mem_ends (h : debounce.Keeps heard) (hmem : last ∈ ends heard) :
    last + window ≤ debounce.clock ∨ heard.getLast? = some last := by
  cases hlatest : heard.getLast? with
  | none => simp [ends_of_none hlatest] at hmem
  | some latest =>
    rw [ends_eq hlatest] at hmem
    rcases List.mem_append.1 hmem with hmem | hmem
    · exact .inl (h.earlier last hmem)
    · rw [List.mem_singleton.1 hmem]
      exact .inr rfl

/-- Every change is the latest one when it comes. -/
theorem request (h : debounce.Keeps heard) : debounce.request.Keeps (heard ++ [debounce.clock]) where
  numbers timer hmem := by
    rcases List.mem_append.1 hmem with hmem | hmem
    · exact (h.numbers timer hmem).trans (Nat.le_succ _)
    · simp [List.mem_singleton.1 hmem, Debounce.request]
  latest timer := by
    have hold : timer ∈ debounce.timers → timer.change ≠ debounce.changes + 1 := by
      intro hmem
      have hle := h.numbers timer hmem
      omega
    simp only [Debounce.request, List.mem_append, List.mem_singleton, List.getLast?_concat,
      Option.mem_some_iff, exists_eq_left']
    constructor
    · rintro ⟨hmem | rfl, hchange⟩
      · exact absurd hchange (hold hmem)
      · simp [window]
    · rintro ⟨-, rfl⟩
      simp
  earlier last hmem := by
    show last + window ≤ debounce.clock
    rcases near_or_far heard debounce.clock with ⟨latest, hlatest, hnear⟩ | hfar
    · rw [ends_append_of_near hlatest hnear, List.dropLast_concat] at hmem
      exact h.earlier last hmem
    · rw [ends_append_of_far hfar, List.dropLast_concat] at hmem
      rcases h.mem_ends hmem with hover | hlast
      · exact hover
      · exact hfar last hlast

/-- The latest burst is over after a window, and the others are over anyway. -/
theorem settled_eq (h : debounce.Keeps heard) (hlast : heard.getLast? = some last) {time : Nat}
    (htime : debounce.clock ≤ time) :
    settled time heard = (ends heard).dropLast ++ if last + window ≤ time then [last] else [] := by
  have hearlier : (ends heard).dropLast.filter (fun last => decide (last + window ≤ time)) =
      (ends heard).dropLast :=
    List.filter_eq_self.2 fun last hmem => decide_eq_true ((h.earlier last hmem).trans htime)
  rw [settled, ends_eq hlast, List.filter_append, List.dropLast_concat, hearlier, List.filter_singleton]
  by_cases hover : last + window ≤ time <;> simp [hover]

/-- No burst is over because of a change. -/
theorem settled_request (h : debounce.Keeps heard) :
    settled debounce.clock (heard ++ [debounce.clock]) = settled debounce.clock heard := by
  have hwindow : ¬ debounce.clock + window ≤ debounce.request.clock := by simp [Debounce.request, window]
  refine (h.request.settled_eq List.getLast?_concat le_rfl).trans ?_
  rw [if_neg hwindow, List.append_nil]
  rcases near_or_far heard debounce.clock with ⟨last, hlast, hnear⟩ | hfar
  · rw [ends_append_of_near hlast hnear, h.settled_eq hlast le_rfl, if_neg (by omega)]
    simp
  · rw [ends_append_of_far hfar, List.dropLast_concat]
    refine (List.filter_eq_self.2 fun last hmem => decide_eq_true ?_).symm
    exact (h.mem_ends hmem).elim id (hfar last)

end Keeps

/-! ## Waits -/

/-- Two waits leave the timers as one wait does. -/
theorem advance_add (debounce : Debounce) (a b : Nat) :
    ((debounce.advance a).2.advance b).2 = (debounce.advance (a + b)).2 := by
  simp only [Debounce.advance, List.filter_filter, Nat.add_assoc]
  congr 2
  funext timer
  rw [← Bool.decide_and]
  apply decide_eq_decide.2
  omega

namespace Keeps

/-- If nothing is due in a wait, whether a pass falls due in it and the next wait depends on the latter. -/
theorem due_add_of_false (h : debounce.Keeps heard) {a : Nat} (hdue : (debounce.advance a).1 = false)
    (b : Nat) : (debounce.advance (a + b)).1 = ((debounce.advance a).2.advance b).1 := by
  have hnot := mt (h.due_iff a).2 (Bool.eq_false_iff.1 hdue)
  apply Bool.eq_iff_iff.2
  rw [h.due_iff, (h.advance a).due_iff]
  refine exists_congr fun last => and_congr_right fun hlast => ?_
  have hnot := not_and.1 (not_and.1 (not_exists.1 hnot last) hlast)
  simp only [Debounce.advance]
  omega

/-- If a pass falls due in a wait, no other one does in the next wait. -/
theorem due_add_of_true (h : debounce.Keeps heard) {a : Nat} (hdue : (debounce.advance a).1 = true)
    (b : Nat) : (debounce.advance (a + b)).1 = true ∧ ((debounce.advance a).2.advance b).1 = false := by
  obtain ⟨last, hlast, hrunning, hover⟩ := (h.due_iff a).1 hdue
  constructor
  · exact (h.due_iff _).2 ⟨last, hlast, hrunning, by omega⟩
  · apply Bool.eq_false_iff.2
    rw [ne_eq, (h.advance a).due_iff]
    rintro ⟨other, hother, hafter, -⟩
    obtain rfl := Option.mem_unique hlast hother
    simp only [Debounce.advance] at hafter
    omega

end Keeps

/-- Whether waits lead over just those moments at which it had come to be quiet for a window after a burst, one
wait for each burst.  A wait is given by the time at which it begins and the time at which it ends. -/
structure Serves (debounce : Debounce) (heard : List Nat) (waits : List (Nat × Nat)) : Prop where
  keeps : debounce.Keeps heard
  waits : List.Forall₂ (fun last wait => wait.1 < last + window ∧ last + window ≤ wait.2)
    (settled debounce.clock heard) waits

namespace Serves

variable {waits : List (Nat × Nat)}

theorem nil : ({} : Debounce).Serves [] [] :=
  ⟨keeps_nil, List.Forall₂.nil⟩

/-- A change puts a pass off, but it takes none back. -/
theorem request (h : debounce.Serves heard waits) :
    debounce.request.Serves (heard ++ [debounce.clock]) waits where
  keeps := h.keeps.request
  waits := by
    have hsettled : settled debounce.request.clock (heard ++ [debounce.clock]) = settled debounce.clock heard :=
      h.keeps.settled_request
    rw [hsettled]
    exact h.waits

/-- A wait in which a pass falls due serves the burst that is over after it, and in any other wait no burst
comes to be over. -/
theorem advance (h : debounce.Serves heard waits) (milliseconds : Nat) :
    (debounce.advance milliseconds).2.Serves heard
      (waits ++ if (debounce.advance milliseconds).1 then [(debounce.clock, debounce.clock + milliseconds)]
        else []) where
  keeps := h.keeps.advance milliseconds
  waits := by
    have hclock : (debounce.advance milliseconds).2.clock = debounce.clock + milliseconds := rfl
    have hwaits := h.waits
    rw [hclock]
    by_cases hdue : (debounce.advance milliseconds).1 = true
    · obtain ⟨last, hlast, hrunning, hover⟩ := (h.keeps.due_iff milliseconds).1 hdue
      rw [if_pos hdue, h.keeps.settled_eq hlast (Nat.le_add_right _ _), if_pos hover]
      rw [h.keeps.settled_eq hlast le_rfl, if_neg (Nat.not_le.2 hrunning), List.append_nil] at hwaits
      exact List.rel_append hwaits (.cons ⟨hrunning, hover⟩ .nil)
    · rw [if_neg hdue, List.append_nil]
      suffices hsettled : settled (debounce.clock + milliseconds) heard = settled debounce.clock heard by
        rwa [hsettled]
      cases hlast : heard.getLast? with
      | none => simp [settled, ends_of_none hlast]
      | some last =>
        rw [h.keeps.settled_eq hlast (Nat.le_add_right _ _), h.keeps.settled_eq hlast le_rfl]
        rw [h.keeps.due_iff, hlast] at hdue
        simp only [Option.mem_some_iff, exists_eq_left', not_and] at hdue
        by_cases hover : last + window ≤ debounce.clock
        · rw [if_pos hover, if_pos (by omega)]
        · rw [if_neg hover, if_neg (hdue (by omega))]

end Serves

end Debounce
end Build
end ModuleBundler
