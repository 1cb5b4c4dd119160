import ModuleBundler.Proofs.Watch.Counting

/-!
# What the system is asked to watch

The system knows watches by their numbers: a path that was asked for has the number of a watch, and so has
the place that is watched.  As long as a path leads to one place and no other path leads there, the two
numbers belong to each other, and the place is watched from the time the path is asked for until it is
given back.

Main results:

- Theorem {lit}`System.watch_cases` and theorem {lit}`System.mem_places_unwatch`: what is watched
  after the system was asked.
- Theorem {lit}`System.Keeps.watch` and theorem {lit}`System.Keeps.unwatch`: paths and places stay in step.
-/

namespace ModuleBundler
namespace Watch
namespace System

variable {system later : System} {tree : FileTree} {p q name : Path} {address place : Address} {number n : Nat}

/-- Whether a place is watched. -/
def IsWatched (system : System) (address : Address) : Prop :=
  ∃ number, (address, number) ∈ system.places

/-! ## Asking and giving back -/

theorem mem_of_lookup (h : system.places.lookup address = some number) : (address, number) ∈ system.places := by
  obtain ⟨front, back, hplaces, -⟩ := List.lookup_eq_some_iff.1 h
  simp [hplaces]

theorem not_isWatched_of_lookup (h : system.places.lookup address = none) : ¬system.IsWatched address := by
  rintro ⟨number, hmem⟩
  simpa using List.lookup_eq_none_iff.1 h _ hmem

theorem get?_put (asked : Path.Map Nat) (p : Path) (number : Nat) (q : Path) :
    (asked.put p number).get? q = if p == q then some number else asked.get? q := by
  by_cases hsame : (p == q) = true
  · rw [Path.Map.get?_put_self hsame, if_pos hsame]
  · rw [Path.Map.get?_put_of_ne (by simpa using hsame), if_neg hsame]

/-- A place that is watched from now on has the number of its watch, or else the next one. -/
theorem watch_cases (h : system.watch tree p = .ok later) :
    ∃ address entry number, tree.find (absolute tree p) = .ok (address, entry) ∧
      (((address, number) ∈ system.places ∧ later.places = system.places ∧ later.next = system.next) ∨
        (¬system.IsWatched address ∧ number = system.next ∧
          later.places = (address, number) :: system.places ∧ later.next = system.next + 1)) ∧
      ∀ q, later.asked.get? q = if absolute tree p == q then some number else system.asked.get? q := by
  unfold watch at h
  dsimp only at h
  split at h
  · rename_i address entry hfind
    refine ⟨address, entry, ?_⟩
    split at h
    · rename_i number hlookup
      obtain rfl := Except.ok.inj h
      exact ⟨number, hfind, .inl ⟨mem_of_lookup hlookup, rfl, rfl⟩, get?_put system.asked _ number⟩
    · rename_i hlookup
      obtain rfl := Except.ok.inj h
      exact ⟨system.next, hfind, .inr ⟨not_isWatched_of_lookup hlookup, rfl, rfl, rfl⟩,
        get?_put system.asked _ system.next⟩
  · cases h

/-- A path that is given back has no number any more. -/
theorem get?_asked_unwatch (system : System) (tree : FileTree) (p q : Path) :
    (system.unwatch tree p).asked.get? q = if absolute tree p == q then none else system.asked.get? q := by
  unfold unwatch forget
  cases hasked : system.asked.get? (absolute tree p) with
  | none =>
    by_cases hsame : (absolute tree p == q) = true
    · simp [hsame, ← system.asked.get?_congr hsame, hasked]
    · simp [hsame]
  | some number =>
    by_cases hplace : (system.places.any fun place => place.2 == number) = true
    · simp [hplace, drop, Path.Map.get?_erase]
    · simp [hplace, Path.Map.get?_erase]

/-- A place is watched no more if it has the number of the path that is given back. -/
theorem mem_places_unwatch (system : System) (tree : FileTree) (p : Path) (place : Address × Nat) :
    place ∈ (system.unwatch tree p).places ↔
      place ∈ system.places ∧ system.asked.get? (absolute tree p) ≠ some place.2 := by
  unfold unwatch forget
  cases hasked : system.asked.get? (absolute tree p) with
  | none => simp
  | some number =>
    have hiff : some number ≠ some place.2 ↔ place.2 ≠ number := by
      rw [ne_eq, Option.some.injEq, eq_comm]
    rw [hiff]
    by_cases hplace : (system.places.any fun place => place.2 == number) = true
    · simp [hplace, drop]
    · simp only [hplace, if_false, Bool.false_eq_true]
      have hnone : place ∈ system.places → place.2 ≠ number := by
        rintro hmem rfl
        exact hplace (List.any_eq_true.2 ⟨place, hmem, by simp⟩)
      exact ⟨fun hmem => ⟨hmem, hnone hmem⟩, And.left⟩

@[simp]
theorem next_unwatch (system : System) (tree : FileTree) (p : Path) : (system.unwatch tree p).next = system.next := by
  unfold unwatch forget
  cases system.asked.get? (absolute tree p) with
  | none => rfl
  | some number => by_cases hplace : (system.places.any fun place => place.2 == number) = true <;> simp [hplace, drop]

/-! ## Numbers -/

/-- Whether the numbers of places and paths are those of the watches that were made, and no two places have
one number. -/
structure Orderly (system : System) : Prop where
  places_lt : ∀ place n, (place, n) ∈ system.places → n < system.next
  asked_lt : ∀ q n, system.asked.get? q = some n → n < system.next
  number_inj : ∀ place m n, (place, m) ∈ system.places → (place, n) ∈ system.places → m = n
  place_inj : ∀ place other n, (place, n) ∈ system.places → (other, n) ∈ system.places → place = other

/-- What is different after a place is watched under a path: it has a number, which only this place has had
up to now, and the path has it too. -/
structure Watched (system later : System) (name : Path) (place : Address) (number : Nat) : Prop where
  mem_places : ∀ other n, (other, n) ∈ later.places ↔ (other, n) ∈ system.places ∨ (other = place ∧ n = number)
  number_iff : ∀ other n, (other, n) ∈ system.places → (other = place ↔ n = number)
  get?_asked : ∀ q, later.asked.get? q = if name == q then some number else system.asked.get? q
  mem_of_asked : ∀ q, system.asked.get? q = some number → (place, number) ∈ system.places
  lt_next : number < later.next
  next_le : system.next ≤ later.next

theorem orderly_empty : Orderly {} := by
  constructor <;> simp

/-- To watch a place is to give it a number. -/
theorem Orderly.watched (h : system.Orderly) (hwatch : system.watch tree p = .ok later) :
    ∃ place entry number, tree.find (absolute tree p) = .ok (place, entry) ∧
      Watched system later (absolute tree p) place number := by
  obtain ⟨place, entry, number, hfind, hplaces, hasked⟩ := watch_cases hwatch
  refine ⟨place, entry, number, hfind, ?_⟩
  rcases hplaces with ⟨hold, hsame, hnext⟩ | ⟨hnone, rfl, hnew, hnext⟩
  · have hlt := h.places_lt place number hold
    refine ⟨fun other n => ?_, fun other n hother => ?_, hasked, fun _ _ => hold, by omega, by omega⟩
    · rw [hsame]
      constructor
      · exact .inl
      · rintro (hother | ⟨rfl, rfl⟩)
        · exact hother
        · exact hold
    · constructor
      · rintro rfl
        exact h.number_inj other n number hother hold
      · rintro rfl
        exact h.place_inj other place n hother hold
  · refine ⟨fun other n => by simp [hnew, or_comm], fun other n hother => ?_, hasked, fun q hget => ?_, by omega, by omega⟩
    · have hlt := h.places_lt other n hother
      constructor
      · rintro rfl
        exact absurd ⟨n, hother⟩ hnone
      · omega
    · have hlt := h.asked_lt q _ hget
      omega

theorem Orderly.of_watched (h : system.Orderly) (hwatched : Watched system later name place number) :
    later.Orderly := by
  have hnext := hwatched.lt_next
  have hle := hwatched.next_le
  constructor
  · intro other n hother
    rcases (hwatched.mem_places other n).1 hother with hother | ⟨-, rfl⟩
    · have hlt := h.places_lt other n hother
      omega
    · exact hnext
  · intro q n hget
    rw [hwatched.get?_asked] at hget
    split at hget
    · cases hget
      exact hnext
    · have hlt := h.asked_lt q n hget
      omega
  · intro other m n hm hn
    rcases (hwatched.mem_places other m).1 hm with hm | ⟨rfl, rfl⟩
    · rcases (hwatched.mem_places other n).1 hn with hn | ⟨rfl, rfl⟩
      · exact h.number_inj other m n hm hn
      · exact (hwatched.number_iff other m hm).1 rfl
    · rcases (hwatched.mem_places other n).1 hn with hn | ⟨-, rfl⟩
      · exact ((hwatched.number_iff other n hn).1 rfl).symm
      · rfl
  · intro first second n hfirst hsecond
    rcases (hwatched.mem_places first n).1 hfirst with hfirst | ⟨rfl, rfl⟩
    · rcases (hwatched.mem_places second n).1 hsecond with hsecond | ⟨rfl, rfl⟩
      · exact h.place_inj first second n hfirst hsecond
      · exact (hwatched.number_iff first n hfirst).2 rfl
    · rcases (hwatched.mem_places second n).1 hsecond with hsecond | ⟨rfl, -⟩
      · exact ((hwatched.number_iff second n hsecond).2 rfl).symm
      · rfl

theorem Orderly.unwatch (h : system.Orderly) (tree : FileTree) (p : Path) : (system.unwatch tree p).Orderly := by
  have hmem : ∀ place, place ∈ (system.unwatch tree p).places → place ∈ system.places := fun place hplace =>
    ((mem_places_unwatch system tree p place).1 hplace).1
  constructor
  · intro place n hplace
    simpa using h.places_lt place n (hmem _ hplace)
  · intro q n hget
    rw [get?_asked_unwatch] at hget
    split at hget
    · cases hget
    · simpa using h.asked_lt q n hget
  · intro place m n hm hn
    exact h.number_inj place m n (hmem _ hm) (hmem _ hn)
  · intro place other n hplace hother
    exact h.place_inj place other n (hmem _ hplace) (hmem _ hother)

/-! ## One path and one place -/

/-- Whether a path and a place are in step: the path has the number of the place as long as that is
watched, no other path has it, and the path has the number of no other place. -/
structure Keeps (system : System) (name : Path) (address : Address) : Prop where
  asked_iff : ∀ n, (address, n) ∈ system.places → ∀ q, system.asked.get? q = some n ↔ (name == q) = true
  leads : ∀ place n, (place, n) ∈ system.places → system.asked.get? name = some n → place = address

/-- Path and place stay in step if the one is asked for to watch the other, or neither is concerned. -/
theorem Keeps.of_watched {other : Path} (h : system.Keeps name address)
    (hwatched : Watched system later other place number) (hsame : place = address ↔ (name == other) = true) :
    later.Keeps name address := by
  constructor
  · intro n haddress q
    rw [hwatched.get?_asked]
    by_cases hq : (other == q) = true
    · have hname : (name == q) = true ↔ (name == other) = true :=
        ⟨fun h => Path.beq_trans h (Path.beq_symm hq), fun h => Path.beq_trans h hq⟩
      rw [if_pos hq, hname, ← hsame, Option.some.injEq]
      rcases (hwatched.mem_places address n).1 haddress with hold | ⟨rfl, rfl⟩
      · rw [eq_comm, ← hwatched.number_iff address n hold, eq_comm]
      · simp
    · rw [if_neg hq]
      rcases (hwatched.mem_places address n).1 haddress with hold | ⟨rfl, rfl⟩
      · exact h.asked_iff n hold q
      · have hname : (name == other) = true := hsame.1 rfl
        have hne : ¬(name == q) = true := fun h => hq (Path.beq_trans (Path.beq_symm hname) h)
        simp only [hne, Bool.false_eq_true, iff_false]
        intro hget
        exact hne ((h.asked_iff n (hwatched.mem_of_asked q hget) q).1 hget)
  · intro found n hfound hget
    rw [hwatched.get?_asked] at hget
    split at hget
    · rename_i hname
      obtain rfl := Option.some.inj hget
      have haddress := hsame.2 (Path.beq_symm hname)
      rcases (hwatched.mem_places found number).1 hfound with hold | ⟨rfl, -⟩
      · rw [← haddress]
        exact (hwatched.number_iff found number hold).2 rfl
      · exact haddress
    · rcases (hwatched.mem_places found n).1 hfound with hold | ⟨rfl, rfl⟩
      · exact h.leads found n hold hget
      · exact h.leads found n (hwatched.mem_of_asked name hget) hget

theorem Keeps.unwatch (h : system.Keeps name address) (tree : FileTree) (p : Path) :
    (system.unwatch tree p).Keeps name address := by
  constructor
  · intro n hmem q
    obtain ⟨hplace, hne⟩ := (mem_places_unwatch system tree p _).1 hmem
    rw [get?_asked_unwatch, ← h.asked_iff n hplace q]
    split
    · rename_i hsame
      rw [system.asked.get?_congr hsame] at hne
      simpa using hne
    · rfl
  · intro place n hmem hget
    rw [get?_asked_unwatch] at hget
    split at hget
    · cases hget
    · exact h.leads place n ((mem_places_unwatch system tree p _).1 hmem).1 hget

end System
end Watch
end ModuleBundler
