/-!
# Histories

A history lists what has happened, the first thing first.  Many facts about a state
are facts of one kind about its history: something has happened, and nothing has
undone it since.

Main results:

- Theorem {lit}`since_append`: what has happened lasts until something undoes it.
-/

namespace ModuleBundler

variable {α : Type} {happens undoes : α → Prop} {history more : List α} {a : α}

/-- Whether something has happened and nothing has undone it since. -/
def Since (happens undoes : α → Prop) (history : List α) : Prop :=
  ∃ before a later, history = before ++ a :: later ∧ happens a ∧ ∀ b ∈ later, ¬ undoes b

/-- An entry of a history that goes on is its last one, or was there before. -/
theorem append_singleton_eq {before later : List α} {b : α} (h : history ++ [a] = before ++ b :: later) :
    (before = history ∧ b = a ∧ later = []) ∨
      ∃ rest, later = rest ++ [a] ∧ history = before ++ b :: rest := by
  rcases List.append_eq_append_iff.1 h with ⟨rest, rfl, hrest⟩ | ⟨rest, rfl, hrest⟩
  · rcases List.singleton_eq_append_iff.1 hrest with ⟨rfl, hlast⟩ | ⟨-, hnil⟩
    · obtain ⟨rfl, rfl⟩ := List.cons.inj hlast
      simp
    · simp at hnil
  · cases rest with
    | nil => simp_all
    | cons c rest =>
      obtain ⟨rfl, rfl⟩ := List.cons.inj hrest
      exact .inr ⟨rest, rfl, rfl⟩

@[simp]
theorem since_nil : ¬ Since happens undoes [] := by
  rintro ⟨before, a, later, h, -⟩
  simp at h

/-- What has happened lasts until something undoes it. -/
theorem since_append :
    Since happens undoes (history ++ [a]) ↔ happens a ∨ (Since happens undoes history ∧ ¬ undoes a) := by
  constructor
  · rintro ⟨before, b, later, h, hhappens, hlater⟩
    rcases append_singleton_eq h with ⟨rfl, rfl, rfl⟩ | ⟨rest, rfl, rfl⟩
    · exact .inl hhappens
    · refine .inr ⟨⟨before, b, rest, rfl, hhappens, fun other hmem => hlater other ?_⟩, hlater a ?_⟩
      · exact List.mem_append_left _ hmem
      · simp
  · rintro (hhappens | ⟨⟨before, b, later, rfl, hhappens, hlater⟩, ha⟩)
    · exact ⟨history, a, [], rfl, hhappens, by simp⟩
    · refine ⟨before, b, later ++ [a], by simp, hhappens, fun other hmem => ?_⟩
      rcases List.mem_append.1 hmem with hmem | hmem
      · exact hlater other hmem
      · rwa [List.mem_singleton.1 hmem]

end ModuleBundler
