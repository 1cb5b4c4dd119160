import ModuleBundler.Path.Normal
import ModuleBundler.Proofs.FileTree.Spelling

/-!
# Normalizing joined paths

Normalizing reads components from the left, so that a path which is read from a directory
is normalized by going on from the normal form of the directory.

Main results:

- Theorem {lit}`Path.components_join`: the components of a path that is read from a directory.
- Theorem {lit}`Path.foldl_join`: normalizing a joined path goes on behind its directory.
-/

namespace ModuleBundler
namespace Path

/-! ## Joined paths -/

section Joining

variable {p q : Path}

/-- Without a dot in front a relative path has no root and no dot. -/
theorem filter_components (h : p.isAbsolute = false) : p.components.filter (· != .here) = p.inner := by
  have hinner : p.inner.filter (· != .here) = p.inner := by
    rw [List.filter_eq_self]
    intro component hmem
    rcases eq_up_or_name_of_mem_inner hmem with rfl | ⟨text, rfl⟩ <;> rfl
  obtain ⟨front, hcomponents, hfront⟩ := p.exists_components
  rw [hcomponents, List.filter_append, hinner]
  rcases hfront with ⟨-, habsolute⟩ | ⟨rfl | rfl, -⟩
  · rw [h] at habsolute
    cases habsolute
  · rfl
  · rfl

theorem isAbsolute_join (p q : Path) : (p.join q).isAbsolute = (p.isAbsolute || q.isAbsolute) := by
  unfold join
  by_cases habsolute : q.isAbsolute = true
  · rw [if_pos habsolute, habsolute, Bool.or_true]
  · rw [if_neg habsolute, (Bool.not_eq_true _).mp habsolute, Bool.or_false]
    by_cases hempty : p.text = ""
    · rw [if_pos (.inl hempty), hempty, String.empty_append]
      have hrelative : p.isAbsolute = false := by
        unfold isAbsolute
        rw [hempty]
        rfl
      rw [hrelative]
      exact (Bool.not_eq_true _).mp habsolute
    · obtain ⟨c, rest, htext⟩ := List.exists_cons_of_ne_nil (toList_ne_nil hempty)
      split <;> simp [isAbsolute, htext]

/-- A path that is read from a directory has the components of both, without the dot between them. -/
theorem components_join (h : q.isAbsolute = false) :
    (p.text = "" ∧ p.join q = q) ∨ (p.join q).components = p.components ++ q.components.filter (· != .here) := by
  rcases p.segments_join with ⟨hempty, hjoin⟩ | ⟨front, back, hsegments, hfront, hback, hjoin⟩
  · exact .inl ⟨hempty, hjoin h⟩
  · refine .inr ?_
    have hp : p.components = componentsOf front := by
      rcases hback with ⟨rfl, hone⟩ | rfl
      · exact components_eq hsegments hfront (by simp) fun heq => absurd heq hone
      · exact components_eq hsegments hfront (by simp [isIdle]) fun _ => List.cons_ne_nil _ _
    have hne : front ++ q.segments ≠ [""] := by
      intro hone
      have hlength := congrArg List.length hone
      have hfrontPos := List.length_pos_iff.2 hfront
      have hqPos := List.length_pos_iff.2 q.segments_ne_nil
      simp only [List.length_append, List.length_cons, List.length_nil] at hlength
      omega
    rw [components_eq_componentsOf (hjoin h) hne, hp, filter_components h, inner]
    obtain ⟨first, rest, rfl⟩ := List.exists_cons_of_ne_nil hfront
    simp [componentsOf]

end Joining

/-! ## Normalizing -/

/-- Dots add nothing. -/
theorem foldl_filter (kept components : List Component) :
    (components.filter (· != .here)).foldl normalStep kept = components.foldl normalStep kept := by
  induction components generalizing kept with
  | nil => rfl
  | cons component rest ih =>
    by_cases hhere : component = .here
    · rw [List.filter_cons_of_neg (by simp [hhere]), List.foldl_cons, ih, hhere]
      rfl
    · rw [List.filter_cons_of_pos (by simpa using hhere), List.foldl_cons, List.foldl_cons, ih]

/-- Normalizing a joined path goes on behind its directory. -/
theorem foldl_join {q : Path} (p : Path) (h : q.isAbsolute = false) (kept : List Component) :
    (p.join q).components.foldl normalStep kept =
      q.components.foldl normalStep (p.components.foldl normalStep kept) := by
  rcases components_join (p := p) h with ⟨hempty, hjoin⟩ | hjoin
  · have hnil : p = ⟨""⟩ := congrArg Path.mk hempty
    rw [hjoin, hnil, components_empty, List.foldl_nil]
  · rw [hjoin, List.foldl_append, foldl_filter]

end Path
end ModuleBundler
