import ModuleBundler.Path.Basic

/-!
# Normal paths

Normalizing reads the components of a path from the left and keeps a stack:
dots are dropped, and a parent step takes the top of the stack away, whatever it
is, unless the stack is empty or holds only the root; then the step itself is
kept.

Main results:

- Theorem {lit}`Path.here_not_mem_normalStack`: no dot is left.
-/

namespace ModuleBundler
namespace Path

/-- One component against the components kept so far, the last one first. -/
def normalStep (kept : List Component) (component : Component) : List Component :=
  match component with
  | .here => kept
  | .up =>
    match kept with
    | [] => [.up]
    | .root :: below => .up :: .root :: below
    | _ :: below => below
  | component => component :: kept

/-- The components that normalizing keeps, the last one first. -/
def normalStack (components : List Component) : List Component :=
  components.foldl normalStep []

/-- The path without dots and, as far as they cancel, without parent steps. -/
def normalize (p : Path) : Path :=
  ofComponents (normalStack p.components).reverse

/-- A path read from the current directory {lit}`cwd` and normalized. -/
def absolute (cwd p : Path) : Path :=
  if p.isAbsolute then p.normalize else (cwd.join p).normalize

theorem here_not_mem_normalStep {kept : List Component} (h : Component.here ∉ kept)
    (component : Component) : Component.here ∉ normalStep kept component := by
  unfold normalStep
  split
  · exact h
  · split <;> simp_all
  · rename_i hne _
    simp only [List.mem_cons, not_or]
    exact ⟨fun heq => hne heq.symm, h⟩

theorem here_not_mem_normalStack (components : List Component) :
    Component.here ∉ normalStack components := by
  have h : ∀ (cs kept : List Component), Component.here ∉ kept →
      Component.here ∉ cs.foldl normalStep kept := by
    intro cs
    induction cs with
    | nil => exact fun _ h => h
    | cons c rest ih => exact fun kept h => ih _ (here_not_mem_normalStep h c)
  exact h components [] (by simp)

end Path
end ModuleBundler
