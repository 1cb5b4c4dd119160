import Mathlib.Data.List.Basic
import Mathlib.Data.List.Induction
import ModuleBundler.Proofs.FileTree.Spelling

/-!
# Paths of addresses

The path of an address spells it name by name.  It is the only spelling without
anything that could be left out, so that such paths are the same only if they are
equal, and the directories above one are the paths of the addresses above it.

Main results:

- Theorem {lit}`FileTree.components_pathOf`: the components of the path of an address are its names.
- Theorem {lit}`FileTree.pathOf_injective`: two addresses have the same path only if they are equal.
- Theorem {lit}`FileTree.ancestors_pathOf`: the directories above the path of an address.
- Theorem {lit}`FileTree.proper_of_find`: a path leads to an address of file names.
-/

namespace ModuleBundler
namespace FileTree

/-- Whether an address consists of names that files can have. -/
def Proper (address : Address) : Prop :=
  ∀ name ∈ address, Path.IsFileName name

theorem Proper.append {address : Address} (h : Proper address) {name : String} (hname : Path.IsFileName name) :
    Proper (address ++ [name]) := by
  intro other hmem
  rcases List.mem_append.1 hmem with hmem | hmem
  · exact h other hmem
  · rwa [List.mem_singleton.1 hmem]

theorem Proper.dropLast {address : Address} (h : Proper address) : Proper address.dropLast :=
  fun name hmem => h name ((List.dropLast_sublist address).mem hmem)

theorem Proper.of_append {address : Address} {name : String} (h : Proper (address ++ [name])) :
    Proper address ∧ Path.IsFileName name :=
  ⟨fun other hmem => h other (List.mem_append_left _ hmem), h name (by simp)⟩

/-! ## Components -/

section Spelled

variable {address : Address} {name : String}

theorem pathOf_eq_textOfSegments (address : Address) : pathOf address = ⟨Path.textOfSegments ("" :: address)⟩ := by
  cases address with
  | nil => rfl
  | cons first rest =>
    have htext : "/".intercalate ("" :: first :: rest) = "/" ++ "/".intercalate (first :: rest) := by
      apply String.toList_injective
      simp [String.toList_intercalate]
    rw [pathOf, ← htext]
    rfl

theorem isFlat_of_proper (h : Proper address) : ∀ segment ∈ "" :: address, Path.IsFlat segment := by
  rw [List.forall_mem_cons]
  exact ⟨by decide, fun name hmem => (h name hmem).flat⟩

/-- The pieces of the path of an address that is not the root are its names, behind an empty piece. -/
theorem segments_pathOf (h : Proper address) (hne : address ≠ []) : (pathOf address).segments = "" :: address := by
  rw [pathOf_eq_textOfSegments]
  exact Path.segments_textOfSegments (List.cons_ne_nil _ _) (by simpa using hne) (isFlat_of_proper h)

/-- The components of the path of an address are its names. -/
theorem components_pathOf (h : Proper address) :
    (pathOf address).components = .root :: address.map .name := by
  have hnames : address.filterMap Path.innerComponent? = address.map .name := by
    induction address with
    | nil => rfl
    | cons first rest ih =>
      obtain ⟨hfirst, hrest⟩ := List.forall_mem_cons.1 h
      rw [List.filterMap_cons, Path.innerComponent?_of_isFileName hfirst, List.map_cons]
      exact congrArg (Component.name first :: ·) (ih hrest)
  rw [pathOf_eq_textOfSegments, Path.components_textOfSegments (List.cons_ne_nil _ _) (isFlat_of_proper h),
    Path.componentsOf, if_pos rfl, hnames]
  rfl

/-- Two addresses have the same path only if they are equal. -/
theorem pathOf_injective {other : Address} (h : Proper address) (hother : Proper other)
    (hsame : (pathOf address == pathOf other) = true) : address = other := by
  have hcomponents := Path.same_iff.1 hsame
  rw [components_pathOf h, components_pathOf hother, List.cons.injEq] at hcomponents
  exact List.map_inj_right (fun _ _ heq => Component.name.inj heq) |>.1 hcomponents.2

theorem isAbsolute_pathOf (h : Proper address) : (pathOf address).isAbsolute = true := by
  rw [Path.isAbsolute_iff_head?, components_pathOf h]
  rfl

/-! ## Directories -/

theorem isTight_pathOf (h : Proper (address ++ [name])) : (pathOf (address ++ [name])).IsTight :=
  ⟨"" :: address, name, segments_pathOf h (by simp), Path.isIdle_of_isFileName h.of_append.2⟩

theorem lastComponent?_pathOf (h : Proper (address ++ [name])) :
    (pathOf (address ++ [name])).lastComponent? = some (.name name) := by
  rw [Path.lastComponent?, components_pathOf h, List.map_append, ← List.cons_append, List.map_singleton,
    List.getLast?_concat]

theorem fileName?_pathOf (h : Proper (address ++ [name])) : (pathOf (address ++ [name])).fileName? = some name := by
  unfold Path.fileName?
  rw [lastComponent?_pathOf h]

theorem fileName?_root : (pathOf []).fileName? = none := by
  decide

/-- An entry lies in the directory of its address. -/
theorem parent?_pathOf (h : Proper (address ++ [name])) :
    (pathOf (address ++ [name])).parent? = some (pathOf address) := by
  have hidle := Path.isIdle_of_isFileName h.of_append.2
  have htrim : Path.trimSegments ("" :: address) = "" :: address := by
    rcases List.eq_nil_or_concat' address with rfl | ⟨outer, inner, rfl⟩
    · rfl
    · have hinner := Path.isIdle_of_isFileName h.of_append.1.of_append.2
      exact Path.trimSegments_append hinner ("" :: outer)
  have hkept : (Path.trimSegments (pathOf (address ++ [name])).segments).dropLast = "" :: address := by
    rw [segments_pathOf h (by simp), ← List.cons_append, Path.trimSegments_append hidle, List.dropLast_concat]
  rw [Path.parent?_eq (lastComponent?_pathOf h) nofun, hkept, htrim, pathOf_eq_textOfSegments address]
  rfl

theorem parent?_root : (pathOf []).parent? = none := by
  decide

/-- The directories above the path of an address. -/
theorem ancestors_pathOf (h : Proper (address ++ [name])) :
    (pathOf (address ++ [name])).ancestors = pathOf address :: (pathOf address).ancestors :=
  Path.ancestors_of_parent? (parent?_pathOf h)

/-- They are the paths of the addresses above it. -/
theorem exists_of_mem_ancestors {directory : Path} (h : Proper address)
    (hmem : directory ∈ (pathOf address).ancestors) :
    ∃ outer, Proper outer ∧ outer <+: address ∧ directory = pathOf outer := by
  induction address using List.reverseRecOn with
  | nil =>
    rw [Path.ancestors_of_no_parent parent?_root] at hmem
    exact absurd hmem List.not_mem_nil
  | append_singleton outer name ih =>
    rw [ancestors_pathOf h, List.mem_cons] at hmem
    rcases hmem with rfl | hmem
    · exact ⟨outer, h.of_append.1, List.prefix_append _ _, rfl⟩
    · obtain ⟨other, hproper, hinside, rfl⟩ := ih h.of_append.1 hmem
      exact ⟨other, hproper, hinside.trans (List.prefix_append _ _), rfl⟩

/-- A child of the path of an address is the path of an entry below it. -/
theorem child_pathOf (h : Proper (address ++ [name])) : (pathOf address).child name = pathOf (address ++ [name]) := by
  obtain ⟨hproper, hname⟩ := h.of_append
  rcases List.eq_nil_or_concat' address with rfl | ⟨outer, inner, rfl⟩
  · have hrelative := (Path.segments_of_isFlat hname.flat).1
    rw [Path.child, Path.join, hrelative, if_neg Bool.false_ne_true, if_pos (.inr (by decide))]
    simp [pathOf]
  · have hinner := hproper.of_append.2
    have hsegments := segments_pathOf hproper (by simp)
    have htext : ((pathOf (outer ++ [inner])).child name).segments = "" :: (outer ++ [inner]) ++ [name] := by
      rcases (pathOf (outer ++ [inner])).segments_child with ⟨hempty, -⟩ | ⟨front, back, hfront, -, hback, hchild⟩
      · exact absurd hempty (isTight_pathOf hproper).text_ne_empty
      · rw [hsegments] at hfront
        rcases hback with ⟨rfl, -⟩ | rfl
        · rw [hchild hname.flat, hfront, List.append_nil]
        · -- no name is empty
          have hlast : inner = "" := by
            rw [← List.cons_append] at hfront
            exact (List.append_inj' hfront rfl).2 |> List.singleton_inj.1
          exact absurd hlast hinner.ne_empty
    apply Path.eq_of_segments
    rw [htext, segments_pathOf h (by simp), List.cons_append]

end Spelled

/-! ## Where paths lead -/

/-- Steps of paths lead to names that files can have. -/
theorem isFileName_of_mem_ofPath {p : Path} {name : String} (h : .name name ∈ Step.ofPath p) :
    Path.IsFileName name := by
  obtain ⟨segment, hmem, hstep⟩ := List.mem_filterMap.1 h
  unfold Step.ofSegment? at hstep
  split at hstep
  · cases hstep
  · rename_i hempty
    split at hstep
    · cases hstep
    · rename_i hhere
      split at hstep
      · cases hstep
      · rename_i hup
        cases hstep
        exact ⟨Path.isFlat_of_mem_segments hmem, hempty, hhere, hup⟩

theorem proper_of_walk {tree : FileTree} {aim : Aim} {links : Nat} {here : Address} {slash : Bool}
    {steps : List Step} {spot : Spot} (hhere : Proper here)
    (hsteps : ∀ name, .name name ∈ steps → Path.IsFileName name)
    (h : tree.walk aim links here slash steps = .ok spot) : Proper spot.address := by
  fun_induction tree.walk aim links here slash steps with
  | case1 links here slash =>
    cases h
    exact hhere
  | case2 links here slash rest ih =>
    exact ih hhere (fun name hmem => hsteps name (List.mem_cons_of_mem _ hmem)) h
  | case3 links here slash rest ih =>
    exact ih hhere.dropLast (fun name hmem => hsteps name (List.mem_cons_of_mem _ hmem)) h
  | case6 links here slash name rest =>
    cases h
    exact hhere.append (hsteps name List.mem_cons_self)
  | case8 links here slash name rest =>
    cases h
    exact hhere.append (hsteps name List.mem_cons_self)
  | case9 links here slash name rest last hslash hlong address hmake changed hat ih =>
    exact ih (hhere.append (hsteps name List.mem_cons_self))
      (fun name hmem => hsteps name (List.mem_cons_of_mem _ hmem)) h
  | case10 links here slash name rest =>
    cases h
    exact hhere.append (hsteps name List.mem_cons_self)
  | case12 links here slash name rest =>
    cases h
    exact hhere.append (hsteps name List.mem_cons_self)
  | case14 here slash name rest last hslash hlong address hmake target htake links hat ih =>
    refine ih ?_ (fun name hmem => ?_) h
    · split
      · exact fun name hmem => absurd hmem List.not_mem_nil
      · exact hhere
    · rcases List.mem_append.1 hmem with hmem | hmem
      · exact isFileName_of_mem_ofPath hmem
      · exact hsteps name (List.mem_cons_of_mem _ hmem)
  | _ => cases h

/-- A path leads to an address of file names. -/
theorem proper_of_find {tree : FileTree} (hhome : Proper tree.home) {p : Path} {address : Address} {entry : Entry}
    (h : tree.find p = .ok (address, entry)) : Proper address := by
  have hlocate := find_eq_ok_iff.1 h
  have hwalk := hlocate
  rw [locate_eq_walk hlocate] at hwalk
  refine proper_of_walk ?_ (fun name hmem => isFileName_of_mem_ofPath hmem) hwalk
  split
  · exact fun name hmem => absurd hmem List.not_mem_nil
  · exact hhome

end FileTree
end ModuleBundler
