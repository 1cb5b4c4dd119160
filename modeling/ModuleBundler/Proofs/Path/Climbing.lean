import Mathlib.Dynamics.PeriodicPts.Defs
import ModuleBundler.Proofs.FileTree.Standpoint

/-!
# How far a path climbs

A path that is read from a directory first climbs some levels above it and then goes down
along the names that are left.  Normalizing keeps one step to the parent directory at most
where nothing is left to cancel it: the next such step takes the one that was kept away
again.  So the normal form of a path that climbs two levels or more leads somewhere else,
unless the levels end at the root anyway.

Main results:

- Theorem {lit}`Path.exists_foldl_eq`: normalizing climbs first and then adds names.
- Theorem {lit}`Path.components_normalize`: a normal form has the components that were kept.
- Theorem {lit}`Path.same_join_normalize_iff`: when a path leads where its normal form leads.
- Theorem {lit}`Path.exists_normalize_elsewhere`: two levels up are lost in the normal form.
-/

namespace ModuleBundler
namespace Path

/-! ## Climbing -/

/-- How many levels components lead above the directory that they are read from. -/
def riseOf : List Component → Nat
  | [] => 0
  | .up :: rest => riseOf rest + 1
  | .name _ :: rest => riseOf rest - 1
  | _ :: rest => riseOf rest

/-- How many levels a relative path leads above the directory that it is read from. -/
def rise (p : Path) : Nat :=
  riseOf p.components

/-- How many levels below the root an absolute path leads. -/
def depth (p : Path) : Nat :=
  (FileTree.place [] p).length

/-- What a step to the parent directory leaves of the components kept so far. -/
def ascend (kept : List Component) : List Component :=
  normalStep kept .up

@[simp]
theorem ascend_name (text : String) (kept : List Component) : ascend (.name text :: kept) = kept := rfl

/-- Climbing from a directory takes its names away, the last one first, and then goes on below them. -/
theorem iterate_ascend (levels : Nat) (names : List String) (low : List Component) :
    ascend^[levels] (names.map .name ++ low) =
      (names.drop levels).map .name ++ ascend^[levels - names.length] low := by
  induction names generalizing levels with
  | nil => simp
  | cons name names ih =>
    cases levels with
    | zero => simp
    | succ levels => simp [ih]

/-- Where nothing but the root is left to cancel a step to the parent directory, a second one cancels the first. -/
theorem iterate_ascend_mod {low : List Component} (h : low ∈ [[], [.root], [.up, .root]]) (levels : Nat) :
    ascend^[levels % 2] low = ascend^[levels] low := by
  have hperiodic : Function.IsPeriodicPt ascend 2 low := by
    rcases List.mem_cons.1 h with rfl | h
    · rfl
    · rcases List.mem_pair.1 h with rfl | rfl <;> rfl
  exact hperiodic.iterate_mod_apply levels

/-- Normalizing climbs above the components kept so far and then adds the names that are left. -/
theorem exists_foldl_eq {components : List Component} (hroot : .root ∉ components) :
    ∃ names : List String, (∀ name ∈ names, .name name ∈ components) ∧
      ∀ kept, components.foldl normalStep kept = names.map .name ++ ascend^[riseOf components] kept := by
  induction components with
  | nil => exact ⟨[], by simp, fun kept => rfl⟩
  | cons component rest ih =>
    rw [List.mem_cons, not_or] at hroot
    obtain ⟨names, hnames, hfold⟩ := ih hroot.2
    have hrest : ∀ name ∈ names, .name name ∈ component :: rest :=
      fun name hmem => List.mem_cons_of_mem _ (hnames name hmem)
    cases component with
    | root => exact absurd rfl hroot.1
    | here => exact ⟨names, hrest, hfold⟩
    | up => exact ⟨names, hrest, fun kept => hfold (ascend kept)⟩
    | name text =>
      have hstep : ∀ kept, (Component.name text :: rest).foldl normalStep kept =
          names.map .name ++ ascend^[riseOf rest] (.name text :: kept) :=
        fun kept => hfold (.name text :: kept)
      -- the name stays if the rest does not climb, and is climbed over otherwise
      cases hrise : riseOf rest with
      | zero =>
        refine ⟨names ++ [text], ?_, fun kept => ?_⟩
        · simpa [or_imp, forall_and] using hrest
        · simp [hstep, riseOf, hrise]
      | succ levels => exact ⟨names, hrest, fun kept => by simp [hstep, riseOf, hrise]⟩

/-! ## What was kept -/

/-- A component that stands for a step between two slashes. -/
structure IsStep (component : Component) : Prop where
  flat : IsFlat component.text
  read : innerComponent? component.text = some component

theorem isStep_up : IsStep .up := ⟨by decide, by decide⟩

theorem isStep_of_isFileName {name : String} (h : IsFileName name) : IsStep (.name name) :=
  ⟨h.flat, innerComponent?_of_isFileName h⟩

theorem filterMap_text {steps : List Component} (h : ∀ step ∈ steps, IsStep step) :
    (steps.map Component.text).filterMap innerComponent? = steps := by
  induction steps with
  | nil => rfl
  | cons step rest ih =>
    obtain ⟨hstep, hrest⟩ := List.forall_mem_cons.1 h
    simp [hstep.read, ih hrest]

/-- Steps that are written as a path, with or without the root in front of them, are its components. -/
theorem components_ofComponents {front steps : List Component} (hfront : front = [] ∨ front = [.root])
    (h : ∀ step ∈ steps, IsStep step) : (ofComponents (front ++ steps)).components = front ++ steps := by
  have hflat : ∀ segment ∈ steps.map Component.text, IsFlat segment := by
    intro segment hmem
    obtain ⟨step, hstep, rfl⟩ := List.mem_map.1 hmem
    exact (h step hstep).flat
  rcases hfront with rfl | rfl
  · cases steps with
    | nil => rfl
    | cons step rest =>
      obtain ⟨hstep, hrest⟩ := List.forall_mem_cons.1 h
      obtain ⟨hempty, hhere⟩ : step.text ≠ "" ∧ step.text ≠ "." := by
        simpa [isIdle] using isIdle_of_innerComponent? hstep.read
      have hroot : step ≠ .root := by
        rintro rfl
        exact hstep.flat (by decide)
      have htext : textOf (step :: rest) = textOfSegments ((step :: rest).map Component.text) := by
        unfold textOf textOfSegments
        split
        · simp_all
        · split
          · simp_all
          · rfl
      rw [List.nil_append, ofComponents, htext, components_textOfSegments (by simp) hflat, List.map_cons,
        componentsOf, if_neg hempty, if_neg hhere, hstep.read, filterMap_text hrest]
      rfl
  · have htext : textOf (.root :: steps) = textOfSegments ("" :: steps.map Component.text) := by
      cases steps with
      | nil => rfl
      | cons step rest => simp [textOf, textOfSegments]
    rw [List.singleton_append, ofComponents, htext, components_textOfSegments (by simp), componentsOf, if_pos rfl,
      filterMap_text h, List.singleton_append]
    simpa [IsFlat] using hflat

theorem root_not_mem_components {p : Path} (h : p.isAbsolute = false) : .root ∉ p.components := by
  obtain ⟨front, hcomponents, hfront⟩ := p.exists_components
  have hinner := FileTree.root_not_mem_inner p
  rcases hfront with ⟨-, habsolute⟩ | ⟨rfl | rfl, -⟩
  · simp [h] at habsolute
  · simpa [hcomponents] using hinner
  · simpa [hcomponents] using hinner

/-- What stands in front of the steps of a normal form. -/
def origin (p : Path) : List Component :=
  if p.isAbsolute then [.root] else []

theorem origin_eq (p : Path) : p.origin = [] ∨ p.origin = [.root] := by
  unfold origin
  split <;> simp

theorem normalStack_eq (p : Path) : normalStack p.components = p.inner.foldl normalStep p.origin := by
  obtain ⟨front, hcomponents, hfront⟩ := p.exists_components
  rw [normalStack, hcomponents, List.foldl_append]
  rcases hfront with ⟨rfl, habsolute⟩ | ⟨rfl | rfl, hrelative⟩ <;> simp [origin, normalStep, *]

/-- Normalizing keeps the root of an absolute path, at most one step to the parent directory, and the names that
are left. -/
theorem exists_normalStack_eq (p : Path) : ∃ names : List String, ∃ ups ∈ [[], [Component.up]],
    (∀ name ∈ names, IsFileName name) ∧ normalStack p.components = names.map .name ++ ups ++ p.origin := by
  obtain ⟨names, hnames, hfold⟩ := exists_foldl_eq (FileTree.root_not_mem_inner p)
  have horigin : p.origin ∈ [[], [.root], [.up, .root]] := by
    rcases p.origin_eq with h | h <;> simp [h]
  have hups : ∃ ups ∈ [[], [Component.up]], ascend^[riseOf p.inner % 2] p.origin = ups ++ p.origin := by
    rcases Nat.mod_two_eq_zero_or_one (riseOf p.inner) with heven | hodd
    · exact ⟨[], by simp, by simp [heven]⟩
    · refine ⟨[.up], by simp, ?_⟩
      rcases p.origin_eq with h | h <;> simp [hodd, h, ascend, normalStep]
  obtain ⟨ups, hmem, hups⟩ := hups
  refine ⟨names, ups, hmem, fun name hname => ?_, ?_⟩
  · exact FileTree.isFileName_of_mem_components (name_mem_inner_iff.1 (hnames name hname))
  · rw [normalStack_eq, hfold, ← iterate_ascend_mod horigin, hups, List.append_assoc]

/-- A normal form has the components that were kept. -/
theorem components_normalize (p : Path) : p.normalize.components = (normalStack p.components).reverse := by
  obtain ⟨names, ups, hups, hnames, hstack⟩ := p.exists_normalStack_eq
  have hsteps : ∀ step ∈ (names.map Component.name ++ ups).reverse, IsStep step := by
    intro step hmem
    rw [List.mem_reverse, List.mem_append] at hmem
    rcases hmem with hname | hup
    · obtain ⟨name, hmem, rfl⟩ := List.mem_map.1 hname
      exact isStep_of_isFileName (hnames name hmem)
    · rcases List.mem_pair.1 hups with rfl | rfl
      · cases hup
      · exact List.mem_singleton.1 hup ▸ isStep_up
  have hfront : p.origin.reverse = [] ∨ p.origin.reverse = [.root] := by
    rcases p.origin_eq with h | h <;> simp [h]
  rw [normalize, hstack, List.reverse_append]
  exact components_ofComponents hfront hsteps

/-- Normal forms are the same just if the same components were kept. -/
theorem same_normalize_iff {p q : Path} :
    (p.normalize == q.normalize) = true ↔ normalStack p.components = normalStack q.components := by
  rw [same_iff, components_normalize, components_normalize, List.reverse_inj]

/-! ## Normal forms of relative paths -/

theorem foldr_names (names : List String) (low : List Component) :
    (names.map .name).foldr (fun component kept => normalStep kept component) low = names.map .name ++ low := by
  induction names with
  | nil => rfl
  | cons name names ih =>
    rw [List.map_cons, List.foldr_cons, ih]
    rfl

/-- What a relative path and its normal form make of the components kept so far: the normal form climbs one level
at most. -/
theorem exists_foldl_normalize {p : Path} (h : p.isAbsolute = false) : ∃ names : List String, ∀ kept,
    p.components.foldl normalStep kept = names.map .name ++ ascend^[p.rise] kept ∧
      p.normalize.components.foldl normalStep kept = names.map .name ++ ascend^[p.rise % 2] kept := by
  obtain ⟨names, -, hfold⟩ := exists_foldl_eq (root_not_mem_components h)
  refine ⟨names, fun kept => ⟨hfold kept, ?_⟩⟩
  rw [components_normalize, normalStack, hfold, ← iterate_ascend_mod (by simp), List.foldl_reverse,
    List.foldr_append, foldr_names, rise]
  rcases Nat.mod_two_eq_zero_or_one (riseOf p.components) with heven | hodd
  · simp [heven]
  · simp [hodd, ascend, normalStep]

theorem isAbsolute_normalize {p : Path} (h : p.isAbsolute = false) : p.normalize.isAbsolute = false := by
  obtain ⟨names, ups, hups, -, hstack⟩ := p.exists_normalStack_eq
  rw [Bool.eq_false_iff]
  intro habsolute
  have hroot := List.mem_of_mem_head? (isAbsolute_iff_head?.1 habsolute)
  rw [components_normalize, hstack, origin, h] at hroot
  rcases List.mem_pair.1 hups with rfl | rfl <;> simp at hroot

/-- Normalizing keeps the names of the address that steps spell, on top of the root. -/
theorem exists_foldl_advance {steps : List Component} (hroot : .root ∉ steps) (here : Address)
    {low : List Component} (hlow : low ∈ [[.root], [.up, .root]]) :
    ∃ bottom ∈ [[.root], [.up, .root]], steps.foldl normalStep (here.reverse.map .name ++ low) =
      (steps.foldl FileTree.advance here).reverse.map .name ++ bottom := by
  induction steps generalizing here low with
  | nil => exact ⟨low, hlow, rfl⟩
  | cons step rest ih =>
    rw [List.mem_cons, not_or] at hroot
    cases step with
    | root => exact absurd rfl hroot.1
    | here => exact ih hroot.2 here hlow
    | name text => simpa [FileTree.advance, normalStep] using ih hroot.2 (here ++ [text]) hlow
    | up =>
      rcases List.eq_nil_or_concat' here with rfl | ⟨outer, last, rfl⟩
      · have hascend : ascend low ∈ [[.root], [.up, .root]] := by
          rcases List.mem_pair.1 hlow with rfl | rfl <;> simp [ascend, normalStep]
        exact ih hroot.2 [] hascend
      · simpa [FileTree.advance, normalStep] using ih hroot.2 outer hlow

theorem exists_normalStack_place {base : Path} (h : base.isAbsolute = true) :
    ∃ low ∈ [[.root], [.up, .root]],
      normalStack base.components = (FileTree.place [] base).reverse.map .name ++ low := by
  rw [normalStack_eq, FileTree.place_eq, origin, h]
  exact exists_foldl_advance (FileTree.root_not_mem_inner base) [] (by simp)

/-- Below the last name there is none. -/
theorem filterMap_iterate_ascend {low : List Component} (h : low ∈ [[.root], [.up, .root]]) (levels : Nat) :
    (ascend^[levels] low).filterMap Component.name? = [] := by
  rw [← iterate_ascend_mod (List.mem_cons_of_mem _ h)]
  rcases Nat.mod_two_eq_zero_or_one levels with heven | hodd
  · rcases List.mem_pair.1 h with rfl | rfl <;> simp [heven, Component.name?]
  · rcases List.mem_pair.1 h with rfl | rfl <;> simp [hodd, ascend, normalStep, Component.name?]

/-- Climbing one level at most from below the root leads to the same as climbing all levels just if no level is
lost, or only such as lie above the root. -/
theorem iterate_ascend_mod_eq_iff {names : List String} {low : List Component} (h : low ∈ [[.root], [.up, .root]])
    (levels : Nat) :
    ascend^[levels % 2] (names.map .name ++ low) = ascend^[levels] (names.map .name ++ low) ↔
      levels ≤ 1 ∨ names.length = 0 ∨ names.length = 1 ∧ levels % 2 = 1 := by
  rw [iterate_ascend, iterate_ascend]
  constructor
  · intro heq
    -- the names that are left are the same on both sides
    have hnames : ∀ texts : List String, (texts.map .name).filterMap Component.name? = texts := fun texts => by
      rw [List.filterMap_map]
      exact List.filterMap_some
    have hleft := congrArg (List.filterMap Component.name?) heq
    rw [List.filterMap_append, List.filterMap_append, hnames, hnames, filterMap_iterate_ascend h,
      filterMap_iterate_ascend h, List.append_nil, List.append_nil] at hleft
    have hlength := congrArg List.length hleft
    rw [List.length_drop, List.length_drop] at hlength
    omega
  · have hperiodic := iterate_ascend_mod (List.mem_cons_of_mem [] h)
    rintro (hle | hnone | ⟨hone, hodd⟩)
    · rw [Nat.mod_eq_of_lt (by omega)]
    · obtain rfl := List.length_eq_zero_iff.1 hnone
      simpa using hperiodic levels
    · have hgone : names.drop levels = names.drop (levels % 2) := by
        rw [List.drop_eq_nil_of_le (by omega), List.drop_eq_nil_of_le (by omega)]
      have heven : levels % 2 - names.length = (levels - names.length) % 2 := by omega
      rw [hgone, heven, hperiodic]

/-- A path and its normal form lead to the same place from a directory just if the path climbs one level at most,
or ends up at the root where the levels that were lost make no difference. -/
theorem same_join_normalize_iff {base p : Path} (hbase : base.isAbsolute = true) (hp : p.isAbsolute = false) :
    ((base.join p.normalize).normalize == (base.join p).normalize) = true ↔
      p.rise ≤ 1 ∨ base.depth = 0 ∨ base.depth = 1 ∧ p.rise % 2 = 1 := by
  obtain ⟨low, hlow, hstack⟩ := exists_normalStack_place hbase
  obtain ⟨names, hfold⟩ := exists_foldl_normalize hp
  obtain ⟨hpath, hnormal⟩ := hfold (normalStack base.components)
  have hkept : ∀ {q : Path}, q.isAbsolute = false → normalStack (base.join q).components =
      q.components.foldl normalStep (normalStack base.components) := fun hq => foldl_join base hq []
  rw [same_normalize_iff, hkept (isAbsolute_normalize hp), hkept hp, hpath, hnormal, List.append_right_inj, hstack,
    iterate_ascend_mod_eq_iff hlow, List.length_reverse, depth]

/-- A path that climbs one level, over a directory that it has entered before. -/
theorem same_join_normalize_sibling :
    (Path.mk "/app/src").isAbsolute = true ∧ (Path.mk "./lib/../../assets/logo.svg").isAbsolute = false ∧
      (((Path.mk "/app/src").join (Path.mk "./lib/../../assets/logo.svg").normalize).normalize ==
        ((Path.mk "/app/src").join ⟨"./lib/../../assets/logo.svg"⟩).normalize) = true :=
  ⟨by decide, by decide, (same_join_normalize_iff (by decide) (by decide)).2 (.inl (by decide))⟩

/-- Two levels up are lost in the normal form, so that it leads to the directory itself. -/
theorem exists_normalize_elsewhere :
    ∃ base p : Path, base.isAbsolute = true ∧ p.isAbsolute = false ∧ p.normalize = ⟨"x"⟩ ∧
      (base.join p).normalize = ⟨"/a/x"⟩ ∧ (base.join p.normalize).normalize = ⟨"/a/b/c/x"⟩ :=
  ⟨⟨"/a/b/c"⟩, ⟨"../../x"⟩, by decide, by decide, by decide, by decide, by decide⟩

end Path
end ModuleBundler
