import Mathlib.Data.List.TakeWhile
import ModuleBundler.Proofs.Path.FileName

/-!
# Directories of files

The child of a directory lies in that directory, however the directory is written: the
components of a child are those of the directory and one more.  Taking the extension of a
file name away and putting another one there leads out of the directory in one case only,
that of the stem which is a single dot.

Main results:

- Theorem {lit}`Path.components_child`: a child has one component more than its directory.
- Theorem {lit}`Path.isEntryOf_child`: a child lies in its directory.
- Theorem {lit}`Path.withExtension_child_eq`: what a child with another extension is.
- Theorem {lit}`Path.components_parent?`: a directory has the components of a path without the last one.
- Theorem {lit}`Path.ancestors_of_parent?`: the directories above a path are its own and those above that one.
- Theorem {lit}`Path.directory_induction`: induction from a directory to what lies in it.
-/

namespace ModuleBundler
namespace Path

/-! ## Components of pieces -/

/-- The components of pieces.  An empty piece in front of others is the root. -/
def componentsOf : List String → List Component
  | [] => []
  | first :: rest =>
    (if first = "" then [.root] else if first = "." then [.here] else (innerComponent? first).toList) ++
      rest.filterMap innerComponent?

/-- A piece without a component adds nothing at the end. -/
theorem innerComponent?_of_isIdle {segment : String} (h : isIdle segment = true) :
    innerComponent? segment = none := by
  unfold isIdle at h
  unfold innerComponent?
  rw [if_pos (by simpa using h)]

theorem filterMap_eq_nil_of_idle {segments : List String} (h : ∀ segment ∈ segments, isIdle segment = true) :
    segments.filterMap innerComponent? = [] :=
  List.filterMap_eq_nil_iff.2 fun segment hmem => innerComponent?_of_isIdle (h segment hmem)

theorem segments_ne_nil (p : Path) : p.segments ≠ [] := by
  unfold segments
  rw [ne_eq, List.map_eq_nil_iff]
  exact List.splitOn_ne_nil '/' _

/-- A path is absolute just if an empty piece stands in front of another one. -/
theorem isAbsolute_iff {p : Path} {first : String} {rest : List String} (h : p.segments = first :: rest) :
    p.isAbsolute = true ↔ first = "" ∧ rest ≠ [] := by
  have htext : p.text.toList = "/".toList.intercalate ((first :: rest).map String.toList) := by
    rw [← h, ← String.toList_intercalate, ← text_eq_intercalate]
  have hflat : '/' ∉ first.toList := isFlat_of_mem_segments (h ▸ List.mem_cons_self)
  unfold isAbsolute
  rw [beq_iff_eq, htext]
  cases rest with
  | nil =>
    rw [List.map_singleton, List.intercalate_singleton]
    exact ⟨fun hhead => absurd (List.mem_of_mem_head? hhead) hflat, fun hne => absurd rfl hne.2⟩
  | cons second more =>
    rw [List.map_cons, List.map_cons, List.intercalate_cons_cons]
    cases hfirst : first.toList with
    | nil => simp [String.toList_eq_nil_iff.1 hfirst]
    | cons c cs =>
      have hne : first ≠ "" := by
        rintro rfl
        cases hfirst
      have hc : c ≠ '/' := by
        rintro rfl
        exact hflat (hfirst ▸ List.mem_cons_self)
      simp [hne, hc]

/-- Pieces at the end that stand for nothing can be left away. -/
theorem components_eq {p : Path} {front back : List String} (h : p.segments = front ++ back)
    (hfront : front ≠ []) (hback : ∀ segment ∈ back, isIdle segment = true) (hroot : front = [""] → back ≠ []) :
    p.components = componentsOf front := by
  obtain ⟨first, rest, rfl⟩ := List.exists_cons_of_ne_nil hfront
  rw [List.cons_append] at h
  have hinner : (rest ++ back).filterMap innerComponent? = rest.filterMap innerComponent? := by
    rw [List.filterMap_append, filterMap_eq_nil_of_idle hback, List.append_nil]
  unfold components componentsOf
  rw [h]
  dsimp only
  rw [hinner]
  by_cases hempty : first = ""
  · have hmore : rest ++ back ≠ [] := by
      intro hnil
      obtain ⟨rfl, rfl⟩ := List.append_eq_nil_iff.1 hnil
      exact hroot (by rw [hempty]) rfl
    rw [if_pos ((isAbsolute_iff h).2 ⟨hempty, hmore⟩), if_pos hempty]
    rfl
  · rw [if_neg fun habsolute => hempty ((isAbsolute_iff h).1 habsolute).1, if_neg hempty]
    split
    · rfl
    · rfl

theorem componentsOf_concat {front : List String} (hfront : front ≠ []) {name : String} {component : Component}
    (h : innerComponent? name = some component) :
    componentsOf (front ++ [name]) = componentsOf front ++ [component] := by
  obtain ⟨first, rest, rfl⟩ := List.exists_cons_of_ne_nil hfront
  simp [componentsOf, h]

theorem trimSegments_cons (first : String) (rest : List String) :
    trimSegments (first :: rest) = first :: (rest.reverse.dropWhile isIdle).reverse := by
  unfold trimSegments
  dsimp only
  split
  · rename_i hnil
    rw [hnil]
  · rfl

/-- Trimming leaves the components alone. -/
theorem componentsOf_trimSegments (segments : List String) :
    componentsOf (trimSegments segments) = componentsOf segments := by
  cases segments with
  | nil => rfl
  | cons first rest =>
    have hidle : ∀ segment ∈ (rest.reverse.takeWhile isIdle).reverse, isIdle segment = true :=
      fun segment hmem => List.mem_takeWhile_imp (List.mem_reverse.1 hmem)
    have hkept : rest.filterMap innerComponent? =
        (rest.reverse.dropWhile isIdle).reverse.filterMap innerComponent? := by
      calc rest.filterMap innerComponent?
          = ((rest.reverse.dropWhile isIdle).reverse ++ (rest.reverse.takeWhile isIdle).reverse).filterMap
              innerComponent? := by
            rw [← List.reverse_append, List.takeWhile_append_dropWhile, List.reverse_reverse]
        _ = (rest.reverse.dropWhile isIdle).reverse.filterMap innerComponent? := by
            rw [List.filterMap_append, filterMap_eq_nil_of_idle hidle, List.append_nil]
    simp only [trimSegments_cons, componentsOf, hkept]

theorem mem_of_mem_trimSegments {segment : String} {segments : List String}
    (h : segment ∈ trimSegments segments) : segment ∈ segments := by
  cases segments with
  | nil => exact h
  | cons first rest =>
    rw [trimSegments_cons, List.mem_cons, List.mem_reverse] at h
    rcases h with rfl | hmem
    · exact List.mem_cons_self
    · exact List.mem_cons_of_mem _ (List.mem_reverse.1 ((List.dropWhile_sublist isIdle).mem hmem))

/-- All pieces together have the components of the path, unless it is the empty path. -/
theorem components_eq_componentsOf {p : Path} {segments : List String} (h : p.segments = segments)
    (hne : segments ≠ [""]) : p.components = componentsOf segments := by
  have hback : p.segments = segments ++ [] := by
    rw [h, List.append_nil]
  exact components_eq hback (h ▸ p.segments_ne_nil) (fun _ hmem => absurd hmem List.not_mem_nil)
    fun heq => absurd heq hne

/-- Pieces that are written as a text are found again, except for the root. -/
theorem segments_textOfSegments {segments : List String} (hne : segments ≠ []) (hroot : segments ≠ [""])
    (hflat : ∀ segment ∈ segments, IsFlat segment) : (Path.mk (textOfSegments segments)).segments = segments := by
  have htext : textOfSegments segments = "/".intercalate segments := by
    unfold textOfSegments
    split
    · exact absurd rfl hroot
    · rfl
  have hpieces : ∀ piece ∈ segments.map String.toList, '/' ∉ piece := by
    intro piece hmem
    obtain ⟨segment, hsegment, rfl⟩ := List.mem_map.1 hmem
    exact hflat segment hsegment
  rw [Path.segments, htext, String.toList_intercalate, show "/".toList = ['/'] from rfl,
    List.splitOn_intercalate '/' hpieces (by simpa using hne), List.map_map,
    show String.ofList ∘ String.toList = id from funext fun _ => String.ofList_toList, List.map_id]

/-- Pieces that are written as a text have their components again. -/
theorem components_textOfSegments {segments : List String} (hne : segments ≠ [])
    (hflat : ∀ segment ∈ segments, IsFlat segment) :
    (Path.mk (textOfSegments segments)).components = componentsOf segments := by
  by_cases hroot : segments = [""]
  · rw [hroot]
    rfl
  · exact components_eq_componentsOf (segments_textOfSegments hne hroot hflat) hroot

/-! ## Children -/

theorem components_empty : (Path.mk "").components = [] := rfl

theorem isIdle_of_innerComponent? {name : String} {component : Component}
    (h : innerComponent? name = some component) : isIdle name = false := by
  rw [← Bool.not_eq_true]
  intro hidle
  rw [innerComponent?_of_isIdle hidle] at h
  cases h

/-- The pieces of a child, and the components of its directory. -/
theorem components_segments_child (p : Path) :
    (p = ⟨""⟩ ∧ ∀ {name : String}, IsFlat name → (p.child name).segments = [name]) ∨
    ∃ front, front ≠ [] ∧ (∀ segment ∈ front, IsFlat segment) ∧ p.components = componentsOf front ∧
      ∀ {name : String}, IsFlat name → (p.child name).segments = front ++ [name] := by
  rcases p.segments_child with ⟨htext, hsegments⟩ | ⟨front, back, hfront, hne, hback, hsegments⟩
  · exact .inl ⟨congrArg Path.mk htext, hsegments⟩
  · refine .inr ⟨front, hne, fun segment hmem => ?_, components_eq hfront hne ?_ ?_, hsegments⟩
    · exact isFlat_of_mem_segments (hfront ▸ List.mem_append_left _ hmem)
    · rcases hback with ⟨rfl, -⟩ | rfl <;> simp [isIdle]
    · rcases hback with ⟨-, hone⟩ | rfl
      · exact fun heq => absurd heq hone
      · exact fun _ => List.cons_ne_nil _ _

/-- A child has one component more than its directory. -/
theorem components_child (p : Path) {name : String} {component : Component} (hflat : IsFlat name)
    (hname : innerComponent? name = some component) :
    (p.child name).components = p.components ++ [component] := by
  obtain ⟨hplain, hhere⟩ : name ≠ "" ∧ name ≠ "." := by
    simpa [isIdle] using isIdle_of_innerComponent? hname
  rcases p.components_segments_child with ⟨rfl, hsegments⟩ | ⟨front, hne, -, hcomponents, hsegments⟩
  · rw [components_eq_componentsOf (hsegments hflat) (by simpa using hplain)]
    simp [componentsOf, hplain, hhere, hname, components_empty]
  · have hlast : front ++ [name] ≠ [""] := by
      intro heq
      exact hplain (by simpa using congrArg List.getLast? heq)
    rw [components_eq_componentsOf (hsegments hflat) hlast, componentsOf_concat hne hname, hcomponents]

/-- Whether a path leads to an entry of a directory. -/
def IsEntryOf (p directory : Path) : Prop :=
  ∃ parent, p.parent? = some parent ∧ (parent == directory) = true

/-- The directory of a path whose last component is not the root. -/
theorem parent?_eq {p : Path} {component : Component} (hlast : p.lastComponent? = some component)
    (hroot : component ≠ .root) :
    p.parent? = some (if (trimSegments p.segments).dropLast.isEmpty then ⟨""⟩
      else ⟨textOfSegments (trimSegments (trimSegments p.segments).dropLast)⟩) := by
  unfold parent?
  rw [hlast]
  generalize (trimSegments p.segments).dropLast = kept
  cases component with
  | root => exact absurd rfl hroot
  | here | up | name => cases kept <;> rfl

/-- A child lies in its directory. -/
theorem isEntryOf_child (p : Path) {name : String} {component : Component} (hflat : IsFlat name)
    (hname : innerComponent? name = some component) : (p.child name).IsEntryOf p := by
  have hroot : component ≠ .root := by
    rintro rfl
    unfold innerComponent? at hname
    split at hname
    · cases hname
    · split at hname <;> cases hname
  have hlast : (p.child name).lastComponent? = some component := by
    rw [lastComponent?, components_child p hflat hname, List.getLast?_concat]
  have hparent := parent?_eq hlast hroot
  rcases p.components_segments_child with ⟨rfl, hsegments⟩ | ⟨front, hne, hpieces, hcomponents, hsegments⟩
  · rw [hsegments hflat] at hparent
    exact ⟨_, hparent, beq_refl _⟩
  · rw [hsegments hflat, trimSegments_append (isIdle_of_innerComponent? hname), List.dropLast_concat] at hparent
    refine ⟨⟨textOfSegments (trimSegments front)⟩, ?_, ?_⟩
    · rw [hparent]
      cases front with
      | nil => exact absurd rfl hne
      | cons first rest => rfl
    · have htrimmed : trimSegments front ≠ [] := by
        obtain ⟨first, rest, rfl⟩ := List.exists_cons_of_ne_nil hne
        rw [trimSegments_cons]
        exact List.cons_ne_nil _ _
      rw [same_iff, components_textOfSegments htrimmed fun segment hmem => hpieces segment (mem_of_mem_trimSegments hmem),
        componentsOf_trimSegments, hcomponents]

/-! ## Directories of paths that are the same -/

/-- A piece with a component is one that stands for something. -/
theorem exists_innerComponent? {segment : String} (h : isIdle segment = false) :
    ∃ component, innerComponent? segment = some component := by
  have hplain : ¬(segment = "" ∨ segment = ".") := by simpa [isIdle] using h
  by_cases hup : segment = ".."
  · exact ⟨.up, by simp [innerComponent?, hup]⟩
  · exact ⟨.name segment, by simp [innerComponent?, hplain, hup]⟩

/-- Pieces that are trimmed are a single one, or end with one that stands for something. -/
theorem trimSegments_cases {segments : List String} (h : segments ≠ []) :
    (∃ first, trimSegments segments = [first]) ∨
      ∃ front name, front ≠ [] ∧ isIdle name = false ∧ trimSegments segments = front ++ [name] := by
  obtain ⟨first, rest, rfl⟩ := List.exists_cons_of_ne_nil h
  rw [trimSegments_cons]
  cases hkept : rest.reverse.dropWhile isIdle with
  | nil => exact .inl ⟨first, rfl⟩
  | cons name kept =>
    have hname := List.head?_dropWhile_not isIdle rest.reverse
    rw [hkept] at hname
    exact .inr ⟨first :: kept.reverse, name, by simp, by simpa using hname, by simp⟩

/-- A single piece is one component at most. -/
theorem dropLast_componentsOf_singleton (first : String) : (componentsOf [first]).dropLast = [] := by
  unfold componentsOf
  by_cases hroot : first = ""
  · simp [hroot]
  · by_cases hhere : first = "."
    · simp [hhere]
    · cases hfirst : innerComponent? first <;> simp [hroot, hhere, hfirst]

/-- A path has the components of its trimmed pieces, unless it is the empty path. -/
theorem components_eq_trimSegments {p : Path} (h : p.components ≠ []) :
    p.components = componentsOf (trimSegments p.segments) := by
  rw [componentsOf_trimSegments]
  refine components_eq_componentsOf rfl fun hempty => h ?_
  have hrelative : ¬p.isAbsolute = true := fun habsolute => ((isAbsolute_iff hempty).1 habsolute).2 rfl
  simp [components, hempty, hrelative, innerComponent?]

/-- A path has a directory if something else than the root is its last component. -/
theorem exists_parent?_iff {p : Path} :
    (∃ directory, p.parent? = some directory) ↔ ∃ component, p.lastComponent? = some component ∧ component ≠ .root := by
  constructor
  · rintro ⟨directory, h⟩
    unfold parent? at h
    split at h
    · cases h
    · cases h
    · rename_i component hroot hlast
      exact ⟨component, hlast, hroot⟩
  · rintro ⟨component, hlast, hroot⟩
    exact ⟨_, parent?_eq hlast hroot⟩

/-- The directory of a path has its components without the last one. -/
theorem components_parent? {p directory : Path} (h : p.parent? = some directory) :
    directory.components = p.components.dropLast := by
  obtain ⟨component, hlast, hroot⟩ := exists_parent?_iff.1 ⟨directory, h⟩
  rw [parent?_eq hlast hroot, Option.some.injEq] at h
  have hcomponents : p.components = componentsOf (trimSegments p.segments) := by
    refine components_eq_trimSegments fun hnil => ?_
    simp [lastComponent?, hnil] at hlast
  rcases trimSegments_cases p.segments_ne_nil with ⟨first, htrim⟩ | ⟨front, name, hfront, hname, htrim⟩
  · have hempty : directory = ⟨""⟩ := by simpa [htrim] using h.symm
    rw [hempty, components_empty, hcomponents, htrim, dropLast_componentsOf_singleton]
  · obtain ⟨named, hnamed⟩ := exists_innerComponent? hname
    have hkept : trimSegments front ≠ [] := by
      obtain ⟨first, rest, rfl⟩ := List.exists_cons_of_ne_nil hfront
      simp [trimSegments_cons]
    have hflat : ∀ segment ∈ trimSegments front, IsFlat segment := fun segment hmem => by
      refine isFlat_of_mem_segments (p := p) (mem_of_mem_trimSegments ?_)
      rw [htrim]
      exact List.mem_append_left _ (mem_of_mem_trimSegments hmem)
    have hdirectory : directory = ⟨textOfSegments (trimSegments front)⟩ := by
      simpa [htrim, hfront] using h.symm
    rw [hdirectory, components_textOfSegments hkept hflat, componentsOf_trimSegments, hcomponents, htrim,
      componentsOf_concat hfront hnamed, List.dropLast_concat]

theorem exists_components_of_parent? {p directory : Path} (h : p.parent? = some directory) :
    ∃ component, component ≠ .root ∧ p.components = directory.components ++ [component] := by
  obtain ⟨component, hlast, hroot⟩ := exists_parent?_iff.1 ⟨directory, h⟩
  obtain ⟨front, hfront⟩ := List.getLast?_eq_some_iff.1 hlast
  refine ⟨component, hroot, ?_⟩
  rw [components_parent? h, hfront, List.dropLast_concat]

/-- The same path lies in the same directory. -/
theorem parent?_congr {p q directory : Path} (h : (p == q) = true) (hp : p.parent? = some directory) :
    ∃ other, q.parent? = some other ∧ (directory == other) = true := by
  have hcomponents : p.components = q.components := same_iff.1 h
  obtain ⟨component, hlast, hroot⟩ := exists_parent?_iff.1 ⟨directory, hp⟩
  obtain ⟨other, hq⟩ := exists_parent?_iff.2 ⟨component, by rwa [lastComponent?, ← hcomponents], hroot⟩
  refine ⟨other, hq, ?_⟩
  rw [same_iff, components_parent? hp, components_parent? hq, hcomponents]

/-- A search for directories that is long enough finds them all. -/
theorem ancestorsFrom_eq {fuel : Nat} {p : Path} (h : p.components.length < fuel) :
    ancestorsFrom fuel p = p.ancestors := by
  suffices hsame : ∀ fuel more : Nat, ∀ p : Path, p.components.length < fuel → p.components.length < more →
      ancestorsFrom fuel p = ancestorsFrom more p from hsame fuel _ p h (Nat.lt_succ_self _)
  intro fuel
  induction fuel with
  | zero => exact fun more p h => absurd h (Nat.not_lt_zero _)
  | succ fuel ih =>
    intro more p hfuel hmore
    cases more with
    | zero => exact absurd hmore (Nat.not_lt_zero _)
    | succ more =>
      rw [ancestorsFrom, ancestorsFrom]
      cases hparent : p.parent? with
      | none => rfl
      | some directory =>
        obtain ⟨component, hlast, -⟩ := exists_parent?_iff.1 ⟨directory, hparent⟩
        have hpos : 0 < p.components.length :=
          List.length_pos_of_mem (List.mem_of_getLast? hlast)
        have hlength : directory.components.length = p.components.length - 1 := by
          rw [components_parent? hparent, List.length_dropLast]
        dsimp only
        rw [ih more directory (by omega) (by omega)]

/-- The directories above a path are the one that it lies in and those above that one. -/
theorem ancestors_of_parent? {p directory : Path} (h : p.parent? = some directory) :
    p.ancestors = directory :: directory.ancestors := by
  obtain ⟨component, hlast, -⟩ := exists_parent?_iff.1 ⟨directory, h⟩
  have hpos : 0 < p.components.length := List.length_pos_of_mem (List.mem_of_getLast? hlast)
  have hlength : directory.components.length = p.components.length - 1 := by
    rw [components_parent? h, List.length_dropLast]
  rw [ancestors, ancestorsFrom, h]
  dsimp only
  rw [ancestorsFrom_eq (by omega)]

theorem ancestors_of_no_parent {p : Path} (h : p.parent? = none) : p.ancestors = [] := by
  rw [ancestors, ancestorsFrom, h]

/-- What a path takes over from the directory that it lies in holds of all paths. -/
theorem directory_induction {motive : Path → Prop} (bottom : ∀ p, p.parent? = none → motive p)
    (step : ∀ p directory, p.parent? = some directory → motive directory → motive p) (p : Path) : motive p := by
  cases hparent : p.parent? with
  | none => exact bottom p hparent
  | some directory => exact step p directory hparent (directory_induction bottom step directory)
termination_by p.components.length
decreasing_by
  obtain ⟨component, -, hcomponents⟩ := exists_components_of_parent? hparent
  rw [hcomponents, List.length_append]
  exact Nat.lt_succ_self _

instance (p directory : Path) : Decidable (p.IsEntryOf directory) :=
  decidable_of_iff (p.parent?.any (· == directory) = true) (by simp [IsEntryOf, Option.any_eq_true])

/-- Which directory a path lies in does not depend on how the two are written. -/
theorem isEntryOf_congr {p q directory other : Path} (hpath : (p == q) = true)
    (hdirectory : (directory == other) = true) : p.IsEntryOf directory ↔ q.IsEntryOf other := by
  constructor
  · rintro ⟨parent, hparent, hsame⟩
    obtain ⟨found, hfound, hparents⟩ := parent?_congr hpath hparent
    exact ⟨found, hfound, beq_trans (beq_symm hparents) (beq_trans hsame hdirectory)⟩
  · rintro ⟨parent, hparent, hsame⟩
    obtain ⟨found, hfound, hparents⟩ := parent?_congr (beq_symm hpath) hparent
    exact ⟨found, hfound, beq_trans (beq_symm hparents) (beq_trans hsame (beq_symm hdirectory))⟩

end Path
end ModuleBundler
