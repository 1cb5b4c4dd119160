import ModuleBundler.Proofs.FileTree.Writing
import ModuleBundler.Proofs.Path.Directory

/-!
# Spellings of paths

One path can be written in many ways: with slashes twice, with dots between slashes,
and with a slash or a dot at its end.  What it leads to depends on its components alone
as long as the text ends with its last component and is not too long.  A slash or a dot
behind the last component asks for a directory, so that a file is found under one
spelling and not under the other.

Main results:

- Theorem {lit}`Path.exists_components`: the root or a dot stands in front of the other components.
- Theorem {lit}`FileTree.walk_congr`: staying in a directory makes no difference within a walk.
- Theorem {lit}`FileTree.locate_congr`: spellings of one path lead to one place.
- Theorem {lit}`FileTree.isFile_congr`: a file is a file under each of its spellings.
-/

namespace ModuleBundler

namespace Text

/-- Cutting a text at separators loses no other character. -/
theorem exists_mem_splitOn_iff {separator c : Char} (hc : c ≠ separator) (cs : List Char) :
    (∃ piece ∈ cs.splitOn separator, c ∈ piece) ↔ c ∈ cs := by
  induction cs with
  | nil => simp [List.splitOn_nil]
  | cons first rest ih =>
    obtain ⟨piece, pieces, hpieces⟩ := List.exists_cons_of_ne_nil (List.splitOn_ne_nil separator rest)
    rw [hpieces] at ih
    rw [List.splitOn_cons_eq_if_modifyHead, hpieces, List.mem_cons, ← ih]
    split
    · rename_i hfirst
      simp [eq_of_beq hfirst, hc]
    · simp [or_assoc]

end Text

namespace Path

/-! ## What the components tell -/

/-- Whether the text ends with the last component, with no slash and no dot behind it. -/
def IsTight (p : Path) : Prop :=
  ∃ front last, p.segments = front ++ [last] ∧ isIdle last = false

/-- A path read from a directory ends as it does. -/
theorem IsTight.join {q : Path} (h : q.IsTight) (p : Path) : (p.join q).IsTight := by
  by_cases habsolute : q.isAbsolute = true
  · rwa [Path.join, if_pos habsolute]
  · have hrelative : q.isAbsolute = false := by simpa using habsolute
    rcases p.segments_join with ⟨-, hjoin⟩ | ⟨front, -, -, -, -, hjoin⟩
    · rwa [hjoin hrelative]
    · obtain ⟨inner, last, hsegments, hidle⟩ := h
      refine ⟨front ++ inner, last, ?_, hidle⟩
      rw [hjoin hrelative, hsegments, List.append_assoc]

theorem isTight_of_isFileName {name : String} (h : IsFileName name) : (Path.mk name).IsTight :=
  ⟨[], name, (segments_of_isFlat h.flat).2, isIdle_of_isFileName h⟩

theorem isTight_child (p : Path) {name : String} (h : IsFileName name) : (p.child name).IsTight :=
  (isTight_of_isFileName h).join p

/-- The components of a path that are neither the root nor a dot. -/
def inner (p : Path) : List Component :=
  p.segments.filterMap innerComponent?

theorem eq_up_or_name_of_mem_inner {p : Path} {component : Component} (h : component ∈ p.inner) :
    component = .up ∨ ∃ text, component = .name text := by
  obtain ⟨segment, -, hsegment⟩ := List.mem_filterMap.1 h
  unfold innerComponent? at hsegment
  split at hsegment
  · cases hsegment
  · split at hsegment
    · exact .inl (Option.some.inj hsegment).symm
    · exact .inr ⟨segment, (Option.some.inj hsegment).symm⟩

/-- The root or a dot stands in front of the other components, or nothing. -/
theorem exists_components (p : Path) :
    ∃ front, p.components = front ++ p.inner ∧
      (front = [.root] ∧ p.isAbsolute = true ∨ (front = [.here] ∨ front = []) ∧ p.isAbsolute = false) := by
  obtain ⟨first, rest, hsegments⟩ := List.exists_cons_of_ne_nil p.segments_ne_nil
  have hinner : p.inner = (innerComponent? first).toList ++ rest.filterMap innerComponent? := by
    rw [inner, hsegments, List.filterMap_cons]
    cases innerComponent? first <;> rfl
  unfold components
  rw [hsegments, hinner]
  dsimp only
  by_cases habsolute : p.isAbsolute = true
  · rw [if_pos habsolute, ((isAbsolute_iff hsegments).1 habsolute).1]
    exact ⟨[.root], rfl, .inl ⟨rfl, habsolute⟩⟩
  · rw [if_neg habsolute]
    have hrelative : p.isAbsolute = false := by simpa using habsolute
    by_cases hhere : first = "."
    · rw [if_pos hhere, hhere]
      exact ⟨[.here], rfl, .inr ⟨.inl rfl, hrelative⟩⟩
    · rw [if_neg hhere]
      exact ⟨[], rfl, .inr ⟨.inr rfl, hrelative⟩⟩

theorem name_mem_inner_iff {p : Path} {text : String} : .name text ∈ p.inner ↔ .name text ∈ p.components := by
  obtain ⟨front, hcomponents, hfront⟩ := p.exists_components
  rw [hcomponents, List.mem_append]
  rcases hfront with ⟨rfl, -⟩ | ⟨rfl | rfl, -⟩ <;> simp

/-- The root is a component of absolute paths alone, and their first one. -/
theorem isAbsolute_iff_head? {p : Path} : p.isAbsolute = true ↔ p.components.head? = some .root := by
  obtain ⟨front, hcomponents, hfront⟩ := p.exists_components
  rw [hcomponents]
  rcases hfront with ⟨rfl, habsolute⟩ | ⟨rfl | rfl, hrelative⟩
  · simp [habsolute]
  · simp [hrelative]
  · rw [hrelative, List.nil_append]
    refine ⟨nofun, fun hhead => ?_⟩
    rcases eq_up_or_name_of_mem_inner (List.mem_of_mem_head? hhead) with heq | ⟨text, heq⟩ <;> cases heq

theorem isAbsolute_congr {p q : Path} (h : (p == q) = true) : p.isAbsolute = q.isAbsolute := by
  rw [Bool.eq_iff_iff, isAbsolute_iff_head?, isAbsolute_iff_head?, same_iff.1 h]

/-- A piece that is a name is a component. -/
theorem name_mem_components {p : Path} {segment name : String} (hmem : segment ∈ p.segments)
    (h : innerComponent? segment = some (.name name)) : .name name ∈ p.components := by
  have hidle := isIdle_of_innerComponent? h
  have hcomponents : p.components = componentsOf p.segments := by
    refine components_eq_componentsOf rfl fun hempty => ?_
    rw [hempty, List.mem_singleton] at hmem
    simp [hmem, isIdle] at hidle
  obtain ⟨first, rest, hsegments⟩ := List.exists_cons_of_ne_nil p.segments_ne_nil
  rw [hcomponents, hsegments, componentsOf]
  rw [hsegments, List.mem_cons] at hmem
  obtain rfl | hrest := hmem
  · obtain ⟨hempty, hhere⟩ : segment ≠ "" ∧ segment ≠ "." := by simpa [isIdle] using hidle
    simp [hempty, hhere, h]
  · exact List.mem_append_right _ (List.mem_filterMap.2 ⟨segment, hrest, h⟩)

/-- A character that no slash and no dot is stands in the text just if it stands in a name. -/
theorem mem_text_iff {p : Path} {c : Char} (hslash : c ≠ '/') (hdot : c ≠ '.') :
    c ∈ p.text.toList ↔ ∃ name, .name name ∈ p.components ∧ c ∈ name.toList := by
  have htext : c ∈ p.text.toList ↔ ∃ segment ∈ p.segments, c ∈ segment.toList := by
    rw [← Text.exists_mem_splitOn_iff hslash]
    simp [segments]
  constructor
  · intro hmem
    obtain ⟨segment, hsegment, hc⟩ := htext.1 hmem
    have hname : innerComponent? segment = some (.name segment) := by
      have hidle : ∀ text : String, c ∉ text.toList → segment ≠ text := by
        rintro text hno rfl
        exact hno hc
      unfold innerComponent?
      rw [if_neg (not_or.2 ⟨hidle "" (by simp), hidle "." (by simpa using hdot)⟩),
        if_neg (hidle ".." (by simpa using hdot))]
    exact ⟨segment, name_mem_components hsegment hname, hc⟩
  · rintro ⟨name, hname, hc⟩
    exact htext.2 ⟨name, mem_segments_of_name hname, hc⟩

end Path

namespace FileTree

/-! ## Steps of spellings -/

namespace Step

/-- The step of a component; the root and the dot in front of a path are none. -/
def ofComponent? : Component → Option Step
  | .root => none
  | .here => none
  | .up => some .up
  | .name text => some (.name text)

theorem filter_ofSegment? (segment : String) :
    (ofSegment? segment).filter (· != .stay) = (Path.innerComponent? segment).bind ofComponent? := by
  unfold ofSegment? Path.innerComponent?
  by_cases hempty : segment = ""
  · simp [hempty]
  · by_cases hhere : segment = "."
    · simp [hhere]
    · by_cases hup : segment = ".."
      · simp [hup, ofComponent?]
      · simp [hempty, hhere, hup, ofComponent?]

theorem filterMap_components (p : Path) :
    p.components.filterMap ofComponent? = p.inner.filterMap ofComponent? := by
  obtain ⟨front, hcomponents, hfront⟩ := p.exists_components
  rw [hcomponents, List.filterMap_append]
  rcases hfront with ⟨rfl, -⟩ | ⟨rfl | rfl, -⟩ <;> rfl

/-- Without the steps that stay in the directory, the steps of a path are those of its components. -/
theorem filter_ofPath (p : Path) :
    (ofPath p).filter (· != .stay) = p.components.filterMap ofComponent? := by
  rw [filterMap_components, ofPath, Path.inner, List.filter_filterMap, List.filterMap_filterMap]
  exact congrArg (List.filterMap · p.segments) (funext filter_ofSegment?)

end Step

end FileTree

namespace Path.IsTight

variable {p : Path}

theorem endsInSlash (h : p.IsTight) : FileTree.endsInSlash p = false := by
  obtain ⟨front, last, hsegments, hidle⟩ := h
  have hlast : last ≠ "" := by
    rintro rfl
    simp [isIdle] at hidle
  simp [FileTree.endsInSlash, hsegments, hlast]

theorem text_ne_empty (h : p.IsTight) : ¬p.text = "" := by
  obtain ⟨front, last, hsegments, hidle⟩ := h
  intro hempty
  have hone : p.segments = [""] := by
    rw [segments, hempty]
    rfl
  have hlast : "" = last := by simpa [hone] using congrArg List.getLast? hsegments
  rw [← hlast] at hidle
  cases hidle

/-- The last step of a walk does not stay. -/
theorem getLast?_ofPath (h : p.IsTight) : (FileTree.Step.ofPath p).getLast? ≠ some .stay := by
  obtain ⟨front, last, hsegments, hidle⟩ := h
  obtain ⟨hempty, hhere⟩ : last ≠ "" ∧ last ≠ "." := by simpa [isIdle] using hidle
  rw [FileTree.Step.ofPath, hsegments, List.filterMap_append]
  by_cases hup : last = ".."
  · simp [FileTree.Step.ofSegment?, hup]
  · simp [FileTree.Step.ofSegment?, hempty, hhere, hup]

end Path.IsTight

namespace FileTree

/-! ## Walks -/

/-- Steps that stay in front of a walk can be left out. -/
theorem walk_stays (tree : FileTree) (aim : Aim) (links : Nat) (here : Address) (slash : Bool)
    {stays : List Step} (h : ∀ step ∈ stays, step = .stay) (steps : List Step) :
    tree.walk aim links here slash (stays ++ steps) = tree.walk aim links here slash steps := by
  induction stays with
  | nil => rfl
  | cons step rest ih =>
    obtain ⟨rfl, hrest⟩ := List.forall_mem_cons.1 h
    rw [List.cons_append, walk]
    exact ih hrest

/-- What is left of steps behind the first one that does not stay. -/
theorem exists_of_filter_eq_cons {steps rest : List Step} {step : Step}
    (h : steps.filter (· != .stay) = step :: rest) (hlast : steps.getLast? ≠ some .stay) :
    ∃ stays more, steps = stays ++ step :: more ∧ (∀ idle ∈ stays, idle = Step.stay) ∧
      more.filter (· != .stay) = rest ∧ more.getLast? ≠ some .stay := by
  obtain ⟨stays, more, rfl, hstays, -, hrest⟩ := List.filter_eq_cons_iff.1 h
  refine ⟨stays, more, rfl, fun idle hmem => by simpa using hstays idle hmem, hrest, fun hmore => hlast ?_⟩
  simp [List.getLast?_append, List.getLast?_cons, hmore]

/-- Steps that do not end with staying are none if all of them stay. -/
theorem eq_nil_of_filter {steps : List Step} (h : steps.filter (· != .stay) = [])
    (hlast : steps.getLast? ≠ some .stay) : steps = [] := by
  by_contra hne
  have hmem := List.getLast_mem hne
  have hstay : steps.getLast hne = .stay := by simpa using List.filter_eq_nil_iff.1 h _ hmem
  exact hlast (by rw [List.getLast?_eq_some_getLast hne, hstay])

/-- Staying in a directory makes no difference, except at the end of a walk. -/
theorem walk_congr (tree : FileTree) (aim : Aim) (links : Nat) (here : Address) (slash : Bool)
    (steps others : List Step) (hsame : steps.filter (· != .stay) = others.filter (· != .stay))
    (hsteps : steps.getLast? ≠ some .stay) (hothers : others.getLast? ≠ some .stay) :
    tree.walk aim links here slash steps = tree.walk aim links here slash others := by
  match steps with
  | [] =>
    rw [eq_nil_of_filter hsame.symm hothers]
  | .stay :: rest =>
    rw [walk]
    exact walk_congr tree aim links here slash rest others hsame
      (fun hrest => hsteps (by simp [List.getLast?_cons, hrest])) hothers
  | .up :: rest =>
    obtain ⟨stays, more, rfl, hstays, hmore, hlast⟩ := exists_of_filter_eq_cons hsame.symm hothers
    rw [walk_stays tree aim links here slash hstays, walk, walk]
    exact walk_congr tree aim links here.dropLast slash rest more hmore.symm
      (fun hrest => hsteps (by simp [List.getLast?_cons, hrest])) hlast
  | .name name :: rest =>
    obtain ⟨stays, more, rfl, hstays, hmore, hlast⟩ := exists_of_filter_eq_cons hsame.symm hothers
    have hrest : rest.getLast? ≠ some .stay := fun hrest => hsteps (by simp [List.getLast?_cons, hrest])
    have hempty : rest = [] ↔ more = [] := by
      constructor
      · rintro rfl
        exact eq_nil_of_filter hmore hlast
      · rintro rfl
        exact eq_nil_of_filter hmore.symm hrest
    have hlasts : rest.isEmpty = more.isEmpty := by
      rw [Bool.eq_iff_iff, List.isEmpty_iff, List.isEmpty_iff, hempty]
    have hdirectory (address : Address) :
        tree.walk aim links address slash rest = tree.walk aim links address slash more :=
      walk_congr tree aim links address slash rest more hmore.symm hrest hlast
    -- behind a link the walk goes on with the steps of its target in front
    have hlink (fewer : Nat) (hfewer : fewer < links) (address : Address) (slash : Bool) (target : Path) :
        tree.walk aim fewer address slash (Step.ofPath target ++ rest) =
          tree.walk aim fewer address slash (Step.ofPath target ++ more) := by
      by_cases hnil : rest = []
      · rw [hnil, hempty.1 hnil]
      · apply walk_congr
        · rw [List.filter_append, List.filter_append, hmore]
        · simpa [List.getLast?_append, List.getLast?_eq_some_getLast hnil] using hrest
        · have hmore := fun hmore => hnil (hempty.2 hmore)
          simpa [List.getLast?_append, List.getLast?_eq_some_getLast hmore] using hlast
    rw [walk_stays tree aim links here slash hstays, walk, walk, hlasts]
    cases links with
    | zero => simp only [hdirectory]
    | succ fewer => simp only [hdirectory, hlink fewer (Nat.lt_succ_self fewer)]
termination_by (links, steps.length)

theorem walk_filter (tree : FileTree) (aim : Aim) (links : Nat) (here : Address) (slash : Bool) {steps : List Step}
    (h : steps.getLast? ≠ some .stay) :
    tree.walk aim links here slash steps = tree.walk aim links here slash (steps.filter (· != .stay)) := by
  refine walk_congr tree aim links here slash _ _ (by simp) h fun hlast => ?_
  simpa using (List.mem_filter.1 (List.mem_of_getLast? hlast)).2

/-! ## Places -/

/-- Spellings of one path lead to one place, if they end with the last component and are not too long. -/
theorem locate_congr (tree : FileTree) (aim : Aim) {p q : Path} (h : (p == q) = true) (hp : p.IsTight)
    (hq : q.IsTight) (hpshort : p.text.utf8ByteSize ≤ maxPath) (hqshort : q.text.utf8ByteSize ≤ maxPath) :
    tree.locate aim p = tree.locate aim q := by
  have hnul : p.text.toList.contains '\x00' = q.text.toList.contains '\x00' := by
    rw [Bool.eq_iff_iff, List.contains_iff_mem, List.contains_iff_mem, Path.mem_text_iff (by decide) (by decide),
      Path.mem_text_iff (by decide) (by decide), Path.same_iff.1 h]
  have hwalk : tree.walk aim maxLinks (if p.isAbsolute then [] else tree.home) (endsInSlash p) (Step.ofPath p) =
      tree.walk aim maxLinks (if q.isAbsolute then [] else tree.home) (endsInSlash q) (Step.ofPath q) := by
    rw [Path.isAbsolute_congr h, hp.endsInSlash, hq.endsInSlash]
    apply walk_congr
    · rw [Step.filter_ofPath, Step.filter_ofPath, Path.same_iff.1 h]
    · exact hp.getLast?_ofPath
    · exact hq.getLast?_ofPath
  unfold locate
  rw [hnul, if_neg hp.text_ne_empty, if_neg hq.text_ne_empty, if_neg (Nat.not_lt.2 hpshort),
    if_neg (Nat.not_lt.2 hqshort), hwalk]

/-- A path that leads to an entry is not too long. -/
theorem short_of_find {tree : FileTree} {p : Path} {found : Address × Entry} (h : tree.find p = .ok found) :
    p.text.utf8ByteSize ≤ maxPath := by
  have hlocate := find_eq_ok_iff.1 h
  by_contra hlong
  unfold locate at hlocate
  rw [if_pos (Nat.lt_of_not_le hlong)] at hlocate
  split at hlocate
  · cases hlocate
  · split at hlocate <;> cases hlocate

theorem isFile_of_long {tree : FileTree} {p : Path} (h : ¬p.text.utf8ByteSize ≤ maxPath) : tree.isFile p = false := by
  unfold isFile
  cases hfind : tree.find p with
  | error fault => rfl
  | ok found => exact absurd (short_of_find hfind) h

theorem isFile_of_find {tree : FileTree} {p q : Path} (h : tree.find p = tree.find q) :
    tree.isFile p = tree.isFile q := by
  unfold isFile
  rw [h]

theorem readText_of_find {tree : FileTree} {p q : Path} (h : tree.find p = tree.find q) :
    tree.readText p = tree.readText q := by
  unfold readText readBytes
  rw [h]

theorem find_congr (tree : FileTree) {p q : Path} (h : (p == q) = true) (hp : p.IsTight) (hq : q.IsTight)
    (hpshort : p.text.utf8ByteSize ≤ maxPath) (hqshort : q.text.utf8ByteSize ≤ maxPath) :
    tree.find p = tree.find q := by
  unfold find
  rw [locate_congr tree .use h hp hq hpshort hqshort]

/-- A file is a file under each of its spellings. -/
theorem isFile_congr (tree : FileTree) {p q : Path} (h : (p == q) = true) (hp : p.IsTight) (hq : q.IsTight)
    (hpshort : p.text.utf8ByteSize ≤ maxPath) (hqshort : q.text.utf8ByteSize ≤ maxPath) :
    tree.isFile p = tree.isFile q :=
  isFile_of_find (find_congr tree h hp hq hpshort hqshort)

end FileTree
end ModuleBundler
