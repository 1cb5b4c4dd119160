import ModuleBundler.Path.Basic

/-!
# File names and extensions

The path of a child ends with the name of that child, whatever directory it is read
from.  A file name that was put together from a stem and an extension is taken apart at
its last dot again, so that the path with another extension is the path of the file with
that extension.

Main results:

- Theorem {lit}`Path.splitName_append`: a stem and an extension are found again in a file name.
- Theorem {lit}`Path.fileName?_child`: a child has its name.
- Theorem {lit}`Path.withExtension_child_eq`: a child with another extension is a child.
-/

namespace ModuleBundler

namespace Text

/-- The pieces between separators hold no separator. -/
theorem not_mem_of_mem_splitOn {separator : Char} {cs piece : List Char}
    (h : piece ∈ cs.splitOn separator) : separator ∉ piece := by
  induction cs generalizing piece with
  | nil =>
    rw [List.splitOn_nil, List.mem_singleton] at h
    rw [h]
    exact List.not_mem_nil
  | cons c rest ih =>
    rw [List.splitOn_cons_eq_if_modifyHead] at h
    split at h
    · rcases List.mem_cons.1 h with rfl | hmem
      · exact List.not_mem_nil
      · exact ih hmem
    · rename_i hc
      obtain ⟨first, more, hpieces⟩ := List.exists_cons_of_ne_nil (List.splitOn_ne_nil separator rest)
      rw [hpieces, List.modifyHead_cons] at h
      rcases List.mem_cons.1 h with rfl | hmem
      · rw [List.mem_cons, not_or]
        exact ⟨fun heq => hc (beq_iff_eq.2 heq.symm), ih (hpieces ▸ List.mem_cons_self)⟩
      · exact ih (hpieces ▸ List.mem_cons_of_mem _ hmem)

end Text

namespace Path

/-! ## Pieces of paths -/

/-- Whether a text has no slashes. -/
def IsFlat (text : String) : Prop :=
  '/' ∉ text.toList

theorem isFlat_of_mem_segments {p : Path} {segment : String} (h : segment ∈ p.segments) : IsFlat segment := by
  obtain ⟨piece, hpiece, rfl⟩ := List.mem_map.1 h
  unfold IsFlat
  rw [String.toList_ofList]
  exact Text.not_mem_of_mem_splitOn hpiece

theorem mem_segments_of_innerComponent? {segment name : String}
    (h : innerComponent? segment = some (.name name)) : name = segment := by
  unfold innerComponent? at h
  split at h
  · cases h
  · split at h
    · cases h
    · injection h with h
      injection h with h
      exact h.symm

/-- Names are pieces of the path. -/
theorem mem_segments_of_name {p : Path} {name : String} (h : .name name ∈ p.components) :
    name ∈ p.segments := by
  unfold components at h
  split at h
  · cases h
  · rename_i first rest hsegments
    have hinner : .name name ∈ rest.filterMap innerComponent? → name ∈ first :: rest := by
      intro hmem
      obtain ⟨segment, hsegment, hcomponent⟩ := List.mem_filterMap.1 hmem
      rw [mem_segments_of_innerComponent? hcomponent]
      exact List.mem_cons_of_mem _ hsegment
    rw [hsegments]
    dsimp only at h
    split at h
    · exact hinner (by simpa using h)
    · split at h
      · exact hinner (by simpa using h)
      · obtain hfirst | hrest := List.mem_append.1 h
        · rw [Option.mem_toList] at hfirst
          rw [mem_segments_of_innerComponent? hfirst]
          exact List.mem_cons_self
        · exact hinner hrest

/-- The last component is the file name, if there is one. -/
theorem getLast?_of_fileName? {p : Path} {name : String} (h : p.fileName? = some name) :
    p.components.getLast? = some (.name name) := by
  unfold fileName? lastComponent? at h
  split at h
  · rename_i hlast
    cases h
    exact hlast
  · cases h

theorem isFlat_of_fileName? {p : Path} {name : String} (h : p.fileName? = some name) : IsFlat name :=
  isFlat_of_mem_segments (mem_segments_of_name (List.mem_of_getLast? (getLast?_of_fileName? h)))

/-- Paths that are the same have the same file name. -/
theorem fileName?_congr {p q : Path} (h : (p == q) = true) : p.fileName? = q.fileName? := by
  unfold fileName? lastComponent?
  rw [same_iff.1 h]

/-- A path is written as its pieces with slashes between them. -/
theorem text_eq_intercalate (p : Path) : p.text = "/".intercalate p.segments := by
  apply String.toList_injective
  rw [String.toList_intercalate, segments, List.map_map,
    show String.toList ∘ String.ofList = id from funext fun _ => String.toList_ofList, List.map_id]
  exact (List.intercalate_splitOn '/').symm

/-- A path is its pieces. -/
theorem eq_of_segments {p q : Path} (h : p.segments = q.segments) : p = q := by
  have htext : p.text = q.text := by rw [text_eq_intercalate, h, ← text_eq_intercalate]
  cases p
  cases q
  exact congrArg Path.mk htext

/-! ## File names -/

/-- Whether a text is the name of a file in whatever directory. -/
structure IsFileName (name : String) : Prop where
  flat : IsFlat name
  ne_empty : name ≠ ""
  ne_here : name ≠ "."
  ne_up : name ≠ ".."

/-- Whether a text can be an extension. -/
structure IsExtension (extension : String) : Prop where
  flat : IsFlat extension
  dotless : '.' ∉ extension.toList
  ne_empty : extension ≠ ""

/-- Whether a text can stand in front of an extension. -/
structure IsStem (stem : String) : Prop where
  flat : IsFlat stem
  ne_empty : stem ≠ ""
  ne_here : stem ≠ "."

instance (text : String) : Decidable (IsFlat text) :=
  inferInstanceAs (Decidable ('/' ∉ text.toList))

instance (extension : String) : Decidable (IsExtension extension) :=
  decidable_of_iff (IsFlat extension ∧ '.' ∉ extension.toList ∧ extension ≠ "")
    ⟨fun h => ⟨h.1, h.2.1, h.2.2⟩, fun h => ⟨h.flat, h.dotless, h.ne_empty⟩⟩

theorem toList_append_dot (stem extension : String) :
    (stem ++ "." ++ extension).toList = stem.toList ++ '.' :: extension.toList := by
  simp

theorem toList_ne_nil {text : String} (h : text ≠ "") : text.toList ≠ [] :=
  fun hnil => h (String.toList_eq_nil_iff.1 hnil)

theorem isFlat_append {stem extension : String} (hstem : IsFlat stem) (hextension : IsFlat extension) :
    IsFlat (stem ++ "." ++ extension) := by
  unfold IsFlat
  rw [toList_append_dot]
  simpa using ⟨hstem, hextension⟩

/-- A text in front of an extension makes a file name with it, also an empty one or a dot. -/
theorem isFileName_append {stem extension : String} (hstem : IsFlat stem) (hextension : IsExtension extension) :
    IsFileName (stem ++ "." ++ extension) := by
  obtain ⟨c, hc⟩ := List.exists_mem_of_ne_nil _ (toList_ne_nil hextension.ne_empty)
  have hmem : c ∈ (stem ++ "." ++ extension).toList := by
    rw [toList_append_dot]
    exact List.mem_append_right _ (List.mem_cons_of_mem _ hc)
  -- the extension holds a character that is not a dot
  have hne : ∀ text : String, text.toList.all (· == '.') = true → stem ++ "." ++ extension ≠ text := by
    rintro text hdots rfl
    exact hextension.dotless (eq_of_beq (List.all_eq_true.1 hdots c hmem) ▸ hc)
  exact ⟨isFlat_append hstem hextension.flat, hne _ (by decide), hne _ (by decide), hne _ (by decide)⟩

/-- No slash comes into a file name that is cut. -/
theorem isFlat_splitName {fileName : String} (h : IsFlat fileName) : IsFlat (splitName fileName).1 := by
  unfold splitName
  dsimp only
  split
  · exact h
  · split
    · exact h
    · unfold IsFlat
      rw [String.toList_ofList]
      exact fun hmem => h (List.mem_of_mem_take hmem)

/-- A file name is cut at its last dot, which is the one in front of its extension, unless nothing stands in
front of that. -/
theorem splitName_eq {stem extension : String} (hdot : '.' ∉ extension.toList) :
    splitName (stem ++ "." ++ extension) =
      if stem = "" then ("." ++ extension, none) else (stem, some extension) := by
  have hback : ((stem.toList ++ '.' :: extension.toList).reverse.takeWhile (· != '.')).reverse =
      extension.toList := by
    have hkept : ∀ c ∈ extension.toList.reverse, (c != '.') = true := by
      intro c hmem
      rw [bne_iff_ne]
      rintro rfl
      exact hdot (List.mem_reverse.1 hmem)
    rw [List.reverse_append, List.reverse_cons, List.append_assoc, List.takeWhile_append_of_pos hkept]
    simp
  have hfront : (stem.toList ++ '.' :: extension.toList).take
      ((stem.toList ++ '.' :: extension.toList).length - extension.toList.length - 1) = stem.toList := by
    apply List.take_left'
    rw [List.length_append, List.length_cons]
    omega
  unfold splitName
  dsimp only
  rw [toList_append_dot, hback, hfront, if_neg (by simp), String.ofList_toList, String.ofList_toList]
  by_cases hempty : stem = ""
  · subst hempty
    rfl
  · rw [if_neg (by simpa using hempty), if_neg hempty]

/-- A stem and an extension are found again. -/
theorem splitName_append {stem extension : String} (hstem : stem ≠ "") (hdot : '.' ∉ extension.toList) :
    splitName (stem ++ "." ++ extension) = (stem, some extension) := by
  rw [splitName_eq hdot, if_neg hstem]

/-! ## Children -/

/-- The pieces of a path read from a directory are those of the directory and its own.  A slash at the end of the
directory is followed by the path. -/
theorem segments_join (p : Path) :
    (p.text = "" ∧ ∀ {q : Path}, q.isAbsolute = false → p.join q = q) ∨
    ∃ front back, p.segments = front ++ back ∧ front ≠ [] ∧ (back = [] ∧ front ≠ [""] ∨ back = [""]) ∧
      ∀ {q : Path}, q.isAbsolute = false → (p.join q).segments = front ++ q.segments := by
  have hpieces : ∀ cs : List Char, (cs.splitOn '/').map String.ofList ≠ [] := fun cs hnil =>
    List.splitOn_ne_nil '/' cs (List.map_eq_nil_iff.1 hnil)
  by_cases hempty : p.text = ""
  · refine .inl ⟨hempty, fun {q} hrelative => ?_⟩
    rw [join, hrelative, if_neg Bool.false_ne_true, if_pos (.inl hempty), hempty, String.empty_append]
  · by_cases hslash : p.text.toList.getLast? = some '/'
    · obtain ⟨front, hfront⟩ := List.getLast?_eq_some_iff.1 hslash
      refine .inr ⟨(front.splitOn '/').map String.ofList, [""], ?_, hpieces front, .inr rfl,
        fun {q} hrelative => ?_⟩
      · rw [segments, hfront, List.splitOn_append_cons_self, List.map_append]
        rfl
      · rw [join, hrelative, if_neg Bool.false_ne_true, if_pos (.inr hslash), segments,
          String.toList_append, hfront, List.append_assoc, List.singleton_append, List.splitOn_append_cons_self,
          List.map_append, segments]
    · refine .inr ⟨p.segments, [], (List.append_nil _).symm, hpieces _, .inl ⟨rfl, fun hone => hempty ?_⟩,
        fun {q} hrelative => ?_⟩
      · rw [text_eq_intercalate, hone]
        rfl
      · rw [join, hrelative, if_neg Bool.false_ne_true, if_neg (not_or.2 ⟨hempty, hslash⟩), segments,
          String.append_assoc, String.toList_append, String.toList_append,
          show "/".toList ++ q.text.toList = '/' :: q.text.toList from rfl, List.splitOn_append_cons_self,
          List.map_append]
        rfl

/-- A name is a relative path of one piece. -/
theorem segments_of_isFlat {name : String} (h : IsFlat name) :
    (Path.mk name).isAbsolute = false ∧ (Path.mk name).segments = [name] := by
  constructor
  · unfold isAbsolute
    rw [beq_eq_false_iff_ne]
    exact fun hhead => h (List.mem_of_mem_head? hhead)
  · rw [segments, List.splitOn_eq_singleton h, List.map_singleton, String.ofList_toList]

/-- The pieces of a child are those of the directory and its name.  A slash at the end of the directory is
followed by the name. -/
theorem segments_child (p : Path) :
    (p.text = "" ∧ ∀ {name : String}, IsFlat name → (p.child name).segments = [name]) ∨
    ∃ front back, p.segments = front ++ back ∧ front ≠ [] ∧ (back = [] ∧ front ≠ [""] ∨ back = [""]) ∧
      ∀ {name : String}, IsFlat name → (p.child name).segments = front ++ [name] := by
  rcases p.segments_join with ⟨hempty, hjoin⟩ | ⟨front, back, hfront, hne, hback, hjoin⟩
  · refine .inl ⟨hempty, fun {name} hflat => ?_⟩
    obtain ⟨hrelative, hsegments⟩ := segments_of_isFlat hflat
    rw [child, hjoin hrelative, hsegments]
  · refine .inr ⟨front, back, hfront, hne, hback, fun {name} hflat => ?_⟩
    obtain ⟨hrelative, hsegments⟩ := segments_of_isFlat hflat
    rw [child, hjoin hrelative, hsegments]

/-- They are some that depend on the directory alone, and the name. -/
theorem exists_segments_child (p : Path) :
    ∃ front : List String, ∀ {name : String}, IsFlat name → (p.child name).segments = front ++ [name] := by
  rcases p.segments_child with ⟨-, hsegments⟩ | ⟨front, -, -, -, -, hsegments⟩
  · exact ⟨[], hsegments⟩
  · exact ⟨front, hsegments⟩

theorem innerComponent?_of_isFileName {name : String} (h : IsFileName name) :
    innerComponent? name = some (.name name) := by
  unfold innerComponent?
  rw [if_neg (not_or.2 ⟨h.ne_empty, h.ne_here⟩), if_neg h.ne_up]

/-- A child has its name. -/
theorem fileName?_child (p : Path) {name : String} (h : IsFileName name) : (p.child name).fileName? = some name := by
  obtain ⟨front, hsegments⟩ := p.exists_segments_child
  have hlast : (p.child name).components.getLast? = some (.name name) := by
    unfold components
    rw [hsegments h.flat]
    cases front with
    | nil =>
      -- the name is the only piece
      have habsolute : (p.child name).isAbsolute = false := by
        have htext := text_eq_intercalate (p.child name)
        rw [hsegments h.flat, List.nil_append, String.intercalate_singleton] at htext
        unfold isAbsolute
        rw [htext, beq_eq_false_iff_ne]
        exact fun hhead => h.flat (List.mem_of_mem_head? hhead)
      simp [habsolute, h.ne_here, innerComponent?_of_isFileName h]
    | cons first rest =>
      have hinner : ((rest ++ [name]).filterMap innerComponent?) =
          rest.filterMap innerComponent? ++ [.name name] := by
        rw [List.filterMap_append]
        simp [innerComponent?_of_isFileName h]
      rw [List.cons_append]
      dsimp only
      rw [hinner]
      split
      · rw [← List.cons_append, List.getLast?_concat]
      · split
        · rw [← List.cons_append, List.getLast?_concat]
        · rw [← List.append_assoc, List.getLast?_concat]
  unfold fileName? lastComponent?
  rw [hlast]

theorem isIdle_of_isFileName {name : String} (h : IsFileName name) : isIdle name = false := by
  simp [isIdle, h.ne_empty, h.ne_here]

/-- No piece is left away behind one that stands for something. -/
theorem trimSegments_append {name : String} (h : isIdle name = false) (front : List String) :
    trimSegments (front ++ [name]) = front ++ [name] := by
  cases front with
  | nil => rfl
  | cons first rest =>
    unfold trimSegments
    simp [h]

/-- A child with another extension is the child that is called by its stem and that extension, unless the stem
is a dot. -/
theorem withExtension_child_eq (p : Path) {name extension : String} (hname : IsFileName name)
    (hextension : IsExtension extension) :
    (p.child name).withExtension extension =
      p.child (if (splitName name).1 = "." then ".." else (splitName name).1 ++ "." ++ extension) := by
  obtain ⟨front, hsegments⟩ := p.exists_segments_child
  have hfile := p.fileName?_child hname
  have hstem : (p.child name).stem? = some (splitName name).1 := by
    rw [stem?, hfile, Option.map_some]
  have hlast : (p.child name).segments.getLast? = (p.child name).fileName? := by
    rw [hfile, hsegments hname.flat, List.getLast?_concat]
  have hflat : IsFlat (if (splitName name).1 = "." then ".." else (splitName name).1 ++ "." ++ extension) := by
    split
    · decide
    · exact isFlat_append (isFlat_splitName hname.flat) hextension.flat
  unfold withExtension
  rw [hstem]
  dsimp only
  rw [hlast, if_neg hextension.ne_empty, hsegments hname.flat, trimSegments_append (isIdle_of_isFileName hname),
    List.dropLast_concat]
  simp only [and_true]
  rw [← hsegments hflat, ← text_eq_intercalate]

/-- A child with another extension is the child with that extension. -/
theorem withExtension_child (p : Path) {stem old new : String} (hstem : IsStem stem) (hold : IsExtension old)
    (hnew : IsExtension new) :
    (p.child (stem ++ "." ++ old)).withExtension new = p.child (stem ++ "." ++ new) := by
  rw [withExtension_child_eq p (isFileName_append hstem.flat hold) hnew,
    splitName_append hstem.ne_empty hold.dotless, if_neg hstem.ne_here]

end Path
end ModuleBundler
