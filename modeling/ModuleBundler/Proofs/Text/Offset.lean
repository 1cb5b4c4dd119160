import ModuleBundler.Proofs.Source.Position

/-!
# Places and byte offsets

The place of a byte offset tells the offset again: its line says behind how many newlines
the offset lies, and its column how many bytes behind the start of that line.  So places
of one text stand in the order of their offsets, and two offsets never share a place.

Main results:

- Theorem {lit}`Location.line_behind`: the line counts the newlines that were passed.
- Theorem {lit}`Location.lineStart_add_column`: the column counts the bytes from the start of the line on.
- Theorem {lit}`Location.places_lossless`: the places of a text against its byte offsets.
-/

namespace ModuleBundler

namespace Text

@[simp]
theorem utf8Size_newline : '\n'.utf8Size = 1 := rfl

/-- The byte at which a line starts: behind the lines above it and their newlines. -/
def lineStart (cs : List Char) (line : Nat) : Nat :=
  byteLength (((cs.splitOn '\n').take (line - 1)).flatMap (· ++ ['\n']))

@[simp]
theorem lineStart_one (cs : List Char) : lineStart cs 1 = 0 := by
  simp [lineStart]

/-- Behind a newline in front all lines but the first start one byte later, and one line further down. -/
theorem lineStart_newline (cs : List Char) (above : Nat) :
    lineStart ('\n' :: cs) (above + 1 + 1) = lineStart cs (above + 1) + 1 := by
  simp [lineStart, List.splitOn_cons_eq_if_modifyHead, Nat.add_comm]

/-- Behind any other character in front all lines but the first start later by its bytes. -/
theorem lineStart_cons {c : Char} (hc : c ≠ '\n') (cs : List Char) (above : Nat) :
    lineStart (c :: cs) (above + 1 + 1) = lineStart cs (above + 1 + 1) + c.utf8Size := by
  obtain ⟨first, rest, hpieces⟩ := List.exists_cons_of_ne_nil (List.splitOn_ne_nil '\n' cs)
  simp [lineStart, List.splitOn_cons_eq_if_modifyHead, hc, hpieces]
  omega

end Text

namespace Location

open Text (byteLength lineStart)

/-! ## What a place tells -/

/-- The line counts the newlines that were passed. -/
theorem line_behind (place : Location) (front : List Char) :
    (place.behind front).line = place.line + front.count '\n' := by
  induction front generalizing place with
  | nil => simp
  | cons c front ih =>
    rw [behind_cons, ih, next]
    split
    · simp_all
      omega
    · simp_all

/-- The column counts the bytes from the start of the line on; in the first line they come on top of the column
that the walk has started with. -/
theorem lineStart_add_column (place : Location) (front rest : List Char) :
    lineStart (front ++ rest) (front.count '\n' + 1) + (place.behind front).column =
      byteLength front + if front.count '\n' = 0 then place.column else 1 := by
  induction front generalizing place with
  | nil => simp
  | cons c front ih =>
    have hwalk := ih (place.next c)
    rw [List.cons_append, behind_cons, Text.byteLength_cons]
    by_cases hc : c = '\n'
    · subst hc
      rw [List.count_cons_self, Text.lineStart_newline, Text.utf8Size_newline]
      simp [next] at hwalk ⊢
      omega
    · rw [List.count_cons_of_ne hc]
      cases hcount : front.count '\n' with
      | zero =>
        simp [next, hc, hcount] at hwalk ⊢
        omega
      | succ above =>
        rw [hcount] at hwalk
        rw [Text.lineStart_cons hc]
        simp [next, hc] at hwalk ⊢
        omega

theorem column_behind_pos {place : Location} (h : 0 < place.column) (front : List Char) :
    0 < (place.behind front).column := by
  induction front generalizing place with
  | nil => exact h
  | cons c front ih => exact ih (next_column_pos h c)

/-- A place tells how many bytes lie in front of it. -/
theorem lineStart_behind (front rest : List Char) :
    lineStart (front ++ rest) (start.behind front).line + ((start.behind front).column - 1) = byteLength front := by
  have hline : (start.behind front).line = front.count '\n' + 1 := by
    rw [line_behind, start, Nat.add_comm]
  have hpos : 0 < (start.behind front).column := column_behind_pos Nat.one_pos front
  have hcolumn := lineStart_add_column start front rest
  have hstart : start.column = 1 := rfl
  rw [hstart, ite_self] at hcolumn
  rw [hline]
  omega

/-- Of two fronts of a text the shorter one ends at the earlier place. -/
theorem before_behind_iff {place : Location} {front other rest more : List Char}
    (h : front ++ rest = other ++ more) :
    (place.behind front).Before (place.behind other) ↔ byteLength front < byteLength other := by
  have hextends : ∀ {as bs : List Char}, as <+: bs → as ≠ bs →
      (place.behind as).Before (place.behind bs) ∧ byteLength as < byteLength bs := by
    rintro as _ ⟨between, rfl⟩ hne
    have hbetween : between ≠ [] := by simpa using hne
    have hpos := Text.byteLength_pos hbetween
    rw [behind_append, Text.byteLength_append]
    exact ⟨before_behind _ hbetween, by omega⟩
  by_cases hsame : front = other
  · simp [hsame, Before.irrefl]
  · rcases List.prefix_or_prefix_of_prefix (List.prefix_append front rest)
      (h ▸ List.prefix_append other more) with hprefix | hprefix
    · exact iff_of_true (hextends hprefix hsame).1 (hextends hprefix hsame).2
    · obtain ⟨hbefore, hlt⟩ := hextends hprefix (Ne.symm hsame)
      exact iff_of_false (fun hback => Before.irrefl _ (hback.trans hbefore)) (Nat.not_lt.2 (Nat.le_of_lt hlt))

/-! ## Places of a text -/

/-- The text in front of a position. -/
def frontOf {source : String} (position : source.Pos) : List Char :=
  (source.sliceTo position).copy.toList

theorem frontOf_append {source : String} (position : source.Pos) :
    source.toList = frontOf position ++ (source.sliceFrom position).copy.toList := by
  rw [frontOf, ← String.toList_append, String.sliceTo_append_sliceFrom]

theorem byteLength_frontOf {source : String} (position : source.Pos) :
    byteLength (frontOf position) = position.offset.byteIdx := by
  rw [frontOf, Text.byteLength_toList, position.splits.offset_eq_rawEndPos]
  rfl

/-- Each byte offset of a text on the boundary of two characters, or at one of its ends, has a place.  It lies in
the line behind as many newlines as the offset, and as many bytes behind the start of that line as the column says.
So different offsets have different places, and places are ordered as their offsets are. -/
theorem places_lossless (source : String) :
    ∃ placeOf : source.Pos → Location,
      (∀ position, ofOffset? source position.offset.byteIdx = some (placeOf position) ∧
        (placeOf position).line = 1 + (frontOf position).count '\n' ∧ 1 ≤ (placeOf position).column ∧
        lineStart source.toList (placeOf position).line + ((placeOf position).column - 1) =
          position.offset.byteIdx) ∧
      Function.Injective placeOf ∧
      ∀ position other, (placeOf position).Before (placeOf other) ↔ position < other := by
  refine ⟨fun position => start.behind (frontOf position), fun position => ⟨?_, ?_, ?_, ?_⟩, ?_, ?_⟩
  · rw [ofOffset?, frontOf_append position, ← byteLength_frontOf position, after_byteLength]
  · exact line_behind start _
  · exact column_behind_pos Nat.one_pos _
  · rw [frontOf_append position, lineStart_behind, byteLength_frontOf]
  · intro position other hplace
    have hfront := eq_of_behind_eq ((frontOf_append position).symm.trans (frontOf_append other)) hplace
    have hoffset : position.offset.byteIdx = other.offset.byteIdx := by
      rw [← byteLength_frontOf position, hfront, byteLength_frontOf]
    exact String.Pos.ext (String.Pos.Raw.ext hoffset)
  · intro position other
    rw [before_behind_iff ((frontOf_append position).symm.trans (frontOf_append other)), byteLength_frontOf,
      byteLength_frontOf]
    exact Iff.rfl

end Location
end ModuleBundler
