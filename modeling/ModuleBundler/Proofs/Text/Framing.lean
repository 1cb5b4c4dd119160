import ModuleBundler.Proofs.Source.Position
import ModuleBundler.Text.CodeFrame

/-!
# Rows of code frames

A code frame has one row for each line of the window around the marked line, and the row
of the caret behind that of the marked line.  What stands in front of a line in its row
grows with the line number as soon as this has more than three digits; what stands in
front of the caret does not.  So the caret stands under the marked column in the first
thousand lines, and too far to the left behind them.

Main results:

- Theorem {lit}`CodeFrame.toList_render`: the rows of a frame are those of the window.
- Theorem {lit}`CodeFrame.rows_render`: what is above the marked line, its two rows, and what is below.
- Theorem {lit}`CodeFrame.byteLength_gutter`: how far the caret is from the marked column.
- Theorem {lit}`CodeFrame.exists_misaligned`: a caret in front of the line it is to point at.
-/

namespace ModuleBundler

namespace Text

/-- Cutting at newlines finds the rows again of which each one ends with a newline. -/
theorem splitOn_rows {rows : List (List Char)} (h : ∀ row ∈ rows, '\n' ∉ row) :
    (rows.flatMap (· ++ ['\n'])).splitOn '\n' = rows ++ [[]] := by
  induction rows with
  | nil => simp
  | cons row rest ih =>
    obtain ⟨hrow, hrest⟩ := List.forall_mem_cons.1 h
    rw [List.flatMap_cons, List.append_assoc, List.singleton_append,
      List.splitOn_append_cons_self_of_not_mem hrow, ih hrest, List.cons_append]

end Text

namespace CodeFrame

open Text (byteLength)

variable {place : Location}

/-! ## Rows -/

/-- What stands in front of a line in its row. -/
def gutter (mark : Char) (n : Nat) : List Char :=
  [mark, ' '] ++ lineNumber n ++ [' ', '|', ' ']

/-- What stands in front of the caret in its row. -/
def caretFront (column : Nat) : List Char :=
  List.replicate 6 ' ' ++ ['|', ' '] ++ List.replicate (column - 1) ' '

/-- The row of a numbered line behind its mark. -/
def row (mark : Char) (numbered : List Char × Nat) : List Char :=
  gutter mark numbered.2 ++ numbered.1

/-- The rows of a numbered line, without their ends. -/
def rows (place : Location) (numbered : List Char × Nat) : List (List Char) :=
  if numbered.2 = place.line then [row '>' numbered, caretFront place.column ++ ['^']] else [row ' ' numbered]

/-- Whether a line is at most two lines away from the marked one. -/
def Near (place : Location) (n : Nat) : Prop :=
  place.line ≤ n + 2 ∧ n ≤ place.line + 2

instance (n : Nat) : Decidable (Near place n) :=
  inferInstanceAs (Decidable (_ ∧ _))

/-- The lines of a text that are near the marked one, each with its number. -/
def window (place : Location) (lines : List (List Char)) : List (List Char × Nat) :=
  (lines.zipIdx 1).filter fun numbered => Near place numbered.2

theorem shows_iff {n : Nat} (h : 0 < n) : shows place n = true ↔ Near place n := by
  simp [shows, Near]
  omega

theorem rowsOf_eq (place : Location) {n : Nat} (h : 0 < n) (line : List Char) :
    rowsOf place n line = if Near place n then (rows place (line, n)).flatMap (· ++ ['\n']) else [] := by
  unfold rowsOf
  rw [if_congr (shows_iff h) rfl rfl]
  split
  · unfold rows
    split <;> simp [markedRow, plainRow, caretRow, row, gutter, caretFront]
  · rfl

theorem rowsFrom_eq (place : Location) {n : Nat} (h : 0 < n) (lines : List (List Char)) :
    rowsFrom place n lines =
      (((lines.zipIdx n).filter fun numbered => Near place numbered.2).flatMap (rows place)).flatMap
        (· ++ ['\n']) := by
  induction lines generalizing n with
  | nil => rfl
  | cons line rest ih =>
    rw [rowsFrom, rowsOf_eq place h, ih (Nat.succ_pos n), List.zipIdx_cons, List.filter_cons]
    split <;> simp_all

/-- A frame consists of the rows of the lines in its window, one behind the other. -/
theorem toList_render (source : String) (place : Location) :
    (render source place).toList =
      ((window place (Text.lines source.toList)).flatMap (rows place)).flatMap (· ++ ['\n']) := by
  rw [render, String.toList_ofList, rowsFrom_eq place Nat.one_pos, window]

theorem blank_or_isDigit_of_mem {c : Char} {n : Nat} (h : c ∈ lineNumber n) : c = ' ' ∨ c.isDigit = true := by
  rcases List.mem_append.1 h with hpad | hdigit
  · exact .inl (List.eq_of_mem_replicate hpad)
  · right
    apply Nat.isDigit_of_mem_toDigits (b := 10) (n := n) (by decide) (by decide)
    simpa using hdigit

theorem newline_not_mem_lineNumber (n : Nat) : '\n' ∉ lineNumber n :=
  fun hmem => absurd (blank_or_isDigit_of_mem hmem) (by decide)

/-- No row of a frame holds a newline. -/
theorem newline_not_mem_rows {source : String} {place : Location} :
    ∀ row ∈ (window place (Text.lines source.toList)).flatMap (rows place), '\n' ∉ row := by
  intro shown hmem
  obtain ⟨⟨line, n⟩, hwindow, hrow⟩ := List.mem_flatMap.1 hmem
  have hline : '\n' ∉ line :=
    Text.newline_not_mem_lines _ line (List.fst_mem_of_mem_zipIdx (List.mem_filter.1 hwindow).1)
  unfold rows at hrow
  split at hrow
  · rcases List.mem_pair.1 hrow with rfl | rfl
    · simp [row, gutter, newline_not_mem_lineNumber, hline]
    · simp [caretFront]
  · rw [List.mem_singleton.1 hrow]
    simp [row, gutter, newline_not_mem_lineNumber, hline]

/-- Lines that are not marked have one row each. -/
theorem flatMap_rows {others : List (List Char × Nat)} (h : ∀ numbered ∈ others, numbered.2 ≠ place.line) :
    others.flatMap (rows place) = others.map (row ' ') := by
  induction others with
  | nil => rfl
  | cons numbered rest ih =>
    obtain ⟨hne, hrest⟩ := List.forall_mem_cons.1 h
    rw [List.flatMap_cons, ih hrest, rows, if_neg hne, List.singleton_append, List.map_cons]

/-- The marked line stands in its window between the lines above and below. -/
theorem exists_window {lines : List (List Char)} (hline : 0 < place.line) (hexists : place.line ≤ lines.length) :
    ∃ above line below, window place lines = above ++ (line, place.line) :: below ∧
      (∀ numbered ∈ above, numbered.2 < place.line) ∧ ∀ numbered ∈ below, place.line < numbered.2 := by
  obtain ⟨front, line, back, rfl, hlength⟩ :
      ∃ front line back, lines = front ++ line :: back ∧ front.length + 1 = place.line := by
    refine ⟨lines.take (place.line - 1), lines[place.line - 1], lines.drop (place.line - 1 + 1), ?_, ?_⟩
    · rw [List.getElem_cons_drop, List.take_append_drop]
    · rw [List.length_take]
      omega
  have hnear : Near place place.line := by
    unfold Near
    omega
  refine ⟨(front.zipIdx 1).filter fun numbered => Near place numbered.2, line,
    (back.zipIdx (place.line + 1)).filter fun numbered => Near place numbered.2, ?_, ?_, ?_⟩
  · rw [window, List.zipIdx_append, List.zipIdx_cons, List.filter_append, Nat.add_comm 1, hlength,
      List.filter_cons_of_pos (by simpa using hnear)]
  · intro numbered hmem
    have hbound := List.snd_lt_add_of_mem_zipIdx (List.mem_filter.1 hmem).1
    omega
  · intro numbered hmem
    exact List.le_snd_of_mem_zipIdx (List.mem_filter.1 hmem).1

/-! ## Carets -/

/-- How many digits a line number has. -/
def digits (n : Nat) : Nat :=
  (Nat.toDigits 10 n).length

theorem digits_le_three_iff (n : Nat) : digits n ≤ 3 ↔ n < 1000 :=
  Nat.length_toDigits_le_iff (by decide) (by decide)

/-- ASCII characters take one byte each. -/
theorem byteLength_eq_length {cs : List Char} (h : ∀ c ∈ cs, c.val ≤ 127) : byteLength cs = cs.length := by
  induction cs with
  | nil => rfl
  | cons c rest ih =>
    obtain ⟨hc, hrest⟩ := List.forall_mem_cons.1 h
    rw [Text.byteLength_cons, Char.utf8Size_eq_one_iff.2 hc, ih hrest, List.length_cons, Nat.add_comm]

theorem ascii_lineNumber (n : Nat) : ∀ c ∈ lineNumber n, c.val ≤ 127 := by
  intro c hmem
  rcases blank_or_isDigit_of_mem hmem with rfl | hdigit
  · decide
  · simp only [Char.isDigit, Bool.and_eq_true, decide_eq_true_eq] at hdigit
    exact UInt32.le_trans hdigit.2 (by decide)

theorem length_lineNumber (n : Nat) : (lineNumber n).length = max 3 (digits n) := by
  simp [lineNumber, digits, Nat.toList_repr]
  omega

/-- A line stands behind its number, which takes three bytes at least. -/
theorem byteLength_gutter {mark : Char} (hmark : mark.utf8Size = 1) (n : Nat) :
    byteLength (gutter mark n) = 5 + max 3 (digits n) := by
  have hnumber : byteLength (lineNumber n) = max 3 (digits n) := by
    rw [byteLength_eq_length (ascii_lineNumber n), length_lineNumber]
  have hmarked : byteLength [mark, ' '] = 2 := by
    rw [Text.byteLength_cons, hmark]
    rfl
  have hbar : byteLength [' ', '|', ' '] = 3 := rfl
  rw [gutter, Text.byteLength_append, Text.byteLength_append, hmarked, hnumber, hbar]
  omega

/-- The caret stands behind as many bytes as a line does that has three digits in its number. -/
theorem byteLength_caretFront (column : Nat) : byteLength (caretFront column) = 8 + (column - 1) := by
  have hblanks : byteLength (List.replicate (column - 1) ' ') = column - 1 := by
    have hascii : ∀ c ∈ List.replicate (column - 1) ' ', c.val ≤ 127 := by
      intro c hmem
      rw [List.eq_of_mem_replicate hmem]
      decide
    rw [byteLength_eq_length hascii, List.length_replicate]
  have hbar : byteLength (List.replicate 6 ' ' ++ ['|', ' ']) = 8 := rfl
  rw [caretFront, Text.byteLength_append, hblanks, hbar]

/-! ## Frames -/

/-- The rows of a frame: those of the lines above, the marked one and the caret under it, and those below. -/
theorem splitOn_render {source : String} (hline : 0 < place.line)
    (hexists : place.line ≤ (Text.lines source.toList).length) :
    ∃ above line below,
      window place (Text.lines source.toList) = above ++ (line, place.line) :: below ∧
      (render source place).toList.splitOn '\n' =
        above.map (row ' ') ++ [row '>' (line, place.line), caretFront place.column ++ ['^']] ++
          below.map (row ' ') ++ [[]] := by
  obtain ⟨above, line, below, hwindow, habove, hbelow⟩ := exists_window hline hexists
  refine ⟨above, line, below, hwindow, ?_⟩
  rw [toList_render, Text.splitOn_rows newline_not_mem_rows, hwindow, List.flatMap_append, List.flatMap_cons,
    flatMap_rows fun numbered hmem => Nat.ne_of_lt (habove numbered hmem),
    flatMap_rows fun numbered hmem => Nat.ne_of_gt (hbelow numbered hmem)]
  simp [rows]

/-- A frame shows the lines at most two lines away from the marked one, each once and in order, every one in a row
behind its number; the row of the caret follows the marked row.  The caret stands under the marked column, or where
this would be, just if the line number has at most three digits; otherwise it stands as many bytes too far to the
left as there are more digits. -/
theorem rows_render {source : String} (hline : 0 < place.line)
    (hexists : place.line ≤ (Text.lines source.toList).length) :
    ∃ above line below,
      window place (Text.lines source.toList) = above ++ (line, place.line) :: below ∧
      (render source place).toList.splitOn '\n' =
        above.map (row ' ') ++ [row '>' (line, place.line), caretFront place.column ++ ['^']] ++
          below.map (row ' ') ++ [[]] ∧
      '^' ∉ caretFront place.column ∧
      byteLength (gutter '>' place.line) + (place.column - 1) =
        byteLength (caretFront place.column) + (digits place.line - 3) ∧
      (byteLength (caretFront place.column) = byteLength (gutter '>' place.line) + (place.column - 1) ↔
        place.line < 1000) := by
  obtain ⟨above, line, below, hwindow, hrows⟩ := splitOn_render hline hexists
  have hgutter : byteLength (gutter '>' place.line) = 5 + max 3 (digits place.line) :=
    byteLength_gutter (by decide) place.line
  have hcaret := byteLength_caretFront place.column
  have hdigits := digits_le_three_iff place.line
  refine ⟨above, line, below, hwindow, hrows, by simp [caretFront], ?_, ?_⟩
  · omega
  · omega

/-- A place in the middle of a text whose lines end in different ways. -/
theorem rows_render_three :
    0 < (Location.mk 2 3).line ∧ (Location.mk 2 3).line ≤ (Text.lines "one\r\ntwö\n".toList).length ∧
    ∃ above line below,
      window ⟨2, 3⟩ (Text.lines "one\r\ntwö\n".toList) = above ++ (line, 2) :: below ∧
      (render "one\r\ntwö\n" ⟨2, 3⟩).toList.splitOn '\n' =
        above.map (row ' ') ++ [row '>' (line, 2), caretFront 3 ++ ['^']] ++ below.map (row ' ') ++ [[]] ∧
      '^' ∉ caretFront 3 ∧
      byteLength (gutter '>' 2) + (3 - 1) = byteLength (caretFront 3) + (digits 2 - 3) ∧
      (byteLength (caretFront 3) = byteLength (gutter '>' 2) + (3 - 1) ↔ 2 < 1000) :=
  ⟨by decide, by decide +kernel, @rows_render ⟨2, 3⟩ _ (by decide) (by decide +kernel)⟩

/-- A text that has some empty lines and then one that is not empty. -/
def behindNewlines (n : Nat) : String :=
  String.ofList (List.replicate n '\n' ++ ['x'])

theorem length_lines_behindNewlines (n : Nat) : (Text.lines (behindNewlines n).toList).length = n + 1 := by
  simp [behindNewlines, Text.lines_replicate, Text.lines, Text.consLine]

/-- In the thousandth line the caret for the first column stands under the blank in front of the line. -/
theorem exists_misaligned :
    1000 ≤ (Text.lines (behindNewlines 999).toList).length ∧ ∃ front line back,
      (render (behindNewlines 999) ⟨1000, 1⟩).toList.splitOn '\n' =
        front ++ ["> 1000 | ".toList ++ line, "      | ^".toList] ++ back := by
  have hlength : 1000 ≤ (Text.lines (behindNewlines 999).toList).length :=
    Nat.le_of_eq (length_lines_behindNewlines 999).symm
  obtain ⟨above, line, below, -, hrows⟩ := @splitOn_render ⟨1000, 1⟩ _ (Nat.succ_pos 999) hlength
  have hgutter : gutter '>' 1000 = "> 1000 | ".toList := by decide
  have hcaret : caretFront 1 ++ ['^'] = "      | ^".toList := by decide
  rw [row, hgutter, hcaret] at hrows
  exact ⟨hlength, above.map (row ' '), line, below.map (row ' ') ++ [[]], by simpa using hrows⟩

end CodeFrame
end ModuleBundler
