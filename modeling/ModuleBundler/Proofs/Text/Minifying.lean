import Mathlib.Data.List.DropRight
import Mathlib.Data.List.Forall2
import ModuleBundler.Text.Lines

/-!
# What minification changes

Minification takes white space away and nothing else.  A line ends with a newline or with
a carriage return and a newline; a carriage return elsewhere is white space inside its
line.  What is left of a line is the line without the white space at its ends, and a line
of which nothing would be left is gone.  So the lines of the minified text stand for those
of the text that show something, one for one, and nothing is left to be taken away a
second time.

Main results:

- Theorem {lit}`Text.lines_eq_iff`: the lines of a text are what stands between its line ends.
- Theorem {lit}`Text.TrimsTo.trim_eq`: a trimmed line is the tight middle of the line.
- Theorem {lit}`Text.lines_minify`: the lines of the minified text are the dense lines of the text.
- Theorem {lit}`Text.minifyString_tidies`: minification changes white space only, line by line, and only once.
-/

namespace ModuleBundler
namespace Text

/-! ## Lines and their ends -/

/-- Whether a text breaks into the given lines.  A line ends with a newline, with a carriage return in front of
one, or with the text. -/
inductive Breaks : List Char → List (List Char) → Prop
  | nil : Breaks [] []
  | last {line : List Char} : line ≠ [] → '\n' ∉ line → Breaks line [line]
  | newline {line rest : List Char} {more : List (List Char)} :
      '\n' ∉ line → line.getLast? ≠ some '\r' → Breaks rest more →
        Breaks (line ++ '\n' :: rest) (line :: more)
  | carriageReturn {line rest : List Char} {more : List (List Char)} :
      '\n' ∉ line → Breaks rest more → Breaks (line ++ '\r' :: '\n' :: rest) (line :: more)

/-- A character that is no part of a line end belongs to the first line. -/
theorem lines_cons {c : Char} {rest : List Char} (hc : c ≠ '\n')
    (hr : c = '\r' → rest.head? ≠ some '\n') : lines (c :: rest) = consLine c (lines rest) := by
  rw [lines]
  · rw [if_neg hc]
  · rintro more rfl rfl
    exact hr rfl rfl

theorem Breaks.cons {c : Char} {rest : List Char} {found : List (List Char)} (hc : c ≠ '\n')
    (hr : c = '\r' → rest.head? ≠ some '\n') (h : Breaks rest found) :
    Breaks (c :: rest) (consLine c found) := by
  have hnot {line : List Char} (hline : '\n' ∉ line) : '\n' ∉ c :: line := by
    simp [hc.symm, hline]
  cases h with
  | nil => exact .last (List.cons_ne_nil _ _) (hnot List.not_mem_nil)
  | last hne hline => exact .last (List.cons_ne_nil _ _) (hnot hline)
  | @newline line rest more hline hlast hrest =>
    refine .newline (hnot hline) ?_ hrest
    cases line with
    | nil => simpa using fun heq => hr heq rfl
    | cons d line => simpa using hlast
  | carriageReturn hline hrest => exact .carriageReturn (hnot hline) hrest

theorem breaks_lines (cs : List Char) : Breaks cs (lines cs) := by
  fun_induction lines cs with
  | case1 => exact .nil
  | case2 rest ih => exact Breaks.carriageReturn List.not_mem_nil ih
  | case3 rest _ ih => exact Breaks.newline List.not_mem_nil (by simp) ih
  | case4 c rest hpair hc ih => exact ih.cons hc fun hr hhead => hpair _ hr (List.eq_cons_of_mem_head? hhead)

theorem lines_of_newline_not_mem {line : List Char} (hne : line ≠ []) (h : '\n' ∉ line) :
    lines line = [line] := by
  induction line with
  | nil => exact absurd rfl hne
  | cons c line ih =>
    rw [List.mem_cons, not_or] at h
    have hhead : c = '\r' → line.head? ≠ some '\n' := fun _ hhead => h.2 (List.mem_of_mem_head? hhead)
    rw [lines_cons (Ne.symm h.1) hhead]
    cases line with
    | nil => rfl
    | cons d line => rw [ih (List.cons_ne_nil _ _) h.2, consLine]

/-- What stands in front of a line end is a line. -/
theorem lines_append {line rest : List Char} {more : List (List Char)} (hline : '\n' ∉ line)
    (hlast : line.getLast? = some '\r' → rest.head? ≠ some '\n') (hrest : lines rest = [] :: more) :
    lines (line ++ rest) = line :: more := by
  induction line with
  | nil => exact hrest
  | cons c line ih =>
    rw [List.mem_cons, not_or] at hline
    have hhead : c = '\r' → (line ++ rest).head? ≠ some '\n' := by
      cases line with
      | nil => simpa using hlast
      | cons d line => simpa [eq_comm] using fun _ => (not_or.1 (mt List.mem_cons.2 hline.2)).1
    have htail : line.getLast? = some '\r' → rest.head? ≠ some '\n' := by
      intro hr
      apply hlast
      rw [List.getLast?_cons, hr]
      rfl
    rw [List.cons_append, lines_cons (Ne.symm hline.1) hhead, ih hline.2 htail, consLine]

theorem lines_of_breaks {cs : List Char} {found : List (List Char)} (h : Breaks cs found) :
    lines cs = found := by
  induction h with
  | nil => rfl
  | last hne hline => exact lines_of_newline_not_mem hne hline
  | newline hline hlast _ ih =>
    apply lines_append hline
    · exact fun hr => absurd hr hlast
    · rw [lines_newline, ih]
  | carriageReturn hline _ ih =>
    apply lines_append hline
    · simp
    · rw [lines, ih]

/-- The lines of a text are what stands between its line ends. -/
theorem lines_eq_iff {cs : List Char} {found : List (List Char)} : lines cs = found ↔ Breaks cs found := by
  constructor
  · rintro rfl
    exact breaks_lines cs
  · exact lines_of_breaks

/-! ## Ink -/

/-- The characters of a text that are not white space, in their order. -/
def ink (cs : List Char) : List Char :=
  cs.filter fun c => !isBlank c

@[simp]
theorem ink_nil : ink [] = [] := rfl

@[simp]
theorem ink_append (front back : List Char) : ink (front ++ back) = ink front ++ ink back :=
  List.filter_append front back

@[simp]
theorem ink_newline (cs : List Char) : ink ('\n' :: cs) = ink cs :=
  List.filter_cons_of_neg (by decide)

@[simp]
theorem ink_carriageReturn (cs : List Char) : ink ('\r' :: cs) = ink cs :=
  List.filter_cons_of_neg (by decide)

@[simp]
theorem ink_reverse (cs : List Char) : ink cs.reverse = (ink cs).reverse :=
  List.filter_reverse

theorem ink_eq_nil_iff {cs : List Char} : ink cs = [] ↔ ∀ c ∈ cs, isBlank c = true := by
  simp [ink]

/-- Line ends are white space. -/
theorem flatMap_ink_of_breaks {cs : List Char} {found : List (List Char)} (h : Breaks cs found) :
    found.flatMap ink = ink cs := by
  induction h with
  | nil => rfl
  | last _ _ => simp
  | newline _ _ _ ih => simp [ih]
  | carriageReturn _ _ ih => simp [ih]

/-- Lines that show nothing have no ink. -/
theorem flatMap_ink_filter (rows : List (List Char)) :
    (rows.filter fun row => ink row ≠ []).flatMap ink = rows.flatMap ink := by
  induction rows with
  | nil => rfl
  | cons row rest ih => by_cases h : ink row = [] <;> simp_all

/-! ## Trimmed lines -/

/-- Whether a line shows something and has no white space at either end. -/
structure Tight (line : List Char) : Prop where
  head : ∃ c, line.head? = some c ∧ isBlank c = false
  last : ∃ c, line.getLast? = some c ∧ isBlank c = false

/-- Whether a line is the given middle with white space on both sides. -/
def TrimsTo (line middle : List Char) : Prop :=
  ∃ front back, line = front ++ middle ++ back ∧ ink front = [] ∧ ink back = []

theorem TrimsTo.ink_eq {line middle : List Char} (h : TrimsTo line middle) : ink middle = ink line := by
  obtain ⟨front, back, rfl, hfront, hback⟩ := h
  simp [hfront, hback]

theorem TrimsTo.mem {line middle : List Char} (h : TrimsTo line middle) {c : Char} (hc : c ∈ middle) :
    c ∈ line := by
  obtain ⟨front, back, rfl, -, -⟩ := h
  simp [hc]

theorem trimsTo_trim (cs : List Char) : TrimsTo cs (trim cs) := by
  refine ⟨cs.takeWhile isBlank, (trimStart cs).rtakeWhile isBlank, ?_, ?_, ?_⟩
  · have hend : trim cs ++ (trimStart cs).rtakeWhile isBlank = trimStart cs :=
      List.rdropWhile_append_rtakeWhile
    rw [List.append_assoc, hend]
    exact List.takeWhile_append_dropWhile.symm
  · exact ink_eq_nil_iff.2 fun _ => List.mem_takeWhile_imp
  · exact ink_eq_nil_iff.2 fun _ => List.mem_rtakeWhile_imp

@[simp]
theorem ink_trim (line : List Char) : ink (trim line) = ink line :=
  (trimsTo_trim line).ink_eq

theorem dropWhile_front {front rest : List Char} (hfront : ink front = [])
    (hrest : ∃ c, rest.head? = some c ∧ isBlank c = false) : (front ++ rest).dropWhile isBlank = rest := by
  rw [List.dropWhile_append_of_pos (ink_eq_nil_iff.1 hfront)]
  obtain ⟨c, hc, hink⟩ := hrest
  cases rest with
  | nil => rfl
  | cons d rest =>
    cases hc
    exact List.dropWhile_cons_of_neg (by simp [hink])

/-- There is one tight middle. -/
theorem TrimsTo.trim_eq {line middle : List Char} (h : TrimsTo line middle) (ht : Tight middle) :
    trim line = middle := by
  obtain ⟨front, back, rfl, hfront, hback⟩ := h
  have hhead : ∃ c, (middle ++ back).head? = some c ∧ isBlank c = false := by
    obtain ⟨c, hc, hink⟩ := ht.head
    exact ⟨c, by simp [hc], hink⟩
  have hstart : trimStart (front ++ (middle ++ back)) = middle ++ back := dropWhile_front hfront hhead
  rw [trim, List.append_assoc, hstart, trimEnd, List.reverse_append, dropWhile_front, List.reverse_reverse]
  · simp [hback]
  · simpa using ht.last

theorem trim_of_tight {line : List Char} (h : Tight line) : trim line = line :=
  TrimsTo.trim_eq ⟨[], [], by simp, rfl, rfl⟩ h

theorem trim_eq_nil_iff {line : List Char} : trim line = [] ↔ ink line = [] := by
  constructor
  · intro h
    rw [← ink_trim, h, ink_nil]
  · intro h
    rw [trim, trimStart, List.dropWhile_eq_nil_iff.2 (ink_eq_nil_iff.1 h)]
    rfl

/-- What is left of a line that shows something is tight. -/
theorem tight_trim {line : List Char} (h : ink line ≠ []) : Tight (trim line) := by
  have hne : trim line ≠ [] := mt trim_eq_nil_iff.1 h
  refine ⟨?_, _, List.getLast?_eq_getLast_of_ne_nil hne, ?_⟩
  · obtain ⟨back, hback⟩ : trim line <+: trimStart line := List.rdropWhile_prefix isBlank (trimStart line)
    have hfirst := List.head?_dropWhile_not isBlank line
    cases htrim : trim line with
    | nil => exact absurd htrim hne
    | cons c rest =>
      rw [← trimStart, ← hback, htrim] at hfirst
      exact ⟨c, rfl, hfirst⟩
  · exact Bool.not_eq_true _ ▸ List.rdropWhile_last_not isBlank (trimStart line) hne

/-! ## Dense lines -/

/-- The dense lines are what is left of the lines that show something. -/
theorem denseLines_eq (cs : List Char) :
    denseLines cs = ((lines cs).filter fun line => ink line ≠ []).map trim := by
  have hshows (line : List Char) : (!(trim line).isEmpty) = decide (ink line ≠ []) := by
    rw [Bool.eq_iff_iff]
    simp [trim_eq_nil_iff]
  unfold denseLines
  rw [List.filter_map]
  simp only [Function.comp_def, hshows]

theorem tight_of_mem_denseLines {cs line : List Char} (h : line ∈ denseLines cs) : Tight line := by
  rw [denseLines_eq] at h
  obtain ⟨full, hfull, rfl⟩ := List.mem_map.1 h
  exact tight_trim (of_decide_eq_true (List.mem_filter.1 hfull).2)

theorem newline_not_mem_denseLines {cs line : List Char} (h : line ∈ denseLines cs) : '\n' ∉ line := by
  rw [denseLines_eq] at h
  obtain ⟨full, hfull, rfl⟩ := List.mem_map.1 h
  intro hmem
  exact newline_not_mem_lines cs full (List.mem_filter.1 hfull).1 ((trimsTo_trim full).mem hmem)

/-- Lines with newlines between them are found again. -/
theorem breaks_intercalate {rows : List (List Char)} (htight : ∀ row ∈ rows, Tight row)
    (hnewline : ∀ row ∈ rows, '\n' ∉ row) : Breaks (['\n'].intercalate rows) rows := by
  induction rows with
  | nil => exact .nil
  | cons row rest ih =>
    obtain ⟨hrow, hrest⟩ := List.forall_mem_cons.1 htight
    obtain ⟨hnot, hnots⟩ := List.forall_mem_cons.1 hnewline
    obtain ⟨c, hc, hink⟩ := hrow.last
    cases rest with
    | nil =>
      rw [List.intercalate_singleton]
      refine .last ?_ hnot
      rintro rfl
      cases hc
    | cons next rest =>
      rw [List.intercalate_cons_cons, List.append_assoc, List.singleton_append]
      -- a carriage return at the end of the row would be white space
      refine .newline hnot ?_ (ih hrest hnots)
      rw [hc, ne_eq, Option.some_inj]
      rintro rfl
      exact absurd hink (by decide)

/-! ## Minified texts -/

/-- The lines of the minified text are the dense lines of the text. -/
theorem lines_minify (cs : List Char) : lines (minify cs) = denseLines cs :=
  lines_of_breaks (breaks_intercalate (fun _ => tight_of_mem_denseLines) fun _ => newline_not_mem_denseLines)

/-- Nothing is trimmed a second time. -/
theorem denseLines_minify (cs : List Char) : denseLines (minify cs) = denseLines cs := by
  have htight : ∀ line ∈ denseLines cs, Tight line := fun _ => tight_of_mem_denseLines
  have hshow : ∀ line ∈ denseLines cs, decide (ink line ≠ []) = true := by
    intro line hline
    apply decide_eq_true
    rw [ne_eq, ← trim_eq_nil_iff, trim_of_tight (htight line hline)]
    exact ne_nil_of_mem_denseLines hline
  rw [denseLines_eq, lines_minify, List.filter_eq_self.2 hshow]
  exact (List.map_congr_left fun line hline => trim_of_tight (htight line hline)).trans (List.map_id _)

theorem ink_minify (cs : List Char) : ink (minify cs) = ink cs :=
  calc
    ink (minify cs) = (lines (minify cs)).flatMap ink := (flatMap_ink_of_breaks (breaks_lines _)).symm
    _ = ((lines cs).filter fun line => ink line ≠ []).flatMap ink := by
      rw [lines_minify, denseLines_eq, List.flatMap_map]
      simp only [ink_trim]
    _ = (lines cs).flatMap ink := flatMap_ink_filter (lines cs)
    _ = ink cs := flatMap_ink_of_breaks (breaks_lines cs)

/-- Minification changes white space only, line by line, and only once.  The characters that are not white
space stay as they are; the lines of the result are tight, and they are the lines of the text that show
something, in their order and each without the white space at its ends; the result is these lines with
newlines between them, and to minify it changes nothing. -/
theorem minifyString_tidies (s : String) :
    Breaks s.toList (lines s.toList) ∧ Breaks (minifyString s).toList (lines (minifyString s).toList) ∧
    ink (minifyString s).toList = ink s.toList ∧
    (∀ line ∈ lines (minifyString s).toList, Tight line) ∧
    List.Forall₂ TrimsTo ((lines s.toList).filter fun line => ink line ≠ [])
      (lines (minifyString s).toList) ∧
    (minifyString s).toList = ['\n'].intercalate (lines (minifyString s).toList) ∧
    minifyString (minifyString s) = minifyString s := by
  refine ⟨breaks_lines _, breaks_lines _, ?_⟩
  simp only [minifyString, String.toList_ofList, lines_minify]
  refine ⟨ink_minify _, fun _ => tight_of_mem_denseLines, ?_, rfl, ?_⟩
  · rw [denseLines_eq, List.forall₂_map_right_iff, List.forall₂_same]
    exact fun line _ => trimsTo_trim line
  · rw [minify, denseLines_minify, ← minify]

/-- A carriage return inside a line is not at its end. -/
example : minify " a\r\n \n\tb\r c".toList = "a\nb\r c".toList := by decide

end Text
end ModuleBundler
