import ModuleBundler.Text.CharRange

/-!
# Lines and trimming

A text is cut into lines at newlines; a carriage return directly before a
newline belongs to the line end.  A newline at the very end of a text does not
open another line.

Main results:

- Theorem {lit}`minify_eq_nil_iff`: only white space minifies to nothing.
-/

namespace ModuleBundler
namespace Text

/-! ## Lines -/

/-- Put a character in front of the first line. -/
def consLine (c : Char) : List (List Char) → List (List Char)
  | [] => [[c]]
  | line :: rest => (c :: line) :: rest

/-- The lines of a text, without their line ends. -/
def lines : List Char → List (List Char)
  | [] => []
  | '\r' :: '\n' :: rest => [] :: lines rest
  | c :: rest => if c = '\n' then [] :: lines rest else consLine c (lines rest)

@[simp]
theorem lines_nil : lines [] = [] := rfl

@[simp]
theorem lines_newline (rest : List Char) : lines ('\n' :: rest) = [] :: lines rest := by
  simp [lines]

theorem lines_ne_nil {c : Char} {rest : List Char} : lines (c :: rest) ≠ [] := by
  unfold lines
  split
  · simp_all
  · simp
  · split
    · simp
    · rename_i c' rest' _ _ _
      cases lines rest' <;> simp [consLine]

/-- No line holds a newline. -/
theorem newline_not_mem_lines (cs : List Char) : ∀ line ∈ lines cs, '\n' ∉ line := by
  fun_induction lines cs with
  | case1 => simp
  | case2 rest ih => exact List.forall_mem_cons.2 ⟨List.not_mem_nil, ih⟩
  | case3 rest _ ih => exact List.forall_mem_cons.2 ⟨List.not_mem_nil, ih⟩
  | case4 c rest _ hc ih =>
    cases hlines : lines rest with
    | nil => simp [consLine, Ne.symm hc]
    | cons line more =>
      rw [hlines, List.forall_mem_cons] at ih
      rw [consLine, List.forall_mem_cons]
      exact ⟨by simp [Ne.symm hc, ih.1], ih.2⟩

theorem lines_replicate (n : Nat) (cs : List Char) :
    lines (List.replicate n '\n' ++ cs) = List.replicate n [] ++ lines cs := by
  induction n with
  | zero => rfl
  | succ n ih => simp [List.replicate_succ, ih]

/-! ## Trimming -/

/-- The text without white space in front. -/
def trimStart (cs : List Char) : List Char :=
  cs.dropWhile isBlank

/-- The text without white space at its end. -/
def trimEnd (cs : List Char) : List Char :=
  (cs.reverse.dropWhile isBlank).reverse

/-- The text without white space at either end. -/
def trim (cs : List Char) : List Char :=
  trimEnd (trimStart cs)

/-- {lit}`trim` on strings. -/
def trimString (s : String) : String :=
  String.ofList (trim s.toList)

@[simp]
theorem trim_nil : trim [] = [] := rfl

/-! ## Minification -/

/-- The trimmed lines that are not empty. -/
def denseLines (cs : List Char) : List (List Char) :=
  ((lines cs).map trim).filter fun line => !line.isEmpty

/-- The dense lines of a text, one newline between neighbours. -/
def minify (cs : List Char) : List Char :=
  [('\n' : Char)].intercalate (denseLines cs)

/-- {lit}`minify` on strings. -/
def minifyString (s : String) : String :=
  String.ofList (minify s.toList)

theorem ne_nil_of_mem_denseLines {cs line : List Char} (h : line ∈ denseLines cs) : line ≠ [] := by
  simp only [denseLines, List.mem_filter] at h
  intro hnil
  simp [hnil] at h

theorem minify_eq_nil_iff {cs : List Char} : minify cs = [] ↔ denseLines cs = [] := by
  constructor
  · intro h
    match hd : denseLines cs with
    | [] => rfl
    | line :: rest =>
      have hne : line ≠ [] := ne_nil_of_mem_denseLines (show line ∈ denseLines cs by simp [hd])
      cases rest <;> simp_all [minify, List.intercalate]
  · intro h
    simp [minify, h, List.intercalate]

end Text
end ModuleBundler
