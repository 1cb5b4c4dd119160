/-!
# Classes of characters as ranges

A class of characters given by a standard is a list of closed ranges of code
points.  The membership test reads the list from the front, so a class needs no
order, but the tables below are written in increasing order without overlaps.

White space is the class with the Unicode property White_Space: what trimming
removes and what stands for white space in import patterns.

Main results:

- Theorem {lit}`isBlank_of_isWhitespace`: the white space of the core library
  is blank.
-/

namespace ModuleBundler
namespace Text

/-- A closed range of code points. -/
abbrev CharRange := Nat × Nat

/-- Whether the range holds the character. -/
def CharRange.holds (range : CharRange) (c : Char) : Bool :=
  decide (range.1 ≤ c.toNat) && decide (c.toNat ≤ range.2)

/-- Whether one of the ranges holds the character. -/
def inRanges (ranges : List CharRange) (c : Char) : Bool :=
  ranges.any fun range => range.holds c

theorem inRanges_iff {ranges : List CharRange} {c : Char} :
    inRanges ranges c = true ↔ ∃ range ∈ ranges, range.1 ≤ c.toNat ∧ c.toNat ≤ range.2 := by
  simp [inRanges, CharRange.holds]

/-! ## White space -/

/-- The code points with the property White_Space. -/
def blankRanges : List CharRange :=
  [(0x0009, 0x000D), (0x0020, 0x0020), (0x0085, 0x0085), (0x00A0, 0x00A0), (0x1680, 0x1680),
   (0x2000, 0x200A), (0x2028, 0x2029), (0x202F, 0x202F), (0x205F, 0x205F), (0x3000, 0x3000)]

/-- Whether the character is Unicode white space. -/
def isBlank (c : Char) : Bool :=
  inRanges blankRanges c

theorem isBlank_of_isWhitespace {c : Char} (h : c.isWhitespace = true) : isBlank c = true := by
  simp only [Char.isWhitespace, Bool.or_eq_true, decide_eq_true_eq] at h
  rcases h with ((rfl | rfl) | rfl) | rfl <;> decide

theorem isBlank_newline : isBlank '\n' = true := by decide

end Text
end ModuleBundler
