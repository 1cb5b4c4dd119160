/-!
# Places in a source text

A place is a line and a column, both counted from one; columns count the bytes
of the UTF-8 encoding.  Byte offsets that fall inside a character have no place.

Main results:

- Theorem {lit}`Location.after_zero`: the offset zero is where the walk starts.
- Theorem {lit}`Location.column_pos_of_after`: columns stay positive along a walk.
-/

namespace ModuleBundler

/-- A line and a column, both counted from one; columns count bytes. -/
structure Location where
  line : Nat
  column : Nat
deriving DecidableEq, Repr, Inhabited

namespace Location

/-- The first place of every text. -/
def start : Location :=
  ⟨1, 1⟩

/-- The place behind one character. -/
def next (place : Location) (c : Char) : Location :=
  if c = '\n' then ⟨place.line + 1, 1⟩ else ⟨place.line, place.column + c.utf8Size⟩

/-- The place {lit}`offset` bytes behind {lit}`place`, where the text {lit}`cs` stands.  Offsets
past the end mean the end; an offset inside a character means no place. -/
def after (place : Location) : List Char → Nat → Option Location
  | _, 0 => some place
  | [], _ + 1 => some place
  | c :: rest, offset =>
    if c.utf8Size ≤ offset then (place.next c).after rest (offset - c.utf8Size) else none

/-- The place of a byte offset in a source text. -/
def ofOffset? (source : String) (offset : Nat) : Option Location :=
  start.after source.toList offset

/-- The place behind a run of characters. -/
def behind (place : Location) (cs : List Char) : Location :=
  cs.foldl next place

@[simp]
theorem after_zero (place : Location) (cs : List Char) : place.after cs 0 = some place := by
  cases cs <;> rfl

@[simp]
theorem behind_nil (place : Location) : place.behind [] = place := rfl

@[simp]
theorem behind_cons (place : Location) (c : Char) (cs : List Char) :
    place.behind (c :: cs) = (place.next c).behind cs := rfl

theorem next_column_pos {place : Location} (h : 0 < place.column) (c : Char) :
    0 < (place.next c).column := by
  unfold next
  split
  · exact Nat.one_pos
  · exact Nat.lt_of_lt_of_le h (Nat.le_add_right _ _)

theorem column_pos_of_after {place target : Location} {cs : List Char} {offset : Nat}
    (hpos : 0 < place.column) (h : place.after cs offset = some target) : 0 < target.column := by
  induction cs generalizing place offset with
  | nil =>
    cases offset <;> simp [after] at h <;> exact h ▸ hpos
  | cons c rest ih =>
    cases offset with
    | zero => simp at h; exact h ▸ hpos
    | succ n =>
      simp only [after] at h
      split at h
      · exact ih (next_column_pos hpos c) h
      · cases h

end Location
end ModuleBundler
