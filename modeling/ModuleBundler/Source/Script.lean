import ModuleBundler.Source.Piece
import ModuleBundler.Text.Word

/-!
# Imports of scripts

A script mentions other modules in three ways: by import and export statements,
by calls of the loader, and by import calls, which load only when they run.

Main results:

- Theorem {lit}`Script.isClause_blank`: blanks alone may stand between a keyword and its specifier.
-/

namespace ModuleBundler
namespace Source
namespace Script

/-- What ends a specifier: a quote or the end of the line. -/
def isStop (c : Char) : Bool :=
  isQuote c || c = '\n'

/-! ## Statements -/

/-- Whether a statement may start behind the character. -/
def startsStatement (before : Option Char) : Bool :=
  before.all fun c => c = ';' || Text.isBlank c

/-- The characters of an import clause. -/
def isClauseChar (c : Char) : Bool :=
  Text.isWord c || Text.isBlank c || c = '*' || c = '$' || c = '\x7b' || c = '\x7d' || c = ','

/-- Whether the names of a clause, given backwards, have the word {lit}`from` behind them: blanks, at least
one more character, a blank, the word, blanks. -/
def isBinding (reversed : List Char) : Bool :=
  match reversed.takeWhile Text.isBlank, reversed.dropWhile Text.isBlank with
  | _ :: _, 'm' :: 'o' :: 'r' :: 'f' :: last :: _ :: rest =>
    Text.isBlank last && rest.getLast?.any Text.isBlank
  | _, _ => false

/-- Whether the characters between a keyword and an opening quote make a clause: blanks alone, or
names between blanks with the word {lit}`from` behind them. -/
def isClause (run : List Char) : Bool :=
  !run.isEmpty && run.all Text.isBlank || isBinding run.reverse

/-- A statement that starts with the keyword. -/
def findClause (keyword cs : List Char) : Option (Mention × List Char) :=
  match after? keyword cs with
  | none => none
  | some rest =>
    if isClause (rest.takeWhile isClauseChar) then
      match quoted? isStop (rest.dropWhile isClauseChar) with
      | none => none
      | some q =>
        some (⟨keyword ++ rest.takeWhile isClauseChar ++ [q.opening], q.body, [q.closing]⟩, q.rest)
    else none

theorem findClause_splits {keyword cs rest : List Char} {m : Mention}
    (h : findClause keyword cs = some (m, rest)) : cs = m.text ++ rest ∧ m.front ≠ [] := by
  unfold findClause at h
  split at h
  · cases h
  · rename_i tail htail
    split at h
    · split at h
      · cases h
      · rename_i q hq
        cases h
        refine ⟨?_, by simp⟩
        have hrun := @List.takeWhile_append_dropWhile _ isClauseChar tail
        rw [quoted?_splits hq] at hrun
        rw [after?_splits htail]
        simpa [Mention.text] using hrun.symm
    · cases h

/-- Import and export statements. -/
def statement : Rule where
  find before cs :=
    if startsStatement before then
      (findClause "import".toList cs).or (findClause "export".toList cs)
    else none
  splits h := by
    split at h
    · rcases Option.or_eq_some_iff.1 h with h | ⟨_, h⟩ <;> exact (findClause_splits h).1
    · cases h
  proper h := by
    split at h
    · rcases Option.or_eq_some_iff.1 h with h | ⟨_, h⟩ <;> exact (findClause_splits h).2
    · cases h

/-! ## Calls -/

/-- A call of the function with a quoted argument. -/
def findCall (name : List Char) (before : Option Char) (cs : List Char) :
    Option (Mention × List Char) :=
  if before.any Text.isWord then none
  else
    match after? name cs with
    | none => none
    | some rest =>
      match (blanks rest).2 with
      | '(' :: inner =>
        match quoted? isStop (blanks inner).2 with
        | none => none
        | some q =>
          match (blanks q.rest).2 with
          | ')' :: tail =>
            some (⟨name ++ (blanks rest).1 ++ '(' :: (blanks inner).1 ++ [q.opening], q.body,
              q.closing :: (blanks q.rest).1 ++ [')']⟩, tail)
          | _ => none
      | _ => none

theorem findCall_splits {name cs rest : List Char} {before : Option Char} {m : Mention}
    (h : findCall name before cs = some (m, rest)) : cs = m.text ++ rest ∧ m.front ≠ [] := by
  unfold findCall at h
  split at h
  · cases h
  · split at h
    · cases h
    · rename_i tail htail
      split at h
      · rename_i inner hinner
        split at h
        · cases h
        · rename_i q hq
          split at h
          · rename_i last hlast
            cases h
            refine ⟨?_, by simp⟩
            have h₁ := blanks_splits tail
            have h₂ := blanks_splits inner
            have h₃ := blanks_splits q.rest
            rw [hinner] at h₁
            rw [quoted?_splits hq] at h₂
            rw [hlast] at h₃
            calc cs = name ++ tail := after?_splits htail
              _ = name ++ ((blanks tail).1 ++ '(' :: inner) := by rw [h₁]
              _ = name ++ ((blanks tail).1 ++ '(' :: ((blanks inner).1 ++
                    (q.opening :: q.body ++ q.closing :: q.rest))) := by rw [h₂]
              _ = name ++ ((blanks tail).1 ++ '(' :: ((blanks inner).1 ++
                    (q.opening :: q.body ++ q.closing :: ((blanks q.rest).1 ++ ')' :: rest)))) := by
                rw [h₃]
              _ = _ := by simp [Mention.text]
          · cases h
      · cases h

/-- Calls of the function with the given name. -/
def call (name : List Char) : Rule where
  find := findCall name
  splits h := (findCall_splits h).1
  proper h := (findCall_splits h).2

theorem isClause_blank (n : Nat) : isClause (List.replicate (n + 1) ' ') = true := by
  have h : (List.replicate (n + 1) ' ').all Text.isBlank = true := by
    rw [List.all_eq_true]
    intro c hc
    rw [List.eq_of_mem_replicate hc]
    decide
  rw [isClause, h]
  simp

/-! ## All imports -/

/-- An import of a script. -/
structure Import where
  site : Piece.Site
  /-- Whether the module is loaded only when the import runs. -/
  dynamic : Bool

/-- The order of places in a text. -/
def comesBefore (a b : Import) : Bool :=
  decide (a.site.place.line < b.site.place.line) ||
    (a.site.place.line = b.site.place.line && decide (a.site.place.column ≤ b.site.place.column))

/-- The imports of a script in the order of their places. -/
def imports (source : String) : List Import :=
  let found (dynamic : Bool) (rule : Rule) : List Import :=
    (sitesOf rule source).map fun site => ⟨site, dynamic⟩
  (found false statement ++ found false (call "require".toList) ++
    found true (call "import".toList)).mergeSort comesBefore

end Script
end Source
end ModuleBundler
