import ModuleBundler.Source.Piece
import ModuleBundler.Text.Lines

/-!
# Imports of stylesheets

An import rule names another stylesheet, plainly or as a URL, and may restrict
it to a media query.  Rules that lead outside the project stay in the output;
all others are taken out of it, because the sheets they name are put there.

Main results:

- Theorem {lit}`Stylesheet.withoutLocalImports_of_no_mention`: a text without import rules stays as it is.
-/

namespace ModuleBundler
namespace Source
namespace Stylesheet

/-! ## Import rules -/

/-- The opening of a URL at the front of a text, if there is one, and the rest. -/
def urlOpening (cs : List Char) : List Char × List Char :=
  match after? "url".toList cs with
  | none => ([], cs)
  | some rest =>
    match (blanks rest).2 with
    | '(' :: inner => ("url".toList ++ (blanks rest).1 ++ '(' :: (blanks inner).1, (blanks inner).2)
    | _ => ([], cs)

theorem urlOpening_splits (cs : List Char) : (urlOpening cs).1 ++ (urlOpening cs).2 = cs := by
  unfold urlOpening
  split
  · rfl
  · rename_i rest hrest
    split
    · rename_i inner hinner
      have h₁ := blanks_splits rest
      have h₂ := blanks_splits inner
      rw [hinner] at h₁
      calc _ = "url".toList ++ ((blanks rest).1 ++ '(' :: ((blanks inner).1 ++ (blanks inner).2)) := by
            simp
        _ = cs := by rw [h₂, h₁, after?_splits hrest]
    · rfl

/-- Whether the character does not end a rule. -/
def isInRule (c : Char) : Bool :=
  c != ';'

/-- An import rule at the front of a text. -/
def findImport (cs : List Char) : Option (Mention × List Char) :=
  match after? "@import".toList cs with
  | none => none
  | some rest =>
    if (blanks rest).1.isEmpty then none
    else
      match quoted? isQuote (urlOpening (blanks rest).2).2 with
      | none => none
      | some q =>
        match q.rest.dropWhile isInRule with
        | [] => none
        | semicolon :: tail =>
          some (⟨"@import".toList ++ (blanks rest).1 ++ (urlOpening (blanks rest).2).1 ++ [q.opening],
            q.body, q.closing :: q.rest.takeWhile isInRule ++ [semicolon]⟩, tail)

theorem findImport_splits {cs rest : List Char} {m : Mention}
    (h : findImport cs = some (m, rest)) : cs = m.text ++ rest ∧ m.front ≠ [] := by
  unfold findImport at h
  split at h
  · cases h
  · rename_i tail htail
    split at h
    · cases h
    · split at h
      · cases h
      · rename_i q hq
        split at h
        · cases h
        · rename_i semicolon last hlast
          cases h
          refine ⟨?_, by simp⟩
          have h₁ := blanks_splits tail
          have h₂ := urlOpening_splits (blanks tail).2
          have h₃ := @List.takeWhile_append_dropWhile _ isInRule q.rest
          rw [quoted?_splits hq] at h₂
          rw [hlast] at h₃
          calc cs = "@import".toList ++ tail := after?_splits htail
            _ = "@import".toList ++ ((blanks tail).1 ++ (blanks tail).2) := by rw [h₁]
            _ = "@import".toList ++ ((blanks tail).1 ++ ((urlOpening (blanks tail).2).1 ++
                  (q.opening :: q.body ++ q.closing :: q.rest))) := by rw [h₂]
            _ = "@import".toList ++ ((blanks tail).1 ++ ((urlOpening (blanks tail).2).1 ++
                  (q.opening :: q.body ++ q.closing ::
                    (q.rest.takeWhile isInRule ++ semicolon :: rest)))) := by rw [h₃]
            _ = _ := by simp [Mention.text]

/-- Import rules. -/
def importRule : Rule where
  find _ cs := findImport cs
  splits h := (findImport_splits h).1
  proper h := (findImport_splits h).2

/-! ## Imports -/

/-- The text without a closing bracket at its front. -/
def dropBracket : List Char → List Char
  | ')' :: rest => rest
  | cs => cs

/-- The media query of an import rule: what stands between the specifier and the end of the rule. -/
def mediaOf (mention : Mention) : List Char :=
  Text.trim (dropBracket ((mention.back.drop 1).dropLast.dropWhile Text.isBlank))

/-- Whether a mention names a sheet of the project. -/
def isLocal (mention : Mention) : Bool :=
  !Specifier.isExternal mention.specifier

/-- The imports of a stylesheet that name sheets of the project. -/
def imports (source : String) : List Piece.Site :=
  (sitesOf importRule source).filter fun site => isLocal site.mention

/-! ## Output -/

/-- What remains of a piece. -/
def remains : Piece → List Char
  | .plain c => [c]
  | .mention m => if isLocal m then [] else m.text

/-- The stylesheet without the import rules that name sheets of the project. -/
def withoutLocalImports (source : String) : String :=
  String.ofList ((Piece.cut importRule none source.toList).flatMap remains)

theorem withoutLocalImports_of_no_mention {source : String}
    (h : ∀ m, .mention m ∉ Piece.cut importRule none source.toList) :
    withoutLocalImports source = source := by
  have hsame : ∀ pieces : List Piece, (∀ m, .mention m ∉ pieces) →
      pieces.flatMap remains = pieces.flatMap Piece.text := by
    intro pieces
    induction pieces with
    | nil => exact fun _ => rfl
    | cons piece rest ih =>
      intro hno
      have hrest := ih fun m hm => hno m (List.mem_cons_of_mem _ hm)
      cases piece with
      | plain c => simp [remains, Piece.text, hrest]
      | mention m => exact absurd List.mem_cons_self (hno m)
  rw [withoutLocalImports, hsame _ h, Piece.text_cut, String.ofList_toList]

end Stylesheet
end Source
end ModuleBundler
