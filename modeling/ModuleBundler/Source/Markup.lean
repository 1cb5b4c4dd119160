import ModuleBundler.Source.Piece
import ModuleBundler.Text.Word

/-!
# References of markup

A page mentions files in the source and target attributes of scripts, images
and links.  A tag counts once, with its first such attribute.

Main results:

- Theorem {lit}`Markup.findTag_splits`: a reference is taken from the front of the text.
-/

namespace ModuleBundler
namespace Source
namespace Markup

/-- A text in front of a quoted reference, and the reference. -/
abbrev Lead := List Char × Quoted

/-- An attribute with the given name at the front of a text, behind one blank. -/
def attribute? (name cs : List Char) : Option Lead :=
  match cs with
  | [] => none
  | blank :: cs =>
    if Text.isBlank blank then
      match after? name cs with
      | none => none
      | some rest =>
        match (blanks rest).2 with
        | '=' :: value =>
          (quoted? isQuote (blanks value).2).map fun q =>
            (blank :: name ++ (blanks rest).1 ++ '=' :: (blanks value).1, q)
        | _ => none
    else none

theorem attribute?_splits {name cs : List Char} {lead : Lead} (h : attribute? name cs = some lead) :
    cs = lead.1 ++ lead.2.opening :: lead.2.body ++ lead.2.closing :: lead.2.rest := by
  unfold attribute? at h
  split at h
  · cases h
  · rename_i blank cs
    split at h
    · split at h
      · cases h
      · rename_i rest hrest
        split at h
        · rename_i value hvalue
          obtain ⟨q, hq, rfl⟩ := Option.map_eq_some_iff.1 h
          have h₁ := blanks_splits rest
          have h₂ := blanks_splits value
          rw [hvalue] at h₁
          rw [quoted?_splits hq] at h₂
          calc blank :: cs = blank :: (name ++ rest) := by rw [after?_splits hrest]
            _ = blank :: (name ++ ((blanks rest).1 ++ '=' :: value)) := by rw [h₁]
            _ = blank :: (name ++ ((blanks rest).1 ++ '=' :: ((blanks value).1 ++
                  (q.opening :: q.body ++ q.closing :: q.rest)))) := by rw [h₂]
            _ = _ := by simp
        · cases h
    · cases h

/-- The first reference in the rest of a tag. -/
def findAttribute : List Char → Option Lead
  | [] => none
  | c :: cs =>
    match (attribute? "src".toList (c :: cs)).or (attribute? "href".toList (c :: cs)) with
    | some lead => some lead
    | none => if c = '>' then none else (findAttribute cs).map fun lead => (c :: lead.1, lead.2)

theorem findAttribute_splits {cs : List Char} {lead : Lead} (h : findAttribute cs = some lead) :
    cs = lead.1 ++ lead.2.opening :: lead.2.body ++ lead.2.closing :: lead.2.rest := by
  induction cs generalizing lead with
  | nil => cases h
  | cons c cs ih =>
    unfold findAttribute at h
    split at h
    · rename_i found hfound
      cases h
      rcases Option.or_eq_some_iff.1 hfound with h | ⟨_, h⟩ <;> exact attribute?_splits h
    · split at h
      · cases h
      · obtain ⟨inner, hinner, rfl⟩ := Option.map_eq_some_iff.1 h
        simpa using ih hinner

/-- Whether a name ends in front of the text. -/
def endsName (cs : List Char) : Bool :=
  !cs.head?.any Text.isWord

/-- A tag with the given name at the front of a text, up to the end of its first reference. -/
def findTag (name cs : List Char) : Option (Mention × List Char) :=
  match after? ('<' :: name) cs with
  | none => none
  | some rest =>
    if endsName rest then
      (findAttribute rest).map fun lead =>
        (⟨'<' :: name ++ lead.1 ++ [lead.2.opening], lead.2.body, [lead.2.closing]⟩, lead.2.rest)
    else none

theorem findTag_splits {name cs rest : List Char} {m : Mention}
    (h : findTag name cs = some (m, rest)) : cs = m.text ++ rest ∧ m.front ≠ [] := by
  unfold findTag at h
  split at h
  · cases h
  · rename_i tail htail
    split at h
    · obtain ⟨lead, hlead, heq⟩ := Option.map_eq_some_iff.1 h
      cases heq
      refine ⟨?_, by simp⟩
      rw [after?_splits htail, findAttribute_splits hlead]
      simp [Mention.text]
    · cases h

/-- Scripts, images and links with a reference. -/
def tag : Rule where
  find _ cs :=
    (findTag "script".toList cs).or ((findTag "img".toList cs).or (findTag "link".toList cs))
  splits h := by
    rcases Option.or_eq_some_iff.1 h with h | ⟨_, h⟩
    · exact (findTag_splits h).1
    · rcases Option.or_eq_some_iff.1 h with h | ⟨_, h⟩ <;> exact (findTag_splits h).1
  proper h := by
    rcases Option.or_eq_some_iff.1 h with h | ⟨_, h⟩
    · exact (findTag_splits h).2
    · rcases Option.or_eq_some_iff.1 h with h | ⟨_, h⟩ <;> exact (findTag_splits h).2

/-- The references of a page that lead to files of the project. -/
def references (source : String) : List Piece.Site :=
  (sitesOf tag source).filter fun site => !Specifier.isExternal site.mention.specifier

end Markup
end Source
end ModuleBundler
