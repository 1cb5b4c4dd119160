import ModuleBundler.Text.CharRange
import ModuleBundler.Text.Location

/-!
# Sources in pieces

A source text is cut into mentions of other files and the characters between
them.  A rule looks at the rest of a text, and at the character in front of it,
and recognizes a mention there; the text is read from the left, and behind a
mention reading goes on with what follows it.

Stylesheets and markup name other files by URLs: a bare name is a file next to
the importer, a tilde in front asks for a package, and some URLs lead outside.

Main results:

- Theorem {lit}`Piece.text_cut`: the pieces together are the text.
- Theorem {lit}`Piece.sites_place`: a mention stands where the text in front of it ends.
- Theorem {lit}`Specifier.ofUrl_tilde`: behind a tilde the name is taken as it is.
-/

namespace ModuleBundler
namespace Source

/-! ## Mentions -/

/-- A stretch of text that mentions another file. -/
structure Mention where
  /-- The text up to the specifier, with the opening quote. -/
  front : List Char
  specifier : List Char
  /-- The text behind the specifier, from the closing quote on. -/
  back : List Char
deriving DecidableEq, Repr

namespace Mention

/-- The whole stretch. -/
def text (mention : Mention) : List Char :=
  mention.front ++ mention.specifier ++ mention.back

end Mention

/-- A rule that recognizes a mention at the front of a text.  It is given the character that
precedes the text, and gives the mention and what follows it. -/
structure Rule where
  find : Option Char → List Char → Option (Mention × List Char)
  /-- A mention is taken from the front of the text. -/
  splits : ∀ {before cs mention rest}, find before cs = some (mention, rest) →
    cs = mention.text ++ rest
  /-- No mention is empty. -/
  proper : ∀ {before cs mention rest}, find before cs = some (mention, rest) →
    mention.front ≠ []

/-! ## Pieces -/

/-- A piece of a source text. -/
inductive Piece where
  | plain (c : Char)
  | mention (mention : Mention)
deriving DecidableEq, Repr

namespace Piece

/-- The text of a piece. -/
def text : Piece → List Char
  | plain c => [c]
  | mention m => m.text

/-- The last of the characters, or {lit}`before` where there are none. -/
def lastOf (before : Option Char) (cs : List Char) : Option Char :=
  cs.foldl (fun _ c => some c) before

/-- Cut a text into pieces; {lit}`before` is the character in front of it. -/
def cut (rule : Rule) (before : Option Char) : List Char → List Piece
  | [] => []
  | c :: cs =>
    match _h : rule.find before (c :: cs) with
    | some (m, rest) => mention m :: cut rule (lastOf before m.text) rest
    | none => plain c :: cut rule (some c) cs
termination_by cs => cs.length
decreasing_by
  · have hlength := congrArg List.length (rule.splits _h)
    have hpos := List.length_pos_iff.2 (rule.proper _h)
    simp only [Mention.text, List.length_append, List.length_cons] at hlength ⊢
    omega
  · simp

theorem text_cut (rule : Rule) (before : Option Char) (cs : List Char) :
    (cut rule before cs).flatMap text = cs := by
  fun_induction cut rule before cs with
  | case1 => rfl
  | case2 before c cs m rest h ih => simp [text, ih, rule.splits h]
  | case3 before c cs h ih => simp [text, ih]

/-! ## Sites -/

/-- A mention and the place of its specifier. -/
structure Site where
  place : Location
  mention : Mention
deriving DecidableEq, Repr

/-- The mentions among the pieces, with their places; {lit}`place` is where the pieces start. -/
def sites (place : Location) : List Piece → List Site
  | [] => []
  | plain c :: rest => sites (place.next c) rest
  | mention m :: rest => ⟨place.behind m.front, m⟩ :: sites (place.behind m.text) rest

theorem sites_append (place : Location) (as bs : List Piece) :
    sites place (as ++ bs) = sites place as ++ sites (place.behind (as.flatMap text)) bs := by
  induction as generalizing place with
  | nil => simp [sites]
  | cons piece rest ih =>
    cases piece with
    | plain c => simp [sites, text, ih]
    | mention m => simp [sites, text, ih, Location.behind]

theorem sites_place (place : Location) (as bs : List Piece) (m : Mention) :
    ⟨place.behind (as.flatMap text ++ m.front), m⟩ ∈ sites place (as ++ mention m :: bs) := by
  simp [sites_append, sites, Location.behind]

end Piece

/-- The mentions of a source text. -/
def sitesOf (rule : Rule) (source : String) : List Piece.Site :=
  Piece.sites .start (Piece.cut rule none source.toList)

/-! ## Parts of rules -/

/-- Whether the character opens or closes a quoted specifier. -/
def isQuote (c : Char) : Bool :=
  c = '"' || c = '\''

/-- A quoted text: its quotes and what stands between them. -/
structure Quoted where
  opening : Char
  body : List Char
  closing : Char
  rest : List Char

/-- Read a quoted text that is not empty and has no character of the class {lit}`stop` inside.  The
quotes need not be the same. -/
def quoted? (stop : Char → Bool) : List Char → Option Quoted
  | [] => none
  | opening :: cs =>
    match cs.takeWhile fun c => !stop c, cs.dropWhile fun c => !stop c with
    | b :: body, closing :: rest =>
      if isQuote opening && isQuote closing then some ⟨opening, b :: body, closing, rest⟩ else none
    | _, _ => none

theorem quoted?_splits {stop : Char → Bool} {cs : List Char} {q : Quoted}
    (h : quoted? stop cs = some q) : cs = q.opening :: q.body ++ q.closing :: q.rest := by
  unfold quoted? at h
  split at h
  · cases h
  · rename_i opening cs
    split at h
    · rename_i b body closing rest hbody hrest
      split at h
      · cases h
        have hsplit := @List.takeWhile_append_dropWhile _ (fun c => !stop c) cs
        rw [hbody, hrest] at hsplit
        simp [← hsplit]
      · cases h
    · cases h

theorem quoted?_quotes {stop : Char → Bool} {cs : List Char} {q : Quoted}
    (h : quoted? stop cs = some q) : isQuote q.opening = true ∧ isQuote q.closing = true := by
  unfold quoted? at h
  split at h
  · cases h
  · split at h
    · split at h
      · rename_i hcond
        cases h
        exact Bool.and_eq_true_iff.1 hcond
      · cases h
    · cases h

/-- The blanks at the front of a text, and the rest. -/
def blanks (cs : List Char) : List Char × List Char :=
  (cs.takeWhile Text.isBlank, cs.dropWhile Text.isBlank)

theorem blanks_splits (cs : List Char) : (blanks cs).1 ++ (blanks cs).2 = cs :=
  List.takeWhile_append_dropWhile

/-- The text behind a word at the front. -/
def after? : (word cs : List Char) → Option (List Char)
  | [], cs => some cs
  | _ :: _, [] => none
  | w :: word, c :: cs => if w = c then after? word cs else none

theorem after?_splits {word cs rest : List Char} (h : after? word cs = some rest) :
    cs = word ++ rest := by
  induction word generalizing cs with
  | nil =>
    cases h
    rfl
  | cons w word ih =>
    cases cs with
    | nil => cases h
    | cons c cs =>
      simp only [after?] at h
      split at h
      · rename_i heq
        simp [heq, ih h]
      · cases h

/-! ## Specifiers as URLs -/

namespace Specifier

/-- Whether the URL leads outside the project. -/
def isExternal (url : List Char) : Bool :=
  "http://".toList.isPrefixOf url || "https://".toList.isPrefixOf url ||
    "//".toList.isPrefixOf url || "data:".toList.isPrefixOf url || "#".toList.isPrefixOf url

/-- The specifier that a URL stands for. -/
def ofUrl (url : List Char) : List Char :=
  match url with
  | '~' :: name => name
  | url =>
    if "/".toList.isPrefixOf url || "./".toList.isPrefixOf url || "../".toList.isPrefixOf url then url
    else '.' :: '/' :: url

@[simp]
theorem ofUrl_tilde (name : List Char) : ofUrl ('~' :: name) = name := rfl

end Specifier

end Source
end ModuleBundler
