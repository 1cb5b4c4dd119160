import Mathlib.Data.List.Forall2
import ModuleBundler.Proofs.Source.Extent
import ModuleBundler.Proofs.Source.Extraction

/-!
# What is taken out of a stylesheet

The import rules of a sheet are read from the left, one behind the other, each up to
the first semicolon behind its specifier.  The output of the sheet is its source without
those rules that name sheets of the project, and these are the rules that the
dependencies of the sheet come from, one by one and in their order.

Main results:

- Theorem {lit}`Stylesheet.removed_stretches`: a stretch is taken out for each local import, and no other.
- Theorem {lit}`Stylesheet.isRead_of_findImport`: rules that lead outside are kept whole, and only these.
- Theorem {lit}`Stylesheet.compile_strips`: how the output of a sheet, its source and its dependencies belong
  together.
-/

namespace ModuleBundler
namespace Source
namespace Stylesheet

open Location (start)
open Text (byteLength)

/-! ## Stretches -/

/-- A stretch of a source, which stays in the output or is taken out of it. -/
structure Stretch where
  /-- The byte offset at which the stretch starts. -/
  start : Nat
  text : List Char
  kept : Bool

/-- The byte offset behind a stretch. -/
def Stretch.stop (stretch : Stretch) : Nat :=
  stretch.start + byteLength stretch.text

/-- Pieces as stretches, from a byte offset on. -/
def stretchesFrom (offset : Nat) : List Piece → List Stretch
  | [] => []
  | .plain c :: rest => ⟨offset, [c], true⟩ :: stretchesFrom (offset + c.utf8Size) rest
  | .mention m :: rest =>
    ⟨offset, m.text, !isLocal m⟩ :: stretchesFrom (offset + byteLength m.text) rest

/-- Nothing is lost between the stretches. -/
theorem text_stretchesFrom (offset : Nat) (pieces : List Piece) :
    (stretchesFrom offset pieces).flatMap Stretch.text = pieces.flatMap Piece.text := by
  fun_induction stretchesFrom offset pieces with
  | case1 => rfl
  | case2 offset c rest ih => simp [ih, Piece.text]
  | case3 offset m rest ih => simp [ih, Piece.text]

theorem stretchesFrom_append (offset : Nat) (as bs : List Piece) :
    stretchesFrom offset (as ++ bs) =
      stretchesFrom offset as ++ stretchesFrom (offset + byteLength (as.flatMap Piece.text)) bs := by
  fun_induction stretchesFrom offset as with
  | case1 => rfl
  | case2 offset c rest ih => simp [stretchesFrom, ih, Piece.text, Nat.add_assoc]
  | case3 offset m rest ih => simp [stretchesFrom, ih, Piece.text, Nat.add_assoc]

/-- The stretches that are kept are what remains. -/
theorem remains_stretchesFrom (offset : Nat) (pieces : List Piece) :
    ((stretchesFrom offset pieces).filter Stretch.kept).flatMap Stretch.text = pieces.flatMap remains := by
  fun_induction stretchesFrom offset pieces with
  | case1 => rfl
  | case2 offset c rest ih => simp [ih, remains]
  | case3 offset m rest ih =>
    cases hlocal : isLocal m <;> simp [ih, remains, hlocal]

/-- Each stretch starts where the text in front of it ends. -/
theorem start_of_stretchesFrom {offset : Nat} {pieces : List Piece} {before after : List Stretch}
    {stretch : Stretch} (h : stretchesFrom offset pieces = before ++ stretch :: after) :
    stretch.start = offset + byteLength (before.flatMap Stretch.text) := by
  fun_induction stretchesFrom offset pieces generalizing before with
  | case1 => simp at h
  | case2 offset c rest ih =>
    cases before with
    | nil => cases h; rfl
    | cons first before =>
      obtain ⟨rfl, hrest⟩ := List.cons.inj h
      rw [ih hrest]
      simp [Nat.add_assoc]
  | case3 offset m rest ih =>
    cases before with
    | nil => cases h; rfl
    | cons first before =>
      obtain ⟨rfl, hrest⟩ := List.cons.inj h
      rw [ih hrest]
      simp [Nat.add_assoc]

/-- Stretches are apart from each other. -/
theorem pairwise_stretchesFrom (offset : Nat) (pieces : List Piece) :
    (stretchesFrom offset pieces).Pairwise fun a b => a.stop ≤ b.start := by
  have hlater : ∀ {first : Stretch} {stop : Nat} {rest : List Piece}, first.stop = stop →
      ∀ stretch ∈ stretchesFrom stop rest, first.stop ≤ stretch.start := by
    intro first stop rest heq stretch hmem
    obtain ⟨before, after, hsplit⟩ := List.append_of_mem hmem
    rw [start_of_stretchesFrom hsplit, heq]
    exact Nat.le_add_right _ _
  fun_induction stretchesFrom offset pieces with
  | case1 => exact .nil
  | case2 offset c rest ih => exact List.pairwise_cons.2 ⟨hlater (by simp [Stretch.stop]), ih⟩
  | case3 offset m rest ih => exact List.pairwise_cons.2 ⟨hlater rfl, ih⟩

/-! ## Import rules among the stretches -/

/-- Whether a stretch has the ends of an import rule. -/
structure Stretch.IsRule (stretch : Stretch) : Prop where
  keyword : "@import".toList <+: stretch.text
  semicolon : [';'] <:+ stretch.text

/-- Whether a stretch of a source is an import rule around the place of a dependency. -/
structure Stretch.Declares (source : String) (stretch : Stretch) (dep : Dependency) : Prop
    extends Stretch.IsRule stretch where
  place : ∃ offset place, stretch.start ≤ offset ∧ offset < stretch.stop ∧ dep.place = some place ∧
    Location.ofOffset? source offset = some place

theorem isRule_of_findImport {cs rest : List Char} {m : Mention} (h : findImport cs = some (m, rest))
    (offset : Nat) (kept : Bool) : Stretch.IsRule ⟨offset, m.text, kept⟩ := by
  obtain ⟨gap, opening, closing, media, hfront, hback, -⟩ := findImport_quotes h
  constructor
  case keyword => exact ⟨gap ++ [opening] ++ m.specifier ++ m.back, by simp [Mention.text, hfront]⟩
  case semicolon => exact ⟨m.front ++ m.specifier ++ closing :: media, by simp [Mention.text, hback]⟩

/-- A rule that stands in a source has the place of its specifier inside. -/
theorem declares_of_findImport {source : String} {front cs rest : List Char} {m : Mention} {dep : Dependency}
    (hsource : source.toList = front ++ cs) (hfind : findImport cs = some (m, rest))
    (hplace : dep.place = some (start.behind (front ++ m.front))) :
    Stretch.Declares source ⟨byteLength front, m.text, false⟩ dep := by
  have hsplit : source.toList = (front ++ m.front) ++ (m.specifier ++ m.back ++ rest) := by
    rw [hsource, (findImport_splits hfind).1]
    simp [Mention.text]
  obtain ⟨gap, opening, closing, media, -, hback, -⟩ := findImport_quotes hfind
  have hpos := closing.utf8Size_pos
  refine ⟨isRule_of_findImport hfind _ _, byteLength (front ++ m.front), _, ?_, ?_, hplace, ?_⟩
  · simp
  · simp only [Stretch.stop, Mention.text, hback, Text.byteLength_append, Text.byteLength_cons]
    omega
  · refine (Location.ofOffset?_eq_some_iff hsplit ?_).2 rfl
    rw [← Text.byteLength_toList, hsplit, Text.byteLength_append _ (m.specifier ++ m.back ++ rest)]
    exact Nat.le_add_right _ _

/-- A stretch is taken out for each local import, and no other. -/
theorem removed_stretches {source : String} {front cs : List Char} (hsource : source.toList = front ++ cs)
    (before : Option Char) :
    List.Forall₂ (Stretch.Declares source)
      ((stretchesFrom (byteLength front) (Piece.cut importRule before cs)).filter fun s => !s.kept)
      (((Piece.sites (start.behind front) (Piece.cut importRule before cs)).filter
        fun site => isLocal site.mention).map (styleDependency false)) := by
  fun_induction Piece.cut importRule before cs generalizing front with
  | case1 => exact .nil
  | case2 before c cs m rest hfind ih =>
    have hrest : source.toList = (front ++ m.text) ++ rest := by
      rw [hsource, importRule.splits hfind, List.append_assoc]
    have hdeclares := ih hrest
    rw [Text.byteLength_append, Location.behind_append] at hdeclares
    simp only [stretchesFrom, Piece.sites, List.filter_cons]
    cases hlocal : isLocal m with
    | false => simpa [hlocal] using hdeclares
    | true =>
      refine List.Forall₂.cons (declares_of_findImport hsource hfind ?_) hdeclares
      simp [styleDependency]
  | case3 before c cs hnone ih =>
    have hrest : source.toList = (front ++ [c]) ++ cs := by simp [hsource]
    have hdeclares := ih hrest
    simpa [stretchesFrom, Piece.sites] using hdeclares

/-- Whether an import rule is one of the stretches, unless it begins inside another rule that is, and so in
front of the semicolon that ends that one. -/
def IsRead (stretches : List Stretch) (rule : Stretch) : Prop :=
  rule ∈ stretches ∨
    ∃ other ∈ stretches, other.IsRule ∧ other.start < rule.start ∧ rule.start < other.stop

/-- Every import rule is read, wherever it stands, and kept if it leads outside. -/
theorem isRead_of_findImport {source : String} {front cs rest : List Char} {m : Mention}
    (hsource : source.toList = front ++ cs) (hfind : findImport cs = some (m, rest)) :
    IsRead (stretchesFrom 0 (Piece.cut importRule none source.toList))
      ⟨byteLength front, m.text, Specifier.isExternal m.specifier⟩ := by
  have hrule : importRule.find (Piece.lastOf none front) cs = some (m, rest) := hfind
  obtain ⟨as, other, bs, hpieces, hplace⟩ := Piece.lists_of_find hrule
  rw [← hsource] at hpieces
  have hmem : ⟨byteLength (as.flatMap Piece.text), other.text, Specifier.isExternal other.specifier⟩ ∈
      stretchesFrom 0 (Piece.cut importRule none source.toList) := by
    rw [hpieces, stretchesFrom_append]
    simp [stretchesFrom, isLocal]
  rcases hplace with ⟨rfl, rfl⟩ | ⟨inner, tail, hinner, htail, rfl, hmention⟩
  · exact .inl hmem
  · have hsite := Piece.sites_place start as bs other
    rw [← hpieces] at hsite
    obtain ⟨_, _, _, _, _, hfound⟩ := exists_of_mem_sitesOf hsite
    have hstart := Text.byteLength_pos hinner
    have hstop := Text.byteLength_pos htail
    refine .inr ⟨_, hmem, isRule_of_findImport hfound _ _, ?_, ?_⟩
    · simp only [Text.byteLength_append]
      omega
    · simp only [Stretch.stop, hmention, Text.byteLength_append]
      omega

/-! ## Compiled stylesheets -/

/-- How the output of a stylesheet and its dependencies come from the source. -/
structure Strips (source output : String) (deps : List Dependency) (stretches : List Stretch) : Prop where
  /-- The stretches make up the source, each one at its offset. -/
  whole : stretches.flatMap Stretch.text = source.toList
  starts : ∀ before stretch after, stretches = before ++ stretch :: after →
    stretch.start = byteLength (before.flatMap Stretch.text)
  apart : stretches.Pairwise fun a b => a.stop ≤ b.start
  remaining : (stretches.filter Stretch.kept).flatMap Stretch.text = output.toList
  /-- What is taken out is one import rule for each dependency. -/
  removed : List.Forall₂ (Stretch.Declares source) (stretches.filter fun stretch => !stretch.kept) deps
  /-- Every import rule in the source is kept whole if it leads outside, and taken out whole otherwise. -/
  rules : ∀ front cs m rest, source.toList = front ++ cs → findImport cs = some (m, rest) →
    IsRead stretches ⟨byteLength front, m.text, Specifier.isExternal m.specifier⟩

theorem strips_withoutLocalImports (source : String) :
    Strips source (withoutLocalImports source) ((imports source).map (styleDependency false))
      (stretchesFrom 0 (Piece.cut importRule none source.toList)) where
  whole := by rw [text_stretchesFrom, Piece.text_cut]
  starts before stretch after h := by rw [start_of_stretchesFrom h, Nat.zero_add]
  apart := pairwise_stretchesFrom _ _
  remaining := by rw [remains_stretchesFrom, withoutLocalImports, String.toList_ofList]
  removed := removed_stretches (List.nil_append _).symm none
  rules _ _ _ _ hsource hfind := isRead_of_findImport hsource hfind

/-- Compiled without minification, a stylesheet is its source without an import rule for each of its
dependencies. -/
theorem compile_strips {path : Path} (h : extensionOf path = "css") (source : String) :
    ∃ unit output stretches, compile path false source = .ok unit ∧
      unit.generated = .single "css" output ∧ unit.dependencies = dependencies path source ∧
      Strips source output (dependencies path source) stretches := by
  have hfamily : Family.ofExtension (extensionOf path) = .style := by rw [h]; decide
  have hinlined : isPreprocessed (extensionOf path) = false := by rw [h]; decide
  have houtput : Source.output path source = .ok (withoutLocalImports source) := by
    unfold Source.output
    simp only [hfamily, hinlined, Bool.false_eq_true, if_false]
  have hkind : kindOf path = .css := by rw [kindOf, hfamily]; rfl
  have hdependencies : dependencies path source = (imports source).map (styleDependency false) := by
    unfold dependencies
    simp only [hfamily, hinlined]
  have hunit : compile path false source = .ok ⟨generatedFor path false (withoutLocalImports source),
      (generatedFor path false (withoutLocalImports source)).fingerprint, dependencies path source⟩ := by
    rw [compile, houtput, Except.map]
  have hstrips := strips_withoutLocalImports source
  rw [← hdependencies] at hstrips
  exact ⟨_, _, _, hunit, by rw [generatedFor, hkind, if_neg Bool.false_ne_true, Kind.css], rfl, hstrips⟩

theorem compile_strips_app :
    extensionOf ⟨"/src/app.css"⟩ = "css" ∧ ∃ unit output stretches,
      compile ⟨"/src/app.css"⟩ false "@import 'a';\n@import 'https://b/c.css';\n" = .ok unit ∧
        unit.generated = .single "css" output ∧
        unit.dependencies = dependencies ⟨"/src/app.css"⟩ "@import 'a';\n@import 'https://b/c.css';\n" ∧
        Strips "@import 'a';\n@import 'https://b/c.css';\n" output
          (dependencies ⟨"/src/app.css"⟩ "@import 'a';\n@import 'https://b/c.css';\n") stretches :=
  ⟨by decide +kernel, compile_strips (by decide +kernel) _⟩

end Stylesheet
end Source
end ModuleBundler
