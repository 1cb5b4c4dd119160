import Mathlib.Data.List.Infix
import ModuleBundler.Source.Piece

/-!
# Positions in a source

Places are ordered by line and column, and walking through a text leads from each
place to later ones.  So a byte offset on the boundary of two characters and its
place determine each other, and the sites of a rule stand in the order of their
places.

Main results:

- Theorem {lit}`Location.before_behind`: behind a text that is not empty lies a later place.
- Theorem {lit}`Location.ofOffset?_eq_some_iff`: the place behind the front of a text belongs to one offset.
- Theorem {lit}`Source.exists_of_mem_sitesOf`: a site stands where the rule found its mention.
- Theorem {lit}`Source.pairwise_sitesOf`: the sites of a rule stand one behind the other.
- Theorem {lit}`Source.mem_sitesOf_or_covers`: no mention is overlooked, unless it begins inside another one.
-/

namespace ModuleBundler

namespace Text

/-- How many bytes the encoding of a text takes. -/
def byteLength (cs : List Char) : Nat :=
  (String.ofList cs).utf8ByteSize

@[simp]
theorem byteLength_nil : byteLength [] = 0 := rfl

@[simp]
theorem byteLength_cons (c : Char) (cs : List Char) : byteLength (c :: cs) = c.utf8Size + byteLength cs := by
  rw [byteLength, String.ofList_cons, String.utf8ByteSize_append, String.utf8ByteSize_singleton, byteLength]

@[simp]
theorem byteLength_append (as bs : List Char) : byteLength (as ++ bs) = byteLength as + byteLength bs := by
  rw [byteLength, String.ofList_append, String.utf8ByteSize_append, byteLength, byteLength]

theorem byteLength_pos {cs : List Char} (h : cs ≠ []) : 0 < byteLength cs := by
  cases cs with
  | nil => exact absurd rfl h
  | cons c rest =>
    have hpos := c.utf8Size_pos
    rw [byteLength_cons]
    omega

theorem byteLength_toList (s : String) : byteLength s.toList = s.utf8ByteSize := by
  rw [byteLength, String.ofList_toList]

end Text

namespace Location

open Text (byteLength)

/-! ## The order of places -/

/-- Whether a place comes before another one: in an earlier line, or further to the left. -/
def Before (a b : Location) : Prop :=
  a.line < b.line ∨ a.line = b.line ∧ a.column < b.column

theorem Before.irrefl (place : Location) : ¬ place.Before place := by
  unfold Before
  omega

theorem Before.trans {a b c : Location} (hab : a.Before b) (hbc : b.Before c) : a.Before c := by
  unfold Before at *
  omega

/-- Two places are the same, or one comes before the other. -/
theorem eq_or_before (a b : Location) : a = b ∨ a.Before b ∨ b.Before a := by
  obtain ⟨lineA, columnA⟩ := a
  obtain ⟨lineB, columnB⟩ := b
  simp only [Location.mk.injEq, Before]
  omega

theorem before_next (place : Location) (c : Char) : place.Before (place.next c) := by
  have hpos := c.utf8Size_pos
  unfold Before next
  split
  · exact .inl (Nat.lt_succ_self _)
  · exact .inr ⟨rfl, by dsimp only; omega⟩

@[simp]
theorem behind_append (place : Location) (as bs : List Char) :
    place.behind (as ++ bs) = (place.behind as).behind bs := by
  simp [behind]

/-- Behind a text that is not empty lies a later place. -/
theorem before_behind (place : Location) {cs : List Char} (h : cs ≠ []) : place.Before (place.behind cs) := by
  induction cs generalizing place with
  | nil => exact absurd rfl h
  | cons c rest ih =>
    rw [behind_cons]
    by_cases hrest : rest = []
    · rw [hrest, behind_nil]
      exact place.before_next c
    · exact (place.before_next c).trans (ih _ hrest)

/-- What comes after the end of a text comes after its beginning. -/
theorem before_of_behind {place target : Location} {cs : List Char} (h : (place.behind cs).Before target) :
    place.Before target := by
  by_cases hcs : cs = []
  · rwa [hcs, behind_nil] at h
  · exact (place.before_behind hcs).trans h

/-- Two fronts of a text that end at the same place are the same. -/
theorem eq_of_behind_eq {place : Location} {front other rest more : List Char}
    (h : front ++ rest = other ++ more) (hbehind : place.behind front = place.behind other) :
    front = other := by
  have hextends : ∀ {as bs : List Char}, place.behind as = place.behind bs → as <+: bs → as = bs := by
    rintro as _ heq ⟨between, rfl⟩
    by_cases hbetween : between = []
    · rw [hbetween, List.append_nil]
    · rw [behind_append] at heq
      have hlater := (place.behind as).before_behind hbetween
      rw [← heq] at hlater
      exact absurd hlater (Before.irrefl _)
  rcases List.prefix_or_prefix_of_prefix (List.prefix_append front rest)
    (h ▸ List.prefix_append other more) with hprefix | hprefix
  · exact hextends hbehind hprefix
  · exact (hextends hbehind.symm hprefix).symm

/-! ## Places of byte offsets -/

/-- An offset that is not zero leads past the first character or into it. -/
theorem after_cons (place : Location) (c : Char) (rest : List Char) {offset : Nat} (h : 0 < offset) :
    place.after (c :: rest) offset =
      if c.utf8Size ≤ offset then (place.next c).after rest (offset - c.utf8Size) else none := by
  obtain ⟨n, rfl⟩ := Nat.exists_eq_add_of_lt h
  simp only [after]

/-- The bytes of the front of a text lead to the place behind it. -/
theorem after_byteLength (place : Location) (front rest : List Char) :
    place.after (front ++ rest) (byteLength front) = some (place.behind front) := by
  induction front generalizing place with
  | nil => exact place.after_zero rest
  | cons c front ih =>
    have hpos := c.utf8Size_pos
    rw [Text.byteLength_cons, List.cons_append, after_cons _ _ _ (by omega), if_pos (by omega),
      Nat.add_sub_cancel_left, ih, behind_cons]

/-- A place inside a text lies behind one of its fronts. -/
theorem exists_of_after {place target : Location} {cs : List Char} {offset : Nat}
    (h : place.after cs offset = some target) (hle : offset ≤ byteLength cs) :
    ∃ front rest, cs = front ++ rest ∧ byteLength front = offset ∧ target = place.behind front := by
  induction cs generalizing place offset with
  | nil =>
    obtain rfl : offset = 0 := Nat.le_zero.1 hle
    rw [after_zero, Option.some.injEq] at h
    exact ⟨[], [], rfl, rfl, h.symm⟩
  | cons c cs ih =>
    cases offset with
    | zero =>
      rw [after_zero, Option.some.injEq] at h
      exact ⟨[], c :: cs, rfl, rfl, h.symm⟩
    | succ n =>
      rw [after_cons _ _ _ (Nat.succ_pos n)] at h
      split at h
      · rename_i hsize
        rw [Text.byteLength_cons] at hle
        obtain ⟨front, rest, rfl, hlength, rfl⟩ := ih h (by omega)
        exact ⟨c :: front, rest, rfl, by rw [Text.byteLength_cons, hlength]; omega, rfl⟩
      · cases h

/-- The place behind the front of a text is the place of one byte offset, the length of that front. -/
theorem ofOffset?_eq_some_iff {source : String} {front rest : List Char}
    (h : source.toList = front ++ rest) {offset : Nat} (hle : offset ≤ source.utf8ByteSize) :
    ofOffset? source offset = some (start.behind front) ↔ offset = byteLength front := by
  unfold ofOffset?
  constructor
  · intro hplace
    rw [← Text.byteLength_toList] at hle
    obtain ⟨other, more, hsplit, rfl, hbehind⟩ := exists_of_after hplace hle
    rw [eq_of_behind_eq (h.symm.trans hsplit) hbehind]
  · rintro rfl
    rw [h, after_byteLength]

end Location

namespace Source

open Location (start)

/-! ## Places of mentions -/

namespace Piece

variable {rule : Rule}

/-- A site stands where the rule found its mention, whatever character it saw in front. -/
theorem exists_of_mem_sites {place : Location} {before : Option Char} {cs : List Char} {site : Site}
    (h : site ∈ sites place (cut rule before cs)) :
    ∃ front rest seen, cs = front ++ (site.mention.text ++ rest) ∧
      site.place = place.behind (front ++ site.mention.front) ∧
      rule.find seen (site.mention.text ++ rest) = some (site.mention, rest) := by
  fun_induction cut rule before cs generalizing place with
  | case1 => cases h
  | case2 before c cs m rest hfind ih =>
    have hsplit := rule.splits hfind
    rcases List.mem_cons.1 h with rfl | hmem
    · exact ⟨[], rest, before, hsplit, rfl, hsplit ▸ hfind⟩
    · obtain ⟨front, more, seen, hrest, hplace, hfound⟩ := ih hmem
      refine ⟨m.text ++ front, more, seen, ?_, ?_, hfound⟩
      · rw [hsplit, hrest, List.append_assoc]
      · rw [hplace, List.append_assoc, Location.behind_append place]
  | case3 before c cs hnone ih =>
    obtain ⟨front, more, seen, hrest, hplace, hfound⟩ := ih h
    exact ⟨c :: front, more, seen, by rw [hrest, List.cons_append], hplace, hfound⟩

/-- Sites stand one behind the other. -/
theorem pairwise_sites (rule : Rule) (place : Location) (before : Option Char) (cs : List Char) :
    (sites place (cut rule before cs)).Pairwise fun a b => a.place.Before b.place := by
  fun_induction cut rule before cs generalizing place with
  | case1 => exact .nil
  | case2 before c cs m rest hfind ih =>
    refine List.pairwise_cons.2 ⟨fun site hmem => ?_, ih _⟩
    obtain ⟨front, more, seen, -, hplace, hfound⟩ := exists_of_mem_sites hmem
    have hlater : (place.behind m.text).Before site.place := by
      rw [hplace]
      exact Location.before_behind _ (List.append_ne_nil_of_right_ne_nil _ (rule.proper hfound))
    have htext : m.text = m.front ++ (m.specifier ++ m.back) := List.append_assoc _ _ _
    rw [htext, Location.behind_append] at hlater
    exact Location.before_of_behind hlater
  | case3 before c cs hnone ih => exact ih _

theorem lastOf_append (before : Option Char) (as bs : List Char) :
    lastOf before (as ++ bs) = lastOf (lastOf before as) bs :=
  List.foldl_append

/-- Of two fronts of one text, the first ends inside the second or not before it. -/
theorem ends_inside_or_behind {front cs text rest : List Char} (h : front ++ cs = text ++ rest) :
    (∃ inner, inner ≠ [] ∧ text = front ++ inner) ∨ ∃ inner, front = text ++ inner ∧ inner ++ cs = rest := by
  rcases List.append_eq_append_iff.1 h with ⟨inner, htext, hcs⟩ | ⟨inner, hfront, hrest⟩
  · by_cases hnil : inner = []
    · subst hnil
      exact .inr ⟨[], by rw [htext, List.append_nil, List.append_nil], hcs⟩
    · exact .inl ⟨inner, hnil, htext⟩
  · exact .inr ⟨inner, hfront, hrest.symm⟩

/-- Whether a text that begins behind {lit}`front` begins inside the text of a mention behind
{lit}`outer`. -/
def Inside (front outer : List Char) (m : Mention) : Prop :=
  ∃ inner tail, inner ≠ [] ∧ tail ≠ [] ∧ front = outer ++ inner ∧ m.text = inner ++ tail

/-- Whether the mention behind a front of a text is one of the pieces, unless it begins inside another one
that is. -/
def Lists (pieces : List Piece) (front : List Char) (m : Mention) : Prop :=
  ∃ as other bs, pieces = as ++ mention other :: bs ∧
    (as.flatMap text = front ∧ other = m ∨ Inside front (as.flatMap text) other)

theorem Lists.cons {pieces : List Piece} {front : List Char} {m : Mention} (piece : Piece)
    (h : Lists pieces front m) : Lists (piece :: pieces) (piece.text ++ front) m := by
  obtain ⟨as, other, bs, rfl, ⟨rfl, rfl⟩ | ⟨inner, tail, hinner, htail, rfl, hmention⟩⟩ := h
  · exact ⟨piece :: as, other, bs, rfl, .inl ⟨rfl, rfl⟩⟩
  · refine ⟨piece :: as, other, bs, rfl, .inr ⟨inner, tail, hinner, htail, ?_, hmention⟩⟩
    rw [List.flatMap_cons, List.append_assoc]

/-- What a rule finds is one of the pieces, unless it begins inside another mention. -/
theorem lists_of_find {front cs rest : List Char} {m : Mention} {before : Option Char}
    (hfind : rule.find (lastOf before front) cs = some (m, rest)) :
    Lists (cut rule before (front ++ cs)) front m := by
  generalize htext : front ++ cs = source
  fun_induction cut rule before source generalizing front with
  | case1 =>
    have hsplit := rule.splits hfind
    rw [(List.append_eq_nil_iff.1 htext).2] at hsplit
    have hfront := (List.append_eq_nil_iff.1 (List.append_eq_nil_iff.1 hsplit.symm).1).1
    exact absurd (List.append_eq_nil_iff.1 hfront).1 (rule.proper hfind)
  | case2 before c source other rest' hread ih =>
    by_cases hfront : front = []
    · -- it is the mention that is read here
      subst hfront
      rw [← htext, List.nil_append] at hread
      cases hread.symm.trans hfind
      exact ⟨[], _, _, rfl, .inl ⟨rfl, rfl⟩⟩
    · rw [rule.splits hread] at htext
      rcases ends_inside_or_behind htext with ⟨tail, htail, hother⟩ | ⟨inner, rfl, hrest⟩
      · exact ⟨[], other, _, rfl, .inr ⟨front, tail, hfront, htail, rfl, hother⟩⟩
      · rw [lastOf_append] at hfind
        exact (ih hfind hrest).cons (mention other)
  | case3 before c source hnone ih =>
    cases front with
    | nil =>
      rw [← htext, List.nil_append] at hnone
      cases hnone.symm.trans hfind
    | cons d front =>
      obtain ⟨rfl, htail⟩ := List.cons.inj htext
      exact (ih hfind htail).cons (plain d)

end Piece

/-- A site stands where the rule found its mention. -/
theorem exists_of_mem_sitesOf {rule : Rule} {source : String} {site : Piece.Site}
    (h : site ∈ sitesOf rule source) :
    ∃ front rest seen, source.toList = front ++ (site.mention.text ++ rest) ∧
      site.place = start.behind (front ++ site.mention.front) ∧
      rule.find seen (site.mention.text ++ rest) = some (site.mention, rest) :=
  Piece.exists_of_mem_sites h

/-- The sites of a rule stand one behind the other. -/
theorem pairwise_sitesOf (rule : Rule) (source : String) :
    (sitesOf rule source).Pairwise fun a b => a.place.Before b.place :=
  Piece.pairwise_sites rule start none source.toList

/-- Whether what stands behind a front of a source begins inside a mention that a rule reports. -/
def Rule.Covers (rule : Rule) (source : String) (front : List Char) : Prop :=
  ∃ outer rest m, source.toList = outer ++ (m.text ++ rest) ∧
    ⟨start.behind (outer ++ m.front), m⟩ ∈ sitesOf rule source ∧ Piece.Inside front outer m

/-- What a rule finds in a source is reported, unless it begins inside another mention. -/
theorem mem_sitesOf_or_covers {rule : Rule} {source : String} {front cs rest : List Char} {m : Mention}
    (hsource : source.toList = front ++ cs)
    (hfind : rule.find (Piece.lastOf none front) cs = some (m, rest)) :
    ⟨start.behind (front ++ m.front), m⟩ ∈ sitesOf rule source ∨ rule.Covers source front := by
  obtain ⟨as, other, bs, hpieces, hplace⟩ := Piece.lists_of_find hfind
  rw [← hsource] at hpieces
  have hmem := Piece.sites_place start as bs other
  rw [← hpieces] at hmem
  rcases hplace with ⟨rfl, rfl⟩ | hinside
  · exact .inl hmem
  · refine .inr ⟨as.flatMap Piece.text, bs.flatMap Piece.text, other, ?_, hmem, hinside⟩
    rw [← Piece.text_cut rule none source.toList, hpieces, List.flatMap_append, List.flatMap_cons]
    rfl

end Source
end ModuleBundler
