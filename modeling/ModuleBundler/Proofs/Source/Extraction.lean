import ModuleBundler.Proofs.Source.Position
import ModuleBundler.Source.Compile

/-!
# Where the imports of a source stand

Every dependency that a source declares has a place, and there, directly between
two quotes, stands the text that it was made from.  The imports of a script are
found by three rules, each of which reads the whole script; what stands in front of
the opening quote tells the rules apart, so no specifier is found twice.

Main results:

- Theorem {lit}`Source.exists_stands`: a rule that looks for quotes finds a text between two of them.
- Theorem {lit}`Script.caller_of_endsInCall` and theorem {lit}`Script.caller_of_endsInClause`: the text in
  front of a quote belongs to one rule.
- Theorem {lit}`Script.pairwise_imports`: the imports of a script stand one behind the other.
- Theorem {lit}`Source.reports_of_mem_rules`: no rule overlooks a mention.
- Theorem {lit}`Source.dependencies_exact`: where the dependencies of a source stand, and what they say.
-/

namespace ModuleBundler
namespace Source

open Location (start)

/-! ## Quoted mentions -/

/-- Whether a rule finds only specifiers between two quotes, and {lit}`lead` holds of the text in front of
the opening quote, with anything before it. -/
def Rule.Quotes (rule : Rule) (lead : List Char → Prop) : Prop :=
  ∀ ⦃before : Option Char⦄ ⦃cs : List Char⦄ ⦃m : Mention⦄ ⦃rest : List Char⦄,
    rule.find before cs = some (m, rest) →
      ∃ front opening closing back, m.front = front ++ [opening] ∧ m.back = closing :: back ∧
        isQuote opening = true ∧ isQuote closing = true ∧ ∀ outer, lead (outer ++ front)

/-- Whether a site stands in a source: its specifier is the quoted text behind {lit}`front`. -/
structure Piece.Site.Stands (site : Site) (source : String) (front : List Char) (quoted : Quoted) :
    Prop where
  text : source.toList = front ++ quoted.opening :: quoted.body ++ quoted.closing :: quoted.rest
  opening : isQuote quoted.opening = true
  closing : isQuote quoted.closing = true
  specifier : site.mention.specifier = quoted.body
  place : site.place = start.behind (front ++ [quoted.opening])

/-- A rule that looks for quotes finds a text between two of them. -/
theorem exists_stands {rule : Rule} {lead : List Char → Prop} (hquotes : rule.Quotes lead)
    {source : String} {site : Piece.Site} (h : site ∈ sitesOf rule source) :
    ∃ front quoted, site.Stands source front quoted ∧ lead front := by
  obtain ⟨outer, rest, seen, htext, hplace, hfind⟩ := exists_of_mem_sitesOf h
  obtain ⟨front, opening, closing, back, hfront, hback, hopening, hclosing, hlead⟩ := hquotes hfind
  refine ⟨outer ++ front, ⟨opening, site.mention.specifier, closing, back ++ rest⟩, ?_, hlead outer⟩
  refine ⟨?_, hopening, hclosing, rfl, ?_⟩
  · rw [htext, Mention.text, hfront, hback]
    simp
  · rw [hplace, hfront, List.append_assoc]

/-! ## What stands in front of the quotes of a script -/

namespace Script

/-- Whether a text ends with a call that waits for its argument: the name, blanks, a bracket, blanks. -/
def EndsInCall (name front : List Char) : Prop :=
  ∃ before gap inner, front = before ++ name ++ gap ++ '(' :: inner ∧
    gap.all Text.isBlank = true ∧ inner.all Text.isBlank = true

/-- Whether a text ends with a statement that waits for its specifier: a keyword and a clause. -/
def EndsInClause (front : List Char) : Prop :=
  ∃ before keyword run, front = before ++ keyword ++ run ∧
    (keyword = "import".toList ∨ keyword = "export".toList) ∧ isClause run = true

/-- The last character in front of an opening bracket with which a text ends, blanks apart. -/
def caller (front : List Char) : Option Char :=
  match front.reverse.dropWhile Text.isBlank with
  | '(' :: rest => (rest.dropWhile Text.isBlank).head?
  | _ => none

theorem dropWhile_isBlank_append {gap : List Char} (h : gap.all Text.isBlank = true) (cs : List Char) :
    (gap.reverse ++ cs).dropWhile Text.isBlank = cs.dropWhile Text.isBlank := by
  apply List.dropWhile_append_of_pos
  intro c hc
  exact List.all_eq_true.1 h c (List.mem_reverse.1 hc)

/-- In front of the bracket of a call stands the name of the function. -/
theorem caller_of_endsInCall (stem : List Char) {front : List Char} {last : Char} (hlast : Text.isBlank last = false)
    (h : EndsInCall (stem ++ [last]) front) : caller front = some last := by
  obtain ⟨before, gap, inner, rfl, hgap, hinner⟩ := h
  have hreverse : (before ++ (stem ++ [last]) ++ gap ++ '(' :: inner).reverse =
      inner.reverse ++ '(' :: (gap.reverse ++ last :: (stem.reverse ++ before.reverse)) := by
    simp
  have hbracket : Text.isBlank '(' = false := by decide
  unfold caller
  rw [hreverse, dropWhile_isBlank_append hinner, List.dropWhile_cons_of_neg (by simp [hbracket])]
  change ((gap.reverse ++ last :: (stem.reverse ++ before.reverse)).dropWhile Text.isBlank).head? = _
  rw [dropWhile_isBlank_append hgap, List.dropWhile_cons_of_neg (by simp [hlast]), List.head?_cons]

/-- A statement does not end with a bracket. -/
theorem caller_of_endsInClause {front : List Char} (h : EndsInClause front) : caller front = none := by
  obtain ⟨before, keyword, run, rfl, hkeyword, hrun⟩ := h
  obtain ⟨stem, hstem⟩ : ∃ stem, keyword = stem ++ ['t'] := by
    rcases hkeyword with rfl | rfl
    · exact ⟨"impor".toList, rfl⟩
    · exact ⟨"expor".toList, rfl⟩
  have hreverse : (before ++ keyword ++ run).reverse =
      run.reverse ++ 't' :: (stem.reverse ++ before.reverse) := by
    simp [hstem]
  unfold caller
  rw [hreverse]
  rcases Bool.or_eq_true_iff.1 hrun with hblank | hbinding
  · have hall := (Bool.and_eq_true_iff.1 hblank).2
    have hletter : Text.isBlank 't' = false := by decide
    rw [dropWhile_isBlank_append hall, List.dropWhile_cons_of_neg (by simp [hletter])]
    rfl
  · -- the word in front of the blanks is the one behind the names
    unfold isBinding at hbinding
    split at hbinding
    · rename_i last _ rest _ hword
      rw [List.dropWhile_append, hword]
      simp
    · cases hbinding

/-! ## The three rules -/

theorem findClause_quotes {keyword cs rest : List Char} {m : Mention}
    (h : findClause keyword cs = some (m, rest)) :
    ∃ run opening closing, m.front = keyword ++ run ++ [opening] ∧ m.back = [closing] ∧
      isQuote opening = true ∧ isQuote closing = true ∧ isClause run = true := by
  unfold findClause at h
  split at h
  · cases h
  · split at h
    · rename_i hclause
      split at h
      · cases h
      · rename_i q hq
        cases h
        obtain ⟨hopening, hclosing⟩ := quoted?_quotes hq
        exact ⟨_, _, _, rfl, rfl, hopening, hclosing, hclause⟩
    · cases h

theorem statement_quotes : statement.Quotes EndsInClause := by
  intro before cs m rest h
  change (if startsStatement before then _ else none) = _ at h
  split at h
  · obtain ⟨keyword, hkeyword, hfind⟩ : ∃ keyword,
        (keyword = "import".toList ∨ keyword = "export".toList) ∧
          findClause keyword cs = some (m, rest) := by
      rcases Option.or_eq_some_iff.1 h with hfind | ⟨-, hfind⟩
      · exact ⟨_, .inl rfl, hfind⟩
      · exact ⟨_, .inr rfl, hfind⟩
    obtain ⟨run, opening, closing, hfront, hback, hopening, hclosing, hrun⟩ := findClause_quotes hfind
    exact ⟨keyword ++ run, opening, closing, [], hfront, hback, hopening, hclosing,
      fun outer => ⟨outer, keyword, run, (List.append_assoc _ _ _).symm, hkeyword, hrun⟩⟩
  · cases h

theorem all_blanks (cs : List Char) : (blanks cs).1.all Text.isBlank = true :=
  List.all_takeWhile

theorem call_quotes (name : List Char) : (call name).Quotes (EndsInCall name) := by
  intro before cs m rest h
  change findCall name before cs = _ at h
  unfold findCall at h
  split at h
  · cases h
  · split at h
    · cases h
    · rename_i tail htail
      split at h
      · rename_i inner hinner
        split at h
        · cases h
        · rename_i q hq
          split at h
          · cases h
            obtain ⟨hopening, hclosing⟩ := quoted?_quotes hq
            refine ⟨name ++ (blanks tail).1 ++ '(' :: (blanks inner).1, q.opening, q.closing, _,
              rfl, rfl, hopening, hclosing, fun outer => ?_⟩
            exact ⟨outer, (blanks tail).1, (blanks inner).1, by simp, all_blanks tail, all_blanks inner⟩
          · cases h
      · cases h

/-! ## The imports of a script -/

/-- Whether a site stands in a source behind a text with the given caller. -/
def IsCalledBy (source : String) (mark : Option Char) (site : Piece.Site) : Prop :=
  ∃ front quoted, site.Stands source front quoted ∧ caller front = mark

theorem isCalledBy_statement {source : String} {site : Piece.Site} (h : site ∈ sitesOf statement source) :
    IsCalledBy source none site := by
  obtain ⟨front, quoted, hstands, hends⟩ := exists_stands statement_quotes h
  exact ⟨front, quoted, hstands, caller_of_endsInClause hends⟩

theorem isCalledBy_call (stem : List Char) {last : Char} (hlast : Text.isBlank last = false)
    {source : String} {site : Piece.Site} (h : site ∈ sitesOf (call (stem ++ [last])) source) :
    IsCalledBy source (some last) site := by
  obtain ⟨front, quoted, hstands, hends⟩ := exists_stands (call_quotes _) h
  exact ⟨front, quoted, hstands, caller_of_endsInCall stem hlast hends⟩

/-- Sites with different callers in front of them are at different places. -/
theorem place_ne_of_isCalledBy {source : String} {a b : Piece.Site} {markA markB : Option Char}
    (ha : IsCalledBy source markA a) (hb : IsCalledBy source markB b) (hne : markA ≠ markB) :
    a.place ≠ b.place := by
  obtain ⟨frontA, quotedA, hstandsA, rfl⟩ := ha
  obtain ⟨frontB, quotedB, hstandsB, rfl⟩ := hb
  intro heq
  have htext : (frontA ++ [quotedA.opening]) ++ (quotedA.body ++ quotedA.closing :: quotedA.rest) =
      (frontB ++ [quotedB.opening]) ++ (quotedB.body ++ quotedB.closing :: quotedB.rest) := by
    simpa using hstandsA.text.symm.trans hstandsB.text
  have hplace : start.behind (frontA ++ [quotedA.opening]) = start.behind (frontB ++ [quotedB.opening]) := by
    rw [← hstandsA.place, ← hstandsB.place, heq]
  have hsame := Location.eq_of_behind_eq htext hplace
  exact hne (congrArg caller (List.append_inj_left' hsame rfl))

theorem comesBefore_iff {a b : Import} :
    comesBefore a b = true ↔ a.site.place = b.site.place ∨ a.site.place.Before b.site.place := by
  obtain ⟨⟨⟨lineA, columnA⟩, _⟩, _⟩ := a
  obtain ⟨⟨⟨lineB, columnB⟩, _⟩, _⟩ := b
  simp only [comesBefore, Location.Before, Bool.or_eq_true, Bool.and_eq_true, decide_eq_true_eq,
    Location.mk.injEq]
  omega

/-- What one rule finds in a script. -/
def foundBy (source : String) (dynamic : Bool) (rule : Rule) : List Import :=
  (sitesOf rule source).map fun site => ⟨site, dynamic⟩

/-- What the three rules find is at different places. -/
theorem pairwise_found (source : String) :
    (foundBy source false statement ++ foundBy source false (call "require".toList) ++
      foundBy source true (call "import".toList)).Pairwise fun a b => a.site.place ≠ b.site.place := by
  have hrule : ∀ (dynamic : Bool) (rule : Rule),
      (foundBy source dynamic rule).Pairwise fun a b => a.site.place ≠ b.site.place := by
    intro dynamic rule
    rw [foundBy, List.pairwise_map]
    refine (pairwise_sitesOf rule source).imp fun {a b} hbefore heq => ?_
    rw [heq] at hbefore
    exact Location.Before.irrefl _ hbefore
  have hrequire : ∀ site ∈ sitesOf (call "require".toList) source, IsCalledBy source (some 'e') site :=
    fun site h => isCalledBy_call "requir".toList (by decide) h
  have himport : ∀ site ∈ sitesOf (call "import".toList) source, IsCalledBy source (some 't') site :=
    fun site h => isCalledBy_call "impor".toList (by decide) h
  refine List.pairwise_append.2 ⟨List.pairwise_append.2 ⟨hrule _ _, hrule _ _, ?_⟩, hrule _ _, ?_⟩
  · simp only [foundBy, List.forall_mem_map]
    exact fun a ha b hb => place_ne_of_isCalledBy (isCalledBy_statement ha) (hrequire b hb) nofun
  · simp only [foundBy, List.mem_append, List.mem_map]
    rintro _ (⟨a, ha, rfl⟩ | ⟨a, ha, rfl⟩) _ ⟨b, hb, rfl⟩
    · exact place_ne_of_isCalledBy (isCalledBy_statement ha) (himport b hb) nofun
    · exact place_ne_of_isCalledBy (hrequire a ha) (himport b hb) (by decide)

/-- The imports of a script stand one behind the other. -/
theorem pairwise_imports (source : String) :
    (imports source).Pairwise fun a b => a.site.place.Before b.site.place := by
  have hsorted : (imports source).Pairwise fun a b => comesBefore a b = true := by
    apply List.pairwise_mergeSort
    · intro a b c hab hbc
      rw [comesBefore_iff] at *
      rcases hab with hab | hab
      · rwa [hab]
      · rcases hbc with hbc | hbc
        · exact .inr (hbc ▸ hab)
        · exact .inr (hab.trans hbc)
    · intro a b
      rw [Bool.or_eq_true, comesBefore_iff, comesBefore_iff]
      rcases a.site.place.eq_or_before b.site.place with heq | hbefore | hbefore
      · exact .inl (.inl heq)
      · exact .inl (.inr hbefore)
      · exact .inr (.inr hbefore)
  have hapart : (imports source).Pairwise fun a b => a.site.place ≠ b.site.place :=
    ((List.mergeSort_perm _ comesBefore).pairwise_iff fun hne => hne.symm).2 (pairwise_found source)
  refine (hsorted.and hapart).imp fun ⟨hle, hne⟩ => ?_
  exact (comesBefore_iff.1 hle).resolve_left hne

/-- An import stands in its script, and what stands in front of the quote says whether it is loaded only
when it runs. -/
theorem exists_stands_of_mem_imports {source : String} {found : Import} (h : found ∈ imports source) :
    ∃ front quoted, found.site.Stands source front quoted ∧
      (found.dynamic = true ↔ EndsInCall "import".toList front) := by
  unfold imports at h
  rw [List.mem_mergeSort] at h
  simp only [List.mem_append, List.mem_map] at h
  have hnot : ∀ {front : List Char} {mark : Option Char}, caller front = mark → mark ≠ some 't' →
      (false = true ↔ EndsInCall "import".toList front) := by
    intro front mark hcaller hne
    refine iff_of_false Bool.noConfusion fun hends => hne ?_
    rw [← hcaller]
    exact caller_of_endsInCall "impor".toList (by decide) hends
  rcases h with (⟨site, hsite, rfl⟩ | ⟨site, hsite, rfl⟩) | ⟨site, hsite, rfl⟩
  · obtain ⟨front, quoted, hstands, hcaller⟩ := isCalledBy_statement hsite
    exact ⟨front, quoted, hstands, hnot hcaller nofun⟩
  · obtain ⟨front, quoted, hstands, hcaller⟩ :=
      isCalledBy_call "requir".toList (by decide) hsite
    exact ⟨front, quoted, hstands, hnot hcaller (by decide)⟩
  · obtain ⟨front, quoted, hstands, hends⟩ := exists_stands (call_quotes _) hsite
    exact ⟨front, quoted, hstands, iff_of_true rfl hends⟩

end Script

/-! ## Stylesheets -/

/-- An import rule starts with its keyword, has its specifier between quotes and ends with a semicolon. -/
theorem Stylesheet.findImport_quotes {cs rest : List Char} {m : Mention}
    (h : Stylesheet.findImport cs = some (m, rest)) :
    ∃ gap opening closing media, m.front = "@import".toList ++ gap ++ [opening] ∧
      m.back = closing :: media ++ [';'] ∧ isQuote opening = true ∧ isQuote closing = true := by
  unfold findImport at h
  split at h
  · cases h
  · rename_i tail htail
    split at h
    · cases h
    · split at h
      · cases h
      · rename_i q hq
        split at h
        · cases h
        · rename_i semicolon last hlast
          cases h
          obtain ⟨hopening, hclosing⟩ := quoted?_quotes hq
          have hsemicolon : semicolon = ';' := by
            have hnot := List.head_dropWhile_not isInRule (l := q.rest) (by simp [hlast])
            simpa [hlast, isInRule] using hnot
          exact ⟨(blanks tail).1 ++ (urlOpening (blanks tail).2).1, q.opening, q.closing,
            q.rest.takeWhile isInRule, by simp, by rw [hsemicolon], hopening, hclosing⟩

theorem Stylesheet.importRule_quotes : Stylesheet.importRule.Quotes fun _ => True := by
  intro before cs m rest h
  obtain ⟨gap, opening, closing, media, hfront, hback, hopening, hclosing⟩ := findImport_quotes h
  exact ⟨_, opening, closing, _, hfront, hback, hopening, hclosing, fun _ => trivial⟩

/-! ## Pages -/

namespace Markup

theorem attribute?_quotes {name cs : List Char} {lead : Lead} (h : attribute? name cs = some lead) :
    isQuote lead.2.opening = true ∧ isQuote lead.2.closing = true := by
  unfold attribute? at h
  split at h
  · cases h
  · split at h
    · split at h
      · cases h
      · split at h
        · obtain ⟨q, hq, rfl⟩ := Option.map_eq_some_iff.1 h
          exact quoted?_quotes hq
        · cases h
    · cases h

theorem findAttribute_quotes {cs : List Char} {lead : Lead} (h : findAttribute cs = some lead) :
    isQuote lead.2.opening = true ∧ isQuote lead.2.closing = true := by
  induction cs generalizing lead with
  | nil => cases h
  | cons c cs ih =>
    unfold findAttribute at h
    split at h
    · rename_i found hfound
      cases h
      rcases Option.or_eq_some_iff.1 hfound with h | ⟨-, h⟩ <;> exact attribute?_quotes h
    · split at h
      · cases h
      · obtain ⟨inner, hinner, rfl⟩ := Option.map_eq_some_iff.1 h
        exact @ih inner hinner

theorem findTag_quotes {name cs rest : List Char} {m : Mention} (h : findTag name cs = some (m, rest)) :
    ∃ front opening closing, m.front = front ++ [opening] ∧ m.back = [closing] ∧
      isQuote opening = true ∧ isQuote closing = true := by
  unfold findTag at h
  split at h
  · cases h
  · split at h
    · obtain ⟨lead, hlead, heq⟩ := Option.map_eq_some_iff.1 h
      cases heq
      obtain ⟨hopening, hclosing⟩ := findAttribute_quotes hlead
      exact ⟨_, _, _, rfl, rfl, hopening, hclosing⟩
    · cases h

theorem tag_quotes : tag.Quotes fun _ => True := by
  intro before cs m rest h
  obtain ⟨name, hfind⟩ : ∃ name, findTag name cs = some (m, rest) := by
    rcases Option.or_eq_some_iff.1 h with h | ⟨-, h⟩
    · exact ⟨_, h⟩
    · rcases Option.or_eq_some_iff.1 h with h | ⟨-, h⟩ <;> exact ⟨_, h⟩
  obtain ⟨front, opening, closing, hfront, hback, hopening, hclosing⟩ := findTag_quotes hfind
  exact ⟨front, opening, closing, [], hfront, hback, hopening, hclosing, fun _ => trivial⟩

end Markup

/-! ## Dependencies -/

/-- Whether a dependency comes before another one in the source that declares both. -/
def Precedes (a b : Dependency) : Prop :=
  ∃ placeA placeB, a.place = some placeA ∧ b.place = some placeB ∧ placeA.Before placeB

/-- How a dependency of a file stands in the source of the file: what is quoted behind {lit}`front`. -/
structure IsDeclared (path : Path) (source : String) (dep : Dependency) (front : List Char)
    (quoted : Quoted) : Prop where
  text : source.toList = front ++ quoted.opening :: quoted.body ++ quoted.closing :: quoted.rest
  opening : isQuote quoted.opening = true
  closing : isQuote quoted.closing = true
  /-- The place of the dependency is the place of one byte offset, where the quoted text starts. -/
  place : ∃ place, dep.place = some place ∧ ∀ offset ≤ source.utf8ByteSize,
    Location.ofOffset? source offset = some place ↔ offset = Text.byteLength (front ++ [quoted.opening])
  /-- Scripts name modules by the text itself, stylesheets and pages by URLs. -/
  specifier : dep.specifier = String.ofList
    (if Family.ofExtension (extensionOf path) = .script then quoted.body else Specifier.ofUrl quoted.body)
  /-- A module of a script is loaded on demand just if it is quoted in a call of {lit}`import`. -/
  dynamic : Family.ofExtension (extensionOf path) = .script →
    (dep.dynamic = true ↔ Script.EndsInCall "import".toList front)

/-- A dependency that was made from a site stands where the site stands. -/
theorem Piece.Site.Stands.isDeclared {site : Piece.Site} {source : String} {front : List Char}
    {quoted : Quoted} (h : site.Stands source front quoted) {path : Path} {dep : Dependency}
    (hplace : dep.place = some site.place)
    (hspecifier : dep.specifier = String.ofList (if Family.ofExtension (extensionOf path) = .script
      then site.mention.specifier else Specifier.ofUrl site.mention.specifier))
    (hdynamic : Family.ofExtension (extensionOf path) = .script →
      (dep.dynamic = true ↔ Script.EndsInCall "import".toList front)) :
    IsDeclared path source dep front quoted where
  text := h.text
  opening := h.opening
  closing := h.closing
  place := by
    refine ⟨site.place, hplace, fun offset hle => ?_⟩
    have hsplit : source.toList =
        (front ++ [quoted.opening]) ++ (quoted.body ++ quoted.closing :: quoted.rest) := by
      simp [h.text]
    rw [h.place]
    exact Location.ofOffset?_eq_some_iff hsplit hle
  specifier := by rw [hspecifier, h.specifier]
  dynamic := hdynamic

/-- Outside of scripts, what was made from a site as a URL stands where the site stands. -/
theorem exists_isDeclared_of_site {rule : Rule} {lead : List Char → Prop} (hquotes : rule.Quotes lead)
    {path : Path} (hfamily : Family.ofExtension (extensionOf path) ≠ .script) {source : String}
    {site : Piece.Site} (hsite : site ∈ sitesOf rule source) {dep : Dependency}
    (hplace : dep.place = some site.place)
    (hspecifier : dep.specifier = String.ofList (Specifier.ofUrl site.mention.specifier)) :
    ∃ front quoted, IsDeclared path source dep front quoted := by
  obtain ⟨front, quoted, hstands, -⟩ := exists_stands hquotes hsite
  refine ⟨front, quoted, hstands.isDeclared hplace ?_ fun hscript => absurd hscript hfamily⟩
  rw [hspecifier, if_neg hfamily]

/-- The dependencies of a source stand one behind the other. -/
theorem pairwise_dependencies (path : Path) (source : String) :
    (dependencies path source).Pairwise Precedes := by
  unfold dependencies
  dsimp only
  split
  · rw [List.pairwise_map]
    exact (Script.pairwise_imports source).imp fun h => ⟨_, _, rfl, rfl, h⟩
  · rw [List.pairwise_map]
    exact ((pairwise_sitesOf _ source).filter _).imp fun h => ⟨_, _, rfl, rfl, h⟩
  · rw [List.pairwise_map]
    exact ((pairwise_sitesOf _ source).filter _).imp fun h => ⟨_, _, rfl, rfl, h⟩
  · exact .nil
  · exact .nil

/-- Every dependency stands where the text stands that it was made from. -/
theorem exists_isDeclared {path : Path} {source : String} {dep : Dependency}
    (h : dep ∈ dependencies path source) : ∃ front quoted, IsDeclared path source dep front quoted := by
  unfold dependencies at h
  dsimp only at h
  cases hfamily : Family.ofExtension (extensionOf path) with
  | script =>
    rw [hfamily] at h
    obtain ⟨found, hfound, rfl⟩ := List.mem_map.1 h
    obtain ⟨front, quoted, hstands, hdynamic⟩ := Script.exists_stands_of_mem_imports hfound
    exact ⟨front, quoted, hstands.isDeclared rfl (by rw [hfamily]; rfl) fun _ => hdynamic⟩
  | style =>
    rw [hfamily] at h
    obtain ⟨site, hsite, rfl⟩ := List.mem_map.1 h
    exact exists_isDeclared_of_site Stylesheet.importRule_quotes (by rw [hfamily]; decide)
      (List.mem_of_mem_filter hsite) rfl rfl
  | markup =>
    rw [hfamily] at h
    obtain ⟨site, hsite, rfl⟩ := List.mem_map.1 h
    exact exists_isDeclared_of_site Markup.tag_quotes (by rw [hfamily]; decide)
      (List.mem_of_mem_filter hsite) rfl rfl
  | data => rw [hfamily] at h; cases h
  | other => rw [hfamily] at h; cases h

/-- The rules by which the sources of a family are read. -/
def Family.rules : Family → List Rule
  | script => [Script.statement, Script.call "require".toList, Script.call "import".toList]
  | style => [Stylesheet.importRule]
  | markup => [Markup.tag]
  | data => []
  | other => []

/-- Whether nothing that a rule finds in a source is missing among its dependencies: each mention has one at
its place, unless it begins inside another mention or leads outside, as it may in stylesheets and pages. -/
def Reports (path : Path) (source : String) (rule : Rule) : Prop :=
  ∀ front cs m rest, source.toList = front ++ cs → rule.find (Piece.lastOf none front) cs = some (m, rest) →
    (∃ dep ∈ dependencies path source, dep.place = some (start.behind (front ++ m.front))) ∨
      rule.Covers source front ∨
      (Family.ofExtension (extensionOf path) ≠ .script ∧ Specifier.isExternal m.specifier = true)

/-- Every site of a rule becomes a dependency, unless it leads outside. -/
theorem exists_dependency {path : Path} {source : String} {rule : Rule} {site : Piece.Site}
    (hrule : rule ∈ (Family.ofExtension (extensionOf path)).rules) (hsite : site ∈ sitesOf rule source) :
    (∃ dep ∈ dependencies path source, dep.place = some site.place) ∨
      (Family.ofExtension (extensionOf path) ≠ .script ∧ Specifier.isExternal site.mention.specifier = true) := by
  unfold dependencies
  dsimp only
  cases hfamily : Family.ofExtension (extensionOf path) with
  | script =>
    have hfound : ∃ found ∈ Script.imports source, found.site = site := by
      unfold Script.imports
      simp only [List.mem_mergeSort, List.mem_append, List.mem_map]
      rw [hfamily] at hrule
      simp only [Family.rules, List.mem_cons, List.not_mem_nil, or_false] at hrule
      rcases hrule with rfl | rfl | rfl
      · exact ⟨_, .inl (.inl ⟨site, hsite, rfl⟩), rfl⟩
      · exact ⟨_, .inl (.inr ⟨site, hsite, rfl⟩), rfl⟩
      · exact ⟨_, .inr ⟨site, hsite, rfl⟩, rfl⟩
    obtain ⟨found, hmem, rfl⟩ := hfound
    exact .inl ⟨_, List.mem_map_of_mem hmem, rfl⟩
  | style =>
    rw [hfamily] at hrule
    obtain rfl := List.mem_singleton.1 hrule
    cases hexternal : Specifier.isExternal site.mention.specifier with
    | true => exact .inr ⟨nofun, rfl⟩
    | false =>
      have hmem : site ∈ Stylesheet.imports source :=
        List.mem_filter.2 ⟨hsite, by simp [Stylesheet.isLocal, hexternal]⟩
      exact .inl ⟨_, List.mem_map_of_mem hmem, rfl⟩
  | markup =>
    rw [hfamily] at hrule
    obtain rfl := List.mem_singleton.1 hrule
    cases hexternal : Specifier.isExternal site.mention.specifier with
    | true => exact .inr ⟨nofun, rfl⟩
    | false =>
      have hmem : site ∈ Markup.references source := List.mem_filter.2 ⟨hsite, by simp [hexternal]⟩
      exact .inl ⟨_, List.mem_map_of_mem hmem, rfl⟩
  | data => rw [hfamily] at hrule; cases hrule
  | other => rw [hfamily] at hrule; cases hrule

/-- No rule overlooks a mention. -/
theorem reports_of_mem_rules {path : Path} {rule : Rule}
    (hrule : rule ∈ (Family.ofExtension (extensionOf path)).rules) (source : String) :
    Reports path source rule := by
  intro front cs m rest hsource hfind
  rcases mem_sitesOf_or_covers hsource hfind with hsite | hcovers
  · exact (exists_dependency hrule hsite).imp id .inr
  · exact .inr (.inl hcovers)

/-- The dependencies of a source stand one behind the other, each one where the text stands that it was made
from, and no mention is overlooked. -/
theorem dependencies_exact (path : Path) (source : String) :
    (dependencies path source).Pairwise Precedes ∧
      (∀ dep ∈ dependencies path source, ∃ front quoted, IsDeclared path source dep front quoted) ∧
      ∀ rule ∈ (Family.ofExtension (extensionOf path)).rules, Reports path source rule :=
  ⟨pairwise_dependencies path source, fun _ => exists_isDeclared,
    fun _ hrule => reports_of_mem_rules hrule source⟩

theorem dependencies_exact_app :
    { specifier := "a", dynamic := true, place := some ⟨1, 9⟩ } ∈
        dependencies ⟨"/src/app.js"⟩ "import('a')" ∧
      Script.call "import".toList ∈ (Family.ofExtension (extensionOf ⟨"/src/app.js"⟩)).rules ∧
      (dependencies ⟨"/src/app.js"⟩ "import('a')").Pairwise Precedes ∧
      (∃ front quoted, IsDeclared ⟨"/src/app.js"⟩ "import('a')"
        { specifier := "a", dynamic := true, place := some ⟨1, 9⟩ } front quoted) ∧
      Reports ⟨"/src/app.js"⟩ "import('a')" (Script.call "import".toList) := by
  have hdep : { specifier := "a", dynamic := true, place := some ⟨1, 9⟩ } ∈
      dependencies ⟨"/src/app.js"⟩ "import('a')" := by decide +kernel
  have hfamily : Family.ofExtension (extensionOf ⟨"/src/app.js"⟩) = .script := by decide +kernel
  have hrule : Script.call "import".toList ∈ (Family.ofExtension (extensionOf ⟨"/src/app.js"⟩)).rules := by
    rw [hfamily]
    exact List.mem_cons_of_mem _ (List.mem_cons_of_mem _ List.mem_cons_self)
  obtain ⟨hordered, hdeclared, hreports⟩ := dependencies_exact ⟨"/src/app.js"⟩ "import('a')"
  exact ⟨hdep, hrule, hordered, hdeclared _ hdep, hreports _ hrule⟩

end Source
end ModuleBundler
