import ModuleBundler.FileTree.Walk
import ModuleBundler.Proofs.Cache.Storing
import ModuleBundler.Proofs.Path.FileName
import ModuleBundler.Source.Compile

/-!
# How much compiling gives

A unit is not much greater than its source: there are no more imports than
characters, every mention lies inside the source, and the output is at most a
few characters longer.  So all lengths, lines and columns of a unit fit into eight
bytes, as soon as the source has no more characters than any memory can hold.

Main results:

- Theorem {lit}`Piece.within_of_mem_sites`: a mention and its place lie inside the text.
- Theorem {lit}`Source.length_output_le`: an output is hardly longer than its source.
- Theorem {lit}`Source.isWritable_compile`: what a source is compiled to can be written down.
-/

namespace ModuleBundler

/-! ## Bytes of characters -/

theorem utf8ByteSize_ofList_le (cs : List Char) : (String.ofList cs).utf8ByteSize ≤ 4 * cs.length := by
  induction cs with
  | nil => simp
  | cons c rest ih =>
    have hsize := c.utf8Size_le_four
    rw [String.ofList_cons, String.utf8ByteSize_append, String.utf8ByteSize_singleton, List.length_cons]
    omega

theorem utf8ByteSize_le (s : String) : s.utf8ByteSize ≤ 4 * s.toList.length := by
  have hsize := utf8ByteSize_ofList_le s.toList
  rwa [String.ofList_toList] at hsize

theorem length_le_utf8ByteSize (s : String) : s.toList.length ≤ s.utf8ByteSize := by
  rw [← String.ofList_toList (s := s)]
  generalize s.toList = cs
  rw [String.toList_ofList]
  induction cs with
  | nil => simp
  | cons c rest ih =>
    have hpos := c.utf8Size_pos
    rw [String.ofList_cons, String.utf8ByteSize_append, String.utf8ByteSize_singleton, List.length_cons]
    omega

/-! ## Lines and trimming -/

namespace Text

theorem length_trim_le (cs : List Char) : (trim cs).length ≤ cs.length := by
  have hstart : (trimStart cs).length ≤ cs.length := (List.dropWhile_suffix _).length_le
  have hend : (trimEnd (trimStart cs)).length ≤ (trimStart cs).length := by
    have hdrop := (List.dropWhile_suffix (l := (trimStart cs).reverse) isBlank).length_le
    rwa [List.length_reverse, ← List.length_reverse] at hdrop
  exact Nat.le_trans hend hstart

/-- The characters of all lines, with one more for each line. -/
def extent : List (List Char) → Nat
  | [] => 0
  | line :: rest => line.length + 1 + extent rest

@[simp]
theorem extent_nil : extent [] = 0 := rfl

@[simp]
theorem extent_cons (line : List Char) (rest : List (List Char)) :
    extent (line :: rest) = line.length + 1 + extent rest := rfl

theorem extent_consLine (c : Char) (rest : List (List Char)) :
    extent (consLine c rest) ≤ max 2 (extent rest + 1) := by
  cases rest with
  | nil => exact Nat.le_max_left _ _
  | cons line rest =>
    rw [consLine, extent_cons, extent_cons, List.length_cons]
    omega

theorem extent_lines (cs : List Char) : extent (lines cs) ≤ cs.length + 1 := by
  fun_induction lines cs with
  | case1 => exact Nat.zero_le _
  | case2 rest ih => simp only [extent_cons, List.length_nil, List.length_cons]; omega
  | case3 rest hnot ih => simp only [extent_cons, List.length_nil, List.length_cons]; omega
  | case4 c rest hnot hne ih =>
    have hcons := extent_consLine c (lines rest)
    rw [List.length_cons]
    omega

/-- Trimmed lines are not longer, and fewer of them neither. -/
theorem extent_dense_le (lines : List (List Char)) :
    extent ((lines.map trim).filter fun line => !line.isEmpty) ≤ extent lines := by
  induction lines with
  | nil => exact Nat.le_refl _
  | cons line rest ih =>
    have htrim := length_trim_le line
    rw [List.map_cons, List.filter_cons, extent_cons]
    split
    · rw [extent_cons]
      omega
    · omega

theorem length_le_intercalate {separator : List Char} {line : List Char} {lines : List (List Char)}
    (h : line ∈ lines) : line.length ≤ (separator.intercalate lines).length := by
  induction lines with
  | nil => cases h
  | cons first rest ih =>
    cases rest with
    | nil =>
      rw [List.mem_singleton] at h
      exact Nat.le_of_eq (by rw [List.intercalate_singleton, h])
    | cons second rest =>
      rw [List.intercalate_cons_cons]
      simp only [List.length_append]
      obtain rfl | hrest := List.mem_cons.1 h
      · omega
      · have hlength := ih hrest
        omega

theorem length_intercalate_lt (separator : Char) (line : List Char) (rest : List (List Char)) :
    ([separator].intercalate (line :: rest)).length < extent (line :: rest) := by
  induction rest generalizing line with
  | nil => simp
  | cons next rest ih =>
    have hrest := ih next
    rw [List.intercalate_cons_cons, extent_cons]
    simp only [List.length_append, List.length_cons, List.length_nil]
    omega

/-- Minified, a text is not longer than before. -/
theorem length_minify_le (cs : List Char) : (minify cs).length ≤ cs.length := by
  have hdense : extent (denseLines cs) ≤ cs.length + 1 :=
    Nat.le_trans (extent_dense_le (lines cs)) (extent_lines cs)
  unfold minify
  cases hlines : denseLines cs with
  | nil => exact Nat.zero_le _
  | cons line rest =>
    have hlength := length_intercalate_lt '\n' line rest
    rw [hlines] at hdense
    omega

/-! ## Lower case -/

theorem length_lowerFrom_le (before cs : List Char) : (lowerFrom before cs).length ≤ 2 * cs.length := by
  induction cs generalizing before with
  | nil => exact Nat.le_refl _
  | cons c rest ih =>
    have hrest := ih (c :: before)
    have hchar : (lowerChar c).length ≤ 2 := by
      unfold lowerChar
      split
      · exact Nat.le_succ 1
      · split
        · exact Nat.le_refl 2
        · exact Nat.le_succ 1
    rw [lowerFrom, List.length_append, List.length_cons]
    split
    · split <;> simp only [List.length_cons, List.length_nil] <;> omega
    · omega

end Text

namespace Path

/-- A piece of a path is not longer than the path. -/
theorem length_segment_le {p : Path} {segment : String} (h : segment ∈ p.segments) :
    segment.toList.length ≤ p.text.toList.length := by
  obtain ⟨piece, hpiece, rfl⟩ := List.mem_map.1 h
  rw [String.toList_ofList]
  have hjoin : ['/'].intercalate (p.text.toList.splitOn '/') = p.text.toList :=
    List.intercalate_splitOn '/'
  generalize p.text.toList.splitOn '/' = pieces at hpiece hjoin
  rw [← hjoin]
  exact Text.length_le_intercalate hpiece

theorem length_extension_le {p : Path} {extension : String} (h : p.extension? = some extension) :
    extension.toList.length ≤ p.text.toList.length := by
  obtain ⟨fileName, hname, hsplit⟩ := Option.bind_eq_some_iff.1 h
  have hfile := length_segment_le (mem_segments_of_name (List.mem_of_getLast? (getLast?_of_fileName? hname)))
  have hextension : extension.toList.length ≤ fileName.toList.length := by
    unfold splitName at hsplit
    dsimp only at hsplit
    split at hsplit
    · cases hsplit
    · split at hsplit
      · cases hsplit
      · cases hsplit
        rw [String.toList_ofList, List.length_reverse]
        exact Nat.le_trans (List.takeWhile_prefix _).length_le (Nat.le_of_eq List.length_reverse)
  exact Nat.le_trans hextension hfile

end Path

/-! ## Places -/

/-- Whether a place can stand behind so many characters. -/
def Location.Within (place : Location) (count : Nat) : Prop :=
  place.line ≤ 1 + count ∧ place.column ≤ 1 + 4 * count

namespace Location

theorem within_start : start.Within 0 :=
  ⟨Nat.le_refl _, Nat.le_refl _⟩

theorem Within.mono {place : Location} {count more : Nat} (h : place.Within count) (hle : count ≤ more) :
    place.Within more := by
  obtain ⟨hline, hcolumn⟩ := h
  constructor <;> omega

theorem Within.next {place : Location} {count : Nat} (h : place.Within count) (c : Char) :
    (place.next c).Within (count + 1) := by
  obtain ⟨hline, hcolumn⟩ := h
  have hsize := c.utf8Size_le_four
  unfold Location.next
  split
  · exact ⟨by dsimp only; omega, by dsimp only; omega⟩
  · exact ⟨by dsimp only; omega, by dsimp only; omega⟩

theorem Within.behind {place : Location} {count : Nat} (h : place.Within count) (cs : List Char) :
    (place.behind cs).Within (count + cs.length) := by
  induction cs generalizing place count with
  | nil => exact h
  | cons c rest ih =>
    have hrest := ih (h.next c)
    rw [List.length_cons, Nat.add_comm rest.length 1, ← Nat.add_assoc]
    exact hrest

end Location

namespace Source

/-! ## Mentions -/

namespace Piece

/-- Whether a mention and its place lie inside a text of so many characters. -/
structure Site.Within (site : Site) (count : Nat) : Prop where
  place : site.place.Within count
  mention : site.mention.text.length ≤ count

/-- A mention and its place lie inside the text. -/
theorem within_of_mem_sites {place : Location} {count : Nat} {pieces : List Piece} {site : Site}
    (hplace : place.Within count) (h : site ∈ sites place pieces) :
    site.Within (count + (pieces.flatMap text).length) := by
  induction pieces generalizing place count with
  | nil => cases h
  | cons piece rest ih =>
    cases piece with
    | plain c =>
      have hrest := ih (hplace.next c) h
      simpa [text, Nat.add_assoc, Nat.add_comm 1] using hrest
    | mention m =>
      obtain rfl | hmem := List.mem_cons.1 h
      · have hfront := hplace.behind m.front
        have hlength : m.text.length = m.front.length + m.specifier.length + m.back.length := by
          simp only [Mention.text, List.length_append]
        refine ⟨hfront.mono ?_, ?_⟩ <;>
          simp only [List.flatMap_cons, text, List.length_append] <;> omega
      · have hrest := ih (hplace.behind m.text) hmem
        simpa [text, Nat.add_assoc] using hrest

theorem length_sites_le (place : Location) (pieces : List Piece) :
    (sites place pieces).length ≤ pieces.length := by
  fun_induction sites place pieces with
  | case1 => exact Nat.le_refl _
  | case2 place c rest ih => exact Nat.le_succ_of_le ih
  | case3 place m rest ih => exact Nat.succ_le_succ ih

theorem length_cut_le (rule : Rule) (before : Option Char) (cs : List Char) :
    (cut rule before cs).length ≤ cs.length := by
  fun_induction cut rule before cs with
  | case1 => exact Nat.le_refl _
  | case2 before c cs m rest h ih =>
    have hpos := List.length_pos_iff.2 (rule.proper h)
    have hsplit : cs.length + 1 = m.front.length + m.specifier.length + m.back.length + rest.length := by
      simpa [Mention.text, Nat.add_assoc] using congrArg List.length (rule.splits h)
    rw [List.length_cons, List.length_cons]
    omega
  | case3 before c cs h ih => exact Nat.succ_le_succ ih

end Piece

theorem within_of_mem_sitesOf {rule : Rule} {source : String} {site : Piece.Site}
    (h : site ∈ sitesOf rule source) : site.Within source.toList.length := by
  have hwithin := Piece.within_of_mem_sites Location.within_start h
  rwa [Piece.text_cut, Nat.zero_add] at hwithin

theorem length_sitesOf_le (rule : Rule) (source : String) :
    (sitesOf rule source).length ≤ source.toList.length :=
  Nat.le_trans (Piece.length_sites_le _ _) (Piece.length_cut_le _ _ _)

/-! ## Dependencies -/

/-- More characters than any file has; with so many of them the numbers of a unit fit into eight bytes. -/
def maxLength : Nat := 1152921504606846976

namespace Specifier

theorem length_ofUrl_le (url : List Char) : (ofUrl url).length ≤ url.length + 2 := by
  unfold ofUrl
  split
  · rw [List.length_cons]
    omega
  · split
    · exact Nat.le_add_right _ _
    · exact Nat.le_refl _

end Specifier

namespace Stylesheet

theorem length_dropBracket_le (cs : List Char) : (dropBracket cs).length ≤ cs.length := by
  unfold dropBracket
  split
  · exact Nat.le_succ _
  · exact Nat.le_refl _

theorem length_mediaOf_le (mention : Mention) : (mediaOf mention).length ≤ mention.text.length := by
  have htrim := Text.length_trim_le
    (dropBracket ((mention.back.drop 1).dropLast.dropWhile Text.isBlank))
  have hbracket := length_dropBracket_le ((mention.back.drop 1).dropLast.dropWhile Text.isBlank)
  have hdrop := (List.dropWhile_suffix (l := (mention.back.drop 1).dropLast) Text.isBlank).length_le
  rw [List.length_dropLast, List.length_drop] at hdrop
  unfold mediaOf
  simp only [Mention.text, List.length_append]
  omega

/-- What is left of a stylesheet is not longer than the sheet. -/
theorem length_withoutLocalImports_le (source : String) :
    (withoutLocalImports source).toList.length ≤ source.toList.length := by
  have hremains (pieces : List Piece) :
      (pieces.flatMap remains).length ≤ (pieces.flatMap Piece.text).length := by
    induction pieces with
    | nil => exact Nat.le_refl _
    | cons piece rest ih =>
      have hpiece : (remains piece).length ≤ piece.text.length := by
        cases piece with
        | plain c => exact Nat.le_refl _
        | mention m =>
          rw [remains, Piece.text]
          split
          · exact Nat.zero_le _
          · exact Nat.le_refl _
      simp only [List.flatMap_cons, List.length_append]
      omega
  have hpieces := hremains (Piece.cut importRule none source.toList)
  rw [Piece.text_cut] at hpieces
  rwa [withoutLocalImports, String.toList_ofList]

end Stylesheet

open Cache.Record (IsWord)

/-- A text of hardly more characters than there can be takes a number of bytes that fits. -/
theorem isWord_utf8ByteSize {s : String} (h : s.toList.length ≤ maxLength + 18) :
    IsWord s.utf8ByteSize := by
  have hsize := utf8ByteSize_le s
  unfold IsWord UInt64.size
  unfold maxLength at h
  omega

theorem isWord_place {place : Location} {count : Nat} (h : place.Within count) (hcount : count ≤ maxLength) :
    IsWord place.line ∧ IsWord place.column := by
  obtain ⟨hline, hcolumn⟩ := h
  unfold maxLength at hcount
  unfold IsWord UInt64.size
  omega

section Dependencies

variable {source : String} (hsource : source.toList.length ≤ maxLength)

include hsource

theorem isWritable_ofSite {site : Piece.Site} {dep : Dependency}
    (hsite : site.Within source.toList.length)
    (hspecifier : dep.specifier.toList.length ≤ site.mention.specifier.length + 2)
    (hplace : dep.place = some site.place)
    (hmedia : ∀ media, dep.media = some media → media.toList.length ≤ site.mention.text.length) :
    dep.IsWritable where
  specifier := by
    have hmention := hsite.mention
    simp only [Mention.text, List.length_append] at hmention
    exact isWord_utf8ByteSize (by omega)
  place := by
    rintro place hsome
    rw [hplace] at hsome
    cases hsome
    exact isWord_place hsite.place hsource
  media := by
    rintro media hsome
    have hlength := hmedia media hsome
    have hmention := hsite.mention
    exact isWord_utf8ByteSize (by omega)

theorem isWritable_scriptDependency {found : Script.Import} (h : found ∈ Script.imports source) :
    (scriptDependency found).IsWritable := by
  have hsite : found.site.Within source.toList.length := by
    unfold Script.imports at h
    rw [List.mem_mergeSort] at h
    simp only [List.mem_append, List.mem_map] at h
    obtain (⟨site, hsite, rfl⟩ | ⟨site, hsite, rfl⟩) | ⟨site, hsite, rfl⟩ := h <;>
      exact within_of_mem_sitesOf hsite
  refine isWritable_ofSite hsource hsite ?_ rfl fun media hsome => by cases hsome
  unfold scriptDependency
  rw [String.toList_ofList]
  exact Nat.le_add_right _ _

theorem isWritable_styleDependency {site : Piece.Site} (inlined : Bool)
    (h : site ∈ Stylesheet.imports source) : (styleDependency inlined site).IsWritable := by
  have hsite : site.Within source.toList.length := within_of_mem_sitesOf (List.mem_filter.1 h).1
  refine isWritable_ofSite hsource hsite ?_ rfl ?_
  · unfold styleDependency
    rw [String.toList_ofList]
    exact Specifier.length_ofUrl_le _
  · rintro media hsome
    unfold styleDependency at hsome
    dsimp only at hsome
    split at hsome
    · cases hsome
    · cases hsome
      rw [String.toList_ofList]
      exact Stylesheet.length_mediaOf_le site.mention

theorem isWritable_markupDependency {site : Piece.Site} (h : site ∈ Markup.references source) :
    (markupDependency site).IsWritable := by
  have hsite : site.Within source.toList.length := within_of_mem_sitesOf (List.mem_filter.1 h).1
  refine isWritable_ofSite hsource hsite ?_ rfl fun media hsome => by cases hsome
  unfold markupDependency
  rw [String.toList_ofList]
  exact Specifier.length_ofUrl_le _

theorem isWritable_of_mem_dependencies {path : Path} {dep : Dependency}
    (h : dep ∈ dependencies path source) : dep.IsWritable := by
  unfold dependencies at h
  dsimp only at h
  split at h
  · obtain ⟨found, hfound, rfl⟩ := List.mem_map.1 h
    exact isWritable_scriptDependency hsource hfound
  · obtain ⟨site, hsite, rfl⟩ := List.mem_map.1 h
    exact isWritable_styleDependency hsource _ hsite
  · obtain ⟨site, hsite, rfl⟩ := List.mem_map.1 h
    exact isWritable_markupDependency hsource hsite
  · cases h
  · cases h

end Dependencies

/-- There are no more imports than three for each character. -/
theorem length_dependencies_le (path : Path) (source : String) :
    (dependencies path source).length ≤ 3 * source.toList.length := by
  have hsites (rule : Rule) := length_sitesOf_le rule source
  unfold dependencies
  dsimp only
  split
  · have hstatement := hsites Script.statement
    have hrequire := hsites (Script.call "require".toList)
    have himport := hsites (Script.call "import".toList)
    unfold Script.imports
    simp only [List.length_map, List.length_mergeSort, List.length_append]
    omega
  · have himport := hsites Stylesheet.importRule
    have hfilter := List.length_filter_le (fun site : Piece.Site => Stylesheet.isLocal site.mention)
      (sitesOf Stylesheet.importRule source)
    rw [List.length_map, Stylesheet.imports]
    omega
  · have htag := hsites Markup.tag
    have hfilter := List.length_filter_le
      (fun site : Piece.Site => !Specifier.isExternal site.mention.specifier) (sitesOf Markup.tag source)
    rw [List.length_map, Markup.references]
    omega
  · exact Nat.zero_le _
  · exact Nat.zero_le _

/-! ## Output -/

theorem length_exporting_le (source : String) :
    (exporting source).toList.length ≤ source.toList.length + 18 := by
  have htrim := Text.length_trim_le source.toList
  have hopening : "module.exports = ".toList.length = 17 := rfl
  have hclosing : ";".toList.length = 1 := rfl
  unfold exporting Text.trimString
  generalize "module.exports = " = opening at hopening ⊢
  generalize ";" = closing at hclosing ⊢
  rw [String.toList_append, String.toList_append, String.toList_ofList, List.length_append,
    List.length_append, hopening, hclosing]
  omega

/-- An output is hardly longer than its source. -/
theorem length_output_le {path : Path} {source text : String} (h : output path source = .ok text) :
    text.toList.length ≤ source.toList.length + 18 := by
  unfold output at h
  dsimp only at h
  split at h
  · split at h
    · cases h
      exact length_exporting_le source
    · cases h
  · cases h
    split
    · exact Nat.le_add_right _ _
    · exact Nat.le_trans (Stylesheet.length_withoutLocalImports_le source) (Nat.le_add_right _ _)
  · cases h
    exact Nat.le_add_right _ _

theorem length_extensionOf_le (path : Path) :
    (extensionOf path).toList.length ≤ 2 * path.text.toList.length := by
  unfold extensionOf Path.foldedExtension
  cases hextension : path.extension? with
  | none => exact Nat.zero_le _
  | some extension =>
    have hlength := Path.length_extension_le hextension
    have hlower := Text.length_lowerFrom_le [] extension.toList
    rw [Option.map_some, Option.getD_some, Text.lowercase, String.toList_ofList]
    omega

theorem length_kindOf_le (path : Path) :
    (kindOf path).tag.toList.length ≤ 2 * path.text.toList.length + 4 := by
  have hextension := length_extensionOf_le path
  unfold kindOf Family.outputKind
  split
  · exact Nat.le_trans (by decide) (Nat.le_add_left _ _)
  · exact Nat.le_trans (by decide) (Nat.le_add_left _ _)
  · exact Nat.le_trans (by decide) (Nat.le_add_left _ _)
  · exact Nat.le_trans (by decide) (Nat.le_add_left _ _)
  · exact Nat.le_trans hextension (Nat.le_add_right _ _)

theorem length_fingerprint (generated : Generated) : generated.fingerprint.toList.length = 64 := by
  have hdigest := Cache.Store.length_digest generated.fingerprintBytes
  have hhex (bytes : List UInt8) : (Blake3.hexBytes bytes).length = 2 * bytes.length := by
    induction bytes with
    | nil => rfl
    | cons byte rest ih =>
      rw [Blake3.hexBytes] at ih
      rw [Blake3.hexBytes, List.flatMap_cons, List.length_append, ih, List.length_cons]
      simp only [List.length_cons, List.length_nil]
      omega
  unfold Generated.fingerprint Blake3.hex
  rw [String.toList_ofList, hhex, hdigest]
  rfl

theorem dependencies_compile {path : Path} {minify : Bool} {source : String} {unit : CompiledUnit}
    (h : compile path minify source = .ok unit) : unit.dependencies = dependencies path source := by
  unfold compile at h
  cases houtput : output path source with
  | error failure => rw [houtput] at h; cases h
  | ok text =>
    rw [houtput] at h
    cases h
    rfl

theorem length_minified_le (minify : Bool) (text : String) :
    (if minify then Text.minifyString text else text).toList.length ≤ text.toList.length := by
  split
  · rw [Text.minifyString, String.toList_ofList]
    exact Text.length_minify_le _
  · exact Nat.le_refl _

/-- What a source is compiled to can be written down. -/
theorem isWritable_compile {path : Path} {minify : Bool} {source : String} {unit : CompiledUnit}
    (hpath : path.text.utf8ByteSize ≤ FileTree.maxPath) (hsource : source.toList.length ≤ maxLength)
    (h : compile path minify source = .ok unit) : unit.IsWritable := by
  unfold compile at h
  cases houtput : output path source with
  | error failure => rw [houtput] at h; cases h
  | ok text =>
    rw [houtput] at h
    cases h
    have hlimit : maxLength = 1152921504606846976 := rfl
    have htext := length_output_le houtput
    have hminified := length_minified_le minify text
    have hkind := length_kindOf_le path
    have hcharacters := length_le_utf8ByteSize path.text
    have hshort : FileTree.maxPath = 4095 := rfl
    have himports := length_dependencies_le path source
    refine ⟨?_, ?_, ?_, ?_, fun dep hmem => isWritable_of_mem_dependencies hsource hmem⟩
    · exact show 1 < UInt64.size by decide
    · intro entry hmem
      obtain rfl := List.mem_singleton.1 hmem
      have htag : (kindOf path).tag.toList.length ≤ maxLength + 18 := by omega
      have houtput := Nat.le_trans hminified (Nat.le_trans htext (Nat.add_le_add_right hsource 18))
      exact ⟨isWord_utf8ByteSize htag, isWord_utf8ByteSize houtput⟩
    · exact isWord_utf8ByteSize (by rw [length_fingerprint]; omega)
    · unfold IsWord UInt64.size
      dsimp only
      omega

end Source
end ModuleBundler
