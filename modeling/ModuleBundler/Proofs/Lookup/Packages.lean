import ModuleBundler.Proofs.Lookup.Remembering

/-!
# Names of packages

A specifier that is neither rooted nor relative names a package and perhaps a path
inside it.  The package is looked for in the directories of installed packages, beside
the importer first and then further up.  A directory where the package is, but has no
module, does not end the search.

Main results:

- Theorem {lit}`Modules.joined_splitSpecifier`: a specifier is its package and the path inside it.
- Theorem {lit}`Modules.isRelative_iff`: which specifiers are read from the importer.
- Theorem {lit}`Modules.resolve_bare`: the nearest package that has a module decides, whatever was resolved before.
-/

namespace ModuleBundler

namespace Path

/-! ## First pieces -/

/-- A path begins with a piece if it is that piece, or if a slash follows. -/
theorem head?_segments_iff {p : Path} {piece : String} (h : IsFlat piece) :
    p.segments.head? = some piece ↔ p.text = piece ∨ ∃ more, p.text = piece ++ "/" ++ more := by
  constructor
  · intro hhead
    obtain ⟨rest, hsegments⟩ := List.head?_eq_some_iff.1 hhead
    have htext := p.text_eq_intercalate
    rw [hsegments] at htext
    cases rest with
    | nil =>
      rw [String.intercalate_singleton] at htext
      exact .inl htext
    | cons next rest =>
      refine .inr ⟨"/".intercalate (next :: rest), ?_⟩
      rw [htext]
      apply String.toList_injective
      simp [String.toList_intercalate]
  · rintro (htext | ⟨more, htext⟩)
    · rw [segments, htext, List.splitOn_eq_singleton h]
      simp
    · rw [segments, htext, String.append_assoc, String.toList_append, String.toList_append,
        show "/".toList ++ more.toList = '/' :: more.toList from rfl, List.splitOn_append_cons_self,
        List.splitOn_eq_singleton h]
      simp

/-- The first component is a dot or a step to the parent directory if the first piece is. -/
theorem head?_components_iff {p : Path} :
    (p.components.head? = some .here ↔ p.segments.head? = some ".") ∧
      (p.components.head? = some .up ↔ p.segments.head? = some "..") := by
  obtain ⟨first, rest, hsegments⟩ := List.exists_cons_of_ne_nil p.segments_ne_nil
  unfold components
  rw [hsegments]
  dsimp only
  by_cases habsolute : p.isAbsolute = true
  · obtain ⟨rfl, -⟩ := (isAbsolute_iff hsegments).1 habsolute
    simp [habsolute]
  · rw [if_neg habsolute]
    by_cases hhere : first = "."
    · simp [hhere]
    · rw [if_neg hhere]
      by_cases hempty : first = ""
      · have hrest : rest = [] := by
          by_contra hne
          exact habsolute ((isAbsolute_iff hsegments).2 ⟨hempty, hne⟩)
        rw [hempty, hrest]
        decide
      · by_cases hup : first = ".."
        · simp [hup, innerComponent?]
        · simp [innerComponent?, hempty, hhere, hup]

end Path

namespace Lookup
namespace Modules

/-! ## Specifiers -/

/-- The specifier of a package and a path inside it. -/
def joined : String × Option String → String
  | (package, none) => package
  | (package, some inner) => package ++ "/" ++ inner

theorem length_splitFirst_le (count : Nat) (cs : List Char) : (splitFirst count cs).length ≤ count := by
  induction count generalizing cs with
  | zero => exact Nat.le_refl 0
  | succ count ih =>
    cases count with
    | zero => exact Nat.le_refl 1
    | succ count =>
      unfold splitFirst
      split
      · simp
      · simpa using ih _

/-- The pieces with slashes between them are the text. -/
theorem intercalate_splitFirst (count : Nat) (cs : List Char) :
    ['/'].intercalate (splitFirst (count + 1) cs) = cs := by
  induction count generalizing cs with
  | zero => simp [splitFirst]
  | succ count ih =>
    unfold splitFirst
    split
    · simp
    · rename_i c rest hdrop
      have hslash : c = '/' := by
        have hhead := List.head?_dropWhile_not (· != '/') cs
        rw [hdrop] at hhead
        simpa using hhead
      obtain ⟨first, more, hpieces⟩ : ∃ first more, splitFirst (count + 1) rest = first :: more := by
        cases count with
        | zero => exact ⟨rest, [], rfl⟩
        | succ count =>
          unfold splitFirst
          split <;> exact ⟨_, _, rfl⟩
      have hrest := ih rest
      rw [hpieces] at hrest ⊢
      rw [hslash] at hdrop
      rw [List.intercalate_cons_cons, hrest, List.append_assoc, List.singleton_append, ← hdrop,
        List.takeWhile_append_dropWhile]

/-- A specifier is its package and the path inside it. -/
theorem joined_splitSpecifier (specifier : String) : joined (splitSpecifier specifier) = specifier := by
  -- what is read from pieces has the characters of their specifier
  have hread {text : String} (h : text.toList = specifier.toList) : text = specifier := String.toList_injective h
  unfold splitSpecifier
  dsimp only
  split
  · have hpieces := intercalate_splitFirst 2 specifier.toList
    have hlength := length_splitFirst_le 3 specifier.toList
    split <;> rename_i hsplit <;> rw [hsplit] at hpieces hlength
    · exact hread (by simpa [joined] using hpieces)
    · exact hread (by simpa [joined] using hpieces)
    · rename_i more
      obtain rfl : more = [] := by
        simp only [List.length_cons] at hlength
        exact List.length_eq_zero_iff.1 (by omega)
      exact hread (by simpa [joined] using hpieces)
    · rfl
  · have hpieces := intercalate_splitFirst 1 specifier.toList
    have hlength := length_splitFirst_le 2 specifier.toList
    split
    · rename_i more hsplit
      rw [hsplit] at hpieces hlength
      obtain rfl : more = [] := by
        simp only [List.length_cons] at hlength
        exact List.length_eq_zero_iff.1 (by omega)
      exact hread (by simpa [joined] using hpieces)
    · rfl

/-- A specifier is read from the importer if it begins with a dot or with a step to the parent directory, except
for that step alone. -/
theorem isRelative_iff {specifier : String} :
    isRelative specifier = true ↔
      ((Path.mk specifier).components.head? = some .here ∨ (Path.mk specifier).components.head? = some .up) ∧
        specifier ≠ ".." := by
  have hprefix (piece : String) : piece.toList.isPrefixOf specifier.toList = true ↔
      ∃ more, specifier = piece ++ more := by
    rw [List.isPrefixOf_iff_prefix]
    constructor
    · rintro ⟨more, hmore⟩
      exact ⟨String.ofList more, String.toList_injective (by simpa using hmore.symm)⟩
    · rintro ⟨more, rfl⟩
      simp
  rw [Path.head?_components_iff.1, Path.head?_components_iff.2, Path.head?_segments_iff (by decide),
    Path.head?_segments_iff (by decide)]
  unfold isRelative
  rw [Bool.or_eq_true, Bool.or_eq_true, decide_eq_true_iff, hprefix, hprefix]
  constructor
  · rintro ((⟨more, rfl⟩ | ⟨more, rfl⟩) | rfl)
    · exact ⟨.inl (.inr ⟨more, rfl⟩), fun h => by simpa using congrArg String.toList h⟩
    · exact ⟨.inr (.inr ⟨more, rfl⟩), fun h => by simpa using congrArg String.toList h⟩
    · exact ⟨.inl (.inl rfl), by decide⟩
  · rintro ⟨(rfl | ⟨more, rfl⟩) | (rfl | ⟨more, rfl⟩), hne⟩
    · exact .inr rfl
    · exact .inl (.inl ⟨more, rfl⟩)
    · exact absurd rfl hne
    · exact .inl (.inr ⟨more, rfl⟩)

/-- Whether a specifier names a package: it is not rooted, and its first component is neither a dot nor a step to
the parent directory. -/
structure IsBare (specifier : String) : Prop where
  relative : (Path.mk specifier).isAbsolute = false
  ne_here : (Path.mk specifier).components.head? ≠ some .here
  ne_up : (Path.mk specifier).components.head? ≠ some .up

theorem IsBare.isRelative {specifier : String} (h : IsBare specifier) : Modules.isRelative specifier = false := by
  rw [Bool.eq_false_iff]
  intro hrelative
  obtain ⟨hhere | hup, -⟩ := isRelative_iff.1 hrelative
  · exact h.ne_here hhere
  · exact h.ne_up hup

/-! ## The nearest package -/

/-- The file that the package of a specifier has in a directory, if it is installed there and has one. -/
def yields (modules : Modules) (tree : FileTree) (specifier : String) (directory : Path) : Option Path :=
  let home := (directory.child Nearest.packagesName).child (splitSpecifier specifier).1
  if directory.fileName? ≠ some Nearest.packagesName ∧ tree.isDirectory home = true then
    answer (modules.inPackage tree home (splitSpecifier specifier).2)
  else none

theorem yields_eq (modules : Modules) (tree : FileTree) (specifier : String) :
    yields modules tree specifier =
      installedFile? modules tree (splitSpecifier specifier).1 (splitSpecifier specifier).2 := by
  funext directory
  unfold yields installedFile?
  dsimp only
  rw [(gives_inPackage modules tree _ _).answer]

/-- A specifier of a package stands for the file that the nearest directory yields. -/
theorem located?_of_bare (modules : Modules) (tree : FileTree) {specifier : String} (h : IsBare specifier)
    {importer base : Path} (hbase : importer.parent? = some base) :
    located? modules tree specifier (some importer) =
      importer.ancestors.findSome? (yields modules tree specifier) := by
  have hrooted (rooted : List Char) : specifier.toList ≠ '/' :: rooted := by
    intro hrooted
    have habsolute := h.relative
    rw [Path.isAbsolute, hrooted] at habsolute
    cases habsolute
  rw [Path.ancestors_of_parent? hbase, yields_eq]
  unfold located?
  dsimp only
  rw [h.isRelative, if_neg Bool.false_ne_true]
  split
  · rename_i rooted heq
    exact absurd heq (hrooted rooted)
  · rw [Option.bind_some, hbase]
    rfl

/-- A directory without a manifest stands for its index file. -/
theorem directoryFile?_of_no_manifest {modules : Modules} {tree : FileTree} {directory : Path}
    (h : tree.isFile (directory.child manifestName) = false) :
    directoryFile? modules tree directory = modules.asFile tree (directory.child "index") := by
  rw [directoryFile?, entriesIn, h, if_neg Bool.false_ne_true]
  exact Option.none_or

/-- The nearest directory in which the package of a specifier is installed and has a module decides what is
found, and nothing is found only if there is none; what was resolved before makes no difference.  Only the root and
the empty path are in no directory. -/
theorem resolve_bare (modules : Modules) {tree : FileTree} (hhome : FileTree.Proper tree.home)
    (earlier : List Question) {specifier : String} (hbare : IsBare specifier) {importer : Path}
    (hfile : importer.parent?.isSome = true) :
    joined (splitSpecifier specifier) = specifier ∧
    ((∃ resolved, answerAfter modules tree earlier ⟨specifier, some importer⟩ = .ok resolved) ↔
      ∃ directory ∈ importer.ancestors, (yields modules tree specifier directory).isSome = true) ∧
    (∀ nearer directory farther found, importer.ancestors = nearer ++ directory :: farther →
      (∀ closer ∈ nearer, yields modules tree specifier closer = none) →
      yields modules tree specifier directory = some found →
        tree.isFile found = true ∧ ∃ path package, tree.canonical found = .ok path ∧
          answerAfter modules tree earlier ⟨specifier, some importer⟩ = .ok ⟨path, package⟩) ∧
    ((∀ directory ∈ importer.ancestors, yields modules tree specifier directory = none) →
      answerAfter modules tree earlier ⟨specifier, some importer⟩ = .error (.moduleNotFound specifier importer)) ∧
    SameAnswer (answerAfter modules tree earlier ⟨specifier, some importer⟩)
      (answer (modules.resolve tree specifier (some importer))) := by
  obtain ⟨base, hbase⟩ := Option.isSome_iff_exists.1 hfile
  have hlocated := located?_of_bare modules tree hbare hbase
  have hfound {found : Path} (h : importer.ancestors.findSome? (yields modules tree specifier) = some found) :
      tree.isFile found = true ∧ ∃ path package, tree.canonical found = .ok path ∧
        answerAfter modules tree earlier ⟨specifier, some importer⟩ = .ok ⟨path, package⟩ := by
    obtain ⟨hisFile, path, package, hcanonical, -, hanswer⟩ :=
      answerAfter_of_located modules hhome earlier ⟨specifier, some importer⟩ (hlocated.trans h)
    exact ⟨hisFile, path, package, hcanonical, hanswer⟩
  have hnone (h : importer.ancestors.findSome? (yields modules tree specifier) = none) :
      answerAfter modules tree earlier ⟨specifier, some importer⟩ = .error (.moduleNotFound specifier importer) :=
    answerAfter_of_not_located modules hhome earlier ⟨specifier, some importer⟩ (hlocated.trans h)
  refine ⟨joined_splitSpecifier specifier, ⟨?_, ?_⟩, ?_, ?_, ?_⟩
  · rintro ⟨resolved, hresolved⟩
    by_contra hno
    have hall : ∀ directory ∈ importer.ancestors, yields modules tree specifier directory = none := by
      simpa using hno
    rw [hnone (List.findSome?_eq_none_iff.2 hall)] at hresolved
    cases hresolved
  · rintro ⟨directory, hmem, hyields⟩
    cases hfirst : importer.ancestors.findSome? (yields modules tree specifier) with
    | none =>
      rw [List.findSome?_eq_none_iff.1 hfirst directory hmem] at hyields
      cases hyields
    | some found =>
      obtain ⟨-, path, package, -, hresolved⟩ := hfound hfirst
      exact ⟨_, hresolved⟩
  · intro nearer directory farther found hancestors hnearer hyields
    exact hfound (List.findSome?_eq_some_iff.2 ⟨nearer, directory, farther, hancestors, hyields, hnearer⟩)
  · exact fun hall => hnone (List.findSome?_eq_none_iff.2 hall)
  · have hfresh := (gives_resolve modules hhome specifier (some importer)).answer
    exact (answerAfter_same modules hhome earlier _).trans hfresh.symm

/-! ## A package without a module -/

/-- Two directories of installed packages.  The package in the inner one has no module. -/
def installedTree : FileTree where
  entries :=
    [(["a"], .directory 0), (["a", "node_modules"], .directory 0), (["a", "node_modules", "w"], .directory 0),
      (["node_modules"], .directory 0), (["node_modules", "w"], .directory 0),
      (["node_modules", "w", "index.js"], .file .empty 0)]
  home := ["a"]
  clock := 9

/-- The directory above all others, and scripts. -/
def scriptRules : Modules := ⟨⟨"/"⟩, ["js"]⟩

theorem open_installed (name : String) :
    installedTree.Open (["a", "node_modules", "w"] ++ [name]) ∧
      installedTree.Open (["node_modules", "w"] ++ [name]) ∧
      installedTree.Open (["a", "node_modules"] ++ ["w"]) ∧ installedTree.Open (["node_modules"] ++ ["w"]) := by
  have hinner : installedTree.Open (["a", "node_modules"] ++ ["w"]) :=
    ((FileTree.open_single installedTree "a").append ⟨0, rfl⟩ "node_modules").append ⟨0, rfl⟩ "w"
  have houter : installedTree.Open (["node_modules"] ++ ["w"]) :=
    (FileTree.open_single installedTree "node_modules").append ⟨0, rfl⟩ "w"
  exact ⟨hinner.append ⟨0, rfl⟩ name, houter.append ⟨0, rfl⟩ name, hinner, houter⟩

/-- What a directory yields in which the package is installed without a manifest. -/
theorem yields_of_no_manifest {directory home : Path} (hpackages : directory.fileName? ≠ some Nearest.packagesName)
    (hchild : (directory.child Nearest.packagesName).child "w" = home)
    (hhome : installedTree.isDirectory home = true)
    (hmanifest : installedTree.isFile (home.child manifestName) = false) :
    yields scriptRules installedTree "w" directory = scriptRules.asFile installedTree (home.child "index") := by
  have hsplit : splitSpecifier "w" = ("w", none) := splitSpecifier_plain (by decide) (by decide)
  rw [yields_eq, hsplit, installedFile?, hchild, if_pos ⟨hpackages, hhome⟩]
  exact directoryFile?_of_no_manifest hmanifest

/-- The inner package has no module, the outer one has its index file. -/
theorem yields_installed :
    yields scriptRules installedTree "w" ⟨"/a"⟩ = none ∧
      yields scriptRules installedTree "w" ⟨"/"⟩ = some ⟨"/node_modules/w/index.js"⟩ := by
  have hinner {p : Path} {name : String} (h : FileTree.Spells p (["a", "node_modules", "w"] ++ [name]))
      (hat : installedTree.at? (["a", "node_modules", "w"] ++ [name]) = none) : installedTree.isFile p = false :=
    FileTree.isFile_of_spells_none h (open_installed name).1 hat
  have houter {p : Path} {name : String} (h : FileTree.Spells p (["node_modules", "w"] ++ [name]))
      (hat : installedTree.at? (["node_modules", "w"] ++ [name]) = none) : installedTree.isFile p = false :=
    FileTree.isFile_of_spells_none h (open_installed name).2.1 hat
  obtain ⟨-, hopen, hinnerHome, houterHome⟩ := open_installed "index.js"
  constructor
  · have hhome : installedTree.isDirectory ⟨"/a/node_modules/w"⟩ = true :=
      FileTree.isDirectory_of_spells (show FileTree.Spells _ (["a", "node_modules"] ++ ["w"]) by decide) hinnerHome
        ⟨0, rfl⟩
    have hindex : (⟨"/a/node_modules/w"⟩ : Path).child "index" = ⟨"/a/node_modules/w/index"⟩ := by decide
    have hplain : installedTree.isFile ⟨"/a/node_modules/w/index"⟩ = false := @hinner _ "index" (by decide) rfl
    have hscript : installedTree.isFile ⟨"/a/node_modules/w/index.js"⟩ = false := @hinner _ "index.js" (by decide) rfl
    rw [yields_of_no_manifest (by decide) (by decide) hhome (@hinner _ manifestName (by decide) rfl), hindex]
    simp [asFile, scriptRules, hplain, hscript]
  · have hhome : installedTree.isDirectory ⟨"/node_modules/w"⟩ = true :=
      FileTree.isDirectory_of_spells (show FileTree.Spells _ (["node_modules"] ++ ["w"]) by decide) houterHome
        ⟨0, rfl⟩
    have hindex : (⟨"/node_modules/w"⟩ : Path).child "index" = ⟨"/node_modules/w/index"⟩ := by decide
    have hplain : installedTree.isFile ⟨"/node_modules/w/index"⟩ = false := @houter _ "index" (by decide) rfl
    have hscript : installedTree.isFile ⟨"/node_modules/w/index.js"⟩ = true :=
      FileTree.isFile_of_spells (show FileTree.Spells _ (["node_modules", "w"] ++ ["index.js"]) by decide) hopen
        ⟨_, _, rfl⟩
    rw [yields_of_no_manifest (by decide) (by decide) hhome (@houter _ manifestName (by decide) rfl), hindex]
    simp [asFile, scriptRules, hplain, hscript]

/-- The search goes on above the directory whose package has no module, also after an earlier search. -/
theorem resolve_installed :
    FileTree.Proper installedTree.home ∧ IsBare "w" ∧ (Path.mk "/a/b.js").parent?.isSome = true ∧
      ∃ package, answerAfter scriptRules installedTree [⟨"w", some ⟨"/c.js"⟩⟩] ⟨"w", some ⟨"/a/b.js"⟩⟩ =
        .ok ⟨⟨"/node_modules/w/index.js"⟩, package⟩ := by
  have hproper : FileTree.Proper installedTree.home := by
    intro name hmem
    rw [List.mem_singleton.1 hmem]
    exact ⟨by decide, by decide, by decide, by decide⟩
  have hbare : IsBare "w" := ⟨by decide, by decide, by decide⟩
  have hparent : (Path.mk "/a/b.js").parent?.isSome = true := by decide
  obtain ⟨-, -, hnearest, -, -⟩ := resolve_bare scriptRules hproper [⟨"w", some ⟨"/c.js"⟩⟩] hbare hparent
  obtain ⟨-, path, package, hcanonical, hanswer⟩ := hnearest [⟨"/a"⟩] ⟨"/"⟩ [] ⟨"/node_modules/w/index.js"⟩
    (by decide) (by simp [yields_installed]) yields_installed.2
  have hpath : installedTree.canonical ⟨"/node_modules/w/index.js"⟩ = .ok ⟨"/node_modules/w/index.js"⟩ := by
    unfold FileTree.canonical
    rw [FileTree.find_of_spells (show FileTree.Spells _ (["node_modules", "w"] ++ ["index.js"]) by decide)
      (open_installed "index.js").2.1 rfl nofun]
    rfl
  rw [hpath] at hcanonical
  cases hcanonical
  exact ⟨hproper, hbare, hparent, package, hanswer⟩

end Modules
end Lookup
end ModuleBundler
