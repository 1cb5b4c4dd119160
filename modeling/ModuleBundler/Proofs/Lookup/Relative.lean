import Mathlib.Data.List.Find
import ModuleBundler.Proofs.Lookup.Packages

/-!
# Relative specifiers

A specifier that begins with a dot or with a step to the parent directory is a path from
the directory of the importer.  What it stands for depends only on what lies at the
paths that are tried: that path with and without an extension, and what a directory
there names as its entry.  Packages are installed in directories that such a path does
not enter, and are never asked for it.  The step to the parent directory alone is an
exception: it is taken for the name of a package.

Main results:

- Theorem {lit}`Modules.pathFile?_congr`: what a path stands for depends only on the paths that are tried.
- Theorem {lit}`Modules.owner_congr`: the package of a file depends only on the manifests above it.
- Theorem {lit}`Modules.resolve_relative`: a relative specifier stands for what is found at its path, and directories
  that are not entered make no difference.
- Theorem {lit}`Modules.exists_lost_parent`: the parent directory alone is not found.
-/

namespace ModuleBundler
namespace Lookup
namespace Modules

/-! ## What is looked at -/

/-- The paths that are tried for a directory. -/
def triedIn (modules : Modules) (tree : FileTree) (directory : Path) : List Path :=
  directory.child manifestName ::
    (((entriesIn tree directory).flatMap fun entry => modules.variants (directory.child entry).normalize) ++
      modules.variants (directory.child "index"))

/-- The paths that are tried for a path: with and without an extension, and as a directory. -/
def tried (modules : Modules) (tree : FileTree) (p : Path) : List Path :=
  modules.variants p.normalize ++ triedIn modules tree p.normalize

section Trees

variable {modules : Modules} {tree other : FileTree}

theorem asFile_congr {p : Path} (h : ∀ q ∈ modules.variants p, tree.Alike other q) :
    modules.asFile tree p = modules.asFile other p :=
  List.find?_congr fun q hq => (h q hq).isFile

theorem manifestAt?_eq {manifest : Path} (h : tree.Alike other manifest) :
    manifestAt? tree manifest = manifestAt? other manifest := by
  unfold manifestAt?
  rw [h.readText]

theorem entriesIn_congr {directory : Path} (h : tree.Alike other (directory.child manifestName)) :
    entriesIn tree directory = entriesIn other directory := by
  unfold entriesIn
  rw [h.isFile, manifestAt?_eq h]

theorem findSome?_congr {α β : Type} {f g : α → Option β} {as : List α} (h : ∀ a ∈ as, f a = g a) :
    as.findSome? f = as.findSome? g := by
  induction as with
  | nil => rfl
  | cons a rest ih =>
    obtain ⟨hfirst, hrest⟩ := List.forall_mem_cons.1 h
    rw [List.findSome?_cons, List.findSome?_cons, hfirst, ih hrest]

theorem directoryFile?_congr {directory : Path} (h : ∀ q ∈ triedIn modules tree directory, tree.Alike other q) :
    directoryFile? modules tree directory = directoryFile? modules other directory := by
  have hentries : entriesIn tree directory = entriesIn other directory :=
    entriesIn_congr (h _ (by simp [triedIn]))
  have hnamed : ((entriesIn tree directory).findSome? fun entry =>
        modules.asFile tree (directory.child entry).normalize) =
      (entriesIn tree directory).findSome? fun entry =>
        modules.asFile other (directory.child entry).normalize := by
    refine findSome?_congr fun entry hentry => asFile_congr fun q hq => h q ?_
    exact List.mem_cons_of_mem _ (List.mem_append_left _ (List.mem_flatMap.2 ⟨entry, hentry, hq⟩))
  have hindex : modules.asFile tree (directory.child "index") = modules.asFile other (directory.child "index") :=
    asFile_congr fun q hq => h q (List.mem_cons_of_mem _ (List.mem_append_right _ hq))
  rw [directoryFile?, directoryFile?, chosen?, chosen?, ← hentries, hnamed, hindex]

/-- What a path stands for depends only on the paths that are tried. -/
theorem pathFile?_congr {p : Path} (h : ∀ q ∈ tried modules tree p, tree.Alike other q) :
    pathFile? modules tree p = pathFile? modules other p := by
  have hfile : modules.asFile tree p.normalize = modules.asFile other p.normalize :=
    asFile_congr fun q hq => h q (List.mem_append_left _ hq)
  have hdirectory : directoryFile? modules tree p.normalize = directoryFile? modules other p.normalize :=
    directoryFile?_congr fun q hq => h q (List.mem_append_right _ hq)
  have hself : tree.Alike other p.normalize := h _ (by simp [tried, variants])
  unfold pathFile?
  rw [hfile, hdirectory, hself.isDirectory]

/-- What a path stands for is among the paths that are tried. -/
theorem mem_tried_of_pathFile? {p found : Path} (h : pathFile? modules tree p = some found) :
    found ∈ tried modules tree p := by
  rcases Option.or_eq_some_iff.1 h with hfile | ⟨-, hdirectory⟩
  · exact List.mem_append_left _ (isFile_of_asFile modules tree hfile).1
  · refine List.mem_append_right _ ?_
    split at hdirectory
    · rw [directoryFile?, chosen?] at hdirectory
      rcases Option.or_eq_some_iff.1 hdirectory with hnamed | ⟨-, hindex⟩
      · obtain ⟨entry, hentry, hfile⟩ := List.exists_of_findSome?_eq_some hnamed
        exact List.mem_cons_of_mem _ (List.mem_append_left _
          (List.mem_flatMap.2 ⟨entry, hentry, (isFile_of_asFile modules tree hfile).1⟩))
      · exact List.mem_cons_of_mem _ (List.mem_append_right _ (isFile_of_asFile modules tree hindex).1)
    · cases hdirectory

/-- The package of a file depends only on the manifests above it. -/
theorem owner_congr {p : Path} (h : ∀ q ∈ Nearest.candidates p [manifestName], tree.Alike other q) :
    owner tree p = owner other p := by
  have hfind : (Nearest.candidates p [manifestName]).find? tree.isFile =
      (Nearest.candidates p [manifestName]).find? other.isFile :=
    List.find?_congr fun q hq => (h q hq).isFile
  unfold owner
  rw [← hfind]
  cases hmanifest : (Nearest.candidates p [manifestName]).find? tree.isFile with
  | none => rfl
  | some manifest =>
    rw [Option.bind_some, Option.bind_some, manifestAt?_eq (h _ (List.mem_of_find?_eq_some hmanifest))]

end Trees

/-! ## Relative specifiers -/

theorem located?_of_relative (modules : Modules) (tree : FileTree) {specifier : String}
    (h : isRelative specifier = true) {importer base : Path} (hbase : importer.parent? = some base) :
    located? modules tree specifier (some importer) = pathFile? modules tree (base.child specifier) := by
  unfold located?
  dsimp only
  rw [if_pos h, Option.bind_some, hbase]
  rfl

/-- The path of an answer. -/
def pathOfAnswer (result : Except Failure Resolved) : Except Failure Path :=
  result.map Resolved.path

theorem SameAnswer.path {result other : Except Failure Resolved} (h : SameAnswer result other) :
    pathOfAnswer result = pathOfAnswer other := by
  cases h with
  | error failure => rfl
  | ok path h => rfl

/-- A specifier that begins with a dot or with a step to the parent directory, and is not that step alone, stands
for what is found at its path from the directory of the importer, and nothing is found only if there is nothing.
What lies in directories that the tried paths do not enter, such as directories of installed packages, makes no
difference; nor does it for the package, if the manifests above the module do not lie there either. -/
theorem resolve_relative (modules : Modules) {tree : FileTree} (hhome : FileTree.Proper tree.home)
    (earlier : List Question) {specifier : String}
    (hhead : (Path.mk specifier).components.head? = some .here ∨ (Path.mk specifier).components.head? = some .up)
    (hparent : specifier ≠ "..") {importer base : Path} (hbase : importer.parent? = some base) :
    (∀ found, answer (modules.asFileOrDirectory tree (base.child specifier)) = some found →
      tree.isFile found = true ∧ ∃ path package, tree.canonical found = .ok path ∧
        answerAfter modules tree earlier ⟨specifier, some importer⟩ = .ok ⟨path, package⟩) ∧
    (answer (modules.asFileOrDirectory tree (base.child specifier)) = none →
      answerAfter modules tree earlier ⟨specifier, some importer⟩ = .error (.moduleNotFound specifier importer)) ∧
    ∀ (other : FileTree) (before : List Question) (closed : Address → Prop), tree.DiffersIn other closed →
      (∀ q ∈ tried modules tree (base.child specifier), ∀ directory, closed directory → ¬tree.Enters q directory) →
      pathOfAnswer (answerAfter modules tree earlier ⟨specifier, some importer⟩) =
        pathOfAnswer (answerAfter modules other before ⟨specifier, some importer⟩) ∧
      ((∀ resolved, answerAfter modules tree earlier ⟨specifier, some importer⟩ = .ok resolved →
          ∀ q ∈ Nearest.candidates resolved.path [manifestName], ∀ directory, closed directory →
            ¬tree.Enters q directory) →
        SameAnswer (answerAfter modules tree earlier ⟨specifier, some importer⟩)
          (answerAfter modules other before ⟨specifier, some importer⟩)) := by
  have hrelative : isRelative specifier = true := isRelative_iff.2 ⟨hhead, hparent⟩
  have hlocated (tree : FileTree) := located?_of_relative modules tree hrelative hbase
  rw [(gives_asFileOrDirectory modules tree (base.child specifier)).answer]
  refine ⟨fun found hfound => ?_, fun hnone => ?_, fun other before closed hdiffers hclosed => ?_⟩
  · obtain ⟨hisFile, path, package, hcanonical, -, hanswer⟩ :=
      answerAfter_of_located modules hhome earlier ⟨specifier, some importer⟩ ((hlocated tree).trans hfound)
    exact ⟨hisFile, path, package, hcanonical, hanswer⟩
  · exact answerAfter_of_not_located modules hhome earlier ⟨specifier, some importer⟩ ((hlocated tree).trans hnone)
  · have hother : FileTree.Proper other.home := by rwa [hdiffers.home]
    have halike : ∀ q ∈ tried modules tree (base.child specifier), tree.Alike other q :=
      fun q hq => hdiffers.alike (hclosed q hq)
    have hsame := pathFile?_congr halike
    cases hfound : pathFile? modules tree (base.child specifier) with
    | none =>
      have hnone := answerAfter_of_not_located modules hhome earlier ⟨specifier, some importer⟩
        ((hlocated tree).trans hfound)
      have hotherNone := answerAfter_of_not_located modules hother before ⟨specifier, some importer⟩
        ((hlocated other).trans (hsame.symm.trans hfound))
      rw [hnone, hotherNone]
      exact ⟨rfl, fun _ => .error _⟩
    | some found =>
      obtain ⟨-, path, package, hcanonical, hpackage, hanswer⟩ :=
        answerAfter_of_located modules hhome earlier ⟨specifier, some importer⟩ ((hlocated tree).trans hfound)
      obtain ⟨-, otherPath, otherPackage, hotherCanonical, hotherPackage, hotherAnswer⟩ :=
        answerAfter_of_located modules hother before ⟨specifier, some importer⟩
          ((hlocated other).trans (hsame.symm.trans hfound))
      rw [← (halike found (mem_tried_of_pathFile? hfound)).canonical, hcanonical, Except.ok.injEq] at hotherCanonical
      subst hotherCanonical
      rw [hanswer, hotherAnswer]
      refine ⟨rfl, fun hmanifests => .ok path ?_⟩
      rw [← owner_congr fun q hq => hdiffers.alike (hmanifests _ rfl q hq)] at hotherPackage
      exact hpackage.trans hotherPackage.symm

/-! ## The parent directory -/

/-- A directory with an index file, and one inside it. -/
def libraryTree : FileTree :=
  ⟨[(["lib"], .directory 0), (["lib", "a"], .directory 0), (["lib", "index.js"], .file .empty 0)], [], 9⟩

theorem open_library (name : String) : libraryTree.Open (["lib"] ++ [name]) :=
  (FileTree.open_single libraryTree "lib").append ⟨0, rfl⟩ name

theorem isFile_library :
    libraryTree.isFile ⟨"/lib/package.json"⟩ = false ∧ libraryTree.isFile ⟨"/lib/index"⟩ = false ∧
      libraryTree.isFile ⟨"/lib/index.js"⟩ = true := by
  refine ⟨?_, ?_, ?_⟩
  · exact FileTree.isFile_of_spells_none (show FileTree.Spells _ (["lib"] ++ ["package.json"]) by decide)
      (open_library _) rfl
  · exact FileTree.isFile_of_spells_none (show FileTree.Spells _ (["lib"] ++ ["index"]) by decide) (open_library _) rfl
  · exact FileTree.isFile_of_spells (show FileTree.Spells _ (["lib"] ++ ["index.js"]) by decide) (open_library _)
      ⟨_, _, rfl⟩

/-- The directory stands for its index file. -/
theorem pathFile?_library {p : Path} (h : p.normalize = ⟨"/lib"⟩) :
    pathFile? scriptRules libraryTree p = some ⟨"/lib/index.js"⟩ ∧
      tried scriptRules libraryTree p =
        [⟨"/lib"⟩, ⟨"/lib.js"⟩, ⟨"/lib/package.json"⟩, ⟨"/lib/index"⟩, ⟨"/lib/index.js"⟩] := by
  obtain ⟨hmanifest, hplain, hscript⟩ := isFile_library
  have hfind : libraryTree.find ⟨"/lib"⟩ = .ok (["lib"], .directory 0) :=
    FileTree.find_of_spells (show FileTree.Spells _ ([] ++ ["lib"]) by decide)
      (FileTree.open_single libraryTree "lib") rfl nofun
  have hself : libraryTree.isFile ⟨"/lib"⟩ = false := by simp [FileTree.isFile, hfind, Entry.isFile]
  have hdirectory : libraryTree.isDirectory ⟨"/lib"⟩ = true := by
    simp [FileTree.isDirectory, hfind, Entry.isDirectory]
  have hsibling : libraryTree.isFile ⟨"/lib.js"⟩ = false :=
    FileTree.isFile_of_spells_none (show FileTree.Spells _ ([] ++ ["lib.js"]) by decide)
      (FileTree.open_single libraryTree "lib.js") rfl
  have hmanifestPath : (⟨"/lib"⟩ : Path).child manifestName = ⟨"/lib/package.json"⟩ := by decide
  have hindexPath : (⟨"/lib"⟩ : Path).child "index" = ⟨"/lib/index"⟩ := by decide
  have hentries : entriesIn libraryTree ⟨"/lib"⟩ = [] := by
    rw [entriesIn, hmanifestPath, hmanifest, if_neg Bool.false_ne_true]
    rfl
  constructor
  · rw [pathFile?, h, hdirectory, if_pos rfl, directoryFile?_of_no_manifest (by rw [hmanifestPath, hmanifest]),
      hindexPath]
    simp [asFile, scriptRules, hself, hsibling, hplain, hscript]
  · simp [tried, triedIn, variants, h, hentries, hmanifestPath, hindexPath, scriptRules]

theorem canonical_library : libraryTree.canonical ⟨"/lib/index.js"⟩ = .ok ⟨"/lib/index.js"⟩ := by
  unfold FileTree.canonical
  rw [FileTree.find_of_spells (show FileTree.Spells _ (["lib"] ++ ["index.js"]) by decide) (open_library _) rfl nofun]
  rfl

/-- A path of names does not enter a directory that it does not name. -/
theorem not_enters_library {p : Path} {address directory : Address} (h : FileTree.Spells p address)
    (houtside : ¬directory <+: address) : ¬libraryTree.Enters p directory := by
  intro henters
  refine houtside (FileTree.within_of_enters h (fun front _ target hat => ?_) henters).1
  obtain hroot | ⟨other, hmem⟩ := FileTree.mem_of_at? hat
  · cases hroot
  · simp [libraryTree] at hmem

/-- The parent directory is found, and what lies beside the importer makes no difference. -/
theorem resolve_parent :
    FileTree.Proper libraryTree.home ∧ (Path.mk "../").components.head? = some .up ∧ "../" ≠ ".." ∧
      (Path.mk "/lib/a/b.js").parent? = some ⟨"/lib/a"⟩ ∧
      (∃ package, answerAfter scriptRules libraryTree [] ⟨"../", some ⟨"/lib/a/b.js"⟩⟩ =
        .ok ⟨⟨"/lib/index.js"⟩, package⟩) ∧
      pathOfAnswer (answerAfter scriptRules libraryTree [] ⟨"../", some ⟨"/lib/a/b.js"⟩⟩) =
        pathOfAnswer (answerAfter scriptRules (libraryTree.set ["lib", "a", "node_modules"] (.directory 0)) []
          ⟨"../", some ⟨"/lib/a/b.js"⟩⟩) := by
  have hproper : FileTree.Proper libraryTree.home := fun name hmem => absurd hmem List.not_mem_nil
  have hhead : (Path.mk "../").components.head? = some .up := by decide
  have hparent : (Path.mk "/lib/a/b.js").parent? = some ⟨"/lib/a"⟩ := by decide
  obtain ⟨hmodule, htried⟩ := pathFile?_library (show ((⟨"/lib/a"⟩ : Path).child "../").normalize = ⟨"/lib"⟩ by decide)
  obtain ⟨hfinds, -, hother⟩ := resolve_relative scriptRules hproper [] (.inr hhead) (by decide) hparent
  obtain ⟨-, path, package, hcanonical, hanswer⟩ :=
    hfinds _ ((gives_asFileOrDirectory scriptRules libraryTree _).answer.trans hmodule)
  rw [canonical_library] at hcanonical
  cases hcanonical
  have hdiffers : libraryTree.DiffersIn (libraryTree.set ["lib", "a", "node_modules"] (.directory 0))
      (· = ["lib", "a"]) := by
    refine ⟨rfl, fun place houtside => ?_⟩
    have hne : place ≠ ["lib", "a", "node_modules"] := by
      rintro rfl
      exact houtside _ rfl ⟨⟨["node_modules"], rfl⟩, by decide⟩
    rw [FileTree.at?_set_of_ne libraryTree hne]
    exact .same _
  have hclosed : ∀ q ∈ tried scriptRules libraryTree ((⟨"/lib/a"⟩ : Path).child "../"),
      ∀ directory, directory = ["lib", "a"] → ¬libraryTree.Enters q directory := by
    rw [htried]
    rintro q hq directory rfl
    simp only [List.mem_cons, List.not_mem_nil, or_false] at hq
    obtain rfl | rfl | rfl | rfl | rfl := hq
    · exact not_enters_library (show FileTree.Spells _ ["lib"] by decide) (by decide)
    · exact not_enters_library (show FileTree.Spells _ ["lib.js"] by decide) (by decide)
    · exact not_enters_library (show FileTree.Spells _ ["lib", "package.json"] by decide) (by decide)
    · exact not_enters_library (show FileTree.Spells _ ["lib", "index"] by decide) (by decide)
    · exact not_enters_library (show FileTree.Spells _ ["lib", "index.js"] by decide) (by decide)
  exact ⟨hproper, hhead, by decide, hparent, ⟨package, hanswer⟩, (hother _ [] _ hdiffers hclosed).1⟩

/-- The parent of a directory of installed packages is not there if that directory is not. -/
theorem isDirectory_library {p : Path} {outer : Address} (hnul : p.text.toList.contains '\x00' = false)
    (hshort : p.text.utf8ByteSize ≤ FileTree.maxPath) (habsolute : p.isAbsolute = true)
    (hsteps : FileTree.Step.ofPath p = outer.map .name ++ .name "node_modules" :: [.up])
    (hnames : ∀ name ∈ outer ++ ["node_modules"], name.utf8ByteSize ≤ FileTree.maxName)
    (hopen : libraryTree.Open (outer ++ ["node_modules"])) (hat : libraryTree.at? (outer ++ ["node_modules"]) = none) :
    libraryTree.isDirectory p = false := by
  unfold FileTree.isDirectory
  rw [FileTree.find_of_missing hnul hshort habsolute hsteps (by simp) hnames hopen hat]

/-- The step to the parent directory alone is taken for a package, which is not found. -/
theorem exists_lost_parent :
    ∃ (tree : FileTree) (importer base found path : Path), FileTree.Proper tree.home ∧
      (Path.mk "..").components.head? = some .up ∧ importer.parent? = some base ∧
      answer (scriptRules.asFileOrDirectory tree (base.child "..")) = some found ∧ tree.canonical found = .ok path ∧
      answer (scriptRules.resolve tree ".." (some importer)) = .error (.moduleNotFound ".." importer) := by
  have hproper : FileTree.Proper libraryTree.home := fun name hmem => absurd hmem List.not_mem_nil
  obtain ⟨hmodule, -⟩ := pathFile?_library (show ((⟨"/lib/a"⟩ : Path).child "..").normalize = ⟨"/lib"⟩ by decide)
  have hinner : libraryTree.isDirectory (((⟨"/lib/a"⟩ : Path).child Nearest.packagesName).child "..") = false :=
    @isDirectory_library _ ["lib", "a"] (by decide) (by decide) (by decide) (by decide) (by decide)
      ((open_library "a").append ⟨0, rfl⟩ _) rfl
  have houter : libraryTree.isDirectory (((⟨"/lib"⟩ : Path).child Nearest.packagesName).child "..") = false :=
    @isDirectory_library _ ["lib"] (by decide) (by decide) (by decide) (by decide) (by decide) (open_library _) rfl
  have hroot : libraryTree.isDirectory (((⟨"/"⟩ : Path).child Nearest.packagesName).child "..") = false :=
    @isDirectory_library _ [] (by decide) (by decide) (by decide) (by decide) (by decide)
      (FileTree.open_single _ _) rfl
  have hsplit : splitSpecifier ".." = ("..", none) := splitSpecifier_plain (by decide) (by decide)
  have hancestors : (Path.mk "/lib/a").ancestors = [⟨"/lib"⟩, ⟨"/"⟩] := by decide
  have hparent : (Path.mk "/lib/a/b.js").parent? = some ⟨"/lib/a"⟩ := by decide
  have hnone : located? scriptRules libraryTree ".." (some ⟨"/lib/a/b.js"⟩) = none := by
    have hrelative : isRelative ".." = false := by decide
    simp [located?, hrelative, hsplit, hparent, hancestors, installedFile?, hinner, houter, hroot]
  exact ⟨libraryTree, ⟨"/lib/a/b.js"⟩, ⟨"/lib/a"⟩, ⟨"/lib/index.js"⟩, ⟨"/lib/index.js"⟩, hproper, by decide, hparent,
    (gives_asFileOrDirectory scriptRules libraryTree _).answer.trans hmodule, canonical_library,
    answerAfter_of_not_located scriptRules hproper [] ⟨"..", some ⟨"/lib/a/b.js"⟩⟩ hnone⟩

end Modules
end Lookup
end ModuleBundler
