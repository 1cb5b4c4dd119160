import ModuleBundler.Lookup.Modules
import ModuleBundler.Proofs.FileTree.Address
import ModuleBundler.Proofs.FileTree.Dating
import ModuleBundler.Proofs.FileTree.Entering
import ModuleBundler.Proofs.Lookup.Nearest

/-!
# What searches remember

A search for a module remembers the manifests that it has read, and where it has looked
for the manifest of a file.  All of this is true of a tree that does not change, so that
later searches give the answers that the tree gives.  A manifest that was read under
another spelling of its path is the same manifest, and is remembered by the spelling
under which it was read first.

Main results:

- Theorem {lit}`Modules.gives_asFileOrDirectory`: a path stands for the same module whatever is remembered.
- Theorem {lit}`Modules.gives_packageOf`: a file belongs to the same package.
- Theorem {lit}`Modules.gives_resolve`: a specifier names the same module.
- Theorem {lit}`Modules.truthful_remembered`: what earlier resolutions leave in the memory is true of the tree.
-/

namespace ModuleBundler

/-- Whether metadata is the same, from a manifest that may be spelled in two ways. -/
structure Package.Same (package other : Package) : Prop where
  name : package.name = other.name
  version : package.version = other.version
  main : package.main = other.main
  module : package.module = other.module
  manifest : Option.Rel (fun p q => (p == q) = true) package.manifest other.manifest

theorem Package.Same.refl (package : Package) : package.Same package := by
  refine ⟨rfl, rfl, rfl, rfl, ?_⟩
  cases package.manifest with
  | none => exact .none
  | some manifest => exact .some (Path.beq_refl manifest)

theorem Package.Same.symm {package other : Package} (h : package.Same other) : other.Same package := by
  refine ⟨h.name.symm, h.version.symm, h.main.symm, h.module.symm, ?_⟩
  have hmanifest := h.manifest
  generalize package.manifest = before at hmanifest ⊢
  generalize other.manifest = after at hmanifest ⊢
  cases hmanifest with
  | none => exact .none
  | some hsame => exact .some (Path.beq_symm hsame)

theorem Package.Same.trans {package other third : Package} (h : package.Same other) (hother : other.Same third) :
    package.Same third := by
  refine ⟨h.name.trans hother.name, h.version.trans hother.version, h.main.trans hother.main,
    h.module.trans hother.module, ?_⟩
  have hbefore := h.manifest
  have hafter := hother.manifest
  generalize package.manifest = first at hbefore ⊢
  generalize other.manifest = second at hbefore hafter
  generalize third.manifest = last at hafter ⊢
  cases hbefore with
  | none => exact hafter
  | some hsame =>
    cases hafter with
    | some hnext => exact .some (Path.beq_trans hsame hnext)

theorem Package.Same.getD {package other : Option Package} (h : Option.Rel Package.Same package other) :
    (package.getD {}).Same (other.getD {}) := by
  cases h with
  | none => exact .refl _
  | some hsame => exact hsame

namespace Lookup
namespace Modules

open FileTree (Proper pathOf)

/-! ## Truth -/

/-- What a manifest says, if it can be read. -/
def manifestAt? (tree : FileTree) (manifest : Path) : Option Package :=
  match tree.readText manifest with
  | .error _ => none
  | .ok text =>
    match Package.record.codec.parse text with
    | .error _ => none
    | .ok package => some { package with manifest := some manifest }

/-- Whether a path is the one of an address. -/
def IsAddress (p : Path) : Prop :=
  ∃ address, Proper address ∧ p = pathOf address

/-- Whether a memory holds only what is true of a tree. -/
structure Memory.Truthful (tree : FileTree) (memory : Memory) : Prop where
  known : Nearest.Recalls tree IsAddress memory.known
  packages : ∀ manifest package, memory.packages.get? manifest = some package →
    ∃ read : Path, read.IsTight ∧ (read == manifest) = true ∧ manifestAt? tree read = some package

theorem truthful_empty (tree : FileTree) : Memory.Truthful tree {} :=
  ⟨Nearest.recalls_empty tree IsAddress, nofun⟩

/-- Paths of addresses are spelled in one way only. -/
theorem clear_isAddress (tree : FileTree) : Nearest.Clear tree IsAddress := by
  rintro p q ⟨address, haddress, rfl⟩ ⟨other, hother, rfl⟩ hsame
  rw [FileTree.pathOf_injective haddress hother hsame]

/-- Whether a search with a truthful memory gives an answer of some kind, and leaves the memory truthful. -/
def Gives {α : Type} (tree : FileTree) (P : α → Prop) (search : Search α) : Prop :=
  ∀ memory : Memory, memory.Truthful tree →
    P (search.run memory).1 ∧ (search.run memory).2.Truthful tree

/-- The answer of a search that remembers nothing. -/
def answer {α : Type} (search : Search α) : α :=
  (search.run {}).1

section Gives

variable {α β : Type} {tree : FileTree} {P : α → Prop} {Q : β → Prop}

theorem gives_pure {a : α} (h : P a) : Gives tree P (pure a) :=
  fun _ hmemory => ⟨h, hmemory⟩

theorem Gives.bind {search : Search α} {next : α → Search β} (h : Gives tree P search)
    (hnext : ∀ a, P a → Gives tree Q (next a)) : Gives tree Q (search >>= next) := by
  intro memory hmemory
  obtain ⟨hanswer, hafter⟩ := h memory hmemory
  exact hnext _ hanswer _ hafter

theorem Gives.answer {search : Search α} (h : Gives tree P search) : P (answer search) :=
  (h {} (truthful_empty tree)).1

/-- A search that goes on if it has found nothing. -/
theorem Gives.orElse {a b : Option α} {search : Search (Option α)} {next : Option α → Search (Option α)}
    (h : Gives tree (· = a) search) (hsome : ∀ found, next (some found) = pure (some found))
    (hnone : Gives tree (· = b) (next none)) : Gives tree (· = a.or b) (search >>= next) := by
  refine h.bind ?_
  rintro found rfl
  cases found with
  | some found =>
    rw [hsome]
    exact gives_pure rfl
  | none => exact hnone

end Gives

/-! ## Manifests -/

theorem isFileName_manifestName : Path.IsFileName manifestName :=
  ⟨by decide, by decide, by decide, by decide⟩

theorem isTight_manifest (directory : Path) : (directory.child manifestName).IsTight :=
  Path.isTight_child directory isFileName_manifestName

/-- A manifest says the same under each of its spellings. -/
theorem manifestAt?_congr {tree : FileTree} {manifest read : Path} {package : Package}
    (hsame : (read == manifest) = true) (hmanifest : manifest.IsTight) (hread : read.IsTight)
    (hfile : tree.isFile manifest = true) (h : manifestAt? tree read = some package) :
    Option.Rel Package.Same (some package) (manifestAt? tree manifest) := by
  unfold manifestAt? at h ⊢
  cases htext : tree.readText read with
  | error fault =>
    rw [htext] at h
    cases h
  | ok text =>
    obtain ⟨address, content, time, hfind, -⟩ := FileTree.find_of_readText htext
    have hshort := FileTree.short_of_find hfind
    have hmanifestShort : manifest.text.utf8ByteSize ≤ FileTree.maxPath := by
      by_contra hlong
      rw [FileTree.isFile_of_long hlong] at hfile
      cases hfile
    have hcongr := FileTree.find_congr tree hsame hread hmanifest hshort hmanifestShort
    have hmanifestText : tree.readText manifest = .ok text := (FileTree.readText_of_find hcongr).symm.trans htext
    rw [htext] at h
    rw [hmanifestText]
    dsimp only at h ⊢
    cases hparse : Package.record.codec.parse text with
    | error fault =>
      rw [hparse] at h
      cases h
    | ok package =>
      rw [hparse] at h
      cases h
      exact .some ⟨rfl, rfl, rfl, rfl, .some hsame⟩

/-- A manifest that was read can be remembered. -/
theorem Memory.Truthful.put {tree : FileTree} {memory : Memory} (h : memory.Truthful tree) {manifest : Path}
    (htight : manifest.IsTight) {package : Package} (hread : manifestAt? tree manifest = some package) :
    Memory.Truthful tree { memory with packages := memory.packages.put manifest package } := by
  refine ⟨h.known, fun other found hfound => ?_⟩
  cases hother : manifest == other with
  | true =>
    rw [Path.Map.get?_put_self hother] at hfound
    exact ⟨manifest, htight, hother, hread.trans hfound⟩
  | false =>
    rw [Path.Map.get?_put_of_ne hother] at hfound
    exact h.packages other found hfound

/-- A manifest that is there says the same whatever is remembered. -/
theorem gives_readPackage {tree : FileTree} {manifest : Path} (htight : manifest.IsTight)
    (hfile : tree.isFile manifest = true) :
    Gives tree (Option.Rel Package.Same · (manifestAt? tree manifest)) (readPackage tree manifest) := by
  intro memory hmemory
  cases hget : memory.packages.get? manifest with
  | some package =>
    have hrun : (readPackage tree manifest).run memory = pure (some package, memory) := by
      simp [readPackage, hget]
    obtain ⟨read, hread, hsame, hpackage⟩ := hmemory.packages manifest package hget
    rw [hrun]
    exact ⟨manifestAt?_congr hsame htight hread hfile hpackage, hmemory⟩
  | none =>
    cases htext : tree.readText manifest with
    | error fault =>
      have hrun : (readPackage tree manifest).run memory = pure (none, memory) := by
        simp [readPackage, hget, htext]
      have hnone : manifestAt? tree manifest = none := by simp [manifestAt?, htext]
      rw [hrun, hnone]
      exact ⟨.none, hmemory⟩
    | ok text =>
      cases hparse : Package.record.codec.parse text with
      | error fault =>
        have hrun : (readPackage tree manifest).run memory = pure (none, { memory with warnings :=
            memory.warnings ++ ["Ignoring malformed " ++ manifest.text ++ ": " ++ fault.message] }) := by
          simp [readPackage, hget, htext, hparse]
        have hnone : manifestAt? tree manifest = none := by simp [manifestAt?, htext, hparse]
        rw [hrun, hnone]
        exact ⟨.none, hmemory.known, hmemory.packages⟩
      | ok package =>
        have hsome : manifestAt? tree manifest = some { package with manifest := some manifest } := by
          simp [manifestAt?, htext, hparse]
        have hrun : (readPackage tree manifest).run memory = pure (some { package with manifest := some manifest },
            { memory with packages := memory.packages.put manifest { package with manifest := some manifest } }) := by
          simp [readPackage, hget, htext, hparse]
        rw [hrun, hsome]
        exact ⟨.some (.refl _), hmemory.put htight hsome⟩

/-! ## Files and directories -/

/-- The paths at which the file of a path is looked for. -/
def variants (modules : Modules) (p : Path) : List Path :=
  p :: modules.extensions.map fun extension => ⟨p.text ++ "." ++ extension⟩

/-- The entries that a manifest names. -/
def entriesOf : Option Package → List String
  | some package => package.module.toList ++ package.main.toList
  | none => []

theorem entriesOf_congr {package other : Option Package} (h : Option.Rel Package.Same package other) :
    entriesOf package = entriesOf other := by
  cases h with
  | none => rfl
  | some hsame => simp only [entriesOf, hsame.module, hsame.main]

/-- The entries that the manifest in a directory names. -/
def entriesIn (tree : FileTree) (directory : Path) : List String :=
  entriesOf (if tree.isFile (directory.child manifestName) then manifestAt? tree (directory.child manifestName)
    else none)

/-- The module among the entries of a directory, or its index file. -/
def chosen? (modules : Modules) (tree : FileTree) (directory : Path) (entries : List String) : Option Path :=
  (entries.findSome? fun entry => modules.asFile tree (directory.child entry).normalize).or
    (modules.asFile tree (directory.child "index"))

/-- The module that a directory stands for in a tree. -/
def directoryFile? (modules : Modules) (tree : FileTree) (directory : Path) : Option Path :=
  chosen? modules tree directory (entriesIn tree directory)

/-- The module that a path stands for in a tree. -/
def pathFile? (modules : Modules) (tree : FileTree) (p : Path) : Option Path :=
  (modules.asFile tree p.normalize).or
    (if tree.isDirectory p.normalize then directoryFile? modules tree p.normalize else none)

/-- The module of a package directory in a tree, or of a path inside it. -/
def packageFile? (modules : Modules) (tree : FileTree) (directory : Path) : Option String → Option Path
  | some inner => pathFile? modules tree (directory.child inner)
  | none => directoryFile? modules tree directory

/-- The module that the package installed in a directory has in a tree, if there is one. -/
def installedFile? (modules : Modules) (tree : FileTree) (package : String) (inner : Option String)
    (directory : Path) : Option Path :=
  let home := (directory.child Nearest.packagesName).child package
  if directory.fileName? ≠ some Nearest.packagesName ∧ tree.isDirectory home = true then
    packageFile? modules tree home inner
  else none

/-- The file that a specifier stands for in a tree. -/
def located? (modules : Modules) (tree : FileTree) (specifier : String) (importer : Option Path) : Option Path :=
  let base := (importer.bind Path.parent?).getD modules.root
  if isRelative specifier then pathFile? modules tree (base.child specifier)
  else
    match specifier.toList with
    | '/' :: rooted =>
      (pathFile? modules tree ⟨specifier⟩).or (pathFile? modules tree (modules.root.child (String.ofList rooted)))
    | _ =>
      (if importer.isNone then pathFile? modules tree (base.child specifier) else none).or
        ((base :: base.ancestors).findSome?
          (installedFile? modules tree (splitSpecifier specifier).1 (splitSpecifier specifier).2))

/-- The package that a file belongs to in a tree. -/
def owner (tree : FileTree) (p : Path) : Package :=
  (((Nearest.candidates p [manifestName]).find? tree.isFile).bind (manifestAt? tree)).getD {}

section Files

variable (modules : Modules) (tree : FileTree)

theorem asDirectory_eq (directory : Path) :
    modules.asDirectory tree directory =
      if tree.isFile (directory.child manifestName) then do
        return modules.chosen? tree directory (entriesOf (← readPackage tree (directory.child manifestName)))
      else return modules.chosen? tree directory [] := by
  unfold asDirectory chosen? entriesOf
  dsimp only
  split
  · refine congrArg _ (funext fun package => ?_)
    cases package with
    | none => split <;> rename_i hnamed <;> rw [hnamed] <;> rfl
    | some package => split <;> rename_i hnamed <;> rw [hnamed] <;> rfl
  · rw [pure_bind]
    split <;> rename_i hnamed <;> rw [hnamed] <;> rfl

theorem gives_asDirectory (directory : Path) :
    Gives tree (· = directoryFile? modules tree directory) (modules.asDirectory tree directory) := by
  rw [asDirectory_eq, directoryFile?, entriesIn]
  split
  · refine (gives_readPackage (isTight_manifest directory) ‹_›).bind fun package hpackage => gives_pure ?_
    rw [entriesOf_congr hpackage]
  · exact gives_pure rfl

/-- A path stands for the same module whatever is remembered. -/
theorem gives_asFileOrDirectory (p : Path) :
    Gives tree (· = pathFile? modules tree p) (modules.asFileOrDirectory tree p) := by
  unfold asFileOrDirectory pathFile?
  dsimp only
  cases modules.asFile tree p.normalize with
  | some found => exact gives_pure rfl
  | none =>
    rw [Option.none_or]
    split
    · exact gives_asDirectory modules tree p.normalize
    · exact gives_pure rfl

theorem isFile_of_asFile {p found : Path} (h : modules.asFile tree p = some found) :
    found ∈ modules.variants p ∧ tree.isFile found = true :=
  ⟨List.mem_of_find?_eq_some h, List.find?_some h⟩

/-- What a directory stands for is a file. -/
theorem isFile_of_directoryFile? {directory found : Path} (h : directoryFile? modules tree directory = some found) :
    tree.isFile found = true := by
  rcases Option.or_eq_some_iff.1 h with hnamed | ⟨-, hindex⟩
  · obtain ⟨entry, -, hentry⟩ := List.exists_of_findSome?_eq_some hnamed
    exact (isFile_of_asFile modules tree hentry).2
  · exact (isFile_of_asFile modules tree hindex).2

/-- What a path stands for is a file. -/
theorem isFile_of_pathFile? {p found : Path} (h : pathFile? modules tree p = some found) :
    tree.isFile found = true := by
  rcases Option.or_eq_some_iff.1 h with hfile | ⟨-, hdirectory⟩
  · exact (isFile_of_asFile modules tree hfile).2
  · split at hdirectory
    · exact isFile_of_directoryFile? modules tree hdirectory
    · cases hdirectory

theorem gives_inPackage (directory : Path) (inner : Option String) :
    Gives tree (· = packageFile? modules tree directory inner) (modules.inPackage tree directory inner) := by
  cases inner with
  | some inner => exact gives_asFileOrDirectory modules tree (directory.child inner)
  | none => exact gives_asDirectory modules tree directory

/-- Among the directories the nearest one whose package has a module decides. -/
theorem gives_installed (package : String) (inner : Option String) (directories : List Path) :
    Gives tree (· = directories.findSome? (installedFile? modules tree package inner))
      (modules.installed tree package inner directories) := by
  induction directories with
  | nil => exact gives_pure rfl
  | cons directory outer ih =>
    have hor (find : Path → Option Path) :
        (directory :: outer).findSome? find = (find directory).or (outer.findSome? find) := by
      rw [List.findSome?_cons]
      cases find directory <;> rfl
    rw [hor]
    unfold installed
    dsimp only
    by_cases hhome : directory.fileName? ≠ some Nearest.packagesName ∧
        tree.isDirectory ((directory.child Nearest.packagesName).child package) = true
    · rw [if_pos hhome, installedFile?, if_pos hhome]
      exact (gives_inPackage modules tree _ inner).orElse (fun _ => rfl) ih
    · rw [if_neg hhome, installedFile?, if_neg hhome, Option.none_or]
      exact ih

/-- A specifier stands for the same file whatever is remembered. -/
theorem gives_locate (specifier : String) (importer : Option Path) :
    Gives tree (· = located? modules tree specifier importer) (modules.locate tree specifier importer) := by
  unfold locate located?
  dsimp only
  split
  · exact gives_asFileOrDirectory modules tree _
  · generalize specifier.toList = cs
    split
    · exact (gives_asFileOrDirectory modules tree _).orElse (fun _ => rfl) (gives_asFileOrDirectory modules tree _)
    · have hpackage := gives_installed modules tree (splitSpecifier specifier).1 (splitSpecifier specifier).2
      cases importer with
      | some importer =>
        simp only [Option.isNone_some, Bool.false_eq_true, if_false, Option.none_or, pure_bind]
        exact hpackage _
      | none =>
        simp only [Option.isNone_none, if_true]
        exact (gives_asFileOrDirectory modules tree _).orElse (fun _ => rfl) (hpackage _)

theorem isFile_of_installedFile? {package : String} {inner : Option String} {directory found : Path}
    (h : installedFile? modules tree package inner directory = some found) : tree.isFile found = true := by
  unfold installedFile? at h
  dsimp only at h
  split at h
  · cases inner with
    | some inner => exact isFile_of_pathFile? modules tree h
    | none => exact isFile_of_directoryFile? modules tree h
  · cases h

/-- What a specifier stands for is a file. -/
theorem isFile_of_located? {specifier : String} {importer : Option Path} {found : Path}
    (h : located? modules tree specifier importer = some found) : tree.isFile found = true := by
  unfold located? at h
  dsimp only at h
  split at h
  · exact isFile_of_pathFile? modules tree h
  · split at h
    · rcases Option.or_eq_some_iff.1 h with hrooted | ⟨-, hrooted⟩
      · exact isFile_of_pathFile? modules tree hrooted
      · exact isFile_of_pathFile? modules tree hrooted
    · rcases Option.or_eq_some_iff.1 h with hentry | ⟨-, hpackage⟩
      · split at hentry
        · exact isFile_of_pathFile? modules tree hentry
        · cases hentry
      · obtain ⟨directory, -, hinstalled⟩ := List.exists_of_findSome?_eq_some hpackage
        exact isFile_of_installedFile? modules tree hinstalled

end Files

/-! ## Packages -/

section Packages

variable {tree : FileTree}

/-- The manifests above an entry lie at paths of addresses. -/
theorem isAddress_of_candidates {address : Address} (h : Proper address) {q : Path}
    (hq : q ∈ Nearest.candidates (pathOf address) [manifestName]) : IsAddress q := by
  obtain ⟨directory, hdirectory, hchild⟩ := List.mem_flatMap.1 hq
  obtain ⟨outer, houter, -, rfl⟩ := FileTree.exists_of_mem_ancestors h ((List.takeWhile_sublist _).mem hdirectory)
  rw [List.map_singleton, List.mem_singleton] at hchild
  have hproper := houter.append isFileName_manifestName
  exact ⟨outer ++ [manifestName], hproper, hchild.trans (FileTree.child_pathOf hproper)⟩

/-- A file belongs to the same package whatever is remembered. -/
theorem gives_packageOf {address : Address} (h : Proper address) :
    Gives tree (Package.Same · (owner tree (pathOf address))) (packageOf tree (pathOf address)) := by
  intro memory hmemory
  obtain ⟨hfind, hknown⟩ := Nearest.find_of_recalls (clear_isAddress tree)
    (fun q hq => isAddress_of_candidates h hq) hmemory.known
  unfold packageOf owner
  simp only [StateT.run_bind, StateT.run_get, StateT.run_set, pure_bind]
  rw [← hfind]
  generalize hresult : Nearest.find tree (pathOf address) [manifestName] memory.known = result at hfind hknown ⊢
  obtain ⟨manifest, known⟩ := result
  have hafter : Memory.Truthful tree { memory with known } := ⟨hknown, hmemory.packages⟩
  cases manifest with
  | none => exact ⟨.refl _, hafter⟩
  | some manifest =>
    have hfile : tree.isFile manifest = true := List.find?_some hfind.symm
    have htight : manifest.IsTight := by
      obtain ⟨directory, -, hchild⟩ := List.mem_flatMap.1 (List.mem_of_find?_eq_some hfind.symm)
      rw [List.map_singleton, List.mem_singleton] at hchild
      rw [hchild]
      exact isTight_manifest directory
    have hread : Gives tree (Package.Same · ((manifestAt? tree manifest).getD {}))
        (do return (← readPackage tree manifest).getD {}) := by
      exact (gives_readPackage htight hfile).bind fun package hpackage => gives_pure (.getD hpackage)
    exact hread _ hafter

end Packages

/-! ## Resolutions -/

/-- Whether two answers are equal, where paths of manifests are equal if their components are. -/
inductive SameAnswer : Except Failure Resolved → Except Failure Resolved → Prop
  | error (failure : Failure) : SameAnswer (.error failure) (.error failure)
  | ok (path : Path) {package other : Package} (h : package.Same other) :
      SameAnswer (.ok ⟨path, package⟩) (.ok ⟨path, other⟩)

theorem SameAnswer.symm {result other : Except Failure Resolved} (h : SameAnswer result other) :
    SameAnswer other result := by
  cases h with
  | error failure => exact .error failure
  | ok path h => exact .ok path h.symm

theorem SameAnswer.trans {result other third : Except Failure Resolved} (h : SameAnswer result other)
    (hother : SameAnswer other third) : SameAnswer result third := by
  cases h with
  | error failure => exact hother
  | ok path h =>
    cases hother with
    | ok _ hother => exact .ok path (h.trans hother)

/-- The module that a specifier names in a tree. -/
def answerIn (modules : Modules) (tree : FileTree) (specifier : String) (importer : Option Path) :
    Except Failure Resolved :=
  match located? modules tree specifier importer with
  | none => .error (.moduleNotFound specifier (importer.getD modules.root))
  | some found =>
    match tree.canonical found with
    | .error fault => .error (.io fault)
    | .ok path => .ok ⟨path, owner tree path⟩

/-- What a path leads to has the path of an address. -/
theorem exists_of_canonical {tree : FileTree} (hhome : Proper tree.home) {found path : Path}
    (h : tree.canonical found = .ok path) : ∃ address, Proper address ∧ path = pathOf address := by
  unfold FileTree.canonical at h
  cases hfind : tree.find found with
  | error fault =>
    rw [hfind] at h
    cases h
  | ok entry =>
    rw [hfind] at h
    cases h
    exact ⟨entry.1, FileTree.proper_of_find hhome hfind, rfl⟩

/-- A file has a path without links. -/
theorem exists_canonical_of_isFile {tree : FileTree} {found : Path} (h : tree.isFile found = true) :
    ∃ path, tree.canonical found = .ok path := by
  unfold FileTree.isFile at h
  unfold FileTree.canonical
  cases hfind : tree.find found with
  | error fault =>
    rw [hfind] at h
    cases h
  | ok entry => exact ⟨_, rfl⟩

/-- A specifier names the same module whatever is remembered. -/
theorem gives_resolve (modules : Modules) {tree : FileTree} (hhome : Proper tree.home) (specifier : String)
    (importer : Option Path) :
    Gives tree (SameAnswer · (answerIn modules tree specifier importer)) (modules.resolve tree specifier importer) := by
  unfold resolve answerIn
  refine (gives_locate modules tree specifier importer).bind ?_
  rintro found rfl
  cases hlocated : located? modules tree specifier importer with
  | none => exact gives_pure (.error _)
  | some found =>
    dsimp only
    cases hcanonical : tree.canonical found with
    | error fault => exact gives_pure (.error _)
    | ok path =>
      obtain ⟨address, hproper, rfl⟩ := exists_of_canonical hhome hcanonical
      exact (gives_packageOf hproper).bind fun package hpackage => gives_pure (.ok _ hpackage)

/-- What a resolution is asked for. -/
structure Question where
  specifier : String
  importer : Option Path

/-- What is remembered after resolutions that began with nothing remembered. -/
def remembered (modules : Modules) (tree : FileTree) (earlier : List Question) : Memory :=
  earlier.foldl (fun memory question => ((modules.resolve tree question.specifier question.importer).run memory).2) {}

/-- What earlier resolutions leave in the memory is true of the tree. -/
theorem truthful_remembered (modules : Modules) {tree : FileTree} (hhome : Proper tree.home)
    (earlier : List Question) : (remembered modules tree earlier).Truthful tree := by
  induction earlier using List.reverseRecOn with
  | nil => exact truthful_empty tree
  | append_singleton earlier question ih =>
    rw [remembered, List.foldl_concat]
    exact (gives_resolve modules hhome question.specifier question.importer _ ih).2

/-- The answer of a resolution after others. -/
def answerAfter (modules : Modules) (tree : FileTree) (earlier : List Question) (question : Question) :
    Except Failure Resolved :=
  ((modules.resolve tree question.specifier question.importer).run (remembered modules tree earlier)).1

/-- Earlier resolutions make no difference. -/
theorem answerAfter_same (modules : Modules) {tree : FileTree} (hhome : Proper tree.home) (earlier : List Question)
    (question : Question) :
    SameAnswer (answerAfter modules tree earlier question)
      (answerIn modules tree question.specifier question.importer) :=
  (gives_resolve modules hhome question.specifier question.importer _
    (truthful_remembered modules hhome earlier)).1

/-- The answer is the file that was found, and its package. -/
theorem answerAfter_of_located (modules : Modules) {tree : FileTree} (hhome : Proper tree.home)
    (earlier : List Question) (question : Question) {found : Path}
    (h : located? modules tree question.specifier question.importer = some found) :
    tree.isFile found = true ∧ ∃ path package, tree.canonical found = .ok path ∧
      package.Same (owner tree path) ∧ answerAfter modules tree earlier question = .ok ⟨path, package⟩ := by
  have hafter := answerAfter_same modules hhome earlier question
  have hfile := isFile_of_located? modules tree h
  obtain ⟨path, hcanonical⟩ := exists_canonical_of_isFile hfile
  rw [answerIn, h] at hafter
  dsimp only at hafter
  rw [hcanonical] at hafter
  generalize answerAfter modules tree earlier question = result at hafter ⊢
  cases hafter with
  | ok _ hsame => exact ⟨hfile, path, _, hcanonical, hsame, rfl⟩

/-- Without a file there is no module. -/
theorem answerAfter_of_not_located (modules : Modules) {tree : FileTree} (hhome : Proper tree.home)
    (earlier : List Question) (question : Question)
    (h : located? modules tree question.specifier question.importer = none) :
    answerAfter modules tree earlier question =
      .error (.moduleNotFound question.specifier (question.importer.getD modules.root)) := by
  have hafter := answerAfter_same modules hhome earlier question
  rw [answerIn, h] at hafter
  generalize answerAfter modules tree earlier question = result at hafter ⊢
  cases hafter with
  | error failure => rfl

end Modules
end Lookup
end ModuleBundler
