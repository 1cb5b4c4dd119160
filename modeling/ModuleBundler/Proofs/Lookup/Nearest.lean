import ModuleBundler.Lookup.Nearest
import ModuleBundler.Proofs.FileTree.Spelling

/-!
# The nearest file

A lookup goes through the directories above a path, the nearest first, and in each of
them through the names in their order.  It remembers of every path that it asks about
whether a file is there.  What is remembered under one spelling of a path answers for
all of them, so that lookups find what the tree holds as long as the spellings that are
asked about do not differ: a name with a slash behind it is the same path, but never
a file.

Main results:

- Theorem {lit}`Nearest.find_of_recalls`: with what is remembered a lookup finds the first candidate that is a file.
- Theorem {lit}`Nearest.clear_of_isPlain`: lookups of plain names do not get in each other's way.
- Theorem {lit}`Nearest.find_after`: after any earlier lookups the nearest file is found.
-/

namespace ModuleBundler
namespace Lookup
namespace Nearest

/-! ## What is looked for -/

/-- The directories that a lookup goes through: those above the path and below the innermost one of them that
holds packages. -/
def range (p : Path) : List Path :=
  p.ancestors.takeWhile fun directory => directory.fileName? ≠ some packagesName

/-- The paths that a lookup may ask about, in their order. -/
def candidates (p : Path) (names : List String) : List Path :=
  (range p).flatMap fun directory => names.map directory.child

/-- Whether a file has the first of the names that is there in the nearest directory that has any of them. -/
def IsNearest (tree : FileTree) (p : Path) (names : List String) (found : Path) : Prop :=
  ∃ nearer directory farther first name others,
    range p = nearer ++ directory :: farther ∧ names = first ++ name :: others ∧
      found = directory.child name ∧ tree.isFile found = true ∧
        (∀ closer ∈ nearer, ∀ other ∈ names, tree.isFile (closer.child other) = false) ∧
          ∀ other ∈ first, tree.isFile (directory.child other) = false

theorem find?_candidates_eq_some_iff {tree : FileTree} {p found : Path} {names : List String} :
    (candidates p names).find? tree.isFile = some found ↔ IsNearest tree p names found := by
  rw [candidates, List.find?_flatMap, List.findSome?_eq_some_iff]
  constructor
  · rintro ⟨nearer, directory, farther, hrange, hfound, hnearer⟩
    rw [List.find?_map] at hfound
    obtain ⟨name, hname, rfl⟩ := Option.map_eq_some_iff.1 hfound
    obtain ⟨hfile, first, others, hnames, hfirst⟩ := List.find?_eq_some_iff_append.1 hname
    refine ⟨nearer, directory, farther, first, name, others, hrange, hnames, rfl, hfile, ?_, ?_⟩
    · intro closer hcloser other hother
      have hnone := List.find?_eq_none.1 (hnearer closer hcloser) _ (List.mem_map_of_mem hother)
      simpa using hnone
    · intro other hother
      simpa using hfirst other hother
  · rintro ⟨nearer, directory, farther, first, name, others, hrange, hnames, rfl, hfile, hnearer, hfirst⟩
    refine ⟨nearer, directory, farther, hrange, ?_, ?_⟩
    · rw [List.find?_map, Option.map_eq_some_iff]
      refine ⟨name, List.find?_eq_some_iff_append.2 ⟨hfile, first, others, hnames, ?_⟩, rfl⟩
      intro other hother
      simpa using hfirst other hother
    · intro closer hcloser
      rw [List.find?_eq_none]
      intro q hq
      obtain ⟨other, hother, rfl⟩ := List.mem_map.1 hq
      simp [hnearer closer hcloser other hother]

theorem find?_candidates_eq_none_iff {tree : FileTree} {p : Path} {names : List String} :
    (candidates p names).find? tree.isFile = none ↔
      ∀ directory ∈ range p, ∀ name ∈ names, tree.isFile (directory.child name) = false := by
  simp [candidates, List.find?_eq_none]

/-! ## What is remembered -/

section Recalling

variable {tree : FileTree} {asked : Path → Prop} {known : Known}

/-- Whether every answer that is remembered was given for a spelling of the path that was asked about. -/
def Recalls (tree : FileTree) (asked : Path → Prop) (known : Known) : Prop :=
  ∀ p answer, known.get? p = some answer →
    ∃ q, asked q ∧ (q == p) = true ∧ answer = tree.isFile q

/-- Whether all spellings of a path that are asked about have one answer. -/
def Clear (tree : FileTree) (asked : Path → Prop) : Prop :=
  ∀ p q, asked p → asked q → (p == q) = true → tree.isFile p = tree.isFile q

theorem recalls_empty (tree : FileTree) (asked : Path → Prop) : Recalls tree asked .empty :=
  nofun

/-- A question is answered as by the tree. -/
theorem isFile_of_recalls (hclear : Clear tree asked) (h : Recalls tree asked known) {p : Path} (hp : asked p) :
    (isFile tree known p).1 = tree.isFile p ∧ Recalls tree asked (isFile tree known p).2 := by
  cases hget : known.get? p with
  | some answer =>
    obtain ⟨q, hq, hsame, rfl⟩ := h p answer hget
    rw [exists_known tree hget]
    exact ⟨hclear q p hq hp hsame, h⟩
  | none =>
    have hasked : isFile tree known p = (tree.isFile p, known.put p (tree.isFile p)) := by
      simp [isFile, hget]
    rw [hasked]
    refine ⟨rfl, fun q answer hanswer => ?_⟩
    cases hsame : p == q with
    | true =>
      rw [Path.Map.get?_put_self hsame, Option.some.injEq] at hanswer
      exact ⟨p, hp, hsame, hanswer.symm⟩
    | false =>
      rw [Path.Map.get?_put_of_ne hsame] at hanswer
      exact h q answer hanswer

/-- In one directory the first of the names is found that is a file. -/
theorem inDirectory_of_recalls (hclear : Clear tree asked) (directory : Path) {names : List String}
    (hasked : ∀ name ∈ names, asked (directory.child name)) (h : Recalls tree asked known) :
    (inDirectory tree directory names known).1 = (names.map directory.child).find? tree.isFile ∧
      Recalls tree asked (inDirectory tree directory names known).2 := by
  induction names generalizing known with
  | nil => exact ⟨rfl, h⟩
  | cons name names ih =>
    obtain ⟨hname, hnames⟩ := List.forall_mem_cons.1 hasked
    obtain ⟨hanswer, hknown⟩ := isFile_of_recalls hclear h hname
    rw [inDirectory, List.map_cons, List.find?_cons, ← hanswer]
    generalize isFile tree known (directory.child name) = result at hknown ⊢
    obtain ⟨answer, known⟩ := result
    cases answer with
    | true => exact ⟨rfl, hknown⟩
    | false => exact ih hnames hknown

/-- In several directories the search ends with the first file, or below a directory that holds packages. -/
theorem inDirectories_of_recalls (hclear : Clear tree asked) {names : List String} {directories : List Path}
    (hasked : ∀ directory ∈ directories.takeWhile fun directory => directory.fileName? ≠ some packagesName,
      ∀ name ∈ names, asked (directory.child name)) (h : Recalls tree asked known) :
    (inDirectories tree names directories known).1 =
        ((directories.takeWhile fun directory => directory.fileName? ≠ some packagesName).flatMap
          fun directory => names.map directory.child).find? tree.isFile ∧
      Recalls tree asked (inDirectories tree names directories known).2 := by
  induction directories generalizing known with
  | nil => exact ⟨rfl, h⟩
  | cons directory outer ih =>
    by_cases hpackages : directory.fileName? = some packagesName
    · rw [inDirectories, if_pos hpackages, List.takeWhile_cons_of_neg (by simpa using hpackages)]
      exact ⟨rfl, h⟩
    · rw [List.takeWhile_cons_of_pos (by simpa using hpackages)] at hasked ⊢
      obtain ⟨hhere, houter⟩ := List.forall_mem_cons.1 hasked
      obtain ⟨hanswer, hknown⟩ := inDirectory_of_recalls hclear directory hhere h
      rw [inDirectories, if_neg hpackages, List.flatMap_cons, List.find?_append, ← hanswer]
      generalize inDirectory tree directory names known = result at hknown ⊢
      obtain ⟨answer, known⟩ := result
      cases answer with
      | some found => exact ⟨rfl, hknown⟩
      | none => exact ih houter hknown

/-- With what is remembered a lookup finds the first candidate that is a file. -/
theorem find_of_recalls (hclear : Clear tree asked) {p : Path} {names : List String}
    (hasked : ∀ q ∈ candidates p names, asked q) (h : Recalls tree asked known) :
    (find tree p names known).1 = (candidates p names).find? tree.isFile ∧
      Recalls tree asked (find tree p names known).2 := by
  refine inDirectories_of_recalls hclear (fun directory hdirectory name hname => hasked _ ?_) h
  exact List.mem_flatMap.2 ⟨directory, hdirectory, List.mem_map_of_mem hname⟩

end Recalling

/-! ## Lookups one after the other -/

/-- A lookup. -/
structure Inquiry where
  path : Path
  names : List String

/-- What is known after lookups that began with nothing known. -/
def after (tree : FileTree) (inquiries : List Inquiry) : Known :=
  inquiries.foldl (fun known inquiry => (find tree inquiry.path inquiry.names known).2) .empty

/-- Whether one of the lookups may ask about a path. -/
def Asks (inquiries : List Inquiry) (p : Path) : Prop :=
  ∃ inquiry ∈ inquiries, p ∈ candidates inquiry.path inquiry.names

theorem recalls_after {tree : FileTree} {asked : Path → Prop} (hclear : Clear tree asked)
    {inquiries : List Inquiry} (hasked : ∀ q, Asks inquiries q → asked q) :
    Recalls tree asked (after tree inquiries) := by
  suffices h : ∀ known, Recalls tree asked known → Recalls tree asked
      (inquiries.foldl (fun known inquiry => (find tree inquiry.path inquiry.names known).2) known) from
    h .empty (recalls_empty tree asked)
  induction inquiries with
  | nil => exact fun known h => h
  | cons inquiry rest ih =>
    intro known h
    refine ih (fun q ⟨other, hother, hq⟩ => hasked q ⟨other, List.mem_cons_of_mem _ hother, hq⟩) _ ?_
    exact (find_of_recalls hclear (fun q hq => hasked q ⟨inquiry, List.mem_cons_self, hq⟩) h).2

/-- Whether a lookup is for names that end neither with a slash nor with a dot behind one, under paths that are
not too long. -/
structure Inquiry.IsPlain (inquiry : Inquiry) : Prop where
  tight : ∀ name ∈ inquiry.names, (Path.mk name).IsTight
  short : ∀ q ∈ candidates inquiry.path inquiry.names, q.text.utf8ByteSize ≤ FileTree.maxPath

/-- Lookups of plain names do not get in each other's way. -/
theorem clear_of_isPlain (tree : FileTree) {inquiries : List Inquiry} (h : ∀ inquiry ∈ inquiries, inquiry.IsPlain) :
    Clear tree (Asks inquiries) := by
  have hcandidate : ∀ q, Asks inquiries q → q.IsTight ∧ q.text.utf8ByteSize ≤ FileTree.maxPath := by
    rintro q ⟨inquiry, hinquiry, hq⟩
    refine ⟨?_, (h inquiry hinquiry).short q hq⟩
    obtain ⟨directory, -, hchild⟩ := List.mem_flatMap.1 hq
    obtain ⟨name, hname, rfl⟩ := List.mem_map.1 hchild
    exact ((h inquiry hinquiry).tight name hname).join directory
  intro p q hp hq hsame
  obtain ⟨hptight, hpshort⟩ := hcandidate p hp
  obtain ⟨hqtight, hqshort⟩ := hcandidate q hq
  exact FileTree.isFile_congr tree hsame hptight hqtight hpshort hqshort

/-- After any earlier lookups the nearest file is found, and nothing only if there is none, unless two spellings
of one path were asked about of which one is a file and the other is not; of plain names there are none. -/
theorem find_after (tree : FileTree) (earlier : List Inquiry) (p : Path) (names : List String) :
    (Clear tree (Asks (⟨p, names⟩ :: earlier)) →
      (∀ found, (find tree p names (after tree earlier)).1 = some found ↔ IsNearest tree p names found) ∧
      ((find tree p names (after tree earlier)).1 = none ↔
        ∀ directory ∈ range p, ∀ name ∈ names, tree.isFile (directory.child name) = false)) ∧
    ((∀ inquiry ∈ ⟨p, names⟩ :: earlier, inquiry.IsPlain) → Clear tree (Asks (⟨p, names⟩ :: earlier))) := by
  refine ⟨fun hclear => ?_, clear_of_isPlain tree⟩
  have hrecalls : Recalls tree (Asks (⟨p, names⟩ :: earlier)) (after tree earlier) :=
    recalls_after hclear fun q ⟨inquiry, hinquiry, hq⟩ => ⟨inquiry, List.mem_cons_of_mem _ hinquiry, hq⟩
  have hasked : ∀ q ∈ candidates p names, Asks (⟨p, names⟩ :: earlier) q :=
    fun q hq => ⟨⟨p, names⟩, List.mem_cons_self, hq⟩
  obtain ⟨hfind, -⟩ := find_of_recalls hclear hasked hrecalls
  rw [hfind]
  exact ⟨fun found => find?_candidates_eq_some_iff, find?_candidates_eq_none_iff⟩

/-! ## A name with a slash behind it -/

/-- A directory, and a manifest beside it. -/
def manifestTree : FileTree :=
  ⟨[(["d"], .directory 0), (["package.json"], .file .empty 0)], [], 9⟩

theorem isFile_manifest : manifestTree.isFile ⟨"/package.json"⟩ = true :=
  FileTree.isFile_of_spells (show FileTree.Spells ⟨"/package.json"⟩ ([] ++ ["package.json"]) by decide)
    (FileTree.open_single manifestTree "package.json") ⟨_, _, rfl⟩

theorem isFile_slash : manifestTree.isFile ⟨"/package.json/"⟩ = false := by
  have hwalk : manifestTree.walk .use FileTree.maxLinks [] true [.name "package.json"] = .error .notDirectory := by
    have hat : manifestTree.at? ["package.json"] = some (.file .empty 0) := rfl
    rw [FileTree.walk]
    simp [hat, show ¬FileTree.maxName < "package.json".utf8ByteSize by decide]
  have hlocate : manifestTree.locate .use ⟨"/package.json/"⟩ = .error .notDirectory := by
    rw [← hwalk]
    unfold FileTree.locate
    rw [if_neg (by decide), if_neg (by decide), if_neg (by decide)]
    rfl
  unfold FileTree.isFile FileTree.find
  rw [hlocate]

theorem isFile_absent : manifestTree.isFile ((⟨"/d"⟩ : Path).child "settings.json") = false ∧
    manifestTree.isFile ((⟨"/d"⟩ : Path).child "package.json") = false ∧
    manifestTree.isFile ((⟨"/"⟩ : Path).child "settings.json") = false := by
  have hopen (name : String) : manifestTree.Open (["d"] ++ [name]) :=
    (FileTree.open_single manifestTree "d").append ⟨0, rfl⟩ name
  refine ⟨?_, ?_, ?_⟩
  · exact FileTree.isFile_of_spells_none (show FileTree.Spells _ (["d"] ++ ["settings.json"]) by decide) (hopen _) rfl
  · exact FileTree.isFile_of_spells_none (show FileTree.Spells _ (["d"] ++ ["package.json"]) by decide) (hopen _) rfl
  · exact FileTree.isFile_of_spells_none (show FileTree.Spells _ ([] ++ ["settings.json"]) by decide)
      (FileTree.open_single manifestTree _) rfl

/-- Above the inner file the manifest is found, after a lookup from the outer one. -/
theorem find_manifest :
    (∀ inquiry ∈ [Inquiry.mk ⟨"/d/b.js"⟩ ["settings.json", "package.json"], ⟨⟨"/a.js"⟩, ["package.json"]⟩],
      inquiry.IsPlain) ∧
    (find manifestTree ⟨"/d/b.js"⟩ ["settings.json", "package.json"]
      (after manifestTree [⟨⟨"/a.js"⟩, ["package.json"]⟩])).1 = some ⟨"/package.json"⟩ := by
  have htight : (Path.mk "settings.json").IsTight ∧ (Path.mk "package.json").IsTight :=
    ⟨⟨[], "settings.json", by decide, by decide⟩, ⟨[], "package.json", by decide, by decide⟩⟩
  have hplain : ∀ inquiry ∈ [Inquiry.mk ⟨"/d/b.js"⟩ ["settings.json", "package.json"],
      ⟨⟨"/a.js"⟩, ["package.json"]⟩], inquiry.IsPlain := by
    simp only [List.forall_mem_cons, List.not_mem_nil, false_implies, implies_true, and_true]
    exact ⟨⟨by simp [htight], by decide⟩, ⟨by simp [htight], by decide⟩⟩
  obtain ⟨hfinds, hclear⟩ := find_after manifestTree [⟨⟨"/a.js"⟩, ["package.json"]⟩] ⟨"/d/b.js"⟩
    ["settings.json", "package.json"]
  refine ⟨hplain, ((hfinds (hclear hplain)).1 _).2 ?_⟩
  refine ⟨[⟨"/d"⟩], ⟨"/"⟩, [], ["settings.json"], "package.json", [], by decide, rfl, by decide, isFile_manifest,
    ?_, ?_⟩
  · simp [isFile_absent]
  · simp [isFile_absent]

/-- The manifest is found, but not after a lookup for its name with a slash behind it. -/
theorem exists_lost_file :
    (find manifestTree ⟨"/a.js"⟩ ["package.json"] .empty).1 = some ⟨"/package.json"⟩ ∧
    (find manifestTree ⟨"/a.js"⟩ ["package.json"] (after manifestTree [⟨⟨"/a.js"⟩, ["package.json/"]⟩])).1 = none := by
  have hchild : (⟨"/"⟩ : Path).child "package.json" = ⟨"/package.json"⟩ ∧
      (⟨"/"⟩ : Path).child "package.json/" = ⟨"/package.json/"⟩ := by decide
  have hancestors : (⟨"/a.js"⟩ : Path).ancestors = [⟨"/"⟩] := by decide
  have hroot : (⟨"/"⟩ : Path).fileName? ≠ some packagesName := by decide
  have hsame : ((⟨"/package.json/"⟩ : Path) == ⟨"/package.json"⟩) = true := by decide
  constructor
  · simp [find, hancestors, inDirectories, hroot, inDirectory, hchild, isFile, isFile_manifest]
  · have hafter : after manifestTree [⟨⟨"/a.js"⟩, ["package.json/"]⟩] =
        Path.Map.empty.put ⟨"/package.json/"⟩ false := by
      simp [after, find, hancestors, inDirectories, hroot, inDirectory, hchild, isFile, isFile_slash]
    simp [hafter, find, hancestors, inDirectories, hroot, inDirectory, hchild, isFile,
      Path.Map.get?_put_self hsame]

end Nearest
end Lookup
end ModuleBundler
