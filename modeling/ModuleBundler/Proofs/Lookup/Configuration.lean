import ModuleBundler.Proofs.FileTree.Standpoint
import ModuleBundler.Proofs.Lookup.Nearest

/-!
# The configuration of an entry

The configuration file of an entry is looked for in the directories that the path of the
entry goes through, as it is written.  The absolute form of the path goes through the
directories above the entry.  A relative path goes through those up to the current
directory only, and a path with steps to a parent directory goes through the directories
that it leaves again as well.  So the spelling of an entry makes no difference to its
options, as long as the directories aside hold no configuration, and the file that applies
does not lie above all of the others.

Main results:

- Theorem {lit}`Nearest.searched_meets`: on the way of a path the same file is found as above its address.
- Theorem {lit}`Nearest.options_of_matches`: the same file has the same options.
- Theorem {lit}`Nearest.options_of_entry`: when an entry has the options of its absolute form.
- Theorem {lit}`Nearest.exists_other_configuration`: steps to a parent directory make a difference.
-/

namespace ModuleBundler
namespace Lookup
namespace Nearest

open FileTree (pathOf place Proper)

/-! ## Searches -/

section Searching

variable {tree : FileTree} {name : String} {directory file : Path} {directories : List Path}

/-- The first file of a name in some directories, up to one that holds packages. -/
def searched (tree : FileTree) (name : String) (directories : List Path) : Option Path :=
  ((directories.takeWhile fun directory => directory.fileName? ≠ some packagesName).map (Path.child · name)).find?
    tree.isFile

/-- Whether there is nothing in a directory that would end a search. -/
def Bare (tree : FileTree) (name : String) (directory : Path) : Prop :=
  directory.fileName? ≠ some packagesName ∧ tree.isFile (directory.child name) = false

theorem searched_nil : searched tree name [] = none :=
  rfl

theorem searched_stop (h : directory.fileName? = some packagesName) (outer : List Path) :
    searched tree name (directory :: outer) = none := by
  rw [searched, List.takeWhile_cons_of_neg (by simpa using h)]
  rfl

theorem searched_found (h : directory.fileName? ≠ some packagesName)
    (hfile : tree.isFile (directory.child name) = true) (outer : List Path) :
    searched tree name (directory :: outer) = some (directory.child name) := by
  rw [searched, List.takeWhile_cons_of_pos (by simpa using h), List.map_cons, List.find?_cons_of_pos hfile]

theorem searched_next (h : Bare tree name directory) (outer : List Path) :
    searched tree name (directory :: outer) = searched tree name outer := by
  rw [searched, List.takeWhile_cons_of_pos (by simpa using h.1), List.map_cons,
    List.find?_cons_of_neg (by simpa using h.2), searched]

theorem exists_of_searched (h : searched tree name directories = some file) :
    tree.isFile file = true ∧ ∃ directory ∈ directories, file = directory.child name := by
  obtain ⟨directory, hmem, rfl⟩ := List.mem_map.1 (List.mem_of_find?_eq_some h)
  exact ⟨List.find?_some h, directory, (List.takeWhile_sublist _).mem hmem, rfl⟩

/-- A search with nothing known goes through the directories above the path. -/
theorem find_eq_searched {p : Path} (h : (Inquiry.mk p [name]).IsPlain) :
    (find tree p [name] .empty).1 = searched tree name p.ancestors := by
  have hclear : Clear tree (Asks [⟨p, [name]⟩]) :=
    clear_of_isPlain tree (by simpa using h)
  have hcandidates : candidates p [name] = (range p).map (Path.child · name) := by
    simp [candidates, List.map_eq_flatMap]
  have hfind := (find_of_recalls hclear (fun q hq => ⟨_, List.mem_cons_self, hq⟩) (recalls_empty tree _)).1
  rw [hfind, hcandidates]
  rfl

end Searching

/-! ## The same file -/

section Meeting

variable {tree : FileTree} {name : String} {goal : Address} {directory : Path}

/-- Whether two paths lead to the file of a name in one directory, as it is written and in its absolute form. -/
structure Matches (tree : FileTree) (name : String) (found file : Path) : Prop where
  directory : ∃ directory : Path, tree.Returns tree.home directory.components ∧ found = directory.child name ∧
    file = (pathOf (place tree.home directory)).child name
  find : tree.find found = tree.find file

/-- Whether a search through some directories finds the same file as another one, or nothing because the other
one finds a file that lies in none of them. -/
def Meets (tree : FileTree) (name : String) (directories : List Path) (found file : Option Path) : Prop :=
  Option.Rel (Matches tree name) found file ∨
    found = none ∧ ∀ q ∈ file, ∀ directory ∈ directories, q ≠ (pathOf (place tree.home directory)).child name

theorem exists_of_meets {directories : List Path} {found : Path} {other : Option Path}
    (h : Meets tree name directories (some found) other) :
    ∃ file, other = some file ∧ Matches tree name found file := by
  rcases h with hsame | ⟨hnone, -⟩
  · cases hsame with
    | some h => exact ⟨_, rfl, h⟩
  · cases hnone

/-- Whether a directory on the way of a path ends no search that goes on above the goal: above the goal it shows
whether it holds packages, and aside of it there is nothing in it. -/
structure Fits (tree : FileTree) (name : String) (goal : Address) (directory : Path) : Prop where
  above : place tree.home directory <+: goal →
    (directory.fileName? = some packagesName ↔
      (pathOf (place tree.home directory)).fileName? = some packagesName)
  aside : ¬place tree.home directory <+: goal → Bare tree name directory

/-- The file of a name nearest to an address, from its own directory on. -/
def nearest (tree : FileTree) (name : String) (address : Address) : Option Path :=
  searched tree name (pathOf address :: (pathOf address).ancestors)

/-- What fits at an address fits above it, once there is nothing at the address. -/
theorem Fits.shrink {last : String} (hstanding : tree.Standing) (hname : Path.IsFileName name)
    (h : Fits tree name (goal ++ [last]) directory) (hreturns : tree.Returns tree.home directory.components)
    (hbare : Bare tree name (pathOf (goal ++ [last])))
    (hshort : ((pathOf (goal ++ [last])).child name).text.utf8ByteSize ≤ FileTree.maxPath) :
    Fits tree name goal directory := by
  refine ⟨fun hinside => h.above (hinside.trans (List.prefix_append _ _)), fun hinside => ?_⟩
  by_cases hinner : place tree.home directory <+: goal ++ [last]
  · have hhere : place tree.home directory = goal ++ [last] :=
      (List.prefix_concat_iff.1 hinner).resolve_right hinside
    have habove := h.above hinner
    rw [hhere] at habove
    refine ⟨mt habove.1 hbare.1, ?_⟩
    by_cases hlong : (directory.child name).text.utf8ByteSize ≤ FileTree.maxPath
    · rw [FileTree.isFile_of_find (FileTree.find_child hstanding hreturns hname hlong (by rwa [hhere])), hhere]
      exact hbare.2
    · exact FileTree.isFile_of_long hlong
  · exact h.aside hinner

/-- What is found above an address without a file of its own lies in no directory from there on down. -/
theorem ne_of_nearest (hname : Path.IsFileName name) {address : Address} (hproper : Proper address)
    (hinside : goal <+: address) (hbare : Bare tree name (pathOf goal)) :
    ∀ q ∈ nearest tree name goal, q ≠ (pathOf address).child name := by
  rintro q hq rfl
  have hgoal : Proper goal := by
    obtain ⟨more, rfl⟩ := hinside
    exact fun other hmem => hproper other (List.mem_append_left _ hmem)
  obtain ⟨hfile, directory, hmem, hsame⟩ := exists_of_searched hq
  obtain ⟨outer, houter, houterInside, rfl⟩ : ∃ outer, Proper outer ∧ outer <+: goal ∧ directory = pathOf outer := by
    rcases List.mem_cons.1 hmem with rfl | hmem
    · exact ⟨goal, hgoal, List.prefix_rfl, rfl⟩
    · exact FileTree.exists_of_mem_ancestors hgoal hmem
  rw [FileTree.child_pathOf (hproper.append hname), FileTree.child_pathOf (houter.append hname)] at hsame
  have hsames : address ++ [name] = outer ++ [name] :=
    FileTree.pathOf_injective (hproper.append hname) (houter.append hname) (by rw [hsame]; exact Path.beq_refl _)
  obtain rfl : address = outer := (List.append_inj' hsames rfl).1
  rw [← (houterInside.eq_of_length_le hinside.length_le : address = goal)] at hbare
  rw [hbare.2] at hfile
  cases hfile

/-- Whether the files of a name in directories are not too long, up to one that holds packages. -/
def Short (name : String) (directories : List Path) : Prop :=
  ∀ directory ∈ directories.takeWhile fun directory => directory.fileName? ≠ some packagesName,
    (directory.child name).text.utf8ByteSize ≤ FileTree.maxPath

theorem Short.of_cons {directories : List Path} (h : Short name (directory :: directories))
    (hpackages : directory.fileName? ≠ some packagesName) :
    (directory.child name).text.utf8ByteSize ≤ FileTree.maxPath ∧ Short name directories := by
  rw [Short, List.takeWhile_cons_of_pos (by simpa using hpackages)] at h
  exact List.forall_mem_cons.1 h

/-- What holds when a search on the way of a path comes to a directory, and the search above the address of the
path to the goal: the directory is the goal, or lies below it when there is nothing at the goal. -/
structure Reached (tree : FileTree) (name : String) (goal : Address) (directory : Path) : Prop where
  returns : tree.Returns tree.home directory.components
  within : goal <+: place tree.home directory
  seen : place tree.home directory = goal ∨ Bare tree name (pathOf goal)
  fits : ∀ other ∈ directory :: directory.ancestors, Fits tree name goal other
  short : Short name (directory :: directory.ancestors)
  plain : Short name (pathOf goal :: (pathOf goal).ancestors)

/-- A directory ends both searches, or none of them. -/
theorem Reached.here (hstanding : tree.Standing) (hname : Path.IsFileName name)
    (h : Reached tree name goal directory) :
    Option.Rel (Matches tree name) (searched tree name (directory :: directory.ancestors)) (nearest tree name goal) ∨
      Bare tree name directory ∧ Bare tree name (pathOf goal) := by
  obtain ⟨habove, haside⟩ := h.fits directory List.mem_cons_self
  by_cases hhere : place tree.home directory = goal
  · have hpackages := habove (hhere ▸ List.prefix_rfl)
    rw [hhere] at hpackages
    by_cases hstop : directory.fileName? = some packagesName
    · rw [searched_stop hstop, nearest, searched_stop (hpackages.1 hstop)]
      exact .inl .none
    · have hgoal := mt hpackages.2 hstop
      have hplain := (h.plain.of_cons hgoal).1
      have hfind := FileTree.find_child hstanding h.returns hname (h.short.of_cons hstop).1 (by rwa [hhere])
      have hmatches : Matches tree name (directory.child name) ((pathOf goal).child name) :=
        ⟨⟨directory, h.returns, rfl, by rw [hhere]⟩, by rw [hfind, hhere]⟩
      have hsame := FileTree.isFile_of_find hmatches.find
      cases hfile : tree.isFile ((pathOf goal).child name) with
      | true =>
        rw [searched_found hstop (hsame.trans hfile), nearest, searched_found hgoal hfile]
        exact .inl (.some hmatches)
      | false => exact .inr ⟨⟨hstop, hsame.trans hfile⟩, hgoal, hfile⟩
  · refine .inr ⟨haside fun hinside => hhere ?_, h.seen.resolve_left hhere⟩
    exact hinside.eq_of_length_le h.within.length_le

/-- Above a directory that does not end the searches they go on. -/
theorem Reached.parent {outer : Path} (hstanding : tree.Standing) (hname : Path.IsFileName name)
    (h : Reached tree name goal directory) (hdirectory : Bare tree name directory)
    (hbare : Bare tree name (pathOf goal)) (hparent : directory.parent? = some outer) :
    ∃ other, Reached tree name other outer ∧ nearest tree name other = nearest tree name goal := by
  obtain ⟨component, hroot, hcomponents, hplace⟩ := FileTree.place_of_parent? tree.home hparent
  have hreturns := h.returns
  rw [hcomponents] at hreturns
  have hfits := (List.forall_mem_cons.1 h.fits).2
  have hshort := (h.short.of_cons hdirectory.1).2
  rw [Path.ancestors_of_parent? hparent] at hfits hshort
  -- unless the directory is the goal, the goal stays where it is
  have hstays (hinside : goal <+: place tree.home outer) : Reached tree name goal outer :=
    ⟨hreturns.of_append.1, hinside, .inr hbare, hfits, hshort, h.plain⟩
  have hgoal := h.within
  rw [hplace] at hgoal
  cases component with
  | root => exact absurd rfl hroot
  | here => exact ⟨goal, hstays hgoal, rfl⟩
  | up => exact ⟨goal, hstays (hgoal.trans (List.dropLast_prefix _)), rfl⟩
  | name text =>
    rcases List.prefix_concat_iff.1 hgoal with rfl | hgoal
    · have hproper : Proper (place tree.home outer ++ [text]) := by
        rw [← show place tree.home directory = place tree.home outer ++ [text] from hplace]
        exact FileTree.proper_place hstanding.proper directory
      obtain ⟨hfile, hplain⟩ := h.plain.of_cons hbare.1
      rw [FileTree.ancestors_pathOf hproper] at hplain
      have houter := hreturns.of_append.1
      have hshrunk : ∀ other ∈ outer :: outer.ancestors, Fits tree name (place tree.home outer) other :=
        fun other hmem =>
          (hfits other hmem).shrink hstanding hname (houter.of_mem_ancestors other hmem) hbare hfile
      refine ⟨place tree.home outer, ⟨houter, List.prefix_rfl, .inl rfl, hshrunk, hshort, hplain⟩, ?_⟩
      rw [nearest, nearest, searched_next hbare, FileTree.ancestors_pathOf hproper]
    · exact ⟨goal, hstays hgoal, rfl⟩

/-- On the way of a path the same file is found as above its address. -/
theorem searched_meets (hstanding : tree.Standing) (hname : Path.IsFileName name)
    (h : Reached tree name goal directory) :
    Meets tree name (directory :: directory.ancestors)
      (searched tree name (directory :: directory.ancestors)) (nearest tree name goal) := by
  induction directory using Path.directory_induction generalizing goal with
  | bottom directory hparent =>
    rcases h.here hstanding hname with hsame | ⟨hdirectory, hbare⟩
    · exact .inl hsame
    · rw [searched_next hdirectory, Path.ancestors_of_no_parent hparent, searched_nil]
      refine .inr ⟨rfl, fun q hq other hother => ?_⟩
      rw [List.mem_singleton.1 hother]
      exact ne_of_nearest hname (FileTree.proper_place hstanding.proper directory) h.within hbare q hq
  | step directory outer hparent ih =>
    rcases h.here hstanding hname with hsame | ⟨hdirectory, hbare⟩
    · exact .inl hsame
    · obtain ⟨other, hother, hnearest⟩ := h.parent hstanding hname hdirectory hbare hparent
      rw [searched_next hdirectory, Path.ancestors_of_parent? hparent, ← hnearest]
      rcases ih hother with hsame | ⟨hnone, hne⟩
      · exact .inl hsame
      · refine .inr ⟨hnone, fun q hq => List.forall_mem_cons.2 ⟨?_, hne q hq⟩⟩
        rw [hnearest] at hq
        exact ne_of_nearest hname (FileTree.proper_place hstanding.proper directory) h.within hbare q hq

end Meeting

/-! ## The same options -/

/-- The configuration file above an entry. -/
def configAbove (tree : FileTree) (entry : Path) : Option Path :=
  (find tree entry [configName] .empty).1

/-- A request with its directories in their absolute form. -/
def settled (cwd : Path) (request : Request) : Request :=
  { request with
    outDir := request.outDir.map (Path.absolute cwd)
    cacheDir := request.cacheDir.map (Path.absolute cwd) }

/-- The options that an entry is given by its configuration, if any, unless the configuration cannot be read. -/
def optionsAbove (tree : FileTree) (entry : Path) : Option (Option Request) :=
  (requestFor tree entry .empty).1.toOption.map (Option.map (settled (pathOf tree.home)))

section Options

variable {tree : FileTree} {entry other : Path}

theorem options_of_none (h : configAbove tree entry = none) : optionsAbove tree entry = some none := by
  unfold configAbove at h
  unfold optionsAbove requestFor load
  generalize find tree entry [configName] .empty = result at h ⊢
  obtain ⟨found, known⟩ := result
  rw [show found = none from h]
  rfl

theorem options_of_some {found : Path} (h : configAbove tree entry = some found) :
    optionsAbove tree entry = (read tree Request.record.codec.parse found).toOption.map fun request =>
      some (settled (pathOf tree.home) (anchored request found)) := by
  unfold configAbove at h
  unfold optionsAbove requestFor load
  generalize find tree entry [configName] .empty = result at h ⊢
  obtain ⟨above, known⟩ := result
  rw [show above = some found from h]
  dsimp only
  cases read tree Request.record.codec.parse found <;> rfl

theorem toOption_mapError {ε ε' α : Type} (f : ε → ε') (result : Except ε α) :
    (result.mapError f).toOption = result.toOption := by
  cases result <;> rfl

theorem toOption_read {α : Type} (tree : FileTree) (parse : String → Except Json.Fault α) (p : Path) :
    (read tree parse p).toOption = (tree.readText p).toOption.bind fun text => (parse text).toOption := by
  unfold read
  cases tree.readText p with
  | error fault => rfl
  | ok text => exact toOption_mapError _ (parse text)

/-- A request takes its directories from the place of its file. -/
theorem settled_anchored (hstanding : tree.Standing) {directory : Path} {name : String}
    (h : tree.Returns tree.home directory.components) (hname : Path.IsFileName name) (request : Request) :
    settled (pathOf tree.home) (anchored request (directory.child name)) =
      settled (pathOf tree.home) (anchored request ((pathOf (place tree.home directory)).child name)) := by
  have hproper : Proper (place tree.home directory ++ [name]) :=
    (FileTree.proper_place hstanding.proper directory).append hname
  obtain ⟨above, hparent, hsame⟩ :=
    Path.isEntryOf_child directory hname.flat (Path.innerComponent?_of_isFileName hname)
  have hcomponents : above.components = directory.components := Path.same_iff.1 hsame
  have hreturns : tree.Returns tree.home above.components := hcomponents ▸ h
  have hplace : place tree.home above = place tree.home directory := by rw [place, hcomponents, place]
  have hjoin (p : Path) := FileTree.absolute_join hstanding.proper hreturns p
  rw [hplace] at hjoin
  have hmap (q : Option Path) : (q.map above.join).map (Path.absolute (pathOf tree.home)) =
      (q.map (pathOf (place tree.home directory)).join).map (Path.absolute (pathOf tree.home)) := by
    cases q with
    | none => rfl
    | some p => exact congrArg some (hjoin p)
  unfold anchored settled
  rw [hparent, FileTree.child_pathOf hproper, FileTree.parent?_pathOf hproper]
  dsimp only
  rw [hmap, hmap]

theorem isFileName_configName : Path.IsFileName configName := by
  constructor <;> decide

/-- The same file has the same options. -/
theorem options_of_matches (hstanding : tree.Standing) {found file : Path} (h : Matches tree configName found file)
    (hentry : configAbove tree entry = some found) (hother : configAbove tree other = some file) :
    Path.absolute (pathOf tree.home) found = file ∧ optionsAbove tree entry = optionsAbove tree other := by
  obtain ⟨⟨directory, hreturns, rfl, rfl⟩, hfind⟩ := h
  have hname := isFileName_configName
  constructor
  · exact FileTree.absolute_child hstanding.proper hreturns hname
  · rw [options_of_some hentry, options_of_some hother, toOption_read, toOption_read, FileTree.readText_of_find hfind]
    simp only [settled_anchored hstanding hreturns hname]

end Options

/-! ## Entries -/

/-- The absolute form of a path that is read from the current directory of a tree. -/
def absolute (tree : FileTree) (p : Path) : Path :=
  Path.absolute (pathOf tree.home) p

/-- Whether an entry is spelled so that nothing aside of it is taken for its configuration: the directories that
its path leaves again are there, and those that are not above the entry hold no configuration and no packages. -/
structure Direct (tree : FileTree) (entry : Path) : Prop where
  returns : tree.Returns tree.home entry.components
  above : ∀ directory ∈ entry.ancestors, absolute tree directory ∈ (absolute tree entry).ancestors →
    (directory.fileName? = some packagesName ↔ (absolute tree directory).fileName? = some packagesName)
  aside : ∀ directory ∈ entry.ancestors, absolute tree directory ∉ (absolute tree entry).ancestors →
    Bare tree configName directory

/-- Whether an entry goes through the directory of the configuration that its absolute form has, if any. -/
def Covers (tree : FileTree) (entry : Path) : Prop :=
  ∀ file ∈ configAbove tree (absolute tree entry),
    ∃ directory ∈ entry.ancestors, file = (absolute tree directory).child configName

section Entries

variable {tree : FileTree} {entry : Path}

theorem short_of_isPlain {name : String} {p : Path} (h : (Inquiry.mk p [name]).IsPlain) : Short name p.ancestors :=
  fun directory hmem =>
    h.short _ (List.mem_flatMap.2 ⟨directory, hmem, List.mem_map_of_mem (List.mem_singleton_self _)⟩)

/-- An entry with a file name lies in a directory. -/
theorem exists_directory (hstanding : tree.Standing) (hfile : entry.fileName?.isSome = true) :
    ∃ directory name, entry.ancestors = directory :: directory.ancestors ∧ directory.isAbsolute = entry.isAbsolute ∧
      place tree.home entry = place tree.home directory ++ [name] ∧ Proper (place tree.home directory ++ [name]) := by
  obtain ⟨name, hname⟩ := Option.isSome_iff_exists.1 hfile
  have hlast : entry.lastComponent? = some (.name name) := by
    unfold Path.fileName? at hname
    split at hname
    · rename_i text hlast
      rw [hlast, Option.some.inj hname]
    · cases hname
  obtain ⟨directory, hparent⟩ := Path.exists_parent?_iff.2 ⟨_, hlast, nofun⟩
  obtain ⟨component, -, hcomponents, hplace⟩ := FileTree.place_of_parent? tree.home hparent
  obtain rfl : component = .name name := by
    rw [Path.lastComponent?, hcomponents, List.getLast?_concat] at hlast
    exact Option.some.inj hlast
  refine ⟨directory, name, Path.ancestors_of_parent? hparent, FileTree.isAbsolute_of_parent? hparent, hplace, ?_⟩
  rw [← show place tree.home entry = place tree.home directory ++ [name] from hplace]
  exact FileTree.proper_place hstanding.proper entry

/-- The directories that a path goes through in their absolute form. -/
theorem absolute_of_mem_ancestors (hstanding : tree.Standing) (hreturns : tree.Returns tree.home entry.components) :
    ∀ directory ∈ entry :: entry.ancestors, absolute tree directory = pathOf (place tree.home directory) :=
  fun directory hmem => FileTree.absolute_eq_pathOf hstanding.proper (hreturns.of_mem_ancestors directory hmem)

/-- A directory that an entry goes through is above it just if its address is. -/
theorem absolute_mem_ancestors_iff {directory inner : Path} {name : String} (hstanding : tree.Standing)
    (hreturns : tree.Returns tree.home entry.components)
    (hplace : place tree.home entry = place tree.home inner ++ [name])
    (hproper : Proper (place tree.home inner ++ [name])) (hmem : directory ∈ entry.ancestors) :
    absolute tree directory ∈ (absolute tree entry).ancestors ↔
      place tree.home directory <+: place tree.home inner := by
  rw [absolute_of_mem_ancestors hstanding hreturns _ (List.mem_cons_of_mem _ hmem),
    absolute_of_mem_ancestors hstanding hreturns _ List.mem_cons_self, hplace]
  exact FileTree.mem_ancestors_pathOf_iff hproper (FileTree.proper_place hstanding.proper directory)

/-- An entry without steps to a parent directory leaves no directory again. -/
theorem direct_of_not_mem (hstanding : tree.Standing) (hfile : entry.fileName?.isSome = true)
    (hhome : tree.home.getLast? ≠ some packagesName) (hup : .up ∉ entry.components) : Direct tree entry := by
  obtain ⟨inner, name, hancestors, -, hplace, hproper⟩ := exists_directory hstanding hfile
  have hreturns : tree.Returns tree.home entry.components := FileTree.returns_of_not_mem hup
  have hforward : ∀ directory ∈ entry.ancestors, .up ∉ directory.components := fun directory hmem hmemUp =>
    hup ((FileTree.prefix_of_mem_ancestors directory (List.mem_cons_of_mem _ hmem)).subset hmemUp)
  refine ⟨hreturns, fun directory hmem _ => ?_, fun directory hmem haside => absurd ?_ haside⟩
  · rw [absolute_of_mem_ancestors hstanding hreturns _ (List.mem_cons_of_mem _ hmem)]
    rcases FileTree.fileName?_of_not_mem hstanding.proper (hforward directory hmem) with hname | ⟨hname, hhere⟩
    · rw [hname]
    · rw [hname, hhere, FileTree.fileName?_pathOf_eq hstanding.proper]
      exact ⟨nofun, fun hpackages => absurd hpackages hhome⟩
  · rw [absolute_mem_ancestors_iff hstanding hreturns hplace hproper hmem]
    rw [hancestors] at hmem hforward
    exact FileTree.prefix_of_not_mem (hforward inner List.mem_cons_self) directory hmem

/-- A direct entry finds what its absolute form finds, or nothing. -/
theorem configAbove_meets (hstanding : tree.Standing) (hfile : entry.fileName?.isSome = true)
    (hentry : (Inquiry.mk entry [configName]).IsPlain)
    (habsolute : (Inquiry.mk (absolute tree entry) [configName]).IsPlain) (h : Direct tree entry) :
    Meets tree configName entry.ancestors (configAbove tree entry) (configAbove tree (absolute tree entry)) := by
  obtain ⟨inner, name, hancestors, -, hplace, hproper⟩ := exists_directory hstanding hfile
  have hform := absolute_of_mem_ancestors hstanding h.returns
  have htarget : (absolute tree entry).ancestors =
      pathOf (place tree.home inner) :: (pathOf (place tree.home inner)).ancestors := by
    rw [hform entry List.mem_cons_self, hplace, FileTree.ancestors_pathOf hproper]
  have hfits : ∀ directory ∈ entry.ancestors, Fits tree configName (place tree.home inner) directory := by
    intro directory hmem
    have hiff := absolute_mem_ancestors_iff hstanding h.returns hplace hproper hmem
    have habove := h.above directory hmem
    have haside := h.aside directory hmem
    rw [hiff] at habove haside
    rw [hform directory (List.mem_cons_of_mem _ hmem)] at habove
    exact ⟨habove, haside⟩
  have hreturns := h.returns.of_mem_ancestors inner (by rw [hancestors]; simp)
  have hshort := short_of_isPlain hentry
  have hplain := short_of_isPlain habsolute
  unfold configAbove
  rw [find_eq_searched hentry, find_eq_searched habsolute, htarget, hancestors]
  rw [hancestors] at hfits hshort
  rw [htarget] at hplain
  exact searched_meets hstanding isFileName_configName ⟨hreturns, List.prefix_rfl, .inl rfl, hfits, hshort, hplain⟩

/-- An absolute entry goes through all directories above it. -/
theorem covers_of_isAbsolute (hstanding : tree.Standing) (hfile : entry.fileName?.isSome = true)
    (habsolute : (Inquiry.mk (absolute tree entry) [configName]).IsPlain) (h : Direct tree entry)
    (hroot : entry.isAbsolute = true) : Covers tree entry := by
  obtain ⟨inner, name, hancestors, hinner, hplace, hproper⟩ := exists_directory hstanding hfile
  have hform := absolute_of_mem_ancestors hstanding h.returns
  intro file hconfig
  rw [configAbove, find_eq_searched habsolute] at hconfig
  obtain ⟨-, above, hmem, rfl⟩ := exists_of_searched hconfig
  rw [hform entry List.mem_cons_self, hplace] at hmem
  obtain ⟨outer, houter, -, rfl⟩ := FileTree.exists_of_mem_ancestors hproper hmem
  have hinside := (FileTree.mem_ancestors_pathOf_iff hproper houter).1 hmem
  obtain ⟨directory, hdirectory, rfl⟩ := FileTree.exists_place (hinner.trans hroot) hinside
  rw [← hancestors] at hdirectory
  exact ⟨directory, hdirectory, by rw [hform directory (List.mem_cons_of_mem _ hdirectory)]⟩

/-- An entry that finds the file of its absolute form goes through the directory of that file. -/
theorem covers_of_matches (hstanding : tree.Standing) (hentry : (Inquiry.mk entry [configName]).IsPlain)
    (hreturns : tree.Returns tree.home entry.components) {found file : Path} (h : Matches tree configName found file)
    (hfound : configAbove tree entry = some found) (hfile : configAbove tree (absolute tree entry) = some file) :
    Covers tree entry := by
  obtain ⟨rfl, -⟩ := options_of_matches hstanding h hfound hfile
  rw [configAbove, find_eq_searched hentry] at hfound
  obtain ⟨-, directory, hmem, rfl⟩ := exists_of_searched hfound
  have hdirectory := List.mem_cons_of_mem entry hmem
  intro other hother
  obtain rfl : _ = other := Option.some.inj (hfile.symm.trans hother)
  refine ⟨directory, hmem, ?_⟩
  rw [absolute_of_mem_ancestors hstanding hreturns directory hdirectory]
  exact FileTree.absolute_child hstanding.proper (hreturns.of_mem_ancestors directory hdirectory) isFileName_configName

/-- A direct entry has the options of its absolute form, or none at all if their file does not lie in a directory
that the entry goes through; absolute entries go through all directories above them. -/
theorem options_of_entry (hstanding : tree.Standing) (hfile : entry.fileName?.isSome = true)
    (hentry : (Inquiry.mk entry [configName]).IsPlain)
    (habsolute : (Inquiry.mk (absolute tree entry) [configName]).IsPlain) :
    (Direct tree entry →
      (Covers tree entry →
        (configAbove tree entry).map (absolute tree) = configAbove tree (absolute tree entry) ∧
          optionsAbove tree entry = optionsAbove tree (absolute tree entry)) ∧
      (¬Covers tree entry → configAbove tree entry = none ∧ optionsAbove tree entry = some none) ∧
      (entry.isAbsolute = true → Covers tree entry)) ∧
    (tree.home.getLast? ≠ some packagesName → .up ∉ entry.components → Direct tree entry) := by
  refine ⟨fun h => ?_, direct_of_not_mem hstanding hfile⟩
  have hmeets := configAbove_meets hstanding hfile hentry habsolute h
  refine ⟨fun hcovers => ?_, fun hcovers => ?_, covers_of_isAbsolute hstanding hfile habsolute h⟩
  · cases hfound : configAbove tree entry with
    | none =>
      cases hform : configAbove tree (absolute tree entry) with
      | none => exact ⟨rfl, by rw [options_of_none hfound, options_of_none hform]⟩
      | some file =>
        obtain ⟨directory, hmem, hdirectory⟩ := hcovers file hform
        rw [hfound, hform] at hmeets
        rcases hmeets with hsame | ⟨-, hne⟩
        · cases hsame
        · rw [absolute_of_mem_ancestors hstanding h.returns directory (List.mem_cons_of_mem _ hmem)] at hdirectory
          exact absurd hdirectory (hne file rfl directory hmem)
    | some found =>
      rw [hfound] at hmeets
      obtain ⟨file, hform, hmatches⟩ := exists_of_meets hmeets
      obtain ⟨hsame, hoptions⟩ := options_of_matches hstanding hmatches hfound hform
      exact ⟨by rw [hform, ← hsame]; rfl, hoptions⟩
  · have hfound : configAbove tree entry = none := by
      by_contra hne
      obtain ⟨found, hfound⟩ := Option.ne_none_iff_exists'.1 hne
      rw [hfound] at hmeets
      obtain ⟨file, hform, hmatches⟩ := exists_of_meets hmeets
      exact hcovers (covers_of_matches hstanding hentry h.returns hmatches hfound hform)
    exact ⟨hfound, options_of_none hfound⟩

end Entries

/-! ## An entry that leaves a directory again -/

/-- A current directory with another directory in it, and a configuration somewhere. -/
def siteTree (config : Address) : FileTree :=
  ⟨[(["h"], .directory 0), (["h", "src"], .directory 0), (config, .file .empty 0)], ["h"], 9⟩

theorem solid_site (config : Address) : (siteTree config).Solid ["h", "src"] := by
  refine ⟨by decide, by decide, ?_⟩
  rintro front back heq hfront
  match front with
  | [] => exact absurd rfl hfront
  | [first] =>
    obtain rfl : "h" = first := (List.cons.inj heq).1
    exact ⟨0, rfl⟩
  | [first, second] =>
    obtain ⟨rfl, rfl, -⟩ : "h" = first ∧ "src" = second ∧ [] = back := by simpa using heq
    exact ⟨0, rfl⟩
  | first :: second :: third :: more => simp at heq

theorem standing_site (config : Address) : (siteTree config).Standing :=
  ⟨fun name hmem => by obtain rfl := List.mem_singleton.1 hmem; constructor <;> decide,
    (solid_site config).outer ⟨["src"], rfl⟩⟩

/-- An entry that enters a directory and leaves it again. -/
def detour : Path :=
  ⟨"src/../x.js"⟩

theorem returns_detour (config : Address) : (siteTree config).Returns ["h"] detour.components := by
  have hcomponents : detour.components = [.name "src", .up, .name "x.js"] := by decide
  have hnone : (siteTree config).Returns ["h", "x.js"] [] := FileTree.returns_of_not_mem (by simp)
  rw [hcomponents]
  simpa [FileTree.returns_cons_iff, FileTree.advance, solid_site] using hnone

theorem ancestors_detour : detour.ancestors = [⟨"src/.."⟩, ⟨"src"⟩, ⟨""⟩] := by
  decide

theorem absolute_detour (config : Address) : absolute (siteTree config) detour = ⟨"/h/x.js"⟩ ∧
    (⟨"/h/x.js"⟩ : Path).ancestors = [⟨"/h"⟩, ⟨"/"⟩] ∧ absolute (siteTree config) ⟨"src/.."⟩ = ⟨"/h"⟩ ∧
      absolute (siteTree config) ⟨"src"⟩ = ⟨"/h/src"⟩ ∧ absolute (siteTree config) ⟨""⟩ = ⟨"/h"⟩ := by
  unfold absolute
  rw [show (siteTree config).home = ["h"] from rfl]
  decide

theorem isPlain_detour : (Inquiry.mk detour [configName]).IsPlain ∧ (Inquiry.mk ⟨"/h/x.js"⟩ [configName]).IsPlain := by
  have htight : ∀ name ∈ [configName], (Path.mk name).IsTight := by
    simpa using Path.isTight_of_isFileName isFileName_configName
  exact ⟨⟨htight, by decide⟩, ⟨htight, by decide⟩⟩

theorem open_site (config : Address) {outer : Address} (h : outer = ["h"] ∨ outer = ["h", "src"]) :
    (siteTree config).Open (outer ++ [configName]) := by
  have hopen := FileTree.open_single (siteTree config) "h"
  rcases h with rfl | rfl
  · exact hopen.append ⟨0, rfl⟩ configName
  · exact (hopen.append ⟨0, rfl⟩ "src").append ⟨0, rfl⟩ configName

/-- The directories that the entry goes through have the files of their absolute forms. -/
theorem isFile_detour (config : Address) :
    (siteTree config).isFile ((⟨"src/.."⟩ : Path).child configName) =
        (siteTree config).isFile ((⟨"/h"⟩ : Path).child configName) ∧
      (siteTree config).isFile ((⟨"src"⟩ : Path).child configName) =
        (siteTree config).isFile ((⟨"/h/src"⟩ : Path).child configName) := by
  have hreturns := (returns_detour config).of_mem_ancestors
  have hplaces : pathOf (place ["h"] ⟨"src/.."⟩) = ⟨"/h"⟩ ∧ pathOf (place ["h"] ⟨"src"⟩) = ⟨"/h/src"⟩ := by decide
  have hfind {directory form : Path} (hmem : directory ∈ detour.ancestors)
      (hplace : pathOf (place ["h"] directory) = form)
      (hshort : (directory.child configName).text.utf8ByteSize ≤ FileTree.maxPath)
      (hform : (form.child configName).text.utf8ByteSize ≤ FileTree.maxPath) :
      (siteTree config).find (directory.child configName) = (siteTree config).find (form.child configName) := by
    subst hplace
    exact FileTree.find_child (standing_site config) (hreturns directory (List.mem_cons_of_mem _ hmem))
      isFileName_configName hshort hform
  exact ⟨FileTree.isFile_of_find (hfind (by simp [ancestors_detour]) hplaces.1 (by decide) (by decide)),
    FileTree.isFile_of_find (hfind (by simp [ancestors_detour]) hplaces.2 (by decide) (by decide))⟩

/-- Beside a configuration in the current directory the entry has the options of its absolute form. -/
theorem options_detour :
    Direct (siteTree ["h", configName]) detour ∧
      (configAbove (siteTree ["h", configName]) detour).map (absolute (siteTree ["h", configName])) =
        some ⟨"/h/kiln.config.json"⟩ ∧
      optionsAbove (siteTree ["h", configName]) detour = optionsAbove (siteTree ["h", configName]) ⟨"/h/x.js"⟩ := by
  obtain ⟨hentry, hform, habove, hsrc, hempty⟩ := absolute_detour ["h", configName]
  have hnear : (siteTree ["h", configName]).isFile ((⟨"/h"⟩ : Path).child configName) = true :=
    FileTree.isFile_of_spells (show FileTree.Spells _ (["h"] ++ [configName]) by decide)
      (open_site _ (.inl rfl)) ⟨_, _, rfl⟩
  have hnone : (siteTree ["h", configName]).isFile ((⟨"/h/src"⟩ : Path).child configName) = false :=
    FileTree.isFile_of_spells_none (show FileTree.Spells _ (["h", "src"] ++ [configName]) by decide)
      (open_site _ (.inr rfl)) rfl
  have hdirect : Direct (siteTree ["h", configName]) detour := by
    refine ⟨returns_detour _, ?_, ?_⟩
    · rw [ancestors_detour]
      simp only [List.forall_mem_cons, List.not_mem_nil, false_implies, implies_true, and_true, habove, hsrc, hempty]
      exact ⟨fun _ => by decide, fun _ => by decide, fun _ => by decide⟩
    · rw [ancestors_detour, hentry, hform]
      simp only [List.forall_mem_cons, List.not_mem_nil, false_implies, implies_true, and_true, habove, hsrc, hempty]
      exact ⟨fun haside => absurd List.mem_cons_self haside, fun _ => ⟨by decide, (isFile_detour _).2.trans hnone⟩,
        fun haside => absurd List.mem_cons_self haside⟩
  have htarget : configAbove (siteTree ["h", configName]) ⟨"/h/x.js"⟩ = some ⟨"/h/kiln.config.json"⟩ := by
    rw [configAbove, find_eq_searched isPlain_detour.2, hform, searched_found (by decide) hnear]
    decide
  obtain ⟨hoptions, -⟩ := options_of_entry (standing_site ["h", configName])
    (show detour.fileName?.isSome = true by decide)
    isPlain_detour.1 (by rw [hentry]; exact isPlain_detour.2)
  rw [hentry, htarget] at hoptions
  have hcovers : Covers (siteTree ["h", configName]) detour := by
    intro file hfile
    rw [hentry, htarget] at hfile
    refine ⟨⟨"src/.."⟩, by simp [ancestors_detour], ?_⟩
    rw [habove, ← Option.some.inj hfile]
    decide
  exact ⟨hdirect, (hoptions hdirect).1 hcovers⟩

/-- A configuration in the directory that the entry leaves again is taken for that of the entry, although there are
no links and the absolute form of the entry has none. -/
theorem exists_other_configuration :
    (∀ entry ∈ (siteTree ["h", "src", configName]).entries, ∀ target, entry.2 ≠ .link target) ∧
      configAbove (siteTree ["h", "src", configName]) detour = some ⟨"src/kiln.config.json"⟩ ∧
      configAbove (siteTree ["h", "src", configName]) (absolute (siteTree ["h", "src", configName]) detour) = none := by
  obtain ⟨hentry, hform, -⟩ := absolute_detour ["h", "src", configName]
  have hinner : (siteTree ["h", "src", configName]).isFile ((⟨"/h/src"⟩ : Path).child configName) = true :=
    FileTree.isFile_of_spells (show FileTree.Spells _ (["h", "src"] ++ [configName]) by decide)
      (open_site _ (.inr rfl)) ⟨_, _, rfl⟩
  have hhere : (siteTree ["h", "src", configName]).isFile ((⟨"/h"⟩ : Path).child configName) = false :=
    FileTree.isFile_of_spells_none (show FileTree.Spells _ (["h"] ++ [configName]) by decide)
      (open_site _ (.inl rfl)) rfl
  have houter : (siteTree ["h", "src", configName]).isFile ((⟨"/"⟩ : Path).child configName) = false :=
    FileTree.isFile_of_spells_none (show FileTree.Spells _ ([] ++ [configName]) by decide)
      (FileTree.open_single _ configName) rfl
  obtain ⟨hback, hsrc⟩ := isFile_detour ["h", "src", configName]
  refine ⟨by simp [siteTree], ?_, ?_⟩
  · rw [configAbove, find_eq_searched isPlain_detour.1, ancestors_detour,
      searched_next ⟨by decide, hback.trans hhere⟩, searched_found (by decide) (hsrc.trans hinner)]
    decide
  · rw [configAbove, hentry, find_eq_searched isPlain_detour.2, hform, searched_next ⟨by decide, hhere⟩,
      searched_next ⟨by decide, houter⟩, searched_nil]

end Nearest
end Lookup
end ModuleBundler
