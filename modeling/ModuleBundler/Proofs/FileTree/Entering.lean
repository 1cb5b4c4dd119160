import ModuleBundler.Proofs.FileTree.Writing

/-!
# Directories that paths enter

A walk looks at what the names on its way lead to, at the targets of the links among
them, and at the place where it ends.  Two trees that have the same at these places
show the same at the path, whatever else there is in one of them and not in the other.
So what lies in a directory that the path does not enter makes no difference.

Main results:

- Theorem {lit}`FileTree.reaches_walk`: a walk depends only on the places that it passes.
- Theorem {lit}`FileTree.alike_of_passes`: so does what is seen at a path.
- Theorem {lit}`FileTree.within_of_enters`: a path without links enters only the directories that it names.
- Theorem {lit}`FileTree.DiffersIn.alike`: a path that does not enter the directories in which two trees differ
  shows the same in both.
-/

namespace ModuleBundler
namespace FileTree

/-! ## Places on the way -/

/-- Whether a walk that uses what it finds looks at a place. -/
inductive Passes (tree : FileTree) : Nat → Address → List Step → Address → Prop
  | goal {links : Nat} {here : Address} : Passes tree links here [] here
  | stay {links : Nat} {here place : Address} {rest : List Step} (h : Passes tree links here rest place) :
      Passes tree links here (.stay :: rest) place
  | up {links : Nat} {here place : Address} {rest : List Step} (h : Passes tree links here.dropLast rest place) :
      Passes tree links here (.up :: rest) place
  | name {links : Nat} {here : Address} {name : String} {rest : List Step} :
      Passes tree links here (.name name :: rest) (here ++ [name])
  | directory {links : Nat} {here place : Address} {name : String} {rest : List Step} {time : Int}
      (hat : tree.at? (here ++ [name]) = some (.directory time)) (h : Passes tree links (here ++ [name]) rest place) :
      Passes tree links here (.name name :: rest) place
  | link {links : Nat} {here place : Address} {name : String} {rest : List Step} {target : Path}
      (hat : tree.at? (here ++ [name]) = some (.link target))
      (h : Passes tree links (if target.isAbsolute then [] else here) (Step.ofPath target ++ rest) place) :
      Passes tree (links + 1) here (.name name :: rest) place

/-- Whether a walk along a path looks at a place. -/
def PassesOn (tree : FileTree) (p : Path) (place : Address) : Prop :=
  tree.Passes maxLinks (if p.isAbsolute then [] else tree.home) (Step.ofPath p) place

/-- Whether an address lies in a directory, at whatever depth. -/
def Within (directory address : Address) : Prop :=
  directory <+: address ∧ directory ≠ address

/-- Whether a walk along a path comes into a directory. -/
def Enters (tree : FileTree) (p : Path) (directory : Address) : Prop :=
  ∃ place, tree.PassesOn p place ∧ Within directory place

/-! ## What is seen -/

/-- Whether two walks end in the same way, with the same at the place where they end. -/
inductive Reaches : Except FileFault Spot → Except FileFault Spot → Prop
  | fault (fault : FileFault) : Reaches (.error fault) (.error fault)
  | spot (address : Address) {entry other : Option Entry} (h : Stays entry other) :
      Reaches (.ok ⟨address, entry⟩) (.ok ⟨address, other⟩)

/-- Whether two trees show the same at a path, but for times. -/
structure Alike (tree other : FileTree) (p : Path) : Prop where
  isFile : tree.isFile p = other.isFile p
  isDirectory : tree.isDirectory p = other.isDirectory p
  canonical : tree.canonical p = other.canonical p
  readText : tree.readText p = other.readText p

theorem Alike.refl (tree : FileTree) (p : Path) : tree.Alike tree p :=
  ⟨rfl, rfl, rfl, rfl⟩

/-- A walk depends only on the places that it passes. -/
theorem reaches_walk (tree other : FileTree) (links : Nat) (here : Address) (slash : Bool) (steps : List Step)
    (h : ∀ place, tree.Passes links here steps place → Stays (tree.at? place) (other.at? place)) :
    Reaches (tree.walk .use links here slash steps) (other.walk .use links here slash steps) := by
  match steps with
  | [] =>
    rw [walk, walk]
    exact .spot here (h here .goal)
  | .stay :: rest =>
    rw [walk, walk]
    exact reaches_walk tree other links here slash rest fun place hplace => h place (.stay hplace)
  | .up :: rest =>
    rw [walk, walk]
    exact reaches_walk tree other links here.dropLast slash rest fun place hplace => h place (.up hplace)
  | .name name :: rest =>
    have hstays := h _ .name
    by_cases hlong : maxName < name.utf8ByteSize
    · rw [walk, walk]
      simp [hlong, Reaches.fault]
    generalize hbefore : tree.at? (here ++ [name]) = before at hstays
    generalize hafter : other.at? (here ++ [name]) = after at hstays
    cases hstays with
    | directory time later =>
      rw [walk_use_directory hlong hbefore, walk_use_directory hlong hafter]
      exact reaches_walk tree other links _ slash rest fun place hplace => h place (.directory hbefore hplace)
    | same =>
      cases before with
      | none =>
        rw [walk, walk]
        by_cases hlast : rest.isEmpty = true
        · simp [hlong, hlast, hbefore, hafter, Reaches.spot, Stays.same]
        · simp [hlong, hlast, hbefore, hafter, Reaches.fault]
      | some entry =>
        cases entry with
        | directory time =>
          rw [walk_use_directory hlong hbefore, walk_use_directory hlong hafter]
          exact reaches_walk tree other links _ slash rest fun place hplace => h place (.directory hbefore hplace)
        | file content time =>
          rw [walk, walk]
          by_cases hfile : rest = [] ∧ slash = false
          · simp [hlong, hfile, hbefore, hafter, Reaches.spot, Stays.same]
          · simp [hlong, hfile, hbefore, hafter, Reaches.fault]
        | link target =>
          cases links with
          | zero =>
            rw [walk, walk]
            simp [hlong, hbefore, hafter, Reaches.fault]
          | succ fewer =>
            rw [walk_use_link hlong hbefore, walk_use_link hlong hafter]
            exact reaches_walk tree other fewer _ _ _ fun place hplace => h place (.link hbefore hplace)
termination_by (links, steps.length)

/-- So does what is seen at a path. -/
theorem alike_of_passes {tree other : FileTree} (hhome : other.home = tree.home) {p : Path}
    (h : ∀ place, tree.PassesOn p place → Stays (tree.at? place) (other.at? place)) : tree.Alike other p := by
  have hlocate : Reaches (tree.locate .use p) (other.locate .use p) := by
    unfold locate
    rw [hhome]
    split
    · exact .fault _
    · split
      · exact .fault _
      · split
        · exact .fault _
        · exact reaches_walk tree other _ _ _ _ h
  have hfind : (∃ fault, tree.find p = .error fault ∧ other.find p = .error fault) ∨
      ∃ address entry seen, tree.find p = .ok (address, entry) ∧ other.find p = .ok (address, seen) ∧
        Stays (some entry) (some seen) := by
    unfold find
    generalize tree.locate .use p = before at hlocate
    generalize other.locate .use p = after at hlocate
    cases hlocate with
    | fault fault => exact .inl ⟨fault, rfl, rfl⟩
    | @spot address entry seen hstays =>
      cases hstays with
      | directory time later => exact .inr ⟨address, _, _, rfl, rfl, .directory time later⟩
      | same =>
        cases entry with
        | none => exact .inl ⟨_, rfl, rfl⟩
        | some entry => exact .inr ⟨address, entry, entry, rfl, rfl, .same _⟩
  obtain ⟨fault, hbefore, hafter⟩ | ⟨address, entry, seen, hbefore, hafter, hstays⟩ := hfind
  · constructor <;> simp [isFile, isDirectory, canonical, readText, readBytes, hbefore, hafter]
  · cases hstays with
    | same => constructor <;> simp [isFile, isDirectory, canonical, readText, readBytes, hbefore, hafter]
    | directory time later =>
      constructor <;> simp [isFile, isDirectory, canonical, readText, readBytes, hbefore, hafter, Entry.isFile,
        Entry.isDirectory, Except.map]

/-! ## Paths without links -/

/-- A walk along names passes the directories that they name, if there is no link among them. -/
theorem prefix_of_passes {tree : FileTree} {links : Nat} {here place : Address} {names : List String}
    (hlinks : ∀ front, front <+: names → ∀ target, tree.at? (here ++ front) ≠ some (.link target))
    (h : tree.Passes links here (names.map .name) place) : place <+: here ++ names := by
  induction names generalizing here with
  | nil =>
    cases h with
    | goal => exact List.prefix_append _ _
  | cons name rest ih =>
    have hfirst : here ++ [name] <+: here ++ name :: rest :=
      (List.prefix_append_right_inj here).2 (List.prefix_append [name] rest)
    rw [List.map_cons] at h
    cases h with
    | name => exact hfirst
    | directory hat h =>
      have hrest := ih (fun front hfront target => by
        rw [List.append_assoc]
        exact hlinks _ (List.cons_prefix_cons.2 ⟨rfl, hfront⟩) target) h
      rwa [List.append_assoc] at hrest
    | link hat h => exact absurd hat (hlinks [name] (List.prefix_append [name] rest) _)

/-- So it enters no directory that its path does not name. -/
theorem within_of_enters {tree : FileTree} {p : Path} {address directory : Address} (h : Spells p address)
    (hlinks : ∀ front, front <+: address → ∀ target, tree.at? front ≠ some (.link target))
    (henters : tree.Enters p directory) : Within directory address := by
  obtain ⟨place, hpasses, hinside, hne⟩ := henters
  unfold PassesOn at hpasses
  rw [h.steps, if_pos h.absolute] at hpasses
  have hplace : place <+: address := prefix_of_passes hlinks hpasses
  refine ⟨hinside.trans hplace, ?_⟩
  rintro rfl
  exact hne (hinside.eq_of_length_le hplace.length_le)

/-! ## Trees that differ in directories -/

/-- Whether two trees differ in nothing but what lies in some directories, and in times. -/
structure DiffersIn (tree other : FileTree) (closed : Address → Prop) : Prop where
  home : other.home = tree.home
  outside : ∀ place, (∀ directory, closed directory → ¬Within directory place) →
    Stays (tree.at? place) (other.at? place)

/-- A path that does not enter the directories in which two trees differ shows the same in both. -/
theorem DiffersIn.alike {tree other : FileTree} {closed : Address → Prop} (h : tree.DiffersIn other closed) {p : Path}
    (hclosed : ∀ directory, closed directory → ¬tree.Enters p directory) : tree.Alike other p :=
  alike_of_passes h.home fun place hplace =>
    h.outside place fun directory hdirectory hwithin => hclosed directory hdirectory ⟨place, hplace, hwithin⟩

end FileTree
end ModuleBundler
