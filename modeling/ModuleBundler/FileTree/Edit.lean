import ModuleBundler.FileTree.Walk

/-!
# Changing file trees

Directories are made, files written, entries moved and removed.  An operation
that is not possible leaves the tree as it is.

Main results:

- Theorem {lit}`FileTree.remove_of_locate_error`: what cannot be reached is not removed.
- Theorem {lit}`FileTree.move_self`: an entry that moves to its own place stays.
-/

namespace ModuleBundler
namespace FileTree

/-- The tree with a new entry at a free address. -/
def add (tree : FileTree) (address : Address) (entry : Entry) : FileTree :=
  (tree.set address entry).stir address.dropLast

/-- Make a directory in an existing one. -/
def makeDirectory (tree : FileTree) (p : Path) : Except FileFault FileTree :=
  match tree.locate .make p with
  | .ok ⟨address, none⟩ => .ok (tree.add address (.directory tree.clock))
  | .ok ⟨_, some _⟩ => .error .alreadyExists
  | .error fault => .error fault

/-- Make the first of a chain of directories, the outer ones first if need be. -/
def makeChain (tree : FileTree) : List Path → FileTree × Except FileFault Unit
  | [] => (tree, .error (.other "failed to create whole tree"))
  | p :: outer =>
    let settle (tree : FileTree) (fault : FileFault) : FileTree × Except FileFault Unit :=
      if tree.isDirectory p then (tree, .ok ()) else (tree, .error fault)
    if p.text = "" then (tree, .ok ())
    else
      match tree.makeDirectory p with
      | .ok tree => (tree, .ok ())
      | .error .notFound =>
        match makeChain tree outer with
        | (tree, .ok ()) =>
          match tree.makeDirectory p with
          | .ok tree => (tree, .ok ())
          | .error fault => settle tree fault
        | (tree, .error fault) => (tree, .error fault)
      | .error fault => settle tree fault

/-- Make a directory and those above it that are missing. -/
def makeDirectories (tree : FileTree) (p : Path) : FileTree × Except FileFault Unit :=
  makeChain tree (p :: p.ancestors)

/-- Write a file into an existing directory. -/
def writeBytes (tree : FileTree) (p : Path) (content : ByteArray) : FileTree × Except FileFault Unit :=
  let file : Entry := .file content tree.clock
  match tree.locate .write p with
  | .ok ⟨address, none⟩ => (tree.add address file, .ok ())
  | .ok ⟨address, some (.file _ _)⟩ =>
    ({ tree.set address file with clock := tree.clock + 1 }, .ok ())
  | .ok ⟨_, some _⟩ => (tree, .error .isDirectory)
  | .error fault => (tree, .error fault)

/-- Write a text file; the directories above it are made first. -/
def writeText (tree : FileTree) (p : Path) (text : String) : FileTree × Except FileFault Unit :=
  match p.parent? with
  | none => tree.writeBytes p text.toUTF8
  | some parent =>
    match tree.makeDirectories parent with
    | (tree, .ok ()) => tree.writeBytes p text.toUTF8
    | (tree, .error fault) => (tree, .error fault)

/-- Make a symbolic link. -/
def makeLink (tree : FileTree) (p target : Path) : Except FileFault FileTree :=
  match tree.locate .make p with
  | .ok ⟨address, none⟩ => .ok (tree.add address (.link target))
  | .ok ⟨_, some _⟩ => .error .alreadyExists
  | .error fault => .error fault

/-- Remove what a path names, with all that lies below it; an absent path stays absent. -/
def remove (tree : FileTree) (p : Path) : FileTree :=
  match tree.locate .take p with
  | .ok ⟨address, some _⟩ => (tree.cutOff address).stir address.dropLast
  | _ => tree

/-- Whether an entry can move to another place: nothing is there, or something of its own kind; a
directory takes the place of an empty one only, and does not move into itself. -/
def canMove (tree : FileTree) (source target : Address) (entry : Entry) (there : Option Entry) : Bool :=
  !source.isPrefixOf target &&
    match there with
    | none => true
    | some other =>
      entry.isDirectory == other.isDirectory &&
        !(tree.entries.any fun (address, _) => address != target && target.isPrefixOf address)

/-- Move what a path names to another place, in place of what is there. -/
def move (tree : FileTree) (p q : Path) : FileTree :=
  match tree.locate .take p, tree.locate .take q with
  | .ok ⟨source, some entry⟩, .ok ⟨target, there⟩ =>
    if tree.canMove source target entry there then
      let moved := tree.entries.filterMap fun (address, entry) =>
        if source.isPrefixOf address then some (target ++ address.drop source.length, entry) else none
      let rest := (tree.cutOff source).cutOff target
      ({ rest with entries := moved ++ rest.entries }.stir source.dropLast).stir target.dropLast
    else tree
  | _, _ => tree

/-- Give a file or a directory a time of its last change. -/
def touch (tree : FileTree) (p : Path) (changed : Int) : FileTree :=
  match tree.find p with
  | .ok (address, .file content _) => tree.set address (.file content changed)
  | .ok (address, .directory _) => tree.set address (.directory changed)
  | _ => tree

/-! ## Laws -/

theorem remove_of_locate_error {tree : FileTree} {p : Path} {fault : FileFault}
    (h : tree.locate .take p = .error fault) : tree.remove p = tree := by
  simp [remove, h]

theorem move_self (tree : FileTree) (p : Path) : tree.move p p = tree := by
  unfold move
  split
  · rename_i source entry target there hsource htarget
    have heq : source = target := by
      have h := hsource.symm.trans htarget
      injection h with h
      injection h
    subst heq
    have hprefix : source.isPrefixOf source = true := List.isPrefixOf_iff_prefix.2 source.prefix_refl
    simp [canMove, hprefix]
  · rfl

end FileTree
end ModuleBundler
