import ModuleBundler.FileTree.Edit

/-!
# Setting up file trees

File trees from lists of what is to be in them.  The directories above a file or
a link are made if they are missing.

Main results:

- Theorem {lit}`FileTree.setUp_nil`: only the home directory is there when nothing is asked for.
-/

namespace ModuleBundler
namespace FileTree

/-- Make the directories above a path. -/
def makeParents (tree : FileTree) (p : Path) : FileTree :=
  match p.parent? with
  | some parent => (tree.makeDirectories parent).1
  | none => tree

/-- Put a file with a time of its last change into a tree. -/
def putFile (tree : FileTree) (p : Path) (content : ByteArray) (changed : Int) : FileTree :=
  (((tree.makeParents p).writeBytes p content).1).touch p changed

/-- Put a link into a tree. -/
def putLink (tree : FileTree) (p target : Path) : FileTree :=
  let tree := tree.makeParents p
  (tree.makeLink p target).toOption.getD tree

/-- A tree with directories, files and links.  Every file was changed one second after the one before,
the first one at the given second. -/
def setUp (home : Address) (directories : List Path) (files : List (Path × ByteArray))
    (links : List (Path × Path)) (second clock : Int) : FileTree :=
  let start := ((FileTree.empty home clock).makeDirectories (pathOf home)).1
  let tree := directories.foldl (fun tree p => (tree.makeDirectories p).1) start
  let (tree, _) := files.foldl
    (fun (tree, (second : Int)) (p, content) =>
      (tree.putFile p content (second * 1000000000), second + 1))
    (tree, second)
  links.foldl (fun tree (p, target) => tree.putLink p target) tree

theorem setUp_nil (home : Address) (second clock : Int) :
    setUp home [] [] [] second clock = ((FileTree.empty home clock).makeDirectories (pathOf home)).1 :=
  rfl

end FileTree
end ModuleBundler
