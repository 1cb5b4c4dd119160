import ModuleBundler.Failure
import ModuleBundler.FileTree.Basic
import ModuleBundler.Text.Utf8

/-!
# Walking through file trees

A path is walked piece by piece: a name leads into the entry of that name, one
dot stays in the directory and two dots leave it.  A link is replaced by the path
that it holds, at most forty times.  What happens at the last name depends on
what the walk is for.

Main results:

- Theorem {lit}`FileTree.walk_nil`: a walk without steps ends where it began.
- Theorem {lit}`FileTree.readText_notText`: bytes that are no text are not read as text.
-/

namespace ModuleBundler
namespace FileTree

/-! ## Steps -/

/-- A step of a walk. -/
inductive Step where
  | stay
  | up
  | name (text : String)
deriving DecidableEq, Repr

namespace Step

/-- The step that a piece of a path stands for. -/
def ofSegment? (segment : String) : Option Step :=
  if segment = "" then none
  else if segment = "." then some stay
  else if segment = ".." then some up
  else some (name segment)

/-- The steps of a path. -/
def ofPath (p : Path) : List Step :=
  p.segments.filterMap ofSegment?

end Step

/-- What a walk is for. -/
inductive Aim where
  /-- To use what is there: a link at the end is followed. -/
  | use
  /-- To take what has the name: a link at the end is followed only if a slash stands behind it. -/
  | take
  /-- To make an entry: what has the name is in the way, whatever it is. -/
  | make
  /-- To write a file: a link at the end is followed, and no slash may stand behind the name. -/
  | write
deriving DecidableEq, Repr

/-- Where a walk ends: an entry, or a free address in an existing directory. -/
structure Spot where
  address : Address
  entry : Option Entry

/-- How many links a walk may follow. -/
def maxLinks : Nat := 40

/-- The largest number of bytes of a name. -/
def maxName : Nat := 255

/-- The largest number of bytes of a path. -/
def maxPath : Nat := 4095

/-- Whether a slash stands at the end of a path. -/
def endsInSlash (p : Path) : Bool :=
  p.segments.getLast? == some ""

/-- Walk the steps from the directory {lit}`here`.  {lit}`slash` says that a slash stands behind the last
name, and {lit}`links` how many more links may be followed. -/
def walk (tree : FileTree) (aim : Aim) (links : Nat) (here : Address) (slash : Bool) :
    List Step → Except FileFault Spot
  | [] => .ok ⟨here, tree.at? here⟩
  | .stay :: rest => walk tree aim links here slash rest
  | .up :: rest => walk tree aim links here.dropLast slash rest
  | .name name :: rest =>
    let last := rest.isEmpty
    if last && slash && aim == .write then .error .isDirectory
    else if maxName < name.utf8ByteSize then .error .nameTooLong
    else
      let address := here ++ [name]
      match tree.at? address with
      | none => if last then .ok ⟨address, none⟩ else .error .notFound
      | some entry =>
        if last && aim == .make then .ok ⟨address, some entry⟩
        else
          match entry with
          | .directory _ => walk tree aim links address slash rest
          | .file _ _ => if last && !slash then .ok ⟨address, some entry⟩ else .error .notDirectory
          | .link target =>
            if last && !slash && aim == .take then .ok ⟨address, some entry⟩
            else
              match links with
              | 0 => .error .tooManyLinks
              | links + 1 =>
                walk tree aim links (if target.isAbsolute then [] else here)
                  (slash || last && endsInSlash target) (Step.ofPath target ++ rest)
termination_by steps => (links, steps.length)

/-- Walk a path. -/
def locate (tree : FileTree) (aim : Aim) (p : Path) : Except FileFault Spot :=
  if p.text.toList.contains '\x00' then .error .nulInPath
  else if p.text = "" then .error .notFound
  else if maxPath < p.text.utf8ByteSize then .error .nameTooLong
  else
    walk tree aim maxLinks (if p.isAbsolute then [] else tree.home) (endsInSlash p) (Step.ofPath p)

/-! ## Looking -/

/-- The entry that a path leads to. -/
def find (tree : FileTree) (p : Path) : Except FileFault (Address × Entry) :=
  match tree.locate .use p with
  | .ok ⟨address, some entry⟩ => .ok (address, entry)
  | .ok ⟨_, none⟩ => .error .notFound
  | .error fault => .error fault

/-- Whether a path leads to a file. -/
def isFile (tree : FileTree) (p : Path) : Bool :=
  match tree.find p with
  | .ok (_, entry) => entry.isFile
  | .error _ => false

/-- Whether a path leads to a directory. -/
def isDirectory (tree : FileTree) (p : Path) : Bool :=
  match tree.find p with
  | .ok (_, entry) => entry.isDirectory
  | .error _ => false

/-- The path of the entry that a path leads to, without links. -/
def canonical (tree : FileTree) (p : Path) : Except FileFault Path :=
  (tree.find p).map fun found => pathOf found.1

/-- The content of a file. -/
def readBytes (tree : FileTree) (p : Path) : Except FileFault ByteArray :=
  match tree.find p with
  | .ok (_, .file content _) => .ok content
  | .ok _ => .error .isDirectory
  | .error fault => .error fault

/-- The content of a file as text. -/
def readText (tree : FileTree) (p : Path) : Except FileFault String := do
  let bytes ← tree.readBytes p
  match String.fromUTF8? bytes with
  | some text => .ok text
  | none => .error .notText

/-- The time of the last change of what a path leads to. -/
def changed? (tree : FileTree) (p : Path) : Option Int :=
  match tree.find p with
  | .ok (_, entry) => entry.changed?
  | .error _ => none

/-- The names in a directory. -/
def namesIn (tree : FileTree) (p : Path) : List String :=
  match tree.find p with
  | .ok (address, .directory _) =>
    tree.entries.filterMap fun (other, _) =>
      if other.dropLast = address then other.getLast? else none
  | _ => []

/-- What is not a directory in a directory and those below it, links to directories among them, down to
the given depth.  What cannot be read has no content. -/
def listFrom (tree : FileTree) : (depth : Nat) → Path → List (Path × ByteArray)
  | 0, _ => []
  | depth + 1, p =>
    (tree.namesIn p).flatMap fun name =>
      let q := p.child name
      if tree.isDirectory q then listFrom tree depth q
      else [(q, (tree.readBytes q).toOption.getD .empty)]

/-- What is not a directory in a directory and those below it. -/
def list (tree : FileTree) (p : Path) : List (Path × ByteArray) :=
  listFrom tree maxPath p

/-! ## Laws -/

theorem walk_nil (tree : FileTree) (aim : Aim) (links : Nat) (here : Address) (slash : Bool) :
    tree.walk aim links here slash [] = .ok ⟨here, tree.at? here⟩ := by
  rw [walk]

theorem readText_notText {tree : FileTree} {p : Path} {bytes : ByteArray}
    (hread : tree.readBytes p = .ok bytes) (htext : String.fromUTF8? bytes = none) :
    tree.readText p = .error .notText := by
  simp [readText, hread, htext, bind, Except.bind]

end FileTree
end ModuleBundler
