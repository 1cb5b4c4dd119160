import ModuleBundler.FileTree.Walk

/-!
# Differences between file trees

What has changed from one state of a file tree to a later one.

Main results:

- Theorem {lit}`FileTree.isChanged_self`: a tree does not differ from itself.
-/

namespace ModuleBundler
namespace FileTree

/-- What is not a directory in a directory and below it, and is new or has another content. -/
def changedFiles (old new : FileTree) (directory : Path) : List (Path × ByteArray) :=
  let before := old.list directory
  (new.list directory).filter fun (p, content) =>
    !before.any fun (q, other) => q.text == p.text && other.data == content.data

/-- Whether an entry is another one than before, or was written since. -/
def isChanged (old new : FileTree) (address : Address) : Bool :=
  match old.at? address, new.at? address with
  | none, none => false
  | some (.directory _), some (.directory _) => false
  | some (.file before time), some (.file after later) => before.data != after.data || time != later
  | some (.link before), some (.link after) => before.text != after.text
  | _, _ => true

/-- The places where entries are gone. -/
def gonePlaces (old new : FileTree) : List Address :=
  (old.entries.map Prod.fst).filter fun address => (new.at? address).isNone

/-- The places where entries are new or other ones. -/
def changedPlaces (old new : FileTree) : List Address :=
  (new.entries.map Prod.fst).filter fun address => old.isChanged new address

theorem isChanged_self (tree : FileTree) (address : Address) :
    tree.isChanged tree address = false := by
  unfold isChanged
  cases tree.at? address with
  | none => rfl
  | some entry => cases entry <;> simp

end FileTree
end ModuleBundler
