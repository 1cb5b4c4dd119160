import ModuleBundler.FileTree.Setup
import ModuleBundler.Watch.Watcher

/-!
# Changes under watch

Changes of a file tree, what happens to its entries with them, and what a watcher
passes on of that.

Main results:

- Theorem {lit}`Change.observe_closed`: a closed watcher passes nothing on.
- Theorem {lit}`Change.signals_move_self`: an entry that moves to its own place gives no signal.
-/

namespace ModuleBundler
namespace Watch

/-- A change of a file tree. -/
inductive Change where
  /-- Write a file; the directories above it are made first. -/
  | write (p : Path) (content : ByteArray)
  | move (p target : Path)
  /-- Remove what a path names, with all that lies below it. -/
  | remove (p : Path)

namespace Change

/-- The tree after the change. -/
def apply (tree : FileTree) : Change → FileTree
  | write p content => ((tree.makeParents p).writeBytes p content).1
  | move p target => tree.move p target
  | remove p => tree.remove p

/-- The signal of an entry that moves, if it does. -/
def moveSignal? (tree : FileTree) (p target : Path) : Option Signal :=
  match tree.locate .take p, tree.locate .take target with
  | .ok ⟨source, some entry⟩, .ok ⟨target, there⟩ =>
    if tree.canMove source target entry there then some (.moved source target) else none
  | _, _ => none

/-- What happens to the entries with the change.  Directories come before what is made in them, and
after what is removed from them. -/
def signals (tree : FileTree) : Change → List Signal
  | write p _ =>
    let parents := tree.makeParents p
    let made := ((tree.changedPlaces parents).mergeSort fun a b => decide (a.length ≤ b.length))
    let file :=
      match parents.locate .write p with
      | .ok ⟨_, some (.directory _)⟩ => none
      | .ok spot => some spot.address
      | .error _ => none
    (made ++ file.toList).map .written
  | move p target => (moveSignal? tree p target).toList
  | remove p =>
    match tree.locate .take p with
    | .ok ⟨address, some _⟩ =>
      let below := (tree.entries.map Prod.fst).filter address.isPrefixOf
      (below.mergeSort fun a b => decide (b.length ≤ a.length)).map .removed
    | _ => []

/-- What a watcher passes on of a change, and the watcher and the tree after it. -/
def observe (watcher : Watcher) (tree : FileTree) (change : Change) : List Path × Watcher × FileTree :=
  let (paths, watcher) := watcher.takeAll (change.signals tree)
  (paths, watcher, change.apply tree)

/-- What a watcher passes on of changes, and the watcher and the tree after them. -/
def observeAll (watcher : Watcher) (tree : FileTree) (changes : List Change) :
    List Path × Watcher × FileTree :=
  changes.foldl
    (fun (seen, watcher, tree) change =>
      let (paths, watcher, tree) := change.observe watcher tree
      (seen ++ paths, watcher, tree))
    ([], watcher, tree)

theorem observe_closed (watcher : Watcher) (tree : FileTree) (change : Change) :
    (change.observe watcher.close tree).1 = [] := by
  simp [observe]

theorem signals_move_self (tree : FileTree) (p : Path) : (move p p).signals tree = [] := by
  show (moveSignal? tree p p).toList = []
  unfold moveSignal?
  split
  · rename_i source entry target there hsource htarget
    have heq : source = target := by
      have h := hsource.symm.trans htarget
      injection h with h
      injection h
    subst heq
    have hprefix : source.isPrefixOf source = true := List.isPrefixOf_iff_prefix.2 source.prefix_refl
    simp [FileTree.canMove, hprefix]
  · rfl

end Change
end Watch
end ModuleBundler
