import ModuleBundler.Path.Normal

/-!
# File trees

A tree of directories, files and symbolic links, as a program sees it that runs
in one of its directories.  An entry is known by its address, the names that
lead to it from the root.  Files and directories know when they were changed
last; a directory changes when an entry comes into it or leaves it.

Main results:

- Theorem {lit}`FileTree.at?_set_self`: what was set is there.
- Theorem {lit}`FileTree.at?_set_of_ne`: nothing else changes.
-/

namespace ModuleBundler

/-- The names that lead from the root to an entry. -/
abbrev Address := List String

/-- An entry of a file tree; times are in nanoseconds. -/
inductive Entry where
  | directory (changed : Int)
  | file (content : ByteArray) (changed : Int)
  | link (target : Path)

namespace Entry

/-- Whether the entry is a file. -/
def isFile : Entry → Bool
  | file _ _ => true
  | _ => false

/-- Whether the entry is a directory. -/
def isDirectory : Entry → Bool
  | directory _ => true
  | _ => false

/-- The time of the last change of a file or a directory. -/
def changed? : Entry → Option Int
  | directory changed => some changed
  | file _ changed => some changed
  | link _ => none

end Entry

/-- A file tree. -/
structure FileTree where
  entries : List (Address × Entry)
  /-- The directory that relative paths start from. -/
  home : Address
  /-- The time of the next change. -/
  clock : Int

namespace FileTree

/-- The tree with nothing below the root. -/
def empty (home : Address) (clock : Int) : FileTree :=
  ⟨[([], .directory clock)], home, clock⟩

/-- The entry at an address; there is always a directory at the root. -/
def at? (tree : FileTree) (address : Address) : Option Entry :=
  match tree.entries.lookup address with
  | some entry => some entry
  | none => if address.isEmpty then some (.directory 0) else none

/-- The tree with an entry at an address. -/
def set (tree : FileTree) (address : Address) (entry : Entry) : FileTree :=
  { tree with
    entries := (address, entry) :: tree.entries.filter fun other => other.1 != address }

/-- The tree without an address and all that lies below it. -/
def cutOff (tree : FileTree) (address : Address) : FileTree :=
  { tree with entries := tree.entries.filter fun other => !address.isPrefixOf other.1 }

/-- The tree after a change of what is at an address: the directory there has changed now. -/
def stir (tree : FileTree) (address : Address) : FileTree :=
  match tree.at? address with
  | some (.directory _) =>
    { tree.set address (.directory tree.clock) with clock := tree.clock + 1 }
  | _ => tree

/-- The path of an address. -/
def pathOf (address : Address) : Path :=
  ⟨"/" ++ "/".intercalate address⟩

/-- The address that a path from the root spells out, whatever links may stand in its way. -/
def addressOf (p : Path) : Address :=
  p.normalize.segments.filter (· != "")

theorem at?_set_self (tree : FileTree) (address : Address) (entry : Entry) :
    (tree.set address entry).at? address = some entry := by
  simp [at?, set]

theorem lookup_filter_ne {address other : Address} (h : other ≠ address)
    (entries : List (Address × Entry)) :
    (entries.filter fun entry => entry.1 != address).lookup other = entries.lookup other := by
  induction entries with
  | nil => rfl
  | cons head rest ih =>
    obtain ⟨a, entry⟩ := head
    by_cases ha : a = address
    · have hne : (other == a) = false := by simpa [ha] using h
      simp [ha, List.lookup_cons, ← ih, show (other == address) = false by simpa using h]
    · by_cases ho : other = a
      · simp [ha, ho]
      · have hne : (other == a) = false := by simpa using ho
        simp [ha, List.lookup_cons, hne, ih]

theorem at?_set_of_ne (tree : FileTree) {address other : Address} (h : other ≠ address)
    (entry : Entry) : (tree.set address entry).at? other = tree.at? other := by
  have hbeq : (other == address) = false := by simpa using h
  simp [at?, set, List.lookup_cons, hbeq, lookup_filter_ne h]

end FileTree
end ModuleBundler
