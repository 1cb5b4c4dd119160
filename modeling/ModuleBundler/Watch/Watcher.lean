import ModuleBundler.Watch.System

/-!
# Watching files

A watcher has the directories of its files watched by the system, as editors often
replace a file instead of changing it.  It counts for every directory how many of
its files are there for, and passes on the changes of these files only.

Main results:

- Theorem {lit}`Watcher.isWatching_add`: an added file is in the watch set, come what may.
- Theorem {lit}`Watcher.add_of_watching`: a file that is watched already is not added again.
- Theorem {lit}`Watcher.takeAll_close`: a closed watcher passes nothing on.
-/

namespace ModuleBundler
namespace Watch

/-! ## The watcher -/

/-- A watcher. -/
structure Watcher where
  /-- The watch set. -/
  files : List Path := []
  /-- How many files of the watch set lie in a directory. -/
  counts : Path.Map Nat := .empty
  /-- What the system watches, until the watcher is closed. -/
  system : Option System := some {}

namespace Watcher

/-- Whether a file is in the watch set. -/
def isWatching (watcher : Watcher) (p : Path) : Bool :=
  watcher.files.contains p

/-- Add a file to the watch set; the first file of a directory makes the system watch it. -/
def add (watcher : Watcher) (tree : FileTree) (p : Path) : Except Failure Unit × Watcher :=
  if watcher.isWatching p then (.ok (), watcher)
  else
    let watcher := { watcher with files := watcher.files ++ [p] }
    match p.parent? with
    | none => (.ok (), watcher)
    | some directory =>
      let count := (watcher.counts.get? directory).getD 0 + 1
      let watcher := { watcher with counts := watcher.counts.put directory count }
      match watcher.system with
      | none => (.ok (), watcher)
      | some system =>
        if count = 1 then
          match system.watch tree directory with
          | .ok system => (.ok (), { watcher with system := some system })
          | .error failure => (.error failure, watcher)
        else (.ok (), watcher)

/-- Remove a file from the watch set; after the last file of a directory the system watches it no more. -/
def unwatch (watcher : Watcher) (tree : FileTree) (p : Path) : Watcher :=
  if watcher.isWatching p then
    let watcher := { watcher with files := watcher.files.filter (· != p) }
    match p.parent? with
    | none => watcher
    | some directory =>
      match watcher.counts.get? directory with
      | none => watcher
      | some count =>
        if count - 1 = 0 then
          { watcher with
            counts := watcher.counts.erase directory
            system := watcher.system.map fun system => system.unwatch tree directory }
        else { watcher with counts := watcher.counts.put directory (count - 1) }
  else watcher

/-- Watch nothing from now on. -/
def close (_ : Watcher) : Watcher :=
  { system := none }

/-- What is passed on of a signal, and the watcher after it. -/
def take (watcher : Watcher) (signal : Signal) : List Path × Watcher :=
  match watcher.system with
  | none => ([], watcher)
  | some system =>
    let (paths, system) := system.take signal
    (paths.filter watcher.isWatching, { watcher with system := some system })

/-- What is passed on of signals, and the watcher after them. -/
def takeAll (watcher : Watcher) (signals : List Signal) : List Path × Watcher :=
  signals.foldl
    (fun (seen, watcher) signal =>
      let (paths, watcher) := watcher.take signal
      (seen ++ paths, watcher))
    ([], watcher)

/-! ### Laws -/

theorem add_of_watching {watcher : Watcher} {p : Path} (h : watcher.isWatching p = true)
    (tree : FileTree) : watcher.add tree p = (.ok (), watcher) := by
  simp [add, h]

@[simp]
theorem take_close (watcher : Watcher) (signal : Signal) :
    watcher.close.take signal = ([], watcher.close) := rfl

@[simp]
theorem takeAll_close (watcher : Watcher) (signals : List Signal) :
    watcher.close.takeAll signals = ([], watcher.close) := by
  induction signals with
  | nil => rfl
  | cons signal rest ih => simpa [takeAll] using ih

end Watcher
end Watch
end ModuleBundler
