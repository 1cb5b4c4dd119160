import ModuleBundler.FileTree.Changes
import ModuleBundler.Path.Map
import ModuleBundler.Text.Quoted

/-!
# What the system watches

The system watches places, and a place keeps its watch when it moves.  Whoever
asks for a place by a path gets the number of the watch, the same for all paths
that lead to one place, and keeps the path under which changes are reported: the
one that was asked for last.

A path that is said to leave its directory, or whose place has gone, is no longer
watched, and neither are the paths below it.

Main results:

- Theorem {lit}`System.report_empty`: nothing is reported where nothing is watched.
- Theorem {lit}`System.watch_error`: only existing places are watched.
-/

namespace ModuleBundler
namespace Watch

/-- What happens to an entry of a file tree. -/
inductive Signal where
  /-- The entry was made, or its content was written. -/
  | written (address : Address)
  | removed (address : Address)
  /-- The entry moved, in place of one that is gone now if there was one. -/
  | moved (source target : Address)
deriving DecidableEq, Repr

/-- What happened between two states of a file tree, as far as the states tell. -/
def Signal.between (old new : FileTree) : List Signal :=
  (old.gonePlaces new).map removed ++ (old.changedPlaces new).map written

/-- The watches. -/
structure System where
  /-- The numbers of the watches by the paths that were asked for. -/
  asked : Path.Map Nat := .empty
  /-- The places that are watched, with the numbers of the watches. -/
  places : List (Address × Nat) := []
  /-- The paths under which changes are reported, by the numbers of the watches. -/
  names : List (Nat × Path) := []
  /-- The number of the next watch. -/
  next : Nat := 0

namespace System

/-! ## Asking -/

/-- The absolute path that a path means. -/
def absolute (tree : FileTree) (p : Path) : Path :=
  if p.isAbsolute then p else (FileTree.pathOf tree.home).join p

/-- Report the changes of a watch under a path. -/
def rename (system : System) (watch : Nat) (p : Path) : System :=
  { system with
    asked := system.asked.put p watch
    names := (watch, p) :: system.names.filter fun name => name.1 != watch }

/-- Watch a place without those below it. -/
def watch (system : System) (tree : FileTree) (p : Path) : Except Failure System :=
  let p' := absolute tree p
  match tree.find p' with
  | .ok (address, _) =>
    match system.places.lookup address with
    | some watch => .ok (system.rename watch p')
    | none =>
      let watched :=
        { system with places := (address, system.next) :: system.places, next := system.next + 1 }
      .ok (watched.rename system.next p')
  | .error fault =>
    let reason :=
      match fault with
      | .nulInPath => "data provided contains a nul byte"
      | fault => fault.message
    .error (.build ("Failed to watch " ++ p.text ++ ": " ++ reason ++ " about [" ++
      Text.Quoted.quote p'.text ++ "]"))

/-- The system without a watch. -/
def drop (system : System) (watch : Nat) : System :=
  { system with
    places := system.places.filter fun place => place.2 != watch
    names := system.names.filter fun name => name.1 != watch }

/-- Whether a path lies in a directory or is the directory. -/
def isWithin (p directory : Path) : Bool :=
  directory.components.isPrefixOf p.components

/-- Watch a path no more, and with {lit}`below` none of those below it.  If its place is gone already,
the paths below it are left alone. -/
def forget (system : System) (below : Bool) (p : Path) : System :=
  match system.asked.get? p with
  | none => system
  | some watch =>
    let system := { system with asked := system.asked.erase p }
    if system.places.any fun place => place.2 == watch then
      let system := system.drop watch
      if below then
        (system.names.filter fun name => isWithin name.2 p).foldl
          (fun system (watch, q) => { system.drop watch with asked := system.asked.erase q })
          system
      else system
    else system

/-- Watch a place no more. -/
def unwatch (system : System) (tree : FileTree) (p : Path) : System :=
  system.forget false (absolute tree p)

/-! ## Reporting -/

/-- The path under which a place is reported that is watched itself. -/
def ownName? (system : System) (address : Address) : Option Path := do
  let watch ← system.places.lookup address
  system.names.lookup watch

/-- The path under which a place is reported as an entry of a watched directory. -/
def entryName? (system : System) (address : Address) : Option Path := do
  let name ← address.getLast?
  let directory ← system.ownName? address.dropLast
  return directory.child name

/-- The paths under which a change at a place is reported. -/
def report (system : System) (address : Address) : List Path :=
  (system.entryName? address).toList ++ (system.ownName? address).toList

/-- The system after the place of an entry is gone. -/
def lose (system : System) (address : Address) : System :=
  let gone := { system with places := system.places.filter fun place => place.1 != address }
  match system.ownName? address with
  | some p => gone.forget true p
  | none => gone

/-- The system after places have moved with a directory. -/
def follow (system : System) (source target : Address) : System :=
  { system with
    places := system.places.map fun (address, watch) =>
      if source.isPrefixOf address then (target ++ address.drop source.length, watch)
      else (address, watch) }

/-- The paths that are reported for a signal, and the system after it. -/
def take (system : System) : Signal → List Path × System
  | .written address => (system.report address, system)
  | .removed address =>
    let name := system.entryName? address
    let lost := system.lose address
    (system.report address, (name.map (lost.forget true)).getD lost)
  | .moved source target =>
    let name := system.entryName? source
    let moved := (system.lose target).follow source target
    (system.report source ++ system.report target, (name.map (moved.forget true)).getD moved)

/-! ## Laws -/

theorem report_empty (address : Address) : (System.report {} address) = [] := by
  unfold report entryName? ownName?
  cases address.getLast? <;> rfl

theorem watch_error {tree : FileTree} {p : Path} {fault : FileFault}
    (h : tree.find (absolute tree p) = .error fault) (system : System) :
    ∃ failure, system.watch tree p = .error failure := by
  simp [watch, h]

end System
end Watch
end ModuleBundler
