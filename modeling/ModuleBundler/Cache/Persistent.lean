import ModuleBundler.Cache.Record
import ModuleBundler.FileTree.Edit

/-!
# The persistent cache

A cache that outlives a build.  It keeps a record for every asset it was given,
under the text of the asset's path, and serves it only while the asset and all
files that were put into it exist and have not been changed since.

Main results:

- Theorem {lit}`Persistent.read_invalidate_self`: nothing is served for an invalidated asset.
- Theorem {lit}`Persistent.read_clear`: a cleared cache serves nothing.
-/

namespace ModuleBundler
namespace Cache

/-- The records of a persistent cache by the texts of the assets' paths. -/
structure Persistent where
  records : Table (List UInt8) := .empty

namespace Persistent

/-- Times are kept as numbers of 64 bits, which are below this one. -/
def timeLimit : Nat := 18446744073709551616

/-- The time of the last change of a file or a directory, in nanoseconds from the epoch on. -/
def changed? (tree : FileTree) (p : Path) : Option Nat :=
  match tree.changed? p with
  | some time => if 0 ≤ time then some (time.toNat % timeLimit) else none
  | none => none

/-- Whether an input exists and was not changed after the recorded time. -/
def isCurrent (tree : FileTree) (input : Path × Nat) : Bool :=
  (changed? tree input.1).any fun time => decide (time ≤ input.2)

/-- The unit of an asset, if its record is current. -/
def read (cache : Persistent) (tree : FileTree) (p : Path) : Except Failure (Option CompiledUnit) :=
  match cache.records.get? p.text with
  | none => .ok none
  | some bytes =>
    match Record.decode bytes with
    | .error corruption =>
      .error (.cache ("Corrupt entry for " ++ p.text ++ ": " ++ corruption.message))
    | .ok record => .ok (if record.inputs.all (isCurrent tree) then some record.unit else none)

/-- The inputs with the times of their last changes. -/
def stamp (tree : FileTree) : List Path → Except Failure (List (Path × Nat))
  | [] => .ok []
  | p :: rest =>
    match changed? tree p with
    | none => .error (.cache ("Cannot stat cache input " ++ p.text))
    | some time => (stamp tree rest).map ((p, time) :: ·)

/-- Keep a unit and the paths of the files that were put into it. -/
def write (cache : Persistent) (tree : FileTree) (p : Path) (unit : CompiledUnit)
    (inlined : List Path) : Except Failure Persistent :=
  (stamp tree (p :: inlined)).map fun inputs =>
    ⟨cache.records.put p.text (Record.encode ⟨inputs, unit⟩)⟩

/-- Forget an asset. -/
def invalidate (cache : Persistent) (p : Path) : Persistent :=
  ⟨cache.records.erase p.text⟩

/-- Forget everything. -/
def clear (_ : Persistent) : Persistent :=
  {}

/-- Keep bytes as the record of an asset. -/
def keep (cache : Persistent) (p : Path) (bytes : List UInt8) : Persistent :=
  ⟨cache.records.put p.text bytes⟩

theorem lookup_filter_self {α : Type} (key : String) (entries : List (String × α)) :
    (entries.filter fun entry => entry.1 != key).lookup key = none := by
  induction entries with
  | nil => rfl
  | cons head rest ih =>
    by_cases h : head.1 = key
    · simp [h, ih]
    · have hbeq : (key == head.1) = false := by simpa using Ne.symm h
      rw [List.filter_cons_of_pos (by simpa using h), List.lookup_cons, hbeq]
      exact ih

theorem read_invalidate_self (cache : Persistent) (tree : FileTree) (p : Path) :
    (cache.invalidate p).read tree p = .ok none := by
  have h : (cache.records.erase p.text).get? p.text = none := lookup_filter_self _ _
  simp [read, invalidate, h]

theorem read_clear (cache : Persistent) (tree : FileTree) (p : Path) :
    cache.clear.read tree p = .ok none := rfl

end Persistent
end Cache
end ModuleBundler
