import ModuleBundler.Cache.Store
import ModuleBundler.Path.Map

/-!
# Caches of compiled units

A build keeps compiled units nowhere, in memory or in a persistent cache.  The
cache in memory is lost when the program ends; it serves whatever it was given
last for an asset.

Main results:

- Theorem {lit}`Memory.read_write_self`: a unit that was written is read again.
- Theorem {lit}`UnitCache.read_invalidate`: nothing is served for an invalidated asset.
-/

namespace ModuleBundler
namespace Cache

/-! ## The cache in memory -/

/-- The compiled units by the paths of their assets. -/
structure Memory where
  units : Path.Map CompiledUnit := .empty

namespace Memory

/-- The unit of an asset. -/
def read (cache : Memory) (p : Path) : Option CompiledUnit :=
  cache.units.get? p

/-- Keep the unit of an asset. -/
def write (cache : Memory) (p : Path) (unit : CompiledUnit) : Memory :=
  ⟨cache.units.put p unit⟩

/-- Forget an asset. -/
def invalidate (cache : Memory) (p : Path) : Memory :=
  ⟨cache.units.erase p⟩

/-- How many units the cache holds. -/
def size (cache : Memory) : Nat :=
  cache.units.size

theorem read_write_self (cache : Memory) (p : Path) (unit : CompiledUnit) :
    (cache.write p unit).read p = some unit :=
  Path.Map.get?_put_self (beq_self_eq_true p) _ _

theorem read_invalidate_self (cache : Memory) (p : Path) :
    (cache.invalidate p).read p = none :=
  Path.Map.get?_erase_self (beq_self_eq_true p) _

end Memory

/-! ## All caches -/

/-- Where compiled units are kept. -/
inductive UnitCache where
  | absent
  | memory (cache : Memory)
  /-- A persistent cache with its directory. -/
  | persistent (directory : Path) (cache : Persistent)

namespace UnitCache

/-- Load the persistent cache of a directory. -/
def load (tree : FileTree) (directory : Path) : FileTree × Except Failure UnitCache :=
  let (tree, cache) := Store.load tree directory
  (tree, cache.map (persistent directory))

/-- Save the cache, if it is a persistent one. -/
def save (tree : FileTree) : UnitCache → FileTree
  | persistent directory cache => Store.save tree directory cache
  | _ => tree

/-- The unit of an asset. -/
def read (tree : FileTree) (p : Path) : UnitCache → Except Failure (Option CompiledUnit)
  | absent => .ok none
  | memory cache => .ok (cache.read p)
  | persistent _ cache => cache.read tree p

/-- Keep the unit of an asset. -/
def write (tree : FileTree) (p : Path) (unit : CompiledUnit) (inlined : List Path) :
    UnitCache → Except Failure UnitCache
  | absent => .ok absent
  | memory cache => .ok (memory (cache.write p unit))
  | persistent directory cache => (cache.write tree p unit inlined).map (persistent directory)

/-- Forget an asset. -/
def invalidate (p : Path) : UnitCache → UnitCache
  | absent => absent
  | memory cache => memory (cache.invalidate p)
  | persistent directory cache => persistent directory (cache.invalidate p)

theorem read_invalidate (tree : FileTree) (p : Path) (cache : UnitCache) :
    (cache.invalidate p).read tree p = .ok none := by
  cases cache with
  | absent => rfl
  | memory cache => exact congrArg Except.ok (cache.read_invalidate_self p)
  | persistent directory cache => exact cache.read_invalidate_self tree p

end UnitCache
end Cache
end ModuleBundler
