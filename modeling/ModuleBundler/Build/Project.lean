import ModuleBundler.Build.Session
import ModuleBundler.Bundle.Packagers
import ModuleBundler.Cache.Units
import ModuleBundler.LiveUpdate.Channel
import ModuleBundler.Options.Settings
import ModuleBundler.Source.Compile
import ModuleBundler.Watch.Watcher
import ModuleBundler.Workers.Attempt

/-!
# Projects in a file tree

A project whose modules are the files of a file tree.  Modules are found as
packages and relative paths prescribe, compiled from the text of their files, and
bundles are written back into the tree.

Main results:

- Theorem {lit}`Project.retrieve_of_absent`: without a cache nothing is retrieved.
- Theorem {lit}`Project.write_compiled`: writing bundles does not compile anything.
-/

namespace ModuleBundler
namespace Build

open Cache (UnitCache)

/-- A project in a file tree. -/
structure Project where
  tree : FileTree
  /-- What finding modules has found out. -/
  lookup : Lookup.Modules.Memory := {}
  cache : UnitCache := .absent
  /-- The watcher, if files are watched. -/
  watcher : Option Watch.Watcher := none
  /-- The channel to pages, if there is one. -/
  channel : Option LiveUpdate.Channel := none
  /-- The files that were compiled, in this order. -/
  compiled : List Path := []

namespace Project

/-! ## Opening and closing -/

/-- The cache that settings ask for.  A persistent one that cannot be loaded is replaced by one in
memory, with a warning. -/
def openCache (settings : Settings) (tree : FileTree) : FileTree × UnitCache × List String :=
  if settings.cache then
    match UnitCache.load tree settings.cacheDir with
    | (tree, .ok cache) => (tree, cache, [])
    | (tree, .error failure) =>
      (tree, .memory {}, [failure.message ++ "; falling back to an in-memory cache"])
  else (tree, .absent, [])

/-- The tree with the cache saved in it, if it is a persistent one. -/
def saved (project : Project) : FileTree :=
  project.cache.save project.tree

/-! ## The tools -/

/-- Find a module. -/
def resolve (modules : Lookup.Modules) (specifier : String) (importer : Option Path)
    (project : Project) : Answer × Project :=
  let (result, lookup) := (modules.resolve project.tree specifier importer).run project.lookup
  (⟨result, lookup.warnings⟩, { project with lookup := { lookup with warnings := [] } })

/-- Compile a file. -/
def compile (minify : Bool) (p : Path) (project : Project) :
    Except Failure CompiledUnit × Project :=
  let attempt : Workers.Attempt CompiledUnit :=
    .finished (Source.compileFile p minify (project.tree.readText p))
  (attempt.guarded p, { project with compiled := project.compiled ++ [p] })

/-- Recall the unit of a file; a record that cannot be read is none. -/
def retrieve (p : Path) (project : Project) : Option CompiledUnit × Project :=
  ((project.cache.read project.tree p).toOption.join, project)

/-- Keep the unit of a file; one that cannot be kept is dropped. -/
def remember (p : Path) (unit : CompiledUnit) (inlined : List Path) (project : Project) : Project :=
  match project.cache.write project.tree p unit inlined with
  | .ok cache => { project with cache }
  | .error _ => project

/-- Drop the unit of a file. -/
def forget (p : Path) (project : Project) : Project :=
  { project with cache := project.cache.invalidate p }

/-- Begin to watch a file. -/
def watch (p : Path) (project : Project) : Except Failure Unit × Project :=
  match project.watcher with
  | none => (.ok (), project)
  | some watcher =>
    let (result, watcher) := watcher.add project.tree p
    (result, { project with watcher := some watcher })

/-- Watch a file no more. -/
def unwatch (p : Path) (project : Project) : Project :=
  { project with watcher := project.watcher.map fun watcher => watcher.unwatch project.tree p }

/-- Make the output directory. -/
def prepare (outDir : Path) (project : Project) : Except Failure Unit × Project :=
  let (tree, result) := project.tree.makeDirectories outDir
  (result.mapError .io, { project with tree })

/-- Write a bundle. -/
def write (packager : Packager) (bundle : PackagedBundle) (project : Project) :
    Except Failure Unit × Project :=
  let (tree, result) := project.tree.writeText bundle.name (packager.render bundle)
  (result.mapError .io, { project with tree })

/-- Change the channel to pages. -/
def send (change : LiveUpdate.Channel → LiveUpdate.Channel) (project : Project) : Project :=
  { project with channel := project.channel.map change }

/-- The tools of a build with the given settings whose entry lies in the root directory. -/
def tools (settings : Settings) (root : Path) (watches : Bool) : Toolset Unit Packager Project where
  resolve := resolve (.ofRoot root)
  compile := fun _ p _ project => compile settings.minify p project
  implied := fun _ _ project => (.ok [], project)
  arrivals := fun project => ([], project)
  source := fun p project => (project.tree.readText p).toOption
  retrieve := retrieve
  remember := remember
  forget := forget
  watch := watch
  unwatch := unwatch
  prepare := prepare
  write := write
  writesOn := true
  update := fun assets => send fun channel => channel.update assets
  alert := fun failure => send fun channel => channel.alert failure
  close := fun project =>
    { project with watcher := project.watcher.map Watch.Watcher.close }.send LiveUpdate.Channel.stop
  watches := watches
  reach := fun project => project.tree.entries.length

/-- A session for an entry in a file tree. -/
def session (settings : Settings) (entry : Path) (types : AssetTypes Unit) (tree : FileTree)
    (watches : Bool) : Session Unit Packager Project :=
  let (tree, cache, warnings) := openCache settings tree
  let project : Project :=
    { tree, cache
      watcher := if watches then some {} else none
      channel := if watches && settings.hmr then some {} else none }
  let session := Session.new settings entry types .standard
    (tools settings (entry.parent?.getD ⟨"/"⟩) watches) project
  { session with work := session.work.warn warnings }

theorem retrieve_of_absent {project : Project} (h : project.cache = .absent) (p : Path) :
    project.retrieve p = (none, project) := by
  simp [retrieve, UnitCache.read, h, Except.toOption]

theorem write_compiled (packager : Packager) (bundle : PackagedBundle) (project : Project) :
    (project.write packager bundle).2.compiled = project.compiled := rfl

end Project
end Build
end ModuleBundler
