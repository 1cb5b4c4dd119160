import ModuleBundler.Build.Project
import ModuleBundler.Build.Session
import ModuleBundler.CommandLine.Arguments
import ModuleBundler.CommandLine.Environment
import ModuleBundler.CommandLine.Output

/-!
# The program

What the commands do to a file tree, and what they show.  The flags of the command
line come before the options of the configuration file.

Main results:

- Theorem {lit}`Program.buildRequest_watch`: a single build never watches files.
- Theorem {lit}`Program.outputs_clear`: outputs are shown once only.
-/

namespace ModuleBundler
namespace CommandLine

open Terminal

/-- A program at work. -/
structure Program where
  settings : Settings
  filter : Filter
  session : Build.Session Unit Packager Build.Project

namespace Program

/-! ## Requests -/

/-- The request of the flags that all commands have. -/
def commonRequest (common : Common) : Request :=
  { outDir := common.outDir
    publicUrl := common.publicUrl
    cache := if common.noCache then some false else none
    cacheDir := common.cacheDir
    logLevel := common.logLevel }

/-- The request for a single build. -/
def buildRequest (common : Common) (noMinify : Bool) : Request :=
  { commonRequest common with
    production := some true
    watch := some false
    minify := if noMinify then some false else none }

/-- The request for builds that go on. -/
def watchRequest (common : Common) (noHmr : Bool) : Request :=
  { commonRequest common with
    watch := some true
    hmr := if noHmr then some false else none }

/-! ## Starting -/

/-- A program for an entry in a file tree.  It fails if the configuration file cannot be read. -/
def start (environment : Environment) (tree : FileTree) (entry : Path) (flags : Request)
    (watches : Bool) : Except Failure Program := do
  let configured ← (Lookup.Nearest.requestFor tree entry .empty).1
  let request := flags.or (configured.getD {})
  let cwd := FileTree.pathOf tree.home
  let settings := Settings.ofRequest cwd (Settings.isProductionMode environment.mode) request
  return {
    settings
    filter := Filter.ofText environment.logFilter (request.logLevel.getD 3)
    session := Build.Project.session settings (Path.absolute cwd entry) (.ofFallback ()) tree watches }

/-! ## Outputs -/

/-- What the program has to show since it was asked last. -/
def outputs (program : Program) (nanoseconds : Nat) : List Output :=
  program.session.work.notices.flatMap (Output.ofNotice nanoseconds)

/-- Forget what was shown. -/
def clear (program : Program) : Program :=
  { program with
    session := { program.session with
      work := { program.session.work with notices := [] } } }

/-- Those of the outputs that are shown. -/
def shown (program : Program) (outputs : List Output) : List Output :=
  outputs.filter fun output => output.isShown program.filter program.settings.logLevel

/-- The file tree with the cache in it. -/
def tree (program : Program) : FileTree :=
  program.session.work.world.saved

/-! ## Single builds -/

/-- The end of a program. -/
structure Result where
  code : Nat
  outputs : List Output
  tree : FileTree

/-- Build once.  A pass takes the given number of nanoseconds. -/
def build (environment : Environment) (tree : FileTree) (entry : Path) (common : Common)
    (noMinify : Bool) (nanoseconds : Nat) : Result :=
  match start environment tree entry (buildRequest common noMinify) false with
  | .error failure => ⟨1, [.failed failure], tree⟩
  | .ok program =>
    let (result, session) := program.session.bundle
    let program := { program with session }
    let outputs := program.outputs nanoseconds
    match result with
    | .error failure => ⟨1, program.shown (outputs ++ [.failed failure]), program.tree⟩
    | .ok report =>
      let written := report.bundles.filter fun bundle => !bundle.assets.isEmpty
      let names := written.map fun bundle => Output.log (.bundle bundle.name bundle.assets.length)
      ⟨0, program.shown (outputs ++ names), program.tree⟩

/-! ## Builds that go on -/

/-- Build, and watch the files that were built. -/
def watch (environment : Environment) (tree : FileTree) (entry : Path) (common : Common)
    (noHmr : Bool) : Except Failure Program := do
  let program ← start environment tree entry (watchRequest common noHmr) true
  return { program with session := program.session.bundle.2 }

/-- Take over a tree after the signals. -/
def changed (program : Program) (tree : FileTree) (signals : List Watch.Signal) : Program :=
  let session := program.session
  let project := session.work.world
  let (paths, watcher) :=
    match project.watcher with
    | some watcher => (watcher.takeAll signals).map id some
    | none => ([], none)
  let session := { session with
    work := { session.work with world := { project with tree, watcher } } }
  { program with session := paths.foldl Build.Session.change session }

/-- Let time pass. -/
def advance (program : Program) (milliseconds : Nat) : Program :=
  { program with session := program.session.advance milliseconds }

/-- Stop. -/
def stop (program : Program) : Program :=
  { program with session := program.session.stop }

theorem buildRequest_watch (common : Common) (noMinify : Bool) :
    (buildRequest common noMinify).watch = some false := rfl

@[simp]
theorem outputs_clear (program : Program) (nanoseconds : Nat) :
    program.clear.outputs nanoseconds = [] := rfl

end Program
end CommandLine
end ModuleBundler
