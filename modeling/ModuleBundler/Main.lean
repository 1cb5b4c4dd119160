import ModuleBundler.CommandLine.Program
import ModuleBundler.CommandLine.Reach
import Std.Data.HashMap
import Std.Time.DateTime.Timestamp

/-!
# The command line

The program at work on a disk.  What a build can reach is read into a file tree,
the commands are run on the tree, what has changed in it is written to the disk,
and the outputs are shown.  The program looks for changes again and again while it
watches files, until it is interrupted.
-/

namespace ModuleBundler
namespace CommandLine
namespace Disk

open Terminal

/-! ## Reading -/

/-- What has been read from the disk. -/
structure Contents where
  /-- The entries by their paths. -/
  entries : Std.HashMap String Entry := {}
  /-- The directories that were read with all below them. -/
  whole : Std.HashMap String Unit := {}

/-- A place on the disk. -/
def place (p : Path) : IO.FS.DirEntry :=
  ⟨"/", p.text⟩

/-- The time of the last change, in nanoseconds. -/
def lastChange (metadata : IO.FS.Metadata) : Int :=
  metadata.modified.sec * 1000000000 + metadata.modified.nsec.toNat

/-- The content of a file.  It is not read again if the file is the one that was read before. -/
def readContent (before : Contents) (p : Path) (metadata : IO.FS.Metadata) : IO ByteArray := do
  if let some (.file content changed) := before.entries[p.text]? then
    if changed = lastChange metadata ∧ content.size = metadata.byteSize.toNat then
      return content
  IO.FS.readBinFile (place p).path

mutual

/-- Read an entry, and with {lit}`deep` all that lies below it.  What cannot be read is left out. -/
partial def readEntry (before : Contents) (deep : Bool) (p : Path) (contents : Contents) :
    IO Contents := do
  if contents.entries.contains p.text && (!deep || contents.whole.contains p.text) then
    return contents
  let .ok metadata ← (place p).path.symlinkMetadata.toBaseIO | return contents
  let put (entry : Entry) : Contents :=
    { contents with entries := contents.entries.insert p.text entry }
  match metadata.type with
  | .dir =>
    let contents := put (.directory (lastChange metadata))
    if deep then
      let .ok inner ← (place p).path.readDir.toBaseIO | return contents
      let contents := { contents with whole := contents.whole.insert p.text () }
      inner.foldlM
        (fun contents entry =>
          if entry.fileName = ".git" then return contents
          else readEntry before true (p.child entry.fileName) contents)
        contents
    else return contents
  | .symlink =>
    let .ok target ← (IO.FS.realPath (place p).path).toBaseIO | return contents
    readPath before deep ⟨target.toString⟩
      { put (.link ⟨target.toString⟩) with whole := contents.whole.insert p.text () }
  | _ =>
    let .ok content ← (readContent before p metadata).toBaseIO | return contents
    return put (.file content (lastChange metadata))

/-- Read an entry, and the directories that lead to it. -/
partial def readPath (before : Contents) (deep : Bool) (p : Path) (contents : Contents) :
    IO Contents := do
  let contents ← p.ancestors.reverse.foldlM
    (fun contents directory => readEntry before false directory contents) contents
  readEntry before deep p contents

end

/-- The file tree of what was read, with the present time. -/
def treeOf (home : Path) (contents : Contents) : IO FileTree := do
  let now ← Std.Time.Timestamp.now
  return {
    entries := contents.entries.toList.map fun (text, entry) => (FileTree.addressOf ⟨text⟩, entry)
    home := FileTree.addressOf home
    clock := now.toNanosecondsSinceUnixEpoch.val }

/-- Read the directories that sources import from until nothing is missing that is there. -/
partial def readOutward (before : Contents) (home : Path) (contents : Contents) : IO Contents := do
  let missing := Reach.outward (← treeOf home contents)
  let more ← missing.foldlM (fun contents p => readPath before true p contents) contents
  if more.entries.size = contents.entries.size then return more
  else readOutward before home more

/-- What the program works on. -/
structure Scope where
  /-- The directory that the program runs in. -/
  home : Path
  /-- The directories that are read with all below them. -/
  directories : List Path

/-- Read what a build can reach.  The result says also whether anything has changed. -/
def read (scope : Scope) (before : Contents) : IO (Contents × Bool) := do
  let contents ← scope.directories.foldlM
    (fun contents p => do
      let contents ← readPath before true p contents
      (Reach.above p).foldlM (fun contents p => readPath before true p contents) contents)
    ({} : Contents)
  let isKnown := contents.entries.all fun text entry =>
    match before.entries[text]?, entry with
    | some (.file old time), .file new later => time = later ∧ old.size = new.size
    | some (.directory _), .directory _ => true
    | some (.link old), .link new => old = new
    | _, _ => false
  let isGone := before.entries.any fun text _ => !contents.entries.contains text
  if isKnown && !isGone then return (before, false)
  return (← readOutward before scope.home contents, true)

/-! ## Writing -/

/-- Write to the disk what has changed in a tree. -/
def write (old new : FileTree) : IO Unit := do
  let changed := (old.changedPlaces new).mergeSort fun a b => decide (a.length ≤ b.length)
  for address in changed do
    let target := (place (FileTree.pathOf address)).path
    match new.at? address with
    | some (.directory _) => IO.FS.createDirAll target
    | some (.file content _) => IO.FS.writeBinFile target content
    | _ => pure ()

/-- Show outputs. -/
def present (environment : Environment) (outputs : List Output) : IO Unit := do
  let out ← IO.getStdout
  let err ← IO.getStderr
  let color := environment.statusColor (← out.isTty)
  let now ← Std.Time.Timestamp.now
  let moment : Moment := ⟨now.toNanosecondsSinceUnixEpoch.val.toNat⟩
  for output in outputs do
    let stream := if output.isError then err else out
    stream.putStr (output.render color environment.logColor moment)
  out.flush
  err.flush

/-! ## Commands -/

/-- The variables of the environment. -/
def environment : IO Environment := do
  let found ← Environment.names.mapM fun name => return (name, ← IO.getEnv name)
  return .ofVariables fun name => (found.lookup name).join

/-- The scope of a build: the directories of the program and of the entry, and those that the settings
name. -/
def scopeOf (environment : Environment) (entry : Path) (flags : Request) : IO (Scope × Contents) := do
  let home : Path := ⟨(← IO.currentDir).toString⟩
  let entryDirectory := ((Path.absolute home entry).parent?).getD home
  let first : Scope := ⟨home, [home, entryDirectory].eraseDups⟩
  let (contents, _) ← read first {}
  match Program.start environment (← treeOf home contents) entry flags false with
  | .error _ => return (first, contents)
  | .ok program =>
    let settings := program.settings
    let directories := first.directories ++
      if settings.cache then [settings.outDir, settings.cacheDir] else [settings.outDir]
    return (⟨home, directories.eraseDups⟩, contents)

/-- Compute something, and say how many nanoseconds that took. -/
def timing {α : Type} (compute : Unit → α) : IO (α × Nat) := do
  let start ← IO.monoNanosNow
  let result ← IO.lazyPure compute
  return (result, (← IO.monoNanosNow) - start)

/-- Build once. -/
def build (environment : Environment) (entry : Path) (common : Common) (noMinify : Bool) :
    IO UInt32 := do
  let flags := Program.buildRequest common noMinify
  let (scope, contents) ← scopeOf environment entry flags
  let (contents, _) ← read scope contents
  let tree ← treeOf scope.home contents
  let (result, time) ← timing fun _ => Program.build environment tree entry common noMinify 0
  write tree result.tree
  present environment (result.outputs.map (Output.timed time))
  return UInt32.ofNat result.code

/-- Show what a program has to show, and write what it has written since the tree was as given. -/
def settle (environment : Environment) (old : FileTree) (time : Nat) (program : Program) :
    IO Program := do
  let outputs := program.outputs time
  unless outputs.isEmpty do
    write old program.tree
    present environment (program.shown outputs)
  return program.clear

/-- Milliseconds between two looks for changes. -/
def patience : Nat := 50

/-- Look for changes again and again. -/
partial def follow (environment : Environment) (scope : Scope) (contents : Contents) (tree : FileTree)
    (program : Program) (since : Nat) : IO Unit := do
  IO.sleep patience.toUInt32
  let (contents, isChanged) ← read scope contents
  let next ← if isChanged then treeOf scope.home contents else pure tree
  let program :=
    if isChanged then program.changed next (Watch.Signal.between tree next) else program
  let now ← IO.monoMsNow
  let before := program.session.work.world.tree
  let (program, time) ← timing fun _ => program.advance (now - since)
  let program ← settle environment before time program
  follow environment scope contents next program now

/-- Build, and build again after every change. -/
def watch (environment : Environment) (entry : Path) (common : Common) (noHmr : Bool) :
    IO UInt32 := do
  let flags := Program.watchRequest common noHmr
  let (scope, contents) ← scopeOf environment entry flags
  let (contents, _) ← read scope contents
  let tree ← treeOf scope.home contents
  let (started, time) ← timing fun _ => Program.watch environment tree entry common noHmr
  match started with
  | .error failure =>
    present environment [.failed failure]
    return 1
  | .ok program =>
    let program ← settle environment tree time program
    present environment (program.shown [.log .watching])
    follow environment scope contents tree program (← IO.monoMsNow)
    return 0

end Disk
end CommandLine
end ModuleBundler

/-- Run the program with the arguments of its command line. -/
def main (arguments : List String) : IO UInt32 := do
  let environment ← ModuleBundler.CommandLine.Disk.environment
  match ModuleBundler.CommandLine.Arguments.parse arguments with
  | .ok (.build entry common noMinify) =>
    ModuleBundler.CommandLine.Disk.build environment entry common noMinify
  | .ok (.watch entry common noHmr) =>
    ModuleBundler.CommandLine.Disk.watch environment entry common noHmr
  | .error usage =>
    if usage.exitCode = 0 then IO.println usage.message else IO.eprintln usage.message
    return UInt32.ofNat usage.exitCode
