import ModuleBundler.Options.Settings

/-!
# Arguments of the command line

The program is told on its command line what to do: a command, the entry file and
flags.  Options take a value, which is attached to them or follows as an argument
of its own; a value that follows is looked at only when the next argument of a
known kind comes, or the last one has been read.

Main results:

- Theorem {lit}`Usage.exitCode_of_ne`: every misuse but the wish for help has the exit code 2.
- Theorem {lit}`Arguments.parse_nil`: a command has to be given.
- Theorem {lit}`Scan.feed_trailing`: behind two dashes nothing is a flag.
-/

namespace ModuleBundler
namespace CommandLine

/-! ## Commands -/

/-- What all commands can be told. -/
structure Common where
  outDir : Option Path := none
  publicUrl : Option String := none
  noCache : Bool := false
  cacheDir : Option Path := none
  logLevel : Option Nat := none
deriving DecidableEq, Repr

/-- What the program is to do. -/
inductive Command where
  /-- Build once, for production. -/
  | build (entry : Path) (common : Common) (noMinify : Bool)
  /-- Build, and build again after every change. -/
  | watch (entry : Path) (common : Common) (noHmr : Bool)
deriving DecidableEq, Repr

/-- What all commands can be told, in JSON. -/
def Common.toValue (common : Common) : Json.Value :=
  let ofText (text : Option String) : Json.Value := text.elim .null .text
  .table
    [("out_dir", ofText (common.outDir.map Path.text)), ("public_url", ofText common.publicUrl),
      ("no_cache", .flag common.noCache), ("cache_dir", ofText (common.cacheDir.map Path.text)),
      ("log_level", common.logLevel.elim .null fun level => .whole level)]

/-- A command in JSON. -/
def Command.toValue : Command → Json.Value
  | .build entry common noMinify =>
    .table [("command", .text "build"), ("entry", .text entry.text), ("common", common.toValue),
      ("no_minify", .flag noMinify)]
  | .watch entry common noHmr =>
    .table [("command", .text "watch"), ("entry", .text entry.text), ("common", common.toValue),
      ("no_hmr", .flag noHmr)]

/-- Why a command line cannot be obeyed. -/
inductive Usage where
  | helpWanted
  | nothingGiven
  | entryMissing
  | valueMissing
  | valueMalformed
  | valueUnwanted
  | argumentUnknown
  | argumentRepeated
  | commandUnknown
deriving DecidableEq, Repr

namespace Usage

/-- The exit code of the program. -/
def exitCode : Usage → Nat
  | helpWanted => 0
  | _ => 2

/-- What the program answers. -/
def message : Usage → String
  | helpWanted | nothingGiven =>
    "Usage: kiln build|watch ENTRY [-d|--out-dir DIR] [--public-url URL] [--no-cache]\n" ++
      "       [--cache-dir DIR] [--log-level LEVEL] [--no-minify (build)] [--no-hmr (watch)]"
  | entryMissing => "error: the entry file is missing"
  | valueMissing => "error: an option needs a value"
  | valueMalformed => "error: the log level is no number from 0 to 255"
  | valueUnwanted => "error: a flag takes no value"
  | argumentUnknown => "error: unexpected argument"
  | argumentRepeated => "error: an argument is given twice"
  | commandUnknown => "error: unrecognized command"

theorem exitCode_of_ne {usage : Usage} (h : usage ≠ helpWanted) : usage.exitCode = 2 := by
  cases usage <;> first | rfl | exact absurd rfl h

end Usage

/-! ## Arguments of a command -/

/-- What a value can be given for. -/
inductive Slot where
  | entry
  | outDir
  | publicUrl
  | cacheDir
  | logLevel
deriving DecidableEq, Repr

/-- The values and flags that were given. -/
structure Given where
  entry : Option Path := none
  common : Common := {}
  /-- Whether the flag that only this command has was given. -/
  own : Bool := false
deriving DecidableEq, Repr

namespace Given

/-- Whether a value was given. -/
def has (given : Given) : Slot → Bool
  | .entry => given.entry.isSome
  | .outDir => given.common.outDir.isSome
  | .publicUrl => given.common.publicUrl.isSome
  | .cacheDir => given.common.cacheDir.isSome
  | .logLevel => given.common.logLevel.isSome

/-- A decimal number, with a sign in front of it if there is one. -/
def readNumber (value : String) : Option Int :=
  let digits (sign : Int) (cs : List Char) : Option Int :=
    if !cs.isEmpty && cs.all Char.isDigit then
      some (sign * (cs.foldl (fun n c => 10 * n + (c.toNat - '0'.toNat)) 0 : Nat))
    else none
  match value.toList with
  | '-' :: cs => digits (-1) cs
  | '+' :: cs => digits 1 cs
  | cs => digits 1 cs

/-- The log level that a value means. -/
def readLevel (value : String) : Option Nat :=
  match readNumber value with
  | some n => if 0 ≤ n ∧ n ≤ Request.maxLogLevel then some n.toNat else none
  | none => none

/-- The path that a value means. -/
def readPath (value : String) : Option Path :=
  if value.isEmpty then none else some ⟨value⟩

/-- Take a value. -/
def put (given : Given) (slot : Slot) (value : String) : Except Usage Given :=
  let common := given.common
  if given.has slot then .error .argumentRepeated
  else
    match slot, readPath value with
    | .publicUrl, _ => .ok { given with common := { common with publicUrl := some value } }
    | .logLevel, _ =>
      match readLevel value with
      | some level => .ok { given with common := { common with logLevel := some level } }
      | none => .error .valueMalformed
    | _, none => .error .valueMissing
    | .entry, some p => .ok { given with entry := some p }
    | .outDir, some p => .ok { given with common := { common with outDir := some p } }
    | .cacheDir, some p => .ok { given with common := { common with cacheDir := some p } }

end Given

/-! ## Reading the arguments of a command -/

/-- What has been read of the arguments of a command. -/
structure Scan where
  /-- The name of the flag that only this command has. -/
  ownFlag : String
  given : Given := {}
  /-- A slot whose value has still to be looked at; the value is absent if it was not read yet. -/
  pending : Option (Slot × Option String) := none
  /-- Whether the entry was read, though it may not have been looked at. -/
  entryRead : Bool := false
  /-- Whether two dashes were read, behind which nothing is a flag. -/
  trailing : Bool := false

namespace Scan

/-- Look at the pending value. -/
def settle (scan : Scan) : Except Usage Scan :=
  match scan.pending with
  | none => .ok scan
  | some (_, none) => .error .valueMissing
  | some (slot, some value) => do
    return { scan with given := ← scan.given.put slot value, pending := none }

/-- Whether the next argument is the value of an option. -/
def wantsValue (scan : Scan) : Bool :=
  match scan.pending with
  | some (_, none) => true
  | _ => false

/-- The option with a long name. -/
def slotNamed? : String → Option Slot
  | "out-dir" => some .outDir
  | "public-url" => some .publicUrl
  | "cache-dir" => some .cacheDir
  | "log-level" => some .logLevel
  | _ => none

/-- Take an option, with the value that is attached to it. -/
def takeOption (scan : Scan) (slot : Slot) (attached : Option String) : Except Usage Scan := do
  let scan ← scan.settle
  match attached with
  | some value => return { scan with given := ← scan.given.put slot value }
  | none => return { scan with pending := some (slot, none) }

/-- Take a flag, which must not be given twice. -/
def takeFlag (scan : Scan) (isGiven : Given → Bool) (give : Given → Given) : Except Usage Scan := do
  let scan ← scan.settle
  if isGiven scan.given then throw .argumentRepeated
  return { scan with given := give scan.given }

/-- Refuse with a wish for help. -/
def takeHelp (scan : Scan) : Except Usage Scan := do
  let _ ← scan.settle
  throw .helpWanted

/-- Take a long flag or option. -/
def takeLong (scan : Scan) (name : String) (attached : Option String) : Except Usage Scan :=
  match slotNamed? name with
  | some slot => scan.takeOption slot attached
  | none =>
    let isFlag := name = "no-cache" ∨ name = "help" ∨ name = scan.ownFlag
    if isFlag ∧ attached.isSome then .error .valueUnwanted
    else if name = "no-cache" then
      scan.takeFlag (fun given => given.common.noCache)
        fun given => { given with common := { given.common with noCache := true } }
    else if name = scan.ownFlag then
      scan.takeFlag Given.own fun given => { given with own := true }
    else if name = "help" then scan.takeHelp
    else .error .argumentUnknown

/-- Take short flags. -/
def takeShort (scan : Scan) : List Char → Except Usage Scan
  | 'd' :: '=' :: value => scan.takeOption .outDir (some (String.ofList value))
  | ['d'] => scan.takeOption .outDir none
  | 'd' :: value => scan.takeOption .outDir (some (String.ofList value))
  | 'h' :: _ => scan.takeHelp
  | _ => .error .argumentUnknown

/-- Take an argument that is no flag. -/
def takePlain (scan : Scan) (argument : String) : Except Usage Scan :=
  if scan.entryRead then .error .argumentUnknown
  else do
    let scan ← scan.settle
    return { scan with pending := some (.entry, some argument), entryRead := true }

/-- The name of a long flag and the value that is attached to it. -/
def splitLong (body : List Char) : String × Option String :=
  let name := String.ofList (body.takeWhile (· != '='))
  match body.dropWhile (· != '=') with
  | [] => (name, none)
  | _ :: value => (name, some (String.ofList value))

/-- Take an argument. -/
def feed (scan : Scan) (argument : String) : Except Usage Scan :=
  if scan.trailing then scan.takePlain argument
  else
    match argument.toList with
    | ['-', '-'] => .ok { scan with trailing := true }
    | '-' :: '-' :: body =>
      let (name, attached) := splitLong body
      scan.takeLong name attached
    | '-' :: c :: body => scan.takeShort (c :: body)
    | _ =>
      match scan.pending with
      | some (slot, none) => .ok { scan with pending := some (slot, some argument) }
      | _ => scan.takePlain argument

/-- Read all arguments of a command. -/
def read (ownFlag : String) (arguments : List String) : Except Usage (Path × Given) := do
  let scan ← arguments.foldlM feed { ownFlag }
  let scan ← scan.settle
  match scan.given.entry with
  | some entry => return (entry, scan.given)
  | none => throw .entryMissing

theorem feed_trailing {scan : Scan} (h : scan.trailing = true) (argument : String) :
    scan.feed argument = scan.takePlain argument := by
  simp [feed, h]

end Scan

/-! ## Reading whole command lines -/

namespace Arguments

/-- Read the arguments behind the wish for help on commands. -/
def readHelp : List String → Usage
  | [] => .helpWanted
  | [command] =>
    if command = "build" ∨ command = "watch" ∨ command = "help" then .helpWanted else .commandUnknown
  | _ => .commandUnknown

/-- Read the arguments in front of a command that is not there. -/
def readStray (trailing : Bool) (argument : String) : Usage :=
  if trailing then
    if argument = "build" ∨ argument = "watch" ∨ argument = "help" then .argumentUnknown
    else .commandUnknown
  else
    match argument.toList with
    | '-' :: '-' :: body =>
      match Scan.splitLong body with
      | ("help", none) => .helpWanted
      | ("help", some _) => .valueUnwanted
      | _ => .argumentUnknown
    | '-' :: 'h' :: _ => .helpWanted
    | '-' :: _ :: _ => .argumentUnknown
    | _ => .commandUnknown

/-- Read a command line. -/
def parse : List String → Except Usage Command
  | "build" :: rest => do
    let (entry, given) ← Scan.read "no-minify" rest
    return .build entry given.common given.own
  | "watch" :: rest => do
    let (entry, given) ← Scan.read "no-hmr" rest
    return .watch entry given.common given.own
  | "help" :: rest => .error (readHelp rest)
  | [] => .error .nothingGiven
  | ["--"] => .error .nothingGiven
  | "--" :: argument :: _ => .error (readStray true argument)
  | argument :: _ => .error (readStray false argument)

theorem parse_nil : parse [] = .error .nothingGiven := rfl

end Arguments
end CommandLine
end ModuleBundler
