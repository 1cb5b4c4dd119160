import ModuleBundler.Json.Fault
import ModuleBundler.Json.Value
import ModuleBundler.Path.Basic
import ModuleBundler.Text.CodeFrame

/-!
# Failures

Why a build, or one of its steps, fails.  A failure has a short message and a
detailed one; the detailed message of a resolution or of a compilation adds the
file, the place in it and a code frame, as far as they are known.

Main results:

- Theorem {lit}`Failure.detailed_of_context_empty`: without a context the
  detailed message is the short one.
-/

namespace ModuleBundler

/-! ## Faults of the file system -/

/-- Why the file system refuses an operation. -/
inductive FileFault where
  | notFound
  | alreadyExists
  | notDirectory
  | isDirectory
  | directoryNotEmpty
  | nameTooLong
  | tooManyLinks
  | invalidArgument
  /-- The content of a file is no UTF-8. -/
  | notText
  /-- A path holds the character NUL. -/
  | nulInPath
  | other (message : String)
deriving DecidableEq, Repr

namespace FileFault

/-- The fault in words. -/
def message : FileFault → String
  | notFound => "No such file or directory (os error 2)"
  | alreadyExists => "File exists (os error 17)"
  | notDirectory => "Not a directory (os error 20)"
  | isDirectory => "Is a directory (os error 21)"
  | directoryNotEmpty => "Directory not empty (os error 39)"
  | nameTooLong => "File name too long (os error 36)"
  | tooManyLinks => "Too many levels of symbolic links (os error 40)"
  | invalidArgument => "Invalid argument (os error 22)"
  | notText => "stream did not contain valid UTF-8"
  | nulInPath => "file name contained an unexpected NUL byte"
  | other message => message

end FileFault

/-! ## The context of a failure -/

/-- Where a failure arose, as far as it is known. -/
structure Context where
  file : Option Path := none
  place : Option Location := none
  frame : Option String := none
deriving DecidableEq, Repr, Inhabited

namespace Context

/-- The context that knows only the file. -/
def ofFile (file : Path) : Context :=
  ⟨some file, none, none⟩

/-- The context with a code frame, if its place is known. -/
def withSource (context : Context) (source : String) : Context :=
  match context.place with
  | some place => { context with frame := some (CodeFrame.render source place) }
  | none => context

/-- What the context adds to a message. -/
def describe (context : Context) : String :=
  (match context.file with
    | some file => "\n  File: " ++ file.text
    | none => "") ++
  (match context.place with
    | some place =>
      "\n  Location: line " ++ toString place.line ++ ", column " ++ toString place.column
    | none => "") ++
  (match context.frame with
    | some frame => "\n" ++ frame
    | none => "")

@[simp]
theorem describe_empty : describe ⟨none, none, none⟩ = "" := rfl

end Context

/-! ## Failures -/

/-- Why a pattern of text is refused. -/
inductive PatternFault where
  | malformed (message : String)
  | tooBig (limit : Nat)
deriving DecidableEq, Repr

namespace PatternFault

/-- The fault in words. -/
def message : PatternFault → String
  | malformed message => message
  | tooBig limit => "Compiled regex exceeds size limit of " ++ toString limit ++ " bytes."

end PatternFault

/-- Why a step of a build fails. -/
inductive Failure where
  | io (fault : FileFault)
  | moduleNotFound (specifier : String) (importer : Path)
  | resolution (specifier : String) (context : Context)
  | compile (message : String) (context : Option Context)
  | cache (message : String)
  | pool (message : String)
  | config (message : String)
  | build (message : String)
  | other (message : String)
deriving DecidableEq, Repr

namespace Failure

/-! ### Messages -/

/-- The failure in one line. -/
def message : Failure → String
  | io fault => "IO error: " ++ fault.message
  | moduleNotFound specifier importer =>
    "Cannot find module '" ++ specifier ++ "' from '" ++ importer.text ++ "'"
  | resolution specifier _ => "Cannot resolve dependency '" ++ specifier ++ "'"
  | compile message _ => "Compile error: " ++ message
  | cache message => "Cache error: " ++ message
  | pool message => "Worker pool error: " ++ message
  | config message => "Configuration error: " ++ message
  | build message => "Build error: " ++ message
  | other message => message

/-- Where the failure arose. -/
def context? : Failure → Option Context
  | resolution _ context => some context
  | compile _ context => context
  | _ => none

/-- The file that the failure is about. -/
def file? : Failure → Option Path
  | moduleNotFound _ importer => some importer
  | failure => failure.context?.bind Context.file

/-- The message with what is known about the place. -/
def detailed (failure : Failure) : String :=
  match failure.context? with
  | some context => failure.message ++ context.describe
  | none => failure.message

theorem detailed_of_context_empty {failure : Failure}
    (h : failure.context? = some ⟨none, none, none⟩) : failure.detailed = failure.message := by
  simp [detailed, h]

/-! ### In JSON -/

/-- The word for the cause of a failure. -/
def kind : Failure → String
  | io _ => "Io"
  | moduleNotFound _ _ => "ModuleNotFound"
  | resolution _ _ => "Resolution"
  | compile _ _ => "Compile"
  | cache _ => "Cache"
  | pool _ => "Pool"
  | config _ => "Config"
  | build _ => "Build"
  | other _ => "Other"

/-- A failure in JSON. -/
def toValue (failure : Failure) : Json.Value :=
  .table
    [("error", .text failure.kind), ("message", .text failure.message),
      ("detailed", .text failure.detailed),
      ("file", failure.file?.elim .null fun file => .text file.text)]

/-! ### Causes -/

/-- A text that should be JSON is not. -/
def invalidJson (fault : Json.Fault) : Failure :=
  config ("Invalid JSON: " ++ fault.message)

/-- A pattern is refused. -/
def pattern (fault : PatternFault) : Failure :=
  other ("Regex error: " ++ fault.message)

/-- Compiling the file fails with a message. -/
def compileIn (message : String) (file : Path) : Failure :=
  compile message (some (.ofFile file))

/-- Compiling the file fails at a place. -/
def compileAt (message : String) (file : Path) (place : Location) : Failure :=
  compile message (some ⟨some file, some place, none⟩)

end Failure
end ModuleBundler
