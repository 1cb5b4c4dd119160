/-!
# Paths

A path is a text that is read as a list of components: the root, the current
directory in front of a relative path, parent steps and names.  Repeated
slashes, inner dots and a slash at the end add nothing.  Two paths are the same
({lit}`==`) when their components are; the text a path was written with is kept,
because it is what is printed.

Main results:

- Theorem {lit}`Path.same_iff`: {lit}`==` compares components.
- Theorem {lit}`Path.beq_symm` and theorem {lit}`Path.beq_trans`: sameness is an
  equivalence.
-/

namespace ModuleBundler

/-- A component of a path. -/
inductive Component where
  /-- The root directory in front of an absolute path. -/
  | root
  /-- The dot in front of a relative path. -/
  | here
  /-- A step to the parent directory. -/
  | up
  /-- An ordinary name. -/
  | name (text : String)
deriving DecidableEq, Repr, Inhabited

namespace Component

/-- How a component is written. -/
def text : Component → String
  | root => "/"
  | here => "."
  | up => ".."
  | name text => text

/-- The order of the kinds of components. -/
def rank : Component → Nat
  | root => 0
  | here => 1
  | up => 2
  | name _ => 3

/-- Components are ordered by kind, names by their text. -/
def le (a b : Component) : Bool :=
  match a, b with
  | name s, name t => decide (s ≤ t)
  | a, b => decide (a.rank ≤ b.rank)

end Component

/-- A path, kept as it was written. -/
structure Path where
  text : String
deriving DecidableEq, Repr, Inhabited

namespace Path

/-! ## Components -/

/-- The pieces between slashes. -/
def segments (p : Path) : List String :=
  (p.text.toList.splitOn '/').map String.ofList

/-- Whether the path starts at the root. -/
def isAbsolute (p : Path) : Bool :=
  p.text.toList.head? == some '/'

/-- The component of a piece that is not in front of a relative path; empty pieces and dots have none. -/
def innerComponent? (segment : String) : Option Component :=
  if segment = "" ∨ segment = "." then none
  else if segment = ".." then some .up
  else some (.name segment)

/-- The components of a path. -/
def components (p : Path) : List Component :=
  match p.segments with
  | [] => []
  | first :: rest =>
    let inner := rest.filterMap innerComponent?
    if p.isAbsolute then .root :: inner
    else if first = "." then .here :: inner
    else (innerComponent? first).toList ++ inner

/-- Paths are the same when their components are. -/
instance : BEq Path where
  beq p q := p.components == q.components

theorem same_iff {p q : Path} : (p == q) = true ↔ p.components = q.components := by
  show (p.components == q.components) = true ↔ _
  exact beq_iff_eq

@[simp]
theorem beq_refl (p : Path) : (p == p) = true :=
  same_iff.2 rfl

theorem beq_symm {p q : Path} (h : (p == q) = true) : (q == p) = true :=
  same_iff.2 (same_iff.1 h).symm

theorem beq_trans {p q r : Path} (hpq : (p == q) = true) (hqr : (q == r) = true) : (p == r) = true :=
  same_iff.2 ((same_iff.1 hpq).trans (same_iff.1 hqr))

instance : EquivBEq Path where
  symm := beq_symm
  trans := beq_trans
  rfl := beq_refl _

/-- Whether one list of components comes before another or is equal to it. -/
def leComponents : List Component → List Component → Bool
  | [], _ => true
  | _ :: _, [] => false
  | a :: as, b :: bs => if a = b then leComponents as bs else a.le b

/-- The order of paths: component by component. -/
def le (p q : Path) : Bool :=
  leComponents p.components q.components

/-! ## Building paths -/

/-- The text of a list of components. -/
def textOf : List Component → String
  | .root :: rest => "/" ++ "/".intercalate (rest.map Component.text)
  | components => "/".intercalate (components.map Component.text)

/-- The path that is written with the given components. -/
def ofComponents (components : List Component) : Path :=
  ⟨textOf components⟩

/-- The path {lit}`q`, read from the directory {lit}`p`. -/
def join (p q : Path) : Path :=
  if q.isAbsolute then q
  else if p.text = "" ∨ p.text.toList.getLast? = some '/' then ⟨p.text ++ q.text⟩
  else ⟨p.text ++ "/" ++ q.text⟩

/-- {lit}`join` with a text. -/
def child (p : Path) (name : String) : Path :=
  p.join ⟨name⟩

/-! ## Taking paths apart -/

/-- Whether a piece at the end of a path can be left away. -/
def isIdle (segment : String) : Bool :=
  segment = "" || segment = "."

/-- The pieces up to the last one that stands for a component. -/
def trimSegments (segments : List String) : List String :=
  match segments with
  | [] => []
  | first :: rest =>
    match (rest.reverse.dropWhile isIdle).reverse with
    | [] => [first]
    | kept => first :: kept

/-- The text of pieces; the single empty piece in front of an absolute path is the root. -/
def textOfSegments : List String → String
  | [""] => "/"
  | segments => "/".intercalate segments

/-- The last component. -/
def lastComponent? (p : Path) : Option Component :=
  p.components.getLast?

/-- The last component, if it is a name. -/
def fileName? (p : Path) : Option String :=
  match p.lastComponent? with
  | some (.name text) => some text
  | _ => none

/-- The path without its last component; the root and the empty path have no parent. -/
def parent? (p : Path) : Option Path :=
  match p.lastComponent? with
  | none => none
  | some .root => none
  | some _ =>
    match (trimSegments p.segments).dropLast with
    | [] => some ⟨""⟩
    | kept => some ⟨textOfSegments (trimSegments kept)⟩

/-- A file name cut at its last dot; a dot in front belongs to the stem. -/
def splitName (fileName : String) : String × Option String :=
  let cs := fileName.toList
  if !cs.contains '.' then (fileName, none)
  else
    let extension := (cs.reverse.takeWhile (· != '.')).reverse
    let stem := cs.take (cs.length - extension.length - 1)
    if stem.isEmpty then (fileName, none)
    else (String.ofList stem, some (String.ofList extension))

/-- The file name without its extension. -/
def stem? (p : Path) : Option String :=
  p.fileName?.map fun fileName => (splitName fileName).1

/-- The part of the file name behind its last dot. -/
def extension? (p : Path) : Option String :=
  p.fileName?.bind fun fileName => (splitName fileName).2

/-- The path with another extension; the empty extension takes the old one away.  A path without a
file name stays as it is.  The old extension is cut off at the end of the text, up to its dot; if two
dots are left as the last piece, no name is there to extend any more. -/
def withExtension (p : Path) (extension : String) : Path :=
  match p.stem? with
  | none => p
  | some stem =>
    let fileName :=
      if stem = "." ∧ p.segments.getLast? = p.fileName? then ".."
      else if extension = "" then stem
      else stem ++ "." ++ extension
    ⟨"/".intercalate ((trimSegments p.segments).dropLast ++ [fileName])⟩

/-- The file name, or the whole text where there is none. -/
def basename (p : Path) : String :=
  p.fileName?.getD p.text

/-- The directories above a path, the nearest first; {lit}`fuel` bounds their number. -/
def ancestorsFrom : Nat → Path → List Path
  | 0, _ => []
  | fuel + 1, p =>
    match p.parent? with
    | none => []
    | some parent => parent :: ancestorsFrom fuel parent

/-- The directories above a path, the nearest first. -/
def ancestors (p : Path) : List Path :=
  ancestorsFrom (p.components.length + 1) p

/-- The extension in lower case, empty where there is none; {lit}`lower` is the case map. -/
def foldedExtension (lower : String → String) (p : Path) : String :=
  (p.extension?.map lower).getD ""

end Path
end ModuleBundler
