import ModuleBundler.Asset.Unit
import ModuleBundler.Path.Basic
import ModuleBundler.Text.Utf8

/-!
# Cache records

The bytes that a cache keeps for a compiled unit: the files that it was made
from, with the times of their last changes, and the unit.  Numbers take eight
bytes, the lowest first; texts and lists start with their length; a value that
may be absent starts with one or zero.

Main results:

- Theorem {lit}`Record.takeBytes_append`: as many bytes are taken as are asked for.
- Theorem {lit}`Record.decodeFlag_encodeFlag`: a truth value reads back.
-/

namespace ModuleBundler
namespace Cache

/-- A compiled unit and the files that it was made from. -/
structure Record where
  /-- The files, with the times of their last changes in nanoseconds. -/
  inputs : List (Path × Nat)
  unit : CompiledUnit
deriving DecidableEq

/-- Why bytes are no record. -/
inductive Corruption where
  /-- The bytes end in front of a number or in it. -/
  | endOfNumber
  /-- The bytes end before a text is complete. -/
  | endOfText
  | notText (fault : Utf8.Fault)
  | notFlag (byte : UInt8)
  | notChoice (byte : UInt8)
deriving DecidableEq, Repr

namespace Corruption

/-- The corruption in words. -/
def message : Corruption → String
  | endOfNumber => "io error: unexpected end of file"
  | endOfText => "io error: "
  | notText fault => "string is not valid utf8: " ++ fault.message
  | notFlag byte =>
    "invalid u8 while decoding bool, expected 0 or 1, found " ++ toString byte.toNat
  | notChoice byte => "tag for enum is not valid, found " ++ toString byte.toNat

end Corruption

namespace Record

variable {α : Type}

/-! ## Encoding -/

/-- The lowest {lit}`width` bytes of a number, the lowest first. -/
def encodeBytes : (width : Nat) → Nat → List UInt8
  | 0, _ => []
  | width + 1, n => n.toUInt8 :: encodeBytes width (n / 256)

/-- A number in eight bytes. -/
def encodeNat (n : Nat) : List UInt8 :=
  encodeBytes 8 n

/-- The length of a text and its bytes. -/
def encodeText (s : String) : List UInt8 :=
  let bytes := s.toUTF8.toList
  encodeNat bytes.length ++ bytes

/-- A truth value in one byte. -/
def encodeFlag (flag : Bool) : List UInt8 :=
  [if flag then 1 else 0]

/-- One and a value, or zero. -/
def encodeOption (encode : α → List UInt8) : Option α → List UInt8
  | none => [0]
  | some a => 1 :: encode a

/-- The length of a list and its items. -/
def encodeList (encode : α → List UInt8) (items : List α) : List UInt8 :=
  encodeNat items.length ++ items.flatMap encode

/-- A place: its line and its column. -/
def encodePlace (place : Location) : List UInt8 :=
  encodeNat place.line ++ encodeNat place.column

/-- A dependency, field by field. -/
def encodeDependency (dep : Dependency) : List UInt8 :=
  encodeText dep.specifier ++ encodeFlag dep.dynamic ++ encodeFlag dep.inlined ++
    encodeOption encodePlace dep.place ++ encodeOption encodeText dep.media

/-- A compiled unit, field by field. -/
def encodeUnit (unit : CompiledUnit) : List UInt8 :=
  encodeList (fun entry => encodeText entry.1 ++ encodeText entry.2) unit.generated.entries ++
    encodeText unit.hash ++ encodeList encodeDependency unit.dependencies

/-- The bytes of a record. -/
def encode (record : Record) : List UInt8 :=
  encodeList (fun input => encodeText input.1.text ++ encodeNat input.2) record.inputs ++
    encodeUnit record.unit

/-! ## Decoding -/

/-- Reading a value from the front of a byte sequence. -/
abbrev Decoder (α : Type) := StateT (List UInt8) (Except Corruption) α

/-- The first bytes and the rest, if there are enough. -/
def takeBytes (count : Nat) (bytes : List UInt8) : Option (List UInt8 × List UInt8) :=
  let taken := bytes.take count
  if taken.length = count then some (taken, bytes.drop count) else none

theorem takeBytes_append (front rest : List UInt8) :
    takeBytes front.length (front ++ rest) = some (front, rest) := by
  simp [takeBytes]

/-- Take bytes from the front; {lit}`fault` is why there are not enough. -/
def next (fault : Corruption) (count : Nat) : Decoder (List UInt8) := do
  match takeBytes count (← get) with
  | some (taken, rest) =>
    set rest
    return taken
  | none => throw fault

/-- The number whose lowest byte comes first. -/
def valueOf (bytes : List UInt8) : Nat :=
  bytes.foldr (fun byte n => byte.toNat + 256 * n) 0

/-- Read a number. -/
def decodeNat : Decoder Nat := do
  return valueOf (← next .endOfNumber 8)

/-- Read one byte. -/
def decodeByte : Decoder UInt8 := do
  return (← next .endOfNumber 1).headD 0

/-- Read a text. -/
def decodeText : Decoder String := do
  let bytes ← next .endOfText (← decodeNat)
  match Utf8.decode ⟨bytes.toArray⟩ with
  | .ok text => return text
  | .error fault => throw (.notText fault)

/-- Read a truth value. -/
def decodeFlag : Decoder Bool := do
  let byte ← decodeByte
  if byte = 0 then return false
  else if byte = 1 then return true
  else throw (.notFlag byte)

/-- Read a value that may be absent. -/
def decodeOption (decode : Decoder α) : Decoder (Option α) := do
  let byte ← decodeByte
  if byte = 0 then return none
  else if byte = 1 then return some (← decode)
  else throw (.notChoice byte)

/-- Read a number of values. -/
def decodeMany (decode : Decoder α) : Nat → Decoder (List α)
  | 0 => return []
  | count + 1 => do
    let a ← decode
    return a :: (← decodeMany decode count)

/-- Read a list. -/
def decodeList (decode : Decoder α) : Decoder (List α) := do
  decodeMany decode (← decodeNat)

/-- Read a place. -/
def decodePlace : Decoder Location := do
  return ⟨← decodeNat, ← decodeNat⟩

/-- Read a dependency. -/
def decodeDependency : Decoder Dependency := do
  let specifier ← decodeText
  let dynamic ← decodeFlag
  let inlined ← decodeFlag
  let place ← decodeOption decodePlace
  let media ← decodeOption decodeText
  return { specifier, dynamic, inlined, place, media }

/-- Read a compiled unit. -/
def decodeUnit : Decoder CompiledUnit := do
  let generated ← decodeList (do return (← decodeText, ← decodeText))
  let hash ← decodeText
  let dependencies ← decodeList decodeDependency
  return ⟨Table.ofList generated, hash, dependencies⟩

/-- Read a record. -/
def decodeRecord : Decoder Record := do
  let inputs ← decodeList (do return ((⟨← decodeText⟩ : Path), ← decodeNat))
  return ⟨inputs, ← decodeUnit⟩

/-- The record at the front of a byte sequence; bytes behind it do not matter. -/
def decode (bytes : List UInt8) : Except Corruption Record :=
  (decodeRecord.run bytes).map (·.1)

theorem decodeFlag_encodeFlag (flag : Bool) (rest : List UInt8) :
    decodeFlag.run (encodeFlag flag ++ rest) = .ok (flag, rest) := by
  cases flag <;> rfl

end Record
end Cache
end ModuleBundler
