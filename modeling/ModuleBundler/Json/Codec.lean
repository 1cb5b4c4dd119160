import ModuleBundler.Json.Content
import ModuleBundler.Json.Decode
import ModuleBundler.Json.Write

/-!
# Codecs

A codec says how the values of a type stand in JSON: how they are read from a
text, how they are decoded from a value that was read already, and how they are
written.  A record can be written as a table with its field names, in any order
and among other members, or as a list of its fields in their order.

Main results:

- Theorem {lit}`Json.Record.fieldNamed?_name`: a field that is found has the name asked for.
-/

namespace ModuleBundler
namespace Json

variable {α β : Type}

/-- How the values of a type stand in JSON. -/
structure Codec (α : Type) where
  read : Reader α
  decode : Decoder α
  write : α → Value

namespace Codec

/-- Texts, which faults call {lit}`expected`. -/
def text (expected : String) : Codec String :=
  ⟨Reader.text expected, Value.toText expected, .text⟩

/-- Truth values. -/
def flag : Codec Bool :=
  ⟨Reader.flag, Value.toFlag, .flag⟩

/-- Natural numbers up to {lit}`most`, which faults call {lit}`expected`. -/
def natural (most : Nat) (expected : String) : Codec Nat :=
  ⟨Reader.natural most expected, Value.toNatural most expected, fun n => .whole n⟩

/-- Values that may be absent. -/
def optional (codec : Codec α) : Codec (Option α) where
  read := Reader.optional codec.read
  decode := Value.toOption codec.decode
  write
    | none => .null
    | some a => codec.write a

/-- Lists. -/
def list (codec : Codec α) : Codec (List α) where
  read := Reader.list codec.read
  decode := Value.toItems codec.decode
  write items := .list (items.map codec.write)

/-- Tables. -/
def tableOf (codec : Codec α) : Codec (Table α) where
  read := Reader.tableOf codec.read
  decode := Value.toTable codec.decode
  write table := .table ((table.map codec.write).entries)

/-- Another type with the same values. -/
def iso (into : α → β) (back : β → α) (codec : Codec α) : Codec β where
  read := into <$> codec.read
  decode value := into <$> codec.decode value
  write b := codec.write (back b)

/-- Read a whole text. -/
def parse (codec : Codec α) (text : String) : Except Fault α :=
  Reader.all codec.read text

/-- The compact text of a value. -/
def render (codec : Codec α) (a : α) : String :=
  (codec.write a).render

end Codec

/-! ## Records -/

/-- A field of a record. -/
structure Field (α : Type) : Type 1 where
  /-- The type of the field's values. -/
  Content : Type
  name : String
  /-- Whether the field has to be given. -/
  required : Bool
  codec : Codec Content
  get : α → Content
  put : Content → α → α

/-- The shape of a record; fields that are not given keep what {lit}`start` has there. -/
structure Record (α : Type) : Type 1 where
  /-- What faults call the record. -/
  title : String
  start : α
  fields : List (Field α)

namespace Record

/-- The field with the given name. -/
def fieldNamed? (record : Record α) (name : String) : Option (Field α) :=
  record.fields.find? fun field => field.name == name

theorem fieldNamed?_name {record : Record α} {name : String} {field : Field α}
    (h : record.fieldNamed? name = some field) : field.name = name := by
  simpa [fieldNamed?] using List.find?_some h

/-- A count of items in words. -/
def countText (count : Nat) : String :=
  toString count ++ if count = 1 then " element" else " elements"

/-- What a list with too few items should have been. -/
def lengthText (record : Record α) : String :=
  record.title ++ " with " ++ countText record.fields.length

/-- The first required field that is not among the given ones. -/
def missing? (record : Record α) (given : List String) : Option (Field α) :=
  record.fields.find? fun field => field.required && !given.contains field.name

/-! ### Reading -/

/-- Read the fields as the members of a table. -/
def readMembers (record : Record α) : Reader α := do
  let (given, a) ← Reader.repeatFrom (true, ([] : List String), record.start)
    fun (first, given, a) => do
      if ← Reader.hasMember first then
        let name ← Reader.key
        match record.fieldNamed? name with
        | some field =>
          if given.contains name then Reader.fail (.duplicateField name)
          else
            Reader.colon
            return .inl (false, name :: given, field.put (← field.codec.read) a)
        | none =>
          Reader.colon
          Reader.skipValue
          return .inl (false, given, a)
      else
        return .inr (given, a)
  match record.missing? given with
  | some field => Reader.fail (.missingField field.name)
  | none => return a

/-- Read the fields from {lit}`index` on as the items of a list. -/
def readItems (record : Record α) : (index : Nat) → (fields : List (Field α)) → α → Reader α
  | _, [], a => return a
  | index, field :: rest, a => do
    if ← Reader.hasItem (index = 0) then
      readItems record (index + 1) rest (field.put (← field.codec.read) a)
    else if field.required then
      Reader.fail (.invalidLength index record.lengthText)
    else
      readItems record index rest a

/-- Read a record. -/
def read (record : Record α) : Reader α := do
  match ← Reader.peekToken with
  | none => Reader.failNext .endInValue
  | some c =>
    if c = '[' then
      Reader.located <| Reader.ended
        (do
          Reader.skip
          record.readItems 0 record.fields record.start)
        Reader.endList
    else if c = '\x7b' then
      Reader.located <| Reader.ended
        (do
          Reader.skip
          record.readMembers)
        Reader.endTable
    else
      Reader.mismatch record.title

/-! ### Decoding -/

/-- Decode the members of a table. -/
def decodeMembers (record : Record α) :
    (given : List String) → α → List (String × Value) → Except Reason α
  | given, a, [] =>
    match record.missing? given with
    | some field => .error (.missingField field.name)
    | none => .ok a
  | given, a, (name, value) :: rest =>
    match record.fieldNamed? name with
    | some field =>
      if given.contains name then .error (.duplicateField name)
      else do
        let content ← field.codec.decode value
        record.decodeMembers (name :: given) (field.put content a) rest
    | none => record.decodeMembers given a rest

/-- Decode the items of a list as the fields from {lit}`index` on. -/
def decodeItems (record : Record α) :
    (index : Nat) → (fields : List (Field α)) → α → List Value → Except Reason α
  | _, [], a, [] => .ok a
  | index, [], _, rest@(_ :: _) =>
    .error (.invalidLength (index + rest.length) (countText index ++ " in sequence"))
  | index, field :: fields, a, [] =>
    if field.required then .error (.invalidLength index record.lengthText)
    else record.decodeItems index fields a []
  | index, field :: fields, a, value :: rest => do
    let content ← field.codec.decode value
    record.decodeItems (index + 1) fields (field.put content a) rest

/-- Decode a record. -/
def decode (record : Record α) : Decoder α
  | .table members => record.decodeMembers [] record.start members
  | .list items => record.decodeItems 0 record.fields record.start items
  | value => value.mismatch record.title

/-- The members of a record. -/
def members (record : Record α) (a : α) : List (String × Value) :=
  record.fields.map fun field => (field.name, field.codec.write (field.get a))

/-- The codec of a record. -/
def codec (record : Record α) : Codec α :=
  ⟨record.read, record.decode, fun a => .table (record.members a)⟩

end Record

/-! ## Unions -/

/-- A member of a union of records: what remains of its table, or of its list, behind the tag. -/
structure Variant (α : Type) where
  tag : String
  decode : Decoder α

/-- A union of records that a member of the table, or the first item of the list, tells apart. -/
structure Union (α : Type) where
  /-- What faults call the union. -/
  title : String
  /-- The name of the member that holds the tag. -/
  tagName : String
  variants : List (Variant α)
  /-- The tag of a value and its other members. -/
  write : α → String × List (String × Value)

namespace Union

/-- Read a tag: the variant it names. -/
def readTag (union : Union α) : Reader (Variant α) := do
  match ← Reader.peekToken with
  | none => Reader.failNext .endInValue
  | some '"' =>
    Reader.located do
      Reader.skip
      let tag ← Reader.textBody
      match union.variants.find? fun variant => variant.tag == tag with
      | some variant => return variant
      | none => Reader.fail (.unknownVariant tag (union.variants.map Variant.tag))
  | some _ => Reader.mismatch "variant identifier"

/-- Read the tag and the other members of a table. -/
def readMembers (union : Union α) : Reader (Variant α × Value) := do
  let (variant, members) ←
    Reader.repeatFrom (true, (none : Option (Variant α)), ([] : List (String × Value)))
      fun (first, variant, members) => do
        if ← Reader.hasMember first then
          let name ← Reader.key
          if name = union.tagName then
            if variant.isSome then Reader.fail (.duplicateField name)
            else
              Reader.colon
              return .inl (false, some (← union.readTag), members)
          else
            Reader.colon
            return .inl (false, variant, (name, ← Reader.value (Reader.maxDepth - 1)) :: members)
        else
          return .inr (variant, members.reverse)
  match variant with
  | some variant => return (variant, .table members)
  | none => Reader.fail (.missingField union.tagName)

/-- Read the tag and the other items of a list. -/
def readItems (union : Union α) : Reader (Variant α × Value) := do
  if ← Reader.hasItem true then
    let variant ← union.readTag
    let items ← Reader.repeatFrom ([] : List Value) fun items => do
      if ← Reader.hasItem false then
        return .inl ((← Reader.value (Reader.maxDepth - 1)) :: items)
      else return .inr items.reverse
    return (variant, .list items)
  else
    Reader.fail (.missingField union.tagName)

/-- Read the tag and what it stands beside. -/
def readParts (union : Union α) : Reader (Variant α × Value) := do
  match ← Reader.peekToken with
  | none => Reader.failNext .endInValue
  | some c =>
    if c = '[' then
      Reader.located <| Reader.ended
        (do
          Reader.skip
          union.readItems)
        Reader.endList
    else if c = '\x7b' then
      Reader.located <| Reader.ended
        (do
          Reader.skip
          union.readMembers)
        Reader.endTable
    else
      Reader.mismatch union.title

/-- Read a member of the union; faults behind the tag have no place. -/
def read (union : Union α) : Reader α := do
  let (variant, value) ← union.readParts
  match variant.decode value with
  | .ok a => return a
  | .error reason => Reader.fail reason

/-- The value of a member of the union, the tag in front. -/
def toValue (union : Union α) (a : α) : Value :=
  let (tag, members) := union.write a
  .table ((union.tagName, .text tag) :: members)

/-- Read a whole text as a member of the union. -/
def parse (union : Union α) (text : String) : Except Fault α :=
  Reader.all union.read text

/-- The compact text of a member of the union. -/
def render (union : Union α) (a : α) : String :=
  (union.toValue a).render

end Union

end Json
end ModuleBundler
