import ModuleBundler.Asset.Kind
import ModuleBundler.Failure
import ModuleBundler.Path.Codec

/-!
# Live update messages

What is sent to the pages that show a build: the assets that a pass changed, or
the failure of a pass.

Main results:

- Theorem {lit}`Message.ofFailure_text`: a failure is sent with its short message.
-/

namespace ModuleBundler
namespace LiveUpdate

/-- An asset as it is sent: its output and where its imports lead. -/
structure UpdatedAsset where
  id : Path
  kind : Kind
  generated : Table String
  /-- The identity of the imported module for every specifier. -/
  deps : Table Path
deriving DecidableEq, Repr, Inhabited

namespace UpdatedAsset

/-- How an updated asset stands in JSON. -/
def record : Json.Record UpdatedAsset where
  title := "struct HmrAsset"
  start := ⟨⟨""⟩, ⟨""⟩, .empty, .empty⟩
  fields :=
    [⟨Path, "id", true, Path.codec,
        UpdatedAsset.id, fun id asset => { asset with id }⟩,
     ⟨Kind, "kind", true, Kind.codec,
        UpdatedAsset.kind, fun kind asset => { asset with kind }⟩,
     ⟨Table String, "generated", true, .tableOf (.text "a string"),
        UpdatedAsset.generated, fun generated asset => { asset with generated }⟩,
     ⟨Table Path, "deps", true, .tableOf Path.codec,
        UpdatedAsset.deps, fun deps asset => { asset with deps }⟩]

end UpdatedAsset

/-- What is sent about a failed pass. -/
structure Alert where
  message : String
  file : Option Path
  stack : Option String
deriving DecidableEq, Repr

namespace Alert

/-- How an alert stands in JSON. -/
def record : Json.Record Alert where
  title := "struct variant HmrMessage::Error"
  start := ⟨"", none, none⟩
  fields :=
    [⟨String, "message", true, .text "a string",
        Alert.message, fun message alert => { alert with message }⟩,
     ⟨Option Path, "file", false, .optional Path.codec,
        Alert.file, fun file alert => { alert with file }⟩,
     ⟨Option String, "stack", false, .optional (.text "a string"),
        Alert.stack, fun stack alert => { alert with stack }⟩]

end Alert

/-- A live update message. -/
inductive Message where
  | update (assets : List UpdatedAsset)
  | error (alert : Alert)
deriving DecidableEq, Repr

namespace Message

/-- The message about a failure. -/
def ofFailure (failure : Failure) : Message :=
  error ⟨failure.message, failure.file?, some failure.detailed⟩

theorem ofFailure_text (failure : Failure) :
    ∃ file stack, ofFailure failure = error ⟨failure.message, file, stack⟩ :=
  ⟨_, _, rfl⟩

/-- The members of an update. -/
def updateRecord : Json.Record (List UpdatedAsset) where
  title := "struct variant HmrMessage::Update"
  start := []
  fields :=
    [⟨List UpdatedAsset, "assets", true, .list UpdatedAsset.record.codec, id, fun assets _ => assets⟩]

/-- How a message stands in JSON. -/
def union : Json.Union Message where
  title := "internally tagged enum HmrMessage"
  tagName := "type"
  variants :=
    [⟨"update", fun value => (updateRecord.decode value).map update⟩,
     ⟨"error", fun value => (Alert.record.decode value).map error⟩]
  write
    | update assets => ("update", updateRecord.members assets)
    | error alert => ("error", Alert.record.members alert)

end Message
end LiveUpdate
end ModuleBundler
