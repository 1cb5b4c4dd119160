import ModuleBundler.Cache.Persistent
import ModuleBundler.Digest.Blake3

/-!
# Where a persistent cache lies

A persistent cache has a directory of its own in the file tree.  It is loaded
from there when a build begins and saved when the build is over.  All records
stand in one file: their fingerprint, their number, then for every record its key
and its bytes.  A file that was changed by others does not have the right
fingerprint and is not used.

Main results:

- Theorem {lit}`Store.load_error`: a directory that cannot be made has no cache.
- Theorem {lit}`Store.decode_of_ne`: bytes without the right fingerprint hold no records.
-/

namespace ModuleBundler
namespace Cache
namespace Store

/-- The directory of the records. -/
def folder (directory : Path) : Path :=
  directory.child "units"

/-- The file of the records. -/
def file (directory : Path) : Path :=
  (folder directory).child "db"

/-- The number of bytes of a fingerprint. -/
def sealSize : Nat := 32

/-- The bytes of all records. -/
def encodeRecords (cache : Persistent) : List UInt8 :=
  Record.encodeList
    (fun entry => Record.encodeText entry.1 ++ Record.encodeList (fun byte => [byte]) entry.2)
    cache.records.entries

/-- The records that stand in a byte sequence. -/
def decodeRecords (bytes : List UInt8) : Option Persistent :=
  let decodeEntry : Record.Decoder (String × List UInt8) := do
    let key ← Record.decodeText
    return (key, ← Record.next .endOfText (← Record.decodeNat))
  match (Record.decodeList decodeEntry).run bytes with
  | .ok (entries, _) => some ⟨Table.ofList entries⟩
  | .error _ => none

/-- The bytes of a cache: the fingerprint of the records and the records. -/
def encode (cache : Persistent) : List UInt8 :=
  let bytes := encodeRecords cache
  Blake3.digest ⟨bytes.toArray⟩ ++ bytes

/-- The cache that stands in a byte sequence.  Without the right fingerprint there are no records. -/
def decode (bytes : List UInt8) : Persistent :=
  let records := bytes.drop sealSize
  if bytes.take sealSize = Blake3.digest ⟨records.toArray⟩ then (decodeRecords records).getD {}
  else {}

/-- The failure of a cache that cannot be loaded. -/
def refusal (directory : Path) (cause : String) : Failure :=
  .cache ("Failed to open cache at " ++ directory.text ++ ": " ++ cause)

/-- Load the cache of a directory, which is made if it is missing. -/
def load (tree : FileTree) (directory : Path) : FileTree × Except Failure Persistent :=
  match tree.makeDirectories directory with
  | (tree, .error fault) => (tree, .error (.io fault))
  | (tree, .ok ()) =>
    match tree.makeDirectories (folder directory) with
    | (tree, .error fault) =>
      let fault := if tree.isFile (folder directory) then FileFault.notDirectory else fault
      (tree, .error (refusal directory ("IO error: " ++ fault.message)))
    | (tree, .ok ()) =>
      match tree.readBytes (file directory) with
      | .error .notFound => (tree, .ok {})
      | .error fault => (tree, .error (refusal directory ("IO error: " ++ fault.message)))
      | .ok bytes => (tree, .ok (decode bytes.data.toList))

/-- Save a cache, unless its directory is gone. -/
def save (tree : FileTree) (directory : Path) (cache : Persistent) : FileTree :=
  if tree.isDirectory (folder directory) then
    (tree.writeBytes (file directory) ⟨(encode cache).toArray⟩).1
  else tree

theorem decode_of_ne {bytes : List UInt8}
    (h : bytes.take sealSize ≠ Blake3.digest ⟨(bytes.drop sealSize).toArray⟩) : decode bytes = {} := by
  simp [decode, h]

theorem load_error {tree changed : FileTree} {directory : Path} {fault : FileFault}
    (h : tree.makeDirectories directory = (changed, .error fault)) :
    load tree directory = (changed, .error (.io fault)) := by
  simp [load, h]

end Store
end Cache
end ModuleBundler
