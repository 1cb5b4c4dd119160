import ModuleBundler.Cache.Store
import ModuleBundler.Proofs.Cache.Encoding
import ModuleBundler.Proofs.FileTree.Writing

/-!
# Stores read back

The file of a persistent cache gives back the cache that was written to it, as
long as its bytes can be counted with eight bytes.  The fingerprint in front of
the records is their own, so that they are accepted.

Main results:

- Theorem {lit}`Store.decode_encode`: a cache is read back from its bytes.
- Theorem {lit}`Store.load_save`: a cache that was saved is loaded again.
-/

namespace ModuleBundler
namespace Cache
namespace Store

open Record (IsWord Reads)

/-! ## Sizes -/

theorem length_digest (input : ByteArray) : (Blake3.digest input).length = sealSize := by
  unfold Blake3.digest
  generalize (Blake3.root _ _).compress Blake3.rootNode = words
  have hmap : words.toList.map (fun word => (Blake3.wordBytes word).length) = List.replicate 8 4 := by
    rw [List.eq_replicate_iff]
    simp [Blake3.wordBytes]
  rw [List.length_flatMap, hmap]
  rfl

/-- An item takes no more bytes than the list it stands in. -/
theorem length_le_flatMap {α : Type} {f : α → List UInt8} {items : List α} {a : α} (h : a ∈ items) :
    (f a).length ≤ (items.flatMap f).length := by
  obtain ⟨front, back, rfl⟩ := List.append_of_mem h
  simp only [List.flatMap_append, List.flatMap_cons, List.length_append]
  omega

/-- A list whose items take bytes takes at least one for each of them. -/
theorem length_le_length_flatMap {α : Type} {f : α → List UInt8} (h : ∀ a, 0 < (f a).length)
    (items : List α) : items.length ≤ (items.flatMap f).length := by
  induction items with
  | nil => exact Nat.le_refl _
  | cons a rest ih =>
    have hpos := h a
    rw [List.flatMap_cons, List.length_append, List.length_cons]
    omega

/-- The bytes of an entry: its key and the bytes of its record. -/
def encodeEntry (entry : String × List UInt8) : List UInt8 :=
  Record.encodeText entry.1 ++ Record.encodeList (fun byte => [byte]) entry.2

theorem length_encodeEntry (entry : String × List UInt8) :
    (encodeEntry entry).length = 16 + entry.1.utf8ByteSize + entry.2.length := by
  rw [encodeEntry, Record.encodeList, List.flatMap_singleton', List.length_append, List.length_append,
    Record.length_encodeText, Record.length_encodeNat]
  omega

theorem encodeRecords_eq (cache : Persistent) :
    encodeRecords cache = Record.encodeList encodeEntry cache.records.entries := rfl

/-- Where all bytes can be counted, so can the records, their keys and their bytes. -/
theorem isWord_of_encodeRecords {cache : Persistent} (h : IsWord (encodeRecords cache).length) :
    IsWord cache.records.entries.length ∧
      ∀ entry ∈ cache.records.entries, IsWord entry.1.utf8ByteSize ∧ IsWord entry.2.length := by
  have hle : (cache.records.entries.flatMap encodeEntry).length ≤ (encodeRecords cache).length := by
    rw [encodeRecords_eq, Record.encodeList, List.length_append]
    exact Nat.le_add_left _ _
  have hcount := length_le_length_flatMap (f := encodeEntry)
    (fun entry => by rw [length_encodeEntry]; omega) cache.records.entries
  refine ⟨Nat.lt_of_le_of_lt (Nat.le_trans hcount hle) h, fun entry hmem => ?_⟩
  have hentry := Nat.le_trans (length_le_flatMap (f := encodeEntry) hmem) hle
  rw [length_encodeEntry] at hentry
  unfold IsWord at h ⊢
  omega

/-! ## Reading back -/

theorem reads_entries {entries : List (String × List UInt8)} (hlength : IsWord entries.length)
    (h : ∀ entry ∈ entries, IsWord entry.1.utf8ByteSize ∧ IsWord entry.2.length) :
    Reads (Record.decodeList do
        let key ← Record.decodeText
        return (key, ← Record.next .endOfText (← Record.decodeNat)))
      (Record.encodeList encodeEntry entries) entries := by
  refine Record.reads_list hlength fun entry hmem => ?_
  refine (Record.reads_text (h entry hmem).1).bind ?_
  rw [Record.encodeList, List.flatMap_singleton']
  exact (Record.reads_nat (h entry hmem).2).bind
    ((Record.reads_next .endOfText entry.2).map fun bytes => (entry.1, bytes))

theorem decodeRecords_encodeRecords {cache : Persistent} (h : IsWord (encodeRecords cache).length) :
    decodeRecords (encodeRecords cache) = some cache := by
  obtain ⟨hcount, hentries⟩ := isWord_of_encodeRecords h
  have hrun := reads_entries hcount hentries []
  rw [List.append_nil] at hrun
  unfold decodeRecords
  dsimp only
  rw [encodeRecords_eq, hrun]
  dsimp only
  rw [Table.ofList_entries]

/-- A cache is read back from its bytes. -/
theorem decode_encode {cache : Persistent} (h : IsWord (encodeRecords cache).length) :
    decode (encode cache) = cache := by
  have htake : (encode cache).take sealSize = Blake3.digest ⟨(encodeRecords cache).toArray⟩ :=
    List.take_left' (length_digest _)
  have hdrop : (encode cache).drop sealSize = encodeRecords cache := List.drop_left' (length_digest _)
  rw [decode, hdrop, if_pos htake, decodeRecords_encodeRecords h]
  rfl

/-! ## The directory -/

/-- Whether the cache of a directory is the same after a change of the tree, unless it is lost. -/
def Spares (directory : Path) (before after : FileTree) : Prop :=
  ∀ cache, (load after directory).2 = .ok cache → cache = {} ∨ (load before directory).2 = .ok cache

/-- A directory without a file of records has an empty cache. -/
theorem load_of_missing {tree : FileTree} {directory : Path} (hdirectory : tree.isDirectory directory = true)
    (hfolder : tree.isDirectory (folder directory) = true)
    (hmissing : tree.readBytes (file directory) = .error .notFound) :
    load tree directory = (tree, .ok {}) := by
  unfold load
  rw [FileTree.makeDirectories_of_isDirectory hdirectory]
  dsimp only
  rw [FileTree.makeDirectories_of_isDirectory hfolder]
  dsimp only
  rw [hmissing]

/-- A cache is loaded from the bytes in its file. -/
theorem load_of_readBytes {tree : FileTree} {directory : Path} {cache : Persistent}
    (hdirectory : tree.isDirectory directory = true) (hfolder : tree.isDirectory (folder directory) = true)
    (hsize : IsWord (encodeRecords cache).length)
    (hread : tree.readBytes (file directory) = .ok ⟨(encode cache).toArray⟩) :
    load tree directory = (tree, .ok cache) := by
  unfold load
  rw [FileTree.makeDirectories_of_isDirectory hdirectory]
  dsimp only
  rw [FileTree.makeDirectories_of_isDirectory hfolder]
  dsimp only
  rw [hread]
  dsimp only
  rw [decode_encode hsize]

/-- What can be loaded at all stands in the file of the records. -/
theorem eq_of_load {tree : FileTree} {directory : Path} {cache kept : Persistent}
    (hsize : IsWord (encodeRecords cache).length)
    (hread : tree.readBytes (file directory) = .ok ⟨(encode cache).toArray⟩)
    (hload : (load tree directory).2 = .ok kept) : kept = cache := by
  have hmade := FileTree.readBytes_makeDirectories hread (p := directory)
  unfold load at hload
  generalize tree.makeDirectories directory = made at hmade hload
  obtain ⟨made, result⟩ := made
  cases result with
  | error fault => cases hload
  | ok =>
    have hfolder := FileTree.readBytes_makeDirectories hmade (p := folder directory)
    dsimp only at hfolder hload
    generalize made.makeDirectories (folder directory) = last at hfolder hload
    obtain ⟨last, result⟩ := last
    cases result with
    | error fault => cases hload
    | ok =>
      dsimp only at hfolder hload
      rw [hfolder] at hload
      cases hload
      exact decode_encode hsize

/-- A cache that was saved is loaded again; where its file could not be written, what was there before is. -/
theorem load_save {tree : FileTree} {directory : Path} {cache kept : Persistent}
    (hsize : IsWord (encodeRecords cache).length)
    (hload : (load (save tree directory cache) directory).2 = .ok kept) :
    kept = cache ∨ (load tree directory).2 = .ok kept := by
  unfold save at hload
  split at hload
  · cases hwrite : tree.writeBytes (file directory) ⟨(encode cache).toArray⟩ with
    | mk after result =>
      rw [hwrite] at hload
      cases result with
      | error fault =>
        rw [FileTree.writeBytes_error hwrite] at hload
        exact .inr hload
      | ok => exact .inl (eq_of_load hsize (FileTree.readBytes_writeBytes hwrite) hload)
  · exact .inr hload

end Store
end Cache
end ModuleBundler
