import ModuleBundler.Cache.Record

/-!
# Records read back

A record that was written down is read back as it was, provided that all its
numbers fit into the eight bytes that they take: the lengths of texts and lists,
the places of imports and the times of files.  A decoder that reads a value from
its bytes does so whatever stands behind them, so that decoders can be put
together as the encoders are.

Main results:

- Theorem {lit}`Record.reads_list`: a list is read back if its items are.
- Theorem {lit}`Record.decode_encode`: a record is read back.
-/

namespace ModuleBundler

/-! ## Texts as bytes -/

namespace Utf8

theorem toList_loop (bytes : ByteArray) (i : Nat) (front : List UInt8) :
    ByteArray.toList.loop bytes i front = front.reverse ++ bytes.data.toList.drop i := by
  fun_induction ByteArray.toList.loop bytes i front with
  | case1 i front h ih =>
    have hlt : i < bytes.data.size := h
    have hget : bytes.data.toList.drop i = bytes.get! i :: bytes.data.toList.drop (i + 1) := by
      rw [List.drop_eq_getElem_cons (by simpa using hlt)]
      simp [ByteArray.get!, getElem!_pos bytes.data i hlt]
    rw [ih, hget]
    simp
  | case2 i front h =>
    have hle : bytes.data.toList.length ≤ i := Nat.not_lt.1 h
    rw [List.drop_eq_nil_of_le hle, List.append_nil]

theorem toList_eq_data (bytes : ByteArray) : bytes.toList = bytes.data.toList :=
  (toList_loop bytes 0 []).trans (by simp)

theorem length_toUTF8 (s : String) : s.toUTF8.toList.length = s.utf8ByteSize := by
  rw [toList_eq_data]
  rfl

theorem fromUTF8?_toUTF8 (s : String) : String.fromUTF8? s.toUTF8 = some s := by
  have hvalid : s.toUTF8.IsValidUTF8 := s.isValidUTF8
  rw [String.fromUTF8?, dif_pos hvalid]
  rfl

theorem decode_toUTF8 (s : String) : decode ⟨s.toUTF8.toList.toArray⟩ = .ok s := by
  have hbytes : (⟨s.toUTF8.toList.toArray⟩ : ByteArray) = s.toUTF8 := by
    rw [toList_eq_data, Array.toArray_toList]
  rw [hbytes, decode, fromUTF8?_toUTF8]

theorem size_of_fromUTF8? {bytes : ByteArray} {s : String} (h : String.fromUTF8? bytes = some s) :
    s.utf8ByteSize = bytes.size := by
  unfold String.fromUTF8? at h
  split at h
  · cases h
    rfl
  · cases h

end Utf8

namespace Cache
namespace Record

variable {α β : Type}

/-! ## Decoders and their bytes -/

/-- Whether a value is read from its bytes, whatever stands behind them. -/
def Reads (decode : Decoder α) (bytes : List UInt8) (a : α) : Prop :=
  ∀ rest, decode.run (bytes ++ rest) = .ok (a, rest)

theorem reads_pure (a : α) : Reads (pure a) [] a := fun _ => rfl

theorem Reads.bind {decode : Decoder α} {next : α → Decoder β} {front back : List UInt8} {a : α} {b : β}
    (h : Reads decode front a) (hnext : Reads (next a) back b) :
    Reads (decode >>= next) (front ++ back) b := by
  intro rest
  have hrun := h (back ++ rest)
  simp only [StateT.run] at hrun
  simp only [StateT.run, List.append_assoc, Bind.bind, StateT.bind, hrun]
  exact hnext rest

/-- The last step of a decoder makes something of what was read. -/
theorem Reads.map {decode : Decoder α} {bytes : List UInt8} {a : α} (h : Reads decode bytes a)
    (f : α → β) : Reads (decode >>= fun a => pure (f a)) bytes (f a) := by
  have hbind : Reads (decode >>= fun a => pure (f a)) (bytes ++ []) (f a) := h.bind (reads_pure (f a))
  rwa [List.append_nil] at hbind

theorem reads_next (fault : Corruption) (bytes : List UInt8) :
    Reads (next fault bytes.length) bytes bytes := by
  intro rest
  simp only [next, StateT.run, bind, StateT.bind, Except.bind, get, getThe, MonadStateOf.get,
    StateT.get, pure, Except.pure, takeBytes_append]
  rfl

/-! ## Numbers and texts -/

/-- Whether a number fits into the eight bytes that it takes. -/
def IsWord (n : Nat) : Prop :=
  n < UInt64.size

theorem length_encodeBytes (width n : Nat) : (encodeBytes width n).length = width := by
  induction width generalizing n with
  | zero => rfl
  | succ width ih => simp [encodeBytes, ih]

theorem length_encodeNat (n : Nat) : (encodeNat n).length = 8 :=
  length_encodeBytes 8 n

theorem length_encodeText (s : String) : (encodeText s).length = 8 + s.utf8ByteSize := by
  rw [encodeText, List.length_append, length_encodeNat, Utf8.length_toUTF8]

theorem valueOf_encodeBytes {width n : Nat} (h : n < Nat.pow 256 width) :
    valueOf (encodeBytes width n) = n := by
  induction width generalizing n with
  | zero =>
    obtain rfl := Nat.lt_one_iff.1 h
    rfl
  | succ width ih =>
    have hdiv : n / 256 < Nat.pow 256 width :=
      Nat.div_lt_of_lt_mul (Nat.lt_of_lt_of_eq h (Nat.mul_comm _ _))
    have hrest := ih hdiv
    simp only [valueOf, encodeBytes, List.foldr_cons] at hrest ⊢
    rw [hrest, UInt8.toNat_ofNat']
    omega

theorem reads_nat {n : Nat} (h : IsWord n) : Reads decodeNat (encodeNat n) n := by
  have hnext := reads_next .endOfNumber (encodeNat n)
  rw [encodeNat, length_encodeBytes] at hnext
  have hmap := hnext.map valueOf
  rwa [valueOf_encodeBytes h] at hmap

theorem reads_byte (byte : UInt8) : Reads decodeByte [byte] byte :=
  (reads_next .endOfNumber [byte]).map fun bytes => bytes.headD 0

theorem reads_flag (flag : Bool) : Reads decodeFlag (encodeFlag flag) flag :=
  decodeFlag_encodeFlag flag

theorem reads_text {s : String} (h : IsWord s.utf8ByteSize) : Reads decodeText (encodeText s) s := by
  refine (reads_nat (by rwa [Utf8.length_toUTF8])).bind ?_
  conv => arg 2; rw [← List.append_nil s.toUTF8.toList]
  refine (reads_next .endOfText _).bind ?_
  rw [Utf8.decode_toUTF8]
  exact reads_pure s

/-! ## Values that may be absent, and lists -/

theorem reads_option {decode : Decoder α} {encode : α → List UInt8} {value : Option α}
    (h : ∀ a, value = some a → Reads decode (encode a) a) :
    Reads (decodeOption decode) (encodeOption encode value) value := by
  cases value with
  | none => exact show Reads _ ([0] ++ []) none from (reads_byte 0).bind (reads_pure none)
  | some a => exact (reads_byte 1).bind ((h a rfl).map some)

theorem reads_many {decode : Decoder α} {encode : α → List UInt8} {items : List α}
    (h : ∀ a ∈ items, Reads decode (encode a) a) :
    Reads (decodeMany decode items.length) (items.flatMap encode) items := by
  induction items with
  | nil => exact reads_pure []
  | cons a rest ih =>
    rw [List.forall_mem_cons] at h
    exact h.1.bind ((ih h.2).map fun rest => a :: rest)

theorem reads_list {decode : Decoder α} {encode : α → List UInt8} {items : List α}
    (hlength : IsWord items.length) (h : ∀ a ∈ items, Reads decode (encode a) a) :
    Reads (decodeList decode) (encodeList encode items) items :=
  (reads_nat hlength).bind (reads_many h)

end Record
end Cache

/-! ## Units and records -/

/-- Whether the numbers that a dependency is written down with fit. -/
structure Dependency.IsWritable (dep : Dependency) : Prop where
  specifier : Cache.Record.IsWord dep.specifier.utf8ByteSize
  place : ∀ place, dep.place = some place →
    Cache.Record.IsWord place.line ∧ Cache.Record.IsWord place.column
  media : ∀ media, dep.media = some media → Cache.Record.IsWord media.utf8ByteSize

/-- Whether the numbers that a unit is written down with fit. -/
structure CompiledUnit.IsWritable (unit : CompiledUnit) : Prop where
  outputs : Cache.Record.IsWord unit.generated.entries.length
  texts : ∀ entry ∈ unit.generated.entries,
    Cache.Record.IsWord entry.1.utf8ByteSize ∧ Cache.Record.IsWord entry.2.utf8ByteSize
  hash : Cache.Record.IsWord unit.hash.utf8ByteSize
  imports : Cache.Record.IsWord unit.dependencies.length
  dependencies : ∀ dep ∈ unit.dependencies, dep.IsWritable

namespace Cache
namespace Record

/-- Whether the numbers that a record is written down with fit. -/
structure IsWritable (record : Record) : Prop where
  files : IsWord record.inputs.length
  inputs : ∀ input ∈ record.inputs, IsWord input.1.text.utf8ByteSize ∧ IsWord input.2
  unit : record.unit.IsWritable

theorem reads_place {place : Location} (hline : IsWord place.line) (hcolumn : IsWord place.column) :
    Reads decodePlace (encodePlace place) place :=
  (reads_nat hline).bind ((reads_nat hcolumn).map (β := Location) fun column => ⟨place.line, column⟩)

theorem reads_dependency {dep : Dependency} (h : dep.IsWritable) :
    Reads decodeDependency (encodeDependency dep) dep := by
  have hplace : Reads (decodeOption decodePlace) (encodeOption encodePlace dep.place) dep.place :=
    reads_option fun place hsome => reads_place (h.place place hsome).1 (h.place place hsome).2
  have hmedia : Reads (decodeOption decodeText) (encodeOption encodeText dep.media) dep.media :=
    reads_option fun media hsome => reads_text (h.media media hsome)
  unfold encodeDependency
  simp only [List.append_assoc]
  exact (reads_text h.specifier).bind <| (reads_flag dep.dynamic).bind <|
    (reads_flag dep.inlined).bind <| hplace.bind <| hmedia.map fun media => { dep with media }

/-- The entries of a table are read back one by one. -/
theorem reads_entries {entries : List (String × String)} (hlength : IsWord entries.length)
    (h : ∀ entry ∈ entries, IsWord entry.1.utf8ByteSize ∧ IsWord entry.2.utf8ByteSize) :
    Reads (decodeList (do return (← decodeText, ← decodeText)))
      (encodeList (fun entry => encodeText entry.1 ++ encodeText entry.2) entries) entries := by
  refine reads_list hlength fun entry hmem => ?_
  exact (reads_text (h entry hmem).1).bind ((reads_text (h entry hmem).2).map fun text => (entry.1, text))

theorem reads_unit {unit : CompiledUnit} (h : unit.IsWritable) :
    Reads decodeUnit (encodeUnit unit) unit := by
  have hdependencies : Reads (decodeList decodeDependency)
      (encodeList encodeDependency unit.dependencies) unit.dependencies :=
    reads_list h.imports fun dep hmem => reads_dependency (h.dependencies dep hmem)
  have hunit : Reads decodeUnit (encodeUnit unit)
      ⟨Table.ofList unit.generated.entries, unit.hash, unit.dependencies⟩ := by
    unfold encodeUnit decodeUnit
    rw [List.append_assoc]
    refine (reads_entries h.outputs h.texts).bind ?_
    refine (reads_text h.hash).bind ?_
    exact hdependencies.map fun dependencies =>
      (⟨Table.ofList unit.generated.entries, unit.hash, dependencies⟩ : CompiledUnit)
  rwa [Table.ofList_entries] at hunit

theorem reads_inputs {inputs : List (Path × Nat)} (hlength : IsWord inputs.length)
    (h : ∀ input ∈ inputs, IsWord input.1.text.utf8ByteSize ∧ IsWord input.2) :
    Reads (decodeList (do return ((⟨← decodeText⟩ : Path), ← decodeNat)))
      (encodeList (fun input => encodeText input.1.text ++ encodeNat input.2) inputs) inputs := by
  refine reads_list hlength fun input hmem => ?_
  exact (reads_text (h input hmem).1).bind ((reads_nat (h input hmem).2).map fun time => (input.1, time))

theorem reads_record {record : Record} (h : record.IsWritable) :
    Reads decodeRecord (encode record) record := by
  unfold encode decodeRecord
  refine (reads_inputs h.files h.inputs).bind ?_
  exact (reads_unit h.unit).map fun unit => (⟨record.inputs, unit⟩ : Record)

/-- A record that was written down is read back. -/
theorem decode_encode {record : Record} (h : record.IsWritable) :
    decode (encode record) = .ok record := by
  have hrun := reads_record h []
  rw [List.append_nil] at hrun
  rw [decode, hrun]
  rfl

end Record
end Cache
end ModuleBundler
