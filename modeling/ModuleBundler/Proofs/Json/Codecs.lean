import ModuleBundler.Json.Codec
import ModuleBundler.Proofs.Json.Values

/-!
# Codecs that keep what they write

A codec carries a value if the text that it writes for it can be read and
decoded again.  Codecs for texts, numbers, options, lists and tables keep what
they are given; a record carries its fields to wherever it puts them; a union is
told by its tag.

Main results:

- Theorem {lit}`Json.Record.carries`: a record comes back with every field put in its place.
- Theorem {lit}`Json.Union.parse_render`: a member of a union comes back from its text.
- Theorem {lit}`Json.Codec.Carries.parse_render`: what a codec carries comes back from its text.
-/

namespace ModuleBundler
namespace Json

variable {α β : Type} {depth : Nat}

namespace Codec

/-- What the codec writes for {lit}`a` stands for {lit}`b`, both as text and as a value, and opens
at most {lit}`depth` brackets. -/
structure Carries (codec : Codec α) (depth : Nat) (a b : α) : Prop where
  fits : (codec.write a).Fits depth
  reads : ∀ after, Follows after → Reads codec.read (codec.write a).chars b after
  decodes : codec.decode (codec.write a) = .ok b

/-- The codec gives back what it is given. -/
abbrev Keeps (codec : Codec α) (depth : Nat) (a : α) : Prop :=
  codec.Carries depth a a

theorem Carries.parse_render {codec : Codec α} {a b : α} (h : codec.Carries depth a b) :
    codec.parse (codec.render a) = .ok b := by
  refine Reads.all ?_
  rw [Codec.render, Value.render, String.toList_ofList]
  exact h.reads [] follows_nil

/-! ## Scalars -/

theorem keeps_text (expected s : String) : (text expected).Keeps depth s where
  fits := Value.fits_text s
  reads after _ := .peekToken_bind (by simp [StartsToken, text, Value.chars, quote, Reader.isSpace])
    (.skip_bind (reads_textBody s))
  decodes := rfl

theorem keeps_flag (b : Bool) : flag.Keeps depth b where
  fits := Value.fits_flag b
  reads after _ := by
    cases b <;>
    · refine .peekToken_bind (by simp [StartsToken, flag, Value.chars, Reader.isSpace]) ?_
      exact .skip_bind ((reads_ident _).bind_last (.pure _))
  decodes := rfl

theorem keeps_natural {n most : Nat} (hn : n ≤ most) (hmost : most ≤ Reader.maxWhole) (expected : String) :
    (natural most expected).Keeps depth n where
  fits := Value.fits_whole (Nat.le_trans hn hmost)
  reads after hafter := by
    have hunsigned : Reads (Reader.unsigned false) (Nat.toDigits 10 n) (.whole n) after :=
      reads_unsigned ⟨Nat.le_trans hn hmost, nofun⟩ hafter
    have hrange : 0 ≤ (n : Int) ∧ (n : Int) ≤ most := ⟨Int.natCast_nonneg n, Int.ofNat_le.2 hn⟩
    obtain ⟨c, rest, heq, hdigit⟩ := exists_digits n
    have hminus : c ≠ '-' := by
      rintro rfl
      exact absurd hdigit (by decide)
    change Reads (Reader.natural most expected) (Value.whole n).chars n after
    rw [heq] at hunsigned
    rw [chars_whole, heq]
    refine .peekToken_bind (startsToken_cons (begins_digit hdigit n).space _) ?_
    simp only [List.cons_append, List.head?_cons]
    rw [if_neg hminus, if_pos hdigit]
    refine hunsigned.bind_last ?_
    refine .located ?_
    simp only
    rw [if_pos hrange]
    exact .pure _
  decodes := Value.toNatural_whole hn expected

/-! ## Options, lists and tables -/

theorem keeps_optional {codec : Codec α} {option : Option α} (hne : ∀ a, codec.write a ≠ .null)
    (h : ∀ a ∈ option, codec.Keeps depth a) : codec.optional.Keeps depth option := by
  cases option with
  | none =>
    refine ⟨Value.fits_null, fun after _ => ?_, rfl⟩
    refine .peekToken_bind (by simp [StartsToken, optional, Value.chars, Reader.isSpace]) ?_
    exact .skip_bind ((reads_ident _).bind_last (.pure _))
  | some a =>
    obtain ⟨hfits, hreads, hdecodes⟩ := h a rfl
    refine ⟨hfits, fun after hafter => ?_, ?_⟩
    · obtain ⟨c, rest, heq, hc⟩ := hfits.begins
      have hread : Reads (do return some (← codec.read)) (codec.write a).chars (some a) after :=
        (hreads after hafter).bind_last (.pure _)
      have hnull : c ≠ 'n' := fun h => hne a (Value.found_eq_null.1 (hc.null.1 h))
      change Reads (Reader.optional codec.read) (codec.write a).chars (some a) after
      rw [heq] at hread ⊢
      refine .peekToken_bind (startsToken_cons hc.space _) ?_
      simpa [hnull] using hread
    · change Value.toOption codec.decode (codec.write a) = .ok (some a)
      unfold Value.toOption
      split
      · rename_i h
        exact absurd h (hne a)
      · rw [hdecodes]
        rfl

theorem keeps_list {codec : Codec α} {items : List α} (h : ∀ item ∈ items, codec.Keeps depth item) :
    codec.list.Keeps (depth + 1) items where
  fits := by
    intro value hmem
    obtain ⟨item, hitem, rfl⟩ := List.mem_map.1 hmem
    exact (h item hitem).fits
  reads after _ := by
    change Reads (Reader.list codec.read) (Value.list (items.map codec.write)).chars items after
    rw [Value.chars, itemChars_eq, joined_map]
    refine .peekToken_bind (startsToken_cons rfl _) (.located ?_)
    refine reads_items (fun item => (codec.write item).chars) ?_ ?_
    · exact fun item hmem => (h item hmem).fits.startsItem
    · exact fun item hmem => (h item hmem).reads
  decodes := by
    change (items.map codec.write).mapM codec.decode = .ok items
    induction items with
    | nil => rfl
    | cons item rest ih =>
      rw [List.forall_mem_cons] at h
      rw [List.map_cons, List.mapM_cons, h.1.decodes, ih h.2]
      rfl

theorem foldlM_decode {codec : Codec α} {entries : List (String × α)}
    (h : ∀ entry ∈ entries, codec.Keeps depth entry.2) (read : Table α) :
    (entries.map fun entry => (entry.1, codec.write entry.2)).foldlM
        (fun read member => return read.put member.1 (← codec.decode member.2)) read =
      (.ok (entries.foldl (fun read entry => read.put entry.1 entry.2) read) : Except Reason (Table α)) := by
  induction entries generalizing read with
  | nil => rfl
  | cons entry rest ih =>
    rw [List.forall_mem_cons] at h
    rw [List.map_cons, List.foldlM_cons, h.1.decodes, List.foldl_cons, ← ih h.2]
    rfl

theorem keeps_tableOf {codec : Codec α} {table : Table α}
    (h : ∀ entry ∈ table.entries, codec.Keeps depth entry.2) : (tableOf codec).Keeps (depth + 1) table where
  fits := by
    intro member hmem
    obtain ⟨entry, hentry, rfl⟩ := List.mem_map.1 hmem
    exact (h entry hentry).fits
  reads after _ := by
    change Reads (Reader.tableOf codec.read)
      (Value.table (table.entries.map fun entry => (entry.1, codec.write entry.2))).chars table after
    rw [Value.chars, memberChars_eq, joined_map]
    refine .peekToken_bind (startsToken_cons rfl _) (.located ?_)
    refine Reads.ended (.skip_bind (Rounds.reads ?_)) reads_endTable
    refine rounds_of_items _ (fun before => (before.isEmpty, Table.ofList before)) ?_ ?_ ?_ ?_
    · intro before entry behind heq after hafter
      have hmem : entry ∈ table.entries := heq ▸ List.mem_append_right _ List.mem_cons_self
      have hnext : ((before ++ [entry]).isEmpty, Table.ofList (before ++ [entry])) =
          (false, (Table.ofList before).put entry.1 entry.2) := by
        simp [Table.ofList]
      rw [hnext]
      refine .hasMember_bind _ (.member_bind ?_)
      exact ((h entry hmem).reads after hafter).bind_last (.pure _)
    · exact fun entry _ => List.cons_ne_nil _ _
    · refine .hasMember_end _ ?_
      rw [Table.ofList_entries]
      exact .pure _
    · exact follows_endTable after
  decodes := (foldlM_decode h Table.empty).trans (congrArg Except.ok (Table.ofList_entries table))

theorem keeps_iso {into : α → β} {back : β → α} {codec : Codec α} {b : β} (hinto : into (back b) = b)
    (h : codec.Keeps depth (back b)) : (codec.iso into back).Keeps depth b where
  fits := h.fits
  reads after hafter := by
    have hread := (h.reads after hafter).map into
    rwa [hinto] at hread
  decodes := by
    change into <$> codec.decode (codec.write (back b)) = .ok b
    rw [h.decodes]
    exact congrArg Except.ok hinto

end Codec

/-! ## Records -/

namespace Record

variable {record : Record α} {a : α}

/-- The record {lit}`b` with the given fields of {lit}`a` put in their places. -/
def putAll (fields : List (Field α)) (a b : α) : α :=
  fields.foldl (fun b field => field.put (field.get a) b) b

theorem putAll_append (before : List (Field α)) (field : Field α) (a b : α) :
    putAll (before ++ [field]) a b = field.put (field.get a) (putAll before a b) := by
  rw [putAll, List.foldl_append]
  rfl

/-- What is left of a record that is written and read. -/
def copy (record : Record α) (a : α) : α :=
  putAll record.fields a record.start

/-- Whether no two fields have one name. -/
def Distinct (record : Record α) : Prop :=
  (record.fields.map Field.name).Nodup

instance (record : Record α) : Decidable record.Distinct :=
  inferInstanceAs (Decidable (List.Nodup _))

/-- A field is told by its name from the fields in front of it. -/
theorem fieldNamed?_eq {before behind : List (Field α)} {field : Field α} (hdistinct : record.Distinct)
    (heq : record.fields = before ++ field :: behind) :
    record.fieldNamed? field.name = some field ∧ field.name ∉ before.map Field.name := by
  have hnodup : (before.map Field.name ++ field.name :: behind.map Field.name).Nodup := by
    simpa [Distinct, heq] using hdistinct
  have hnew : field.name ∉ before.map Field.name := fun hmem =>
    (List.nodup_append.1 hnodup).2.2 _ hmem _ List.mem_cons_self rfl
  refine ⟨?_, hnew⟩
  unfold fieldNamed?
  rw [heq, List.find?_eq_some_iff_append]
  refine ⟨beq_self_eq_true _, before, behind, rfl, fun other hmem => ?_⟩
  have hne : other.name ≠ field.name := fun h => hnew (h ▸ List.mem_map_of_mem hmem)
  simpa using hne

theorem missing?_eq_none (record : Record α) :
    record.missing? (record.fields.map Field.name).reverse = none := by
  unfold missing?
  rw [List.find?_eq_none]
  intro field hmem
  simp [List.mem_map_of_mem hmem]

theorem reads_readMembers (hdistinct : record.Distinct) {after : List Char}
    (hfields : ∀ field ∈ record.fields, field.codec.Keeps depth (field.get a)) :
    Reads record.readMembers (joined memberText true (record.members a)) (record.copy a)
      ('\x7d' :: after) := by
  refine Reads.bind_last (a := ((record.fields.map Field.name).reverse, record.copy a)) (Rounds.reads ?_) ?given
  case given =>
    dsimp only
    rw [missing?_eq_none]
    exact .pure _
  unfold members
  rw [joined_map]
  refine rounds_of_items _ (fun before =>
    (before.isEmpty, (before.map Field.name).reverse, putAll before a record.start)) ?_ ?_ ?_ (follows_endTable after)
  · intro before field behind heq after hafter
    have hmem : field ∈ record.fields := heq ▸ List.mem_append_right _ List.mem_cons_self
    obtain ⟨hnamed, hnew⟩ := fieldNamed?_eq hdistinct heq
    have hgiven : ((before.map Field.name).reverse).contains field.name = false := by simpa using hnew
    have hread : Reads (do return Sum.inl (false, field.name :: (before.map Field.name).reverse,
          field.put (← field.codec.read) (putAll before a record.start)))
        (field.codec.write (field.get a)).chars
        (Sum.inl ((before ++ [field]).isEmpty, ((before ++ [field]).map Field.name).reverse,
          putAll (before ++ [field]) a record.start) : Bool × List String × α ⊕ List String × α) after := by
      have hfirst : (before ++ [field]).isEmpty = false := by simp
      rw [putAll_append, List.map_append, List.reverse_append, hfirst]
      exact ((hfields field hmem).reads after hafter).bind_last (.pure _)
    refine .hasMember_bind _ (.bind (reads_key field.name) ?_)
    rw [hnamed, hgiven]
    exact reads_colon.bind hread
  · exact fun field _ => List.cons_ne_nil _ _
  · exact .hasMember_end _ (.pure _)

theorem decodeMembers_eq (hdistinct : record.Distinct)
    (hfields : ∀ field ∈ record.fields, field.codec.Keeps depth (field.get a)) :
    record.decodeMembers [] record.start (record.members a) = .ok (record.copy a) := by
  suffices h : ∀ behind before, record.fields = before ++ behind →
      record.decodeMembers (before.map Field.name).reverse (putAll before a record.start)
        (behind.map fun field => (field.name, field.codec.write (field.get a))) = .ok (record.copy a) from
    h record.fields [] rfl
  intro behind
  induction behind with
  | nil =>
    intro before heq
    rw [List.append_nil] at heq
    subst heq
    rw [List.map_nil, decodeMembers, missing?_eq_none]
    rfl
  | cons field rest ih =>
    intro before heq
    have hmem : field ∈ record.fields := heq ▸ List.mem_append_right _ List.mem_cons_self
    obtain ⟨hnamed, hnew⟩ := fieldNamed?_eq hdistinct heq
    have hgiven : ((before.map Field.name).reverse).contains field.name = false := by simpa using hnew
    have hrest := ih (before ++ [field]) (by simpa using heq)
    rw [putAll_append, List.map_append, List.reverse_append] at hrest
    rw [List.map_cons, decodeMembers, hnamed]
    simp only
    rw [hgiven, if_neg Bool.false_ne_true, (hfields field hmem).decodes]
    exact hrest

/-- A record comes back with every field put in its place. -/
theorem carries (hdistinct : record.Distinct)
    (hfields : ∀ field ∈ record.fields, field.codec.Keeps depth (field.get a)) :
    record.codec.Carries (depth + 1) a (record.copy a) where
  fits := by
    intro member hmem
    obtain ⟨field, hfield, rfl⟩ := List.mem_map.1 hmem
    exact (hfields field hfield).fits
  reads after _ := by
    change Reads record.read (Value.table (record.members a)).chars (record.copy a) after
    rw [Value.chars, memberChars_eq]
    refine .peekToken_bind (startsToken_cons rfl _) (.located ?_)
    exact Reads.ended (.skip_bind (reads_readMembers hdistinct hfields)) reads_endTable
  decodes := decodeMembers_eq hdistinct hfields

end Record

/-! ## Unions -/

namespace Union

variable {union : Union α} {a : α} {variant : Variant α}

/-- The variant that a tag names. -/
def variantNamed? (union : Union α) (tag : String) : Option (Variant α) :=
  union.variants.find? fun variant => variant.tag == tag

theorem reads_readTag {tag : String} (hvariant : union.variantNamed? tag = some variant) {after : List Char} :
    Reads union.readTag (quote tag) variant after := by
  have hfound : union.variants.find? (fun variant => variant.tag == tag) = some variant := hvariant
  refine .peekToken_bind (startsToken_cons rfl _) ?_
  refine .located (.skip_bind ((reads_textBody tag).bind_last ?_))
  rw [hfound]
  exact .pure _

/-- The tag is read first, the other members are read as they are. -/
theorem reads_readMembers {tag : String} {members : List (String × Value)} {after : List Char}
    (hvariant : union.variantNamed? tag = some variant)
    (hmembers : ∀ member ∈ members, member.1 ≠ union.tagName ∧ member.2.Fits (Reader.maxDepth - 1)) :
    Reads union.readMembers (joined memberText true ((union.tagName, .text tag) :: members))
      (variant, .table members) ('\x7d' :: after) := by
  refine Reads.bind_last (a := (some variant, members)) (Rounds.reads ?_) (.pure _)
  -- Behind the tag, the members are kept in reverse.
  refine rounds_of_items _ (fun before =>
    (before.isEmpty, if before.isEmpty then none else some variant, before.tail.reverse)) ?_ ?_ ?_ (follows_endTable after)
  · intro before member behind heq after hafter
    cases before with
    | nil =>
      obtain ⟨rfl, rfl⟩ := List.cons.inj heq
      refine .hasMember_bind _ (.bind (reads_key union.tagName) ?_)
      rw [if_pos rfl]
      exact reads_colon.bind ((reads_readTag hvariant).bind_last (.pure _))
    | cons first before =>
      obtain ⟨rfl, rfl⟩ := List.cons.inj heq
      obtain ⟨hname, hfits⟩ := hmembers member (List.mem_append_right _ List.mem_cons_self)
      have hread : Reads (do return Sum.inl (false, some variant,
            (member.1, ← Reader.value (Reader.maxDepth - 1)) :: before.reverse)) member.2.chars
          (Sum.inl (false, some variant, (before ++ [member]).reverse) :
            Bool × Option (Variant α) × List (String × Value) ⊕ Option (Variant α) × List (String × Value))
          after := by
        rw [List.reverse_append]
        exact (reads_value hfits hafter).bind_last (.pure _)
      refine .hasMember_bind _ (.bind (reads_key member.1) ?_)
      rw [if_neg hname]
      exact reads_colon.bind hread
  · exact fun member _ => List.cons_ne_nil _ _
  · refine .hasMember_end _ ?_
    rw [List.tail_cons, List.reverse_reverse]
    exact .pure _

/-- A member of a union comes back from its text, if its tag names the variant that decodes the
record it was made from. -/
theorem parse_render {tag : String} {record : Record β} {wrap : β → α} {b : β}
    (hwrite : union.write (wrap b) = (tag, record.members b))
    (hvariant : union.variantNamed? tag = some ⟨tag, fun value => (record.decode value).map wrap⟩)
    (hnames : ∀ field ∈ record.fields, field.name ≠ union.tagName)
    (hkeeps : record.codec.Keeps Reader.maxDepth b) : union.parse (union.render (wrap b)) = .ok (wrap b) := by
  have hmembers : ∀ member ∈ record.members b,
      member.1 ≠ union.tagName ∧ member.2.Fits (Reader.maxDepth - 1) := by
    intro member hmem
    refine ⟨?_, hkeeps.fits member hmem⟩
    obtain ⟨field, hfield, rfl⟩ := List.mem_map.1 hmem
    exact hnames field hfield
  have hparts : Reads union.readParts
      (Value.table ((union.tagName, .text tag) :: record.members b)).chars
      (⟨tag, fun value => (record.decode value).map wrap⟩, .table (record.members b)) [] := by
    rw [Value.chars, memberChars_eq]
    refine .peekToken_bind (startsToken_cons rfl _) (.located ?_)
    exact Reads.ended (.skip_bind (reads_readMembers hvariant hmembers)) reads_endTable
  have hdecode : record.decode (.table (record.members b)) = .ok b := hkeeps.decodes
  refine Reads.all ?_
  rw [render, Value.render, String.toList_ofList, toValue, hwrite]
  refine hparts.bind_last ?_
  dsimp only
  rw [hdecode]
  exact .pure _

end Union
end Json
end ModuleBundler
