import ModuleBundler.Json.Content
import ModuleBundler.Proofs.Json.Scalars

/-!
# Reading back any value

A value is read back from its text if its numbers are whole and fit 64 bits, and
if its brackets are not nested too deep.

Main results:

- Theorem {lit}`Json.reads_value`: a value is read back in front of whatever may follow it.
- Theorem {lit}`Json.parse_render`: a value is read back from its whole text.
-/

namespace ModuleBundler
namespace Json

variable {after : List Char} {depth : Nat} {v : Value}

/-! ## Values that can be read back -/

/-- Whether the numbers of a value are whole and fit 64 bits, and at most {lit}`depth` of its
brackets are open at once. -/
def Value.Fits : (depth : Nat) → Value → Prop
  | _, .null => True
  | _, .flag _ => True
  | _, .whole n => -9223372036854775808 ≤ n ∧ n ≤ Reader.maxWhole
  | _, .decimal _ => False
  | _, .text _ => True
  | 0, .list _ => False
  | depth + 1, .list items => ∀ item ∈ items, Fits depth item
  | 0, .table _ => False
  | depth + 1, .table members => ∀ member ∈ members, Fits depth member.2

namespace Value

@[simp]
theorem fits_null : null.Fits depth := by simp [Fits]

@[simp]
theorem fits_flag (b : Bool) : (flag b).Fits depth := by simp [Fits]

@[simp]
theorem fits_text (s : String) : (text s).Fits depth := by simp [Fits]

theorem fits_whole {n : Nat} (h : n ≤ Reader.maxWhole) : (whole n).Fits depth := by
  simp only [Fits]
  omega

end Value

theorem chars_whole (n : Nat) : (Value.whole n).chars = Nat.toDigits 10 n := by
  rw [Value.chars]
  exact String.toList_ofList

/-- A whole number that fits is written with its digits, behind a sign if it is negative. -/
theorem whole_cases {n : Int} (h : (Value.whole n).Fits depth) :
    ∃ negative digits, FitsWord negative digits ∧ n = signed negative digits ∧
      (Value.whole n).chars = (if negative then ['-'] else []) ++ Nat.toDigits 10 digits := by
  simp only [Value.Fits, Reader.maxWhole] at h
  cases n with
  | ofNat n => exact ⟨false, n, ⟨Int.ofNat_le.1 h.2, nofun⟩, rfl, chars_whole n⟩
  | negSucc n =>
    have hfits : FitsWord true (n + 1) := by
      rw [Int.negSucc_eq] at h
      refine ⟨?_, fun _ => ⟨Nat.succ_pos n, ?_⟩⟩
      · rw [Reader.maxWhole]
        omega
      · omega
    refine ⟨true, n + 1, hfits, Int.negSucc_eq n, ?_⟩
    rw [Value.chars]
    change ("-" ++ Nat.repr (n + 1)).toList = _
    simp [Nat.repr]

theorem exists_digits (n : Nat) : ∃ c rest, Nat.toDigits 10 n = c :: rest ∧ '0' ≤ c ∧ c ≤ '9' := by
  obtain ⟨-, heq⟩ | ⟨c, rest, heq, hc⟩ := digits_cases n
  · exact ⟨'0', [], heq, by decide⟩
  · exact ⟨c, rest, heq, Char.le_trans (by decide) hc.1, hc.2⟩

/-! ## The first character of a value -/

/-- Whether what is found behind the character can be of the given kind. -/
structure Begins (c : Char) (found : Found) : Prop where
  space : Reader.isSpace c = false
  close : c ≠ ']'
  null : c = 'n' ↔ found = .null
  list : c = '[' ↔ found = .list
  table : c = '\x7b' ↔ found = .table

theorem begins_digit {c : Char} (h : '0' ≤ c ∧ c ≤ '9') (n : Int) : Begins c (.whole n) := by
  have hne (d : Char) (hd : ¬ ('0' ≤ d ∧ d ≤ '9')) : c ≠ d := by
    rintro rfl
    exact hd h
  constructor <;> simp [Reader.isSpace, hne, Char.reduceLE]

theorem Value.Fits.begins (h : v.Fits depth) : ∃ c rest, v.chars = c :: rest ∧ Begins c v.found := by
  cases v with
  | null => exact ⟨'n', _, by rw [chars], by constructor <;> decide⟩
  | flag b =>
    cases b
    · exact ⟨'f', _, by rw [chars], by constructor <;> simp [Reader.isSpace, found]⟩
    · exact ⟨'t', _, by rw [chars], by constructor <;> simp [Reader.isSpace, found]⟩
  | whole n =>
    obtain ⟨negative, digits, -, -, heq⟩ := whole_cases h
    cases negative with
    | true => exact ⟨'-', _, heq, by constructor <;> simp [Reader.isSpace, found]⟩
    | false =>
      obtain ⟨c, rest, hdigits, hc⟩ := exists_digits digits
      exact ⟨c, rest, heq.trans hdigits, begins_digit hc n⟩
  | decimal => simp [Fits] at h
  | text s =>
    exact ⟨'"', _, by rw [chars, quote, List.cons_append],
      by constructor <;> simp [Reader.isSpace, found]⟩
  | list items => exact ⟨'[', _, by rw [chars], by constructor <;> simp [Reader.isSpace, found]⟩
  | table members => exact ⟨'\x7b', _, by rw [chars], by constructor <;> simp [Reader.isSpace, found]⟩

theorem Value.found_eq_null : v.found = .null ↔ v = .null := by
  cases v <;> simp [found]

/-! ## Scalars -/

theorem reads_number {n : Int} (h : (Value.whole n).Fits depth) {c : Char} {rest : List Char}
    (heq : (Value.whole n).chars = c :: rest) (hafter : Follows after) :
    Reads (Reader.scalar c) (c :: rest) (.whole n) after := by
  obtain ⟨negative, digits, hfits, hn, hchars⟩ := whole_cases h
  have hread : Reads (do return (← Reader.unsigned negative).toValue) (Nat.toDigits 10 digits)
      (.whole n) after := by
    rw [hn]
    exact (reads_unsigned hfits hafter).bind_last (.pure _)
  rw [hchars] at heq
  cases negative with
  | true =>
    obtain ⟨rfl, rfl⟩ := List.cons.inj heq
    exact .skip_bind hread
  | false =>
    obtain ⟨d, more, hdigits, hd⟩ := exists_digits digits
    have heq : Nat.toDigits 10 digits = c :: rest := heq
    rw [hdigits] at heq
    obtain ⟨rfl, rfl⟩ := List.cons.inj heq
    rw [hdigits] at hread
    have hne (e : Char) (he : ¬ ('0' ≤ e ∧ e ≤ '9')) : d ≠ e := by
      rintro rfl
      exact he hd
    unfold Reader.scalar
    simpa [hne, Char.reduceLE, hd] using hread

theorem reads_scalar (h : v.Fits depth) (hlist : v.found ≠ .list) (htable : v.found ≠ .table)
    {c : Char} {rest : List Char} (heq : v.chars = c :: rest) (hafter : Follows after) :
    Reads (Reader.scalar c) (c :: rest) v after := by
  cases v with
  | null =>
    rw [Value.chars] at heq
    obtain ⟨rfl, rfl⟩ := List.cons.inj heq
    exact .skip_bind ((reads_ident _).bind_last (.pure _))
  | flag b =>
    cases b <;>
    · rw [Value.chars] at heq
      obtain ⟨rfl, rfl⟩ := List.cons.inj heq
      exact .skip_bind ((reads_ident _).bind_last (.pure _))
  | whole n => exact reads_number h heq hafter
  | decimal => simp [Value.Fits] at h
  | text s =>
    rw [Value.chars] at heq
    obtain ⟨rfl, rfl⟩ := List.cons.inj heq
    exact .skip_bind ((reads_textBody s).bind_last (.pure _))
  | list => exact absurd rfl hlist
  | table => exact absurd rfl htable

/-- A value that is neither a list nor a table is read whatever brackets may still be opened. -/
theorem reads_value_of_scalar (h : v.Fits depth) (hlist : v.found ≠ .list) (htable : v.found ≠ .table)
    (hafter : Follows after) : Reads (Reader.value depth) v.chars v after := by
  obtain ⟨c, rest, heq, hc⟩ := h.begins
  have hscalar := reads_scalar h hlist htable heq hafter
  have hnotlist : c ≠ '[' := mt hc.list.1 hlist
  have hnottable : c ≠ '\x7b' := mt hc.table.1 htable
  rw [heq]
  cases depth <;>
  · refine .peekToken_bind (startsToken_cons hc.space _) ?_
    simpa [hnotlist, hnottable] using hscalar

/-! ## Lists -/

theorem Value.Fits.startsItem (h : v.Fits depth) (after : List Char) : StartsItem (v.chars ++ after) := by
  obtain ⟨c, rest, heq, hc⟩ := h.begins
  exact ⟨c, rest ++ after, by rw [heq, List.cons_append], hc.space, hc.close⟩

/-- The items of a list are read one after the other. -/
theorem reads_items {α : Type} {reader : Reader α} {items : List α} (write : α → List Char)
    (hstart : ∀ item ∈ items, ∀ after, StartsItem (write item ++ after))
    (hitem : ∀ item ∈ items, ∀ after, Follows after → Reads reader (write item) item after) :
    Reads (Reader.ended
        (do
          Reader.skip
          Reader.repeatFrom ([] : List α) fun read => do
            if ← Reader.hasItem read.isEmpty then return .inl ((← reader) :: read)
            else return .inr read.reverse)
        Reader.endList)
      ('[' :: (joined write true items ++ [']'])) items after := by
  refine Reads.ended (.skip_bind (Rounds.reads ?_)) reads_endList
  refine rounds_of_items write List.reverse ?_ ?_ ?_ ?_
  · rintro before item behind rfl after hafter
    have hmem : item ∈ before ++ item :: behind := List.mem_append_right _ List.mem_cons_self
    rw [List.isEmpty_reverse, List.reverse_append]
    refine .hasItem_bind _ (hstart item hmem after) ?_
    exact (hitem item hmem after hafter).bind_last (.pure _)
  · intro item hmem
    have h := (hstart item hmem []).ne_nil
    rwa [List.append_nil] at h
  · refine .hasItem_end _ ?_
    rw [List.reverse_reverse]
    exact .pure _
  · exact follows_endList after

theorem itemChars_eq (items : List Value) : itemChars items = joined Value.chars true items ++ [']'] := by
  suffices h : ∀ item rest, itemChars (item :: rest) = item.chars ++ joined Value.chars false rest ++ [']'] by
    cases items with
    | nil => rfl
    | cons item rest => exact h item rest
  intro item rest
  induction rest generalizing item with
  | nil => simp [itemChars, joined]
  | cons next rest ih => simp [itemChars, joined, ih, separator]

/-! ## Tables -/

/-- How a member of a table is written. -/
def memberText (member : String × Value) : List Char :=
  quote member.1 ++ ':' :: member.2.chars

theorem memberChars_eq (members : List (String × Value)) :
    memberChars members = joined memberText true members ++ ['\x7d'] := by
  suffices h : ∀ member rest, memberChars (member :: rest) =
      memberText member ++ joined memberText false rest ++ ['\x7d'] by
    cases members with
    | nil => rfl
    | cons member rest => exact h member rest
  intro member rest
  induction rest generalizing member with
  | nil => simp [memberChars, joined, memberText]
  | cons next rest ih => simp [memberChars, joined, memberText, ih, separator]

/-- Behind the key of a member and its colon. -/
theorem Reads.member_bind {α : Type} {taken : List Char} {next : String → Reader α} {name : String} {a : α}
    (h : Reads (next name) taken a after) :
    Reads (do let name ← Reader.key; Reader.colon; next name) (quote name ++ ':' :: taken) a after :=
  (reads_key name).bind (reads_colon.bind h)

theorem reads_members {reader : Reader Value} {members : List (String × Value)}
    (hmember : ∀ member ∈ members, ∀ after, Follows after → Reads reader member.2.chars member.2 after) :
    Reads (Reader.ended
        (do
          Reader.skip
          Reader.repeatFrom ([] : List (String × Value)) fun read => do
            if ← Reader.hasMember read.isEmpty then
              let name ← Reader.key
              Reader.colon
              return .inl ((name, ← reader) :: read)
            else return .inr read.reverse)
        Reader.endTable)
      ('\x7b' :: (joined memberText true members ++ ['\x7d'])) members after := by
  refine Reads.ended (.skip_bind (Rounds.reads ?_)) reads_endTable
  refine rounds_of_items memberText List.reverse ?_ ?_ ?_ ?_
  · rintro before member behind rfl after hafter
    have hmem : member ∈ before ++ member :: behind := List.mem_append_right _ List.mem_cons_self
    rw [List.isEmpty_reverse, List.reverse_append]
    refine .hasMember_bind _ (.member_bind ?_)
    exact (hmember member hmem after hafter).bind_last (.pure _)
  · exact fun member _ => List.cons_ne_nil _ _
  · refine .hasMember_end _ ?_
    rw [List.reverse_reverse]
    exact .pure _
  · exact follows_endTable after

/-! ## Values -/

/-- A value is read back in front of whatever may follow a value. -/
theorem reads_value (h : v.Fits depth) (hafter : Follows after) :
    Reads (Reader.value depth) v.chars v after := by
  induction depth generalizing v after with
  | zero =>
    cases v with
    | list => exact h.elim
    | table => exact h.elim
    | _ => exact reads_value_of_scalar h nofun nofun hafter
  | succ depth ih =>
    cases v with
    | list items =>
      rw [Value.chars, itemChars_eq]
      refine .peekToken_bind (startsToken_cons rfl _) ?_
      refine .bind_last (reads_items Value.chars ?_ ?_) (.pure _)
      · exact fun item hmem => (h item hmem).startsItem
      · exact fun item hmem after hafter => ih (h item hmem) hafter
    | table members =>
      rw [Value.chars, memberChars_eq]
      refine .peekToken_bind (startsToken_cons rfl _) ?_
      refine .bind_last (reads_members ?_) (.pure _)
      exact fun member hmem after hafter => ih (h member hmem) hafter
    | _ => exact reads_value_of_scalar h nofun nofun hafter

/-- A value is read back from its whole text. -/
theorem parse_render (h : v.Fits Reader.maxDepth) : parse v.render = .ok v := by
  refine Reads.all ?_
  rw [Value.render, String.toList_ofList]
  exact reads_value h follows_nil

end Json
end ModuleBundler
