import Mathlib.Tactic.SplitIfs
import ModuleBundler.Json.Write
import ModuleBundler.Proofs.Json.Reading

/-!
# Reading back texts and numbers

Every text is read back from its quoted form, whichever characters it has, and
every whole number that fits 64 bits is read back from its digits.

Main results:

- Theorem {lit}`Json.reads_textBody`: a text comes back from between its quotes.
- Theorem {lit}`Json.reads_unsigned`: a natural number comes back from its digits.
-/

namespace ModuleBundler
namespace Json

variable {α : Type} {taken after : List Char}

/-! ## Texts -/

theorem reads_hexFour {a b c d : Char} {n : Nat} (h : hexFour? a b c d = some n) :
    Reads Reader.hexFour [a, b, c, d] n after := by
  refine .get_bind fun cursor hrest => ?_
  have hfour : cursor.rest = a :: b :: c :: d :: after := hrest
  rw [hfour]
  dsimp only
  rw [h]
  exact .skip_bind (.skip_bind (.skip_bind (.skip_bind (.pure n))))

/-- A control character is written with its code, whose first two digits are zero. -/
theorem reads_unicodeEscape {c : Char} (h : c.toNat < 0x20) :
    Reads Reader.unicodeEscape ['0', '0', hexDigit (c.toNat / 16), hexDigit c.toNat] c after := by
  have hcode : ∀ n < 0x20, hexFour? '0' '0' (hexDigit (n / 16)) (hexDigit n) = some n := by decide
  have hlow : ¬ (0xDC00 ≤ c.toNat ∧ c.toNat ≤ 0xDFFF) := by omega
  have hfirst : c.toNat < 0xD800 ∨ 0xDBFF < c.toNat := by omega
  refine (reads_hexFour (hcode _ h)).bind_last ?_
  rw [if_neg hlow, if_pos hfirst, Char.ofNat_toNat]
  exact .pure c

/-- A short escape is read as the character it stands for. -/
theorem reads_shortEscape {c d : Char} (hne : d ≠ 'u') (h : shortEscape? d = some c) :
    Reads Reader.escape [d] c after := by
  refine .peek_bind ?_
  have hread : Reads (do Reader.skip; return c) [d] c after := .skip_bind (.pure c)
  simpa [hne, h] using hread

/-- A character is written as itself or as an escape that is read as the character. -/
theorem escape_cases (c : Char) :
    (escape c = [c] ∧ c ≠ '"' ∧ c ≠ '\\' ∧ ¬ c.toNat < 0x20) ∨
      ∃ code, escape c = '\\' :: code ∧ ∀ after, Reads Reader.escape code c after := by
  unfold escape
  split_ifs with h₁ h₂ h₃ h₄ h₅ h₆ h₇ h₈
  any_goals
    subst c
    exact .inr ⟨_, rfl, fun after => reads_shortEscape (by decide) rfl⟩
  · exact .inr ⟨_, rfl, fun after => .peek_bind (.skip_bind (reads_unicodeEscape h₈))⟩
  · exact .inl ⟨rfl, h₁, h₂, h₈⟩

/-- Between the quotes, each character comes back from what is written for it. -/
theorem reads_textBody (s : String) :
    Reads Reader.textBody (s.toList.flatMap escape ++ ['"']) s after := by
  refine Rounds.reads ?_
  -- The characters read so far are kept in reverse.
  suffices h : ∀ cs read : List Char, Rounds _ read (cs.flatMap escape ++ ['"'])
      (String.ofList (read.reverse ++ cs)) after by
    simpa only [List.reverse_nil, List.nil_append, String.ofList_toList] using h s.toList []
  intro cs
  induction cs with
  | nil =>
    intro read
    rw [List.append_nil]
    exact .last (.peek_bind (.skip_bind (.pure _)))
  | cons c rest ih =>
    intro read
    have hmore := ih (c :: read)
    rw [List.reverse_cons, List.append_assoc, List.singleton_append] at hmore
    rw [List.flatMap_cons, List.append_assoc]
    obtain ⟨heq, hquote, hslash, hcontrol⟩ | ⟨code, heq, hcode⟩ := escape_cases c
    · have hround : ∀ after, Reads (do Reader.skip; return Sum.inl (c :: read)) [c]
          (Sum.inl (c :: read) : List Char ⊕ String) after := fun after => .skip_bind (.pure _)
      rw [heq]
      refine .next (List.cons_ne_nil _ _) (.peek_bind ?_) hmore
      simpa [hquote, hslash, hcontrol] using hround _
    · rw [heq]
      refine .next (List.cons_ne_nil _ _) (.peek_bind (.skip_bind ?_)) hmore
      exact (hcode _).bind_last (.pure _)

theorem reads_key (name : String) : Reads Reader.key (quote name) name after :=
  .skip_bind (reads_textBody name)

/-! ## Numbers -/

theorem isDigit_iff {c : Char} : c.isDigit = true ↔ '0' ≤ c ∧ c ≤ '9' := by
  simp [Char.isDigit, Char.le_def]

/-- The digits of a number are a zero alone, or they begin with another digit. -/
theorem digits_cases (n : Nat) :
    (n = 0 ∧ Nat.toDigits 10 n = ['0']) ∨
      ∃ c rest, Nat.toDigits 10 n = c :: rest ∧ '1' ≤ c ∧ c ≤ '9' := by
  induction n using Nat.strongRecOn with
  | _ n ih =>
    by_cases hsmall : n < 10
    · have hdigit : ∀ n < 10, n = 0 ∨ '1' ≤ Nat.digitChar n ∧ Nat.digitChar n ≤ '9' := by decide
      rw [Nat.toDigits_of_lt_base hsmall]
      obtain rfl | hpos := hdigit n hsmall
      · exact .inl ⟨rfl, rfl⟩
      · exact .inr ⟨_, _, rfl, hpos⟩
    · rw [Nat.toDigits_of_base_le (by decide) (Nat.le_of_not_lt hsmall)]
      obtain ⟨hzero, -⟩ | ⟨c, rest, heq, hpos⟩ := ih (n / 10) (by omega)
      · omega
      · exact .inr ⟨c, rest ++ [Nat.digitChar (n % 10)], by rw [heq, List.cons_append], hpos⟩

theorem le_ofDigitChars (digits : List Char) (n : Nat) : n ≤ Nat.ofDigitChars 10 digits n := by
  induction digits generalizing n with
  | nil => exact Nat.le_refl n
  | cons c rest ih =>
    rw [Nat.ofDigitChars_cons]
    exact Nat.le_trans (by omega) (ih _)

theorem reads_peekDigit {c : Char} (h : '0' ≤ c ∧ c ≤ '9') :
    Reads Reader.peekDigit [] (some (c.toNat - 48)) (c :: after) := by
  have hdigit : Reads (return some (c.toNat - 48)) [] (some (c.toNat - 48)) (c :: after) := .pure _
  refine .peek_bind ?_
  simpa [h] using hdigit

theorem reads_peekDigit_end (h : Follows after) : Reads Reader.peekDigit [] none after := by
  refine .peek_bind ?_
  cases after with
  | nil => exact .pure none
  | cons c rest =>
    have hdigit : ¬ ('0' ≤ c ∧ c ≤ '9') := by
      rcases h c rfl with rfl | rfl | rfl <;> decide
    have hnone : Reads (return (none : Option Nat)) [] none (c :: rest) := .pure none
    simpa [hdigit] using hnone

/-- The whole number with the given sign and digits. -/
def signed (negative : Bool) (n : Nat) : Int :=
  if negative then -n else n

/-- Whether a sign and digits together make a number that fits 64 bits. -/
def FitsWord (negative : Bool) (n : Nat) : Prop :=
  n ≤ Reader.maxWhole ∧ (negative = true → 0 < n ∧ n ≤ 9223372036854775808)

theorem reads_numberTail {negative : Bool} {n : Nat} (hfits : FitsWord negative n) (hafter : Follows after) :
    Reads (Reader.numberTail negative n) [] (.whole (signed negative n)) after := by
  refine .peek_bind ?_
  have hend : Reads (if !negative then return .whole n
      else if 0 < n ∧ n ≤ 9223372036854775808 then return .whole (-(n : Int))
      else return .decimal (Number.textOf true n.toUInt64.toFloat) : Reader Number) []
      (.whole (signed negative n)) after := by
    cases negative with
    | false => exact .pure _
    | true =>
      rw [if_pos (hfits.2 rfl)]
      exact .pure _
  cases after with
  | nil => exact hend
  | cons c rest => rcases hafter c rfl with rfl | rfl | rfl <;> exact hend

/-- A number comes back from its digits, where nothing follows that could belong to it. -/
theorem reads_unsigned {negative : Bool} {n : Nat} (hfits : FitsWord negative n) (hafter : Follows after) :
    Reads (Reader.unsigned negative) (Nat.toDigits 10 n) (.whole (signed negative n)) after := by
  have htail := reads_numberTail hfits hafter
  obtain ⟨rfl, heq⟩ | ⟨c, rest, heq, hfirst⟩ := digits_cases n
  · rw [heq]
    refine .peek_bind (.skip_bind (.look_bind (reads_peekDigit_end hafter) ?_))
    exact htail
  have hzero : c ≠ '0' := by
    rintro rfl
    exact absurd hfirst (by decide)
  have hvalue : Nat.ofDigitChars 10 rest (c.toNat - 48) = n := by
    have h : Nat.ofDigitChars 10 (c :: rest) 0 = n := by
      rw [← heq, Nat.ofDigitChars_toDigits (by decide) (by decide)]
    simpa [Nat.ofDigitChars_cons] using h
  have hrest : ∀ c ∈ rest, '0' ≤ c ∧ c ≤ '9' := fun c hmem =>
    isDigit_iff.1 (Nat.isDigit_of_mem_toDigits (by decide) (Nat.le_refl 10) (heq ▸ List.mem_cons_of_mem _ hmem))
  rw [heq]
  refine .peek_bind ?_
  simp only [List.cons_append, List.head?_cons]
  rw [if_neg hzero, if_pos hfirst]
  refine .skip_bind (Reads.bind_last (a := (n, false)) (Rounds.reads ?_) htail)
  -- The digits read so far make up a number that does not exceed the whole one.
  suffices h : ∀ digits read, (∀ c ∈ digits, '0' ≤ c ∧ c ≤ '9') → Nat.ofDigitChars 10 digits read = n →
      Rounds _ read digits (n, false) after from h rest _ hrest hvalue
  intro digits
  induction digits with
  | nil =>
    rintro read - rfl
    exact .last ((reads_peekDigit_end hafter).look_bind (.pure _))
  | cons c rest ih =>
    intro read hdigits hvalue
    rw [List.forall_mem_cons] at hdigits
    rw [Nat.ofDigitChars_cons, Nat.mul_comm] at hvalue
    have hnext : ¬ Reader.maxWhole < read * 10 + (c.toNat - 48) := by
      have hle := le_ofDigitChars rest (read * 10 + (c.toNat - '0'.toNat))
      rw [hvalue] at hle
      exact Nat.not_lt.2 (Nat.le_trans hle hfits.1)
    have hround : ∀ after, Reads (do Reader.skip; return Sum.inl (read * 10 + (c.toNat - 48))) [c]
        (Sum.inl (read * 10 + (c.toNat - 48)) : Nat ⊕ Nat × Bool) after := fun after => .skip_bind (.pure _)
    refine .next (List.cons_ne_nil c []) ((reads_peekDigit hdigits.1).look_bind ?_) (ih _ hdigits.2 hvalue)
    simp only
    rw [if_neg hnext]
    exact hround _

end Json
end ModuleBundler
