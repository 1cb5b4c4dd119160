import ModuleBundler.Text.Unprintable

/-!
# Quoted text

Text shown between double quotes, as messages show names and values: quotes,
backslashes and the common controls have short escapes, every other character
that is not shown as it is becomes its code point in braces.

Main results:

- Theorem {lit}`Quoted.escape_eq_self`: ASCII letters are written as they are.
-/

namespace ModuleBundler
namespace Text
namespace Quoted

/-- The braced code point of a character. -/
def codePoint (c : Char) : List Char :=
  ['\\', 'u', '\x7b'] ++ Nat.toDigits 16 c.toNat ++ ['\x7d']

/-- How one character is written between the quotes. -/
def escape (c : Char) : List Char :=
  if c = '"' then ['\\', '"']
  else if c = '\\' then ['\\', '\\']
  else if c = '\n' then ['\\', 'n']
  else if c = '\r' then ['\\', 'r']
  else if c = '\t' then ['\\', 't']
  else if c = '\x00' then ['\\', '0']
  else if isUnprintable c then codePoint c
  else [c]

/-- The text between double quotes. -/
def quote (s : String) : String :=
  String.ofList (['"'] ++ s.toList.flatMap escape ++ ['"'])

theorem escape_eq_self {c : Char} (hprint : isUnprintable c = false) (hquote : c ≠ '"')
    (hslash : c ≠ '\\') : escape c = [c] := by
  have hctl : c ≠ '\n' ∧ c ≠ '\r' ∧ c ≠ '\t' ∧ c ≠ '\x00' := by
    refine ⟨?_, ?_, ?_, ?_⟩ <;> (rintro rfl; exact absurd hprint (by decide))
  simp [escape, hquote, hslash, hctl, hprint]

end Quoted
end Text
end ModuleBundler
