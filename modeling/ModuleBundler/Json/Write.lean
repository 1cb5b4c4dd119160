import ModuleBundler.Json.Value

/-!
# Writing JSON

The compact text of a value: no space between tokens, members in their order.
Quotes, backslashes and controls are escaped, all other characters stand for
themselves.

Main results:

- Theorem {lit}`Json.escape_eq_self`: an ordinary character is written as it is.
-/

namespace ModuleBundler
namespace Json

/-- A hexadecimal digit in lower case. -/
def hexDigit (n : Nat) : Char :=
  Nat.digitChar (n % 16)

/-- How one character is written between quotes. -/
def escape (c : Char) : List Char :=
  if c = '"' then ['\\', '"']
  else if c = '\\' then ['\\', '\\']
  else if c = '\x08' then ['\\', 'b']
  else if c = '\x0c' then ['\\', 'f']
  else if c = '\n' then ['\\', 'n']
  else if c = '\r' then ['\\', 'r']
  else if c = '\t' then ['\\', 't']
  else if c.toNat < 0x20 then
    ['\\', 'u', '0', '0', hexDigit (c.toNat / 16), hexDigit c.toNat]
  else [c]

/-- A text between quotes. -/
def quote (s : String) : List Char :=
  '"' :: s.toList.flatMap escape ++ ['"']

theorem escape_eq_self {c : Char} (hquote : c ≠ '"') (hslash : c ≠ '\\') (h : 0x20 ≤ c.toNat) :
    escape c = [c] := by
  have hne (d : Char) (hd : d.toNat < 0x20) : c ≠ d := by
    rintro rfl
    omega
  have h' : ¬ c.toNat < 0x20 := by omega
  simp [escape, hquote, hslash, h', hne '\x08' (by decide), hne '\x0c' (by decide),
    hne '\n' (by decide), hne '\r' (by decide), hne '\t' (by decide)]

mutual

/-- The characters of a value. -/
def Value.chars : Value → List Char
  | .null => ['n', 'u', 'l', 'l']
  | .flag true => ['t', 'r', 'u', 'e']
  | .flag false => ['f', 'a', 'l', 's', 'e']
  | .whole value => (toString value).toList
  | .decimal digits => digits.toList
  | .text value => quote value
  | .list items => '[' :: itemChars items
  | .table members => '\x7b' :: memberChars members

/-- The characters of the items of a list and of its end. -/
def itemChars : List Value → List Char
  | [] => [']']
  | [item] => item.chars ++ [']']
  | item :: rest => item.chars ++ ',' :: itemChars rest

/-- The characters of the members of a table and of its end. -/
def memberChars : List (String × Value) → List Char
  | [] => ['\x7d']
  | [(name, value)] => quote name ++ ':' :: value.chars ++ ['\x7d']
  | (name, value) :: rest => quote name ++ ':' :: value.chars ++ ',' :: memberChars rest

end

/-- The compact text of a value. -/
def Value.render (value : Value) : String :=
  String.ofList value.chars

end Json
end ModuleBundler
