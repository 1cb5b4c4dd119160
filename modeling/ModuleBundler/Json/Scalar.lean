import ModuleBundler.Decimal.Shortest
import ModuleBundler.Json.Reader
import ModuleBundler.Json.Value

/-!
# Texts and numbers in JSON

Texts with their escapes, and numbers.  A whole number that fits 64 bits stays
whole; every other number is turned into a binary floating-point number, the
digits first and the power of ten afterwards, and is then known by its shortest
decimal.

Main results:

- Theorem {lit}`Json.hexValue?_of_digit`: decimal digits are hexadecimal digits.
-/

namespace ModuleBundler
namespace Json

/-! ## Escapes -/

/-- The value of a hexadecimal digit. -/
def hexValue? (c : Char) : Option Nat :=
  if '0' ≤ c ∧ c ≤ '9' then some (c.toNat - 48)
  else if 'a' ≤ c ∧ c ≤ 'f' then some (c.toNat - 87)
  else if 'A' ≤ c ∧ c ≤ 'F' then some (c.toNat - 55)
  else none

theorem hexValue?_of_digit {c : Char} (h : '0' ≤ c ∧ c ≤ '9') : hexValue? c = some (c.toNat - 48) := by
  simp [hexValue?, h]

/-- The value of four hexadecimal digits. -/
def hexFour? (a b c d : Char) : Option Nat := do
  let a ← hexValue? a
  let b ← hexValue? b
  let c ← hexValue? c
  let d ← hexValue? d
  return ((a * 16 + b) * 16 + c) * 16 + d

/-- What a short escape stands for. -/
def shortEscape? (c : Char) : Option Char :=
  match c with
  | '"' => some '"'
  | '\\' => some '\\'
  | '/' => some '/'
  | 'b' => some '\x08'
  | 'f' => some '\x0c'
  | 'n' => some '\n'
  | 'r' => some '\r'
  | 't' => some '\t'
  | _ => none

namespace Reader

/-- Read four hexadecimal digits.  They are taken as four bytes, whatever characters these belong to. -/
def hexFour : Reader Nat := do
  let cursor ← get
  match cursor.rest with
  | a :: b :: c :: d :: _ =>
    match Json.hexFour? a b c d with
    | some value =>
      skip; skip; skip; skip
      return value
    | none => throw ⟨.invalidEscape, some (cursor.spotAfter 4)⟩
  | rest =>
    let size := rest.foldl (fun size c => size + c.utf8Size) 0
    if 4 ≤ size then throw ⟨.invalidEscape, some (cursor.spotAfter 4)⟩
    else throw ⟨.endInText, some (cursor.spotAfter size)⟩

/-- Read the character {lit}`expected`, the next one of the second half of a surrogate pair. -/
def pairChar (expected : Char) : Reader Unit := do
  match ← peek with
  | none => failHere .endInText
  | some c => if c = expected then skip else failNext .endOfEscape

/-- Read the character of an escape behind its {lit}`u`. -/
def unicodeEscape : Reader Char := do
  let first ← hexFour
  if 0xDC00 ≤ first ∧ first ≤ 0xDFFF then failHere .loneSurrogate
  else if first < 0xD800 ∨ 0xDBFF < first then return Char.ofNat first
  else
    pairChar '\\'
    pairChar 'u'
    let second ← hexFour
    if second < 0xDC00 ∨ 0xDFFF < second then failHere .loneSurrogate
    else return Char.ofNat ((first - 0xD800) * 1024 + (second - 0xDC00) + 0x10000)

/-- Read the character of an escape behind its backslash. -/
def escape : Reader Char := do
  match ← peek with
  | none => failHere .endInText
  | some 'u' =>
    skip
    unicodeEscape
  | some c =>
    match shortEscape? c with
    | some value =>
      skip
      return value
    | none => failNext .invalidEscape

/-- Read a text behind its opening quote, up to and with the closing one. -/
def textBody : Reader String :=
  repeatFrom ([] : List Char) fun read => do
    match ← peek with
    | none => failHere .endInText
    | some '"' =>
      skip
      return .inr (String.ofList read.reverse)
    | some '\\' =>
      skip
      return .inl ((← escape) :: read)
    | some c =>
      if c.toNat < 0x20 then failNext .controlCharacter
      else
        skip
        return .inl (c :: read)

/-- Read over a text behind its opening quote; the escapes are only measured. -/
def skipTextBody : Reader Unit :=
  repeatFrom () fun _ => do
    match ← peek with
    | none => failHere .endInText
    | some '"' =>
      skip
      return .inr ()
    | some '\\' =>
      skip
      match ← peek with
      | none => failHere .endInText
      | some 'u' =>
        skip
        let _ ← hexFour
        return .inl ()
      | some c =>
        if (shortEscape? c).isSome then
          skip
          return .inl ()
        else
          failNext .invalidEscape
    | some c =>
      if c.toNat < 0x20 then failHere .controlCharacter
      else
        skip
        return .inl ()

end Reader

/-! ## Numbers -/

/-- A number as it was read. -/
inductive Number where
  | whole (value : Int)
  | decimal (digits : String)
deriving DecidableEq, Repr

namespace Number

/-- The number as a JSON value. -/
def toValue : Number → Value
  | whole value => .whole value
  | decimal digits => .decimal digits

/-- The number as something found. -/
def toFound : Number → Found
  | whole value => .whole value
  | decimal digits => .decimal digits

/-- Where the point stands: positional from 10^-5 up to 10^16, with a signed exponent outside. -/
def layout (digits : List Char) (exponent : Int) : List Char :=
  let length : Int := digits.length
  let point := length + exponent
  if 0 ≤ exponent ∧ point ≤ 16 then
    digits ++ List.replicate exponent.toNat '0' ++ ['.', '0']
  else if 0 < point ∧ point ≤ 16 then
    digits.take point.toNat ++ ['.'] ++ digits.drop point.toNat
  else if -5 < point ∧ point ≤ 0 then
    ['0', '.'] ++ List.replicate (-point).toNat '0' ++ digits
  else
    let tail := digits.drop 1
    digits.take 1 ++ (if tail.isEmpty then [] else '.' :: tail) ++
      (if 0 < point then ['e', '+'] else ['e']) ++ (toString (point - 1)).toList

/-- The text of a finite number: its sign and its shortest decimal. -/
def textOf (negative : Bool) (value : Float) : String :=
  let body :=
    if value == 0 then ['0', '.', '0']
    else
      let d := Shortest.ofBits value.toBits
      layout (toString d.digits).toList d.exponent
  String.ofList (if negative then '-' :: body else body)

end Number

namespace Reader

/-- The largest whole number that a number can have as its digits. -/
def maxWhole : Nat := 18446744073709551615

/-- Whether the next character is a decimal digit. -/
def peekDigit : Reader (Option Nat) := do
  match ← peek with
  | some c => return if '0' ≤ c ∧ c ≤ '9' then some (c.toNat - 48) else none
  | none => return none

/-- Read over decimal digits and count them. -/
def skipDigits : Reader Nat :=
  repeatFrom 0 fun count => do
    match ← peekDigit with
    | some _ =>
      skip
      return .inl (count + 1)
    | none => return .inr count

/-- {lit}`value * 10 ^ exponent` with the rounding of one multiplication or division; exponents
beyond the range of one are worked off in steps of 308. -/
def scale (exponent : Int) : Nat → Float → Option Float
  | 0, value => some value
  | steps + 1, value =>
    if exponent.natAbs ≤ 308 then
      let power := Float.ofScientific 1 false exponent.natAbs
      if 0 ≤ exponent then
        let scaled := value * power
        if scaled.isInf then none else some scaled
      else
        some (value / power)
    else if value == 0 then some value
    else if 0 ≤ exponent then none
    else scale (exponent + 308) steps (value / Float.ofScientific 1 false 308)

/-- The number with the given digits and power of ten. -/
def number (negative : Bool) (digits : Nat) (exponent : Int) : Reader Number := do
  match scale exponent (exponent.natAbs + 1) digits.toUInt64.toFloat with
  | some value => return .decimal (Number.textOf negative value)
  | none => failHere .numberOutOfRange

/-- The largest power of ten that is read as written. -/
def maxExponent : Nat := 2147483647

/-- Read an exponent behind its letter {lit}`e`. -/
def exponent (negative : Bool) (digits : Nat) (before : Int) : Reader Number := do
  skip
  let down ← do
    match ← peek with
    | some '+' =>
      skip
      pure false
    | some '-' =>
      skip
      pure true
    | _ => pure false
  match ← peekDigit with
  | none =>
    match ← peek with
    | none => failHere .endInValue
    | some _ => failNext .invalidNumber
  | some first =>
    skip
    let power ← repeatFrom first fun power => do
      match ← peekDigit with
      | some digit =>
        skip
        let next := power * 10 + digit
        return if maxExponent < next then .inr none else .inl next
      | none => return .inr (some power)
    match power with
    | some power => number negative digits (if down then before - power else before + power)
    | none =>
      if digits ≠ 0 ∧ !down then failHere .numberOutOfRange
      else
        let _ ← skipDigits
        return .decimal (Number.textOf negative 0)

/-- Read the part behind the digits in front of a point or an exponent. -/
def exponentOrEnd (negative : Bool) (digits : Nat) (before : Int) : Reader Number := do
  match ← peek with
  | some 'e' => exponent negative digits before
  | some 'E' => exponent negative digits before
  | _ => number negative digits before

/-- Read the digits behind a point.  Digits beyond 64 bits are read over. -/
def fraction (negative : Bool) (digits : Nat) (before : Int) : Reader Number := do
  skip
  let (digits, places, full) ← repeatFrom (digits, 0) fun (digits, places) => do
    match ← peekDigit with
    | some digit =>
      let next := digits * 10 + digit
      if maxWhole < next then return .inr (digits, places, true)
      else
        skip
        return .inl (next, places + 1)
    | none => return .inr (digits, places, false)
  if full then
    let _ ← skipDigits
    exponentOrEnd negative digits (before - (places : Nat))
  else if places = 0 then
    match ← peek with
    | some _ => failNext .invalidNumber
    | none => failHere .endInValue
  else
    exponentOrEnd negative digits (before - (places : Nat))

/-- Read the part of a number behind its leading digits. -/
def numberTail (negative : Bool) (digits : Nat) : Reader Number := do
  match ← peek with
  | some '.' => fraction negative digits 0
  | some 'e' => exponent negative digits 0
  | some 'E' => exponent negative digits 0
  | _ =>
    if !negative then return .whole digits
    else if 0 < digits ∧ digits ≤ 9223372036854775808 then return .whole (-(digits : Int))
    else return .decimal (Number.textOf true digits.toUInt64.toFloat)

/-- Read the part of a number whose leading digits are too many for 64 bits. -/
def longNumber (negative : Bool) (digits : Nat) : Reader Number := do
  let more ← skipDigits
  match ← peek with
  | some '.' => fraction negative digits more
  | _ => exponentOrEnd negative digits more

/-- Read a number behind its sign. -/
def unsigned (negative : Bool) : Reader Number := do
  match ← peek with
  | none => failHere .endInValue
  | some c =>
    if c = '0' then
      skip
      match ← peekDigit with
      | some _ => failNext .invalidNumber
      | none => numberTail negative 0
    else if '1' ≤ c ∧ c ≤ '9' then
      skip
      let (digits, full) ← repeatFrom (c.toNat - 48) fun digits => do
        match ← peekDigit with
        | some digit =>
          let next := digits * 10 + digit
          if maxWhole < next then return .inr (digits, true)
          else
            skip
            return .inl next
        | none => return .inr (digits, false)
      if full then longNumber negative digits else numberTail negative digits
    else
      failNext .invalidNumber

/-- Read over an exponent behind its letter. -/
def skipExponent : Reader Unit := do
  skip
  match ← peek with
  | some '+' => skip
  | some '-' => skip
  | _ => pure ()
  match ← peekDigit with
  | some _ =>
    let _ ← skipDigits
    return ()
  | none => failNext .invalidNumber

/-- Read over an exponent, if there is one. -/
def skipExponentOrEnd : Reader Unit := do
  match ← peek with
  | some 'e' => skipExponent
  | some 'E' => skipExponent
  | _ => return ()

/-- Read over a number behind its sign; its size does not matter. -/
def skipUnsigned : Reader Unit := do
  match ← peekDigit with
  | none => failNext .invalidNumber
  | some digit =>
    skip
    if digit = 0 then
      if (← peekDigit).isSome then failNext .invalidNumber
    else
      let _ ← skipDigits
    match ← peek with
    | some '.' =>
      skip
      if (← skipDigits) = 0 then failNext .invalidNumber
      skipExponentOrEnd
    | _ => skipExponentOrEnd

end Reader
end Json
end ModuleBundler
