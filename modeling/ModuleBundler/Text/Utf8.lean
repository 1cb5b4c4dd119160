/-!
# Decoding UTF-8

A byte sequence is read character by character.  Where no character can be
read, the faulty bytes are measured: a sequence that cannot be continued to a
character, or one that the end of the input cuts short.

Main results:

- Theorem {lit}`Utf8.faultFrom_nil`: the empty input has no fault.
-/

namespace ModuleBundler
namespace Utf8

/-- What stands at the front of a byte sequence. -/
inductive Front where
  /-- A character that takes {lit}`width` bytes. -/
  | char (c : Char) (width : Nat)
  /-- {lit}`width` bytes that no character starts with. -/
  | invalid (width : Nat)
  /-- The start of a character that the end of the input cuts short. -/
  | incomplete
deriving DecidableEq, Repr

/-- Whether the byte continues a character. -/
def isTail (b : UInt8) : Bool :=
  0x80 ≤ b && b ≤ 0xBF

/-- Whether {lit}`second` may follow the first byte of a character of three or four bytes. -/
def isSecond (first second : UInt8) : Bool :=
  if first = 0xE0 then 0xA0 ≤ second && second ≤ 0xBF
  else if first = 0xED then 0x80 ≤ second && second ≤ 0x9F
  else if first = 0xF0 then 0x90 ≤ second && second ≤ 0xBF
  else if first = 0xF4 then 0x80 ≤ second && second ≤ 0x8F
  else isTail second

/-- The six low bits of a tail byte. -/
def tailBits (b : UInt8) : Nat :=
  b.toNat % 64

/-- What stands at the front of a sequence with the first byte {lit}`first`. -/
def front (first : UInt8) (rest : List UInt8) : Front :=
  if first < 0x80 then .char (Char.ofNat first.toNat) 1
  else if 0xC2 ≤ first && first ≤ 0xDF then
    match rest with
    | [] => .incomplete
    | b :: _ =>
      if isTail b then .char (Char.ofNat (first.toNat % 32 * 64 + tailBits b)) 2 else .invalid 1
  else if 0xE0 ≤ first && first ≤ 0xEF then
    match rest with
    | [] => .incomplete
    | b :: rest =>
      if !isSecond first b then .invalid 1
      else match rest with
        | [] => .incomplete
        | c :: _ =>
          if isTail c then
            .char (Char.ofNat ((first.toNat % 16 * 64 + tailBits b) * 64 + tailBits c)) 3
          else .invalid 2
  else if 0xF0 ≤ first && first ≤ 0xF4 then
    match rest with
    | [] => .incomplete
    | b :: rest =>
      if !isSecond first b then .invalid 1
      else match rest with
        | [] => .incomplete
        | c :: rest =>
          if !isTail c then .invalid 2
          else match rest with
            | [] => .incomplete
            | d :: _ =>
              if isTail d then
                .char (Char.ofNat
                  (((first.toNat % 8 * 64 + tailBits b) * 64 + tailBits c) * 64 + tailBits d)) 4
              else .invalid 3
  else .invalid 1

/-- The first place where bytes are not UTF-8. -/
structure Fault where
  /-- How many bytes before the place are fine. -/
  index : Nat
  /-- How many bytes are faulty; absent where the input ends inside a character. -/
  width : Option Nat
deriving DecidableEq, Repr

namespace Fault

/-- The fault in words. -/
def message (fault : Fault) : String :=
  match fault.width with
  | some width =>
    "invalid utf-8 sequence of " ++ toString width ++ " bytes from index " ++ toString fault.index
  | none => "incomplete utf-8 byte sequence from index " ++ toString fault.index

end Fault

/-- The first fault of a byte sequence that starts at {lit}`index`. -/
def faultFrom (index : Nat) : List UInt8 → Option Fault
  | [] => none
  | b :: rest =>
    match front b rest with
    | .char _ width => faultFrom (index + width) (rest.drop (width - 1))
    | .invalid width => some ⟨index, some width⟩
    | .incomplete => some ⟨index, none⟩
termination_by bytes => bytes.length

/-- The characters of a byte sequence; every faulty piece becomes the replacement character. -/
def decodeLossy : List UInt8 → List Char
  | [] => []
  | b :: rest =>
    match front b rest with
    | .char c width => c :: decodeLossy (rest.drop (width - 1))
    | .invalid width => Char.ofNat 0xFFFD :: decodeLossy (rest.drop (width - 1))
    | .incomplete => [Char.ofNat 0xFFFD]
termination_by bytes => bytes.length

/-- The text that the bytes encode, or their first fault. -/
def decode (bytes : ByteArray) : Except Fault String :=
  match String.fromUTF8? bytes with
  | some text => .ok text
  | none => .error ((faultFrom 0 bytes.toList).getD ⟨0, none⟩)

@[simp]
theorem faultFrom_nil (index : Nat) : faultFrom index [] = none := by
  simp [faultFrom]

end Utf8
end ModuleBundler
