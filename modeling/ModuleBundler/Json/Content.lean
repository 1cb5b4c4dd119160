import ModuleBundler.Json.Fault
import ModuleBundler.Json.Value
import ModuleBundler.Table

/-!
# Decoding values

Decoders for values that were read already.  Their faults have no place, only a
reason.

Main results:

- Theorem {lit}`Json.Value.toNatural_whole`: a number in range is itself.
-/

namespace ModuleBundler
namespace Json

variable {α : Type}

/-- Decoding a value: a result or the reason why there is none. -/
abbrev Decoder (α : Type) := Value → Except Reason α

namespace Value

/-- What a value is, as something found. -/
def found : Value → Found
  | null => .null
  | flag value => .flag value
  | whole value => .whole value
  | decimal digits => .decimal digits
  | text value => .text value
  | list _ => .list
  | table _ => .table

/-- The fault of a value that is not the expected one. -/
def mismatch (value : Value) (expected : String) : Except Reason α :=
  .error (.invalidType value.found expected)

/-- Decode a text, which faults call {lit}`expected`. -/
def toText (expected : String) : Decoder String
  | text value => .ok value
  | value => value.mismatch expected

/-- Decode a truth value. -/
def toFlag : Decoder Bool
  | flag value => .ok value
  | value => value.mismatch "a boolean"

/-- Decode a natural number up to {lit}`most`, which faults call {lit}`expected`. -/
def toNatural (most : Nat) (expected : String) : Decoder Nat
  | whole value =>
    if 0 ≤ value ∧ value ≤ most then .ok value.toNat
    else .error (.invalidValue (.whole value) expected)
  | value => value.mismatch expected

/-- Decode a value that may be absent. -/
def toOption (decode : Decoder α) : Decoder (Option α)
  | null => .ok none
  | value => (decode value).map some

/-- Decode a list. -/
def toItems (decode : Decoder α) : Decoder (List α)
  | list items => items.mapM decode
  | value => value.mismatch "a sequence"

/-- Decode a table; of members with one key the last one counts. -/
def toTable (decode : Decoder α) : Decoder (Table α)
  | table members =>
    members.foldlM (fun read member => return read.put member.1 (← decode member.2)) Table.empty
  | value => value.mismatch "a map"

theorem toNatural_whole {n most : Nat} (h : n ≤ most) (expected : String) :
    toNatural most expected (whole n) = .ok n := by
  have h' : (n : Int) ≤ most := Int.ofNat_le.2 h
  simp [toNatural, h']

end Value

end Json
end ModuleBundler
