/-!
# Shortest decimals

The shortest decimal that reads back as a given binary floating-point number:
the fewest digits for which some decimal lies in the interval of reals that
round to the number, and among those the decimal nearest to it.  All comparisons
are made on exact fractions.

Main results:

- Theorem {lit}`Shortest.strip_value`: dropping zeros at the end keeps the value.
-/

namespace ModuleBundler
namespace Shortest

/-- A decimal {lit}`digits * 10 ^ exponent`. -/
structure Decimal where
  digits : Nat
  exponent : Int
deriving DecidableEq, Repr

/-- A positive fraction. -/
structure Fraction where
  num : Nat
  den : Nat
deriving Repr

namespace Fraction

/-- {lit}`n * 2 ^ q` -/
def ofBinary (n : Nat) (q : Int) : Fraction :=
  if 0 ≤ q then ⟨n * Nat.pow 2 q.toNat, 1⟩ else ⟨n, Nat.pow 2 (-q).toNat⟩

/-- {lit}`n * 10 ^ p` -/
def ofDecimal (n : Nat) (p : Int) : Fraction :=
  if 0 ≤ p then ⟨n * Nat.pow 10 p.toNat, 1⟩ else ⟨n, Nat.pow 10 (-p).toNat⟩

/-- Whether one fraction is below another. -/
def lt (a b : Fraction) : Bool :=
  decide (a.num * b.den < b.num * a.den)

/-- Whether one fraction is at most another. -/
def le (a b : Fraction) : Bool :=
  decide (a.num * b.den ≤ b.num * a.den)

/-- The whole part of {lit}`a * 10 ^ (-p)`. -/
def floorOn (a : Fraction) (p : Int) : Nat :=
  if 0 ≤ p then a.num / (a.den * Nat.pow 10 p.toNat) else a.num * Nat.pow 10 (-p).toNat / a.den

/-- The distance between two fractions, over the product of their denominators. -/
def distance (a b : Fraction) : Nat :=
  (a.num * b.den - b.num * a.den) + (b.num * a.den - a.num * b.den)

end Fraction

/-- A number and the interval of reals that round to it. -/
structure Target where
  value : Fraction
  low : Fraction
  high : Fraction
  /-- Whether the ends belong to the interval. -/
  closed : Bool

/-- The target of the positive number with the given bits; the sign bit is left out of account. -/
def Target.ofBits (bits : UInt64) : Target :=
  let exponent := ((bits >>> 52) &&& 0x7FF).toNat
  let fraction := (bits &&& 0xFFFFFFFFFFFFF).toNat
  let m := if exponent = 0 then fraction else fraction + 0x10000000000000
  let q : Int := (if exponent = 0 then 1 else exponent : Nat) - 1077
  let below := if fraction = 0 ∧ 1 < exponent then 1 else 2
  ⟨.ofBinary (4 * m) q, .ofBinary (4 * m - below) q, .ofBinary (4 * m + 2) q, m % 2 = 0⟩

/-- Whether the fraction rounds to the target. -/
def Target.holds (target : Target) (a : Fraction) : Bool :=
  if target.closed then target.low.le a && a.le target.high
  else target.low.lt a && a.lt target.high

/-- The exponent of the first digit, searched among {lit}`fuel` exponents from {lit}`p` downwards. -/
def leadingExponent (value : Fraction) : Nat → Int → Int
  | 0, p => p
  | fuel + 1, p => if 0 < value.floorOn p then p else leadingExponent value fuel (p - 1)

/-- Dropping up to {lit}`fuel` zeros at the end of the digits. -/
def strip : Nat → Decimal → Decimal
  | 0, d => d
  | fuel + 1, d =>
    if d.digits % 10 = 0 ∧ d.digits ≠ 0 then strip fuel ⟨d.digits / 10, d.exponent + 1⟩ else d

/-- The best decimal on the grid of the multiples of {lit}`10 ^ p`. -/
def onGrid (target : Target) (p : Int) : Option Decimal :=
  let below := target.value.floorOn p
  let candidates := [below, below + 1].filter fun n => target.holds (.ofDecimal n p)
  match candidates with
  | [] => none
  | [n] => some ⟨n, p⟩
  | n :: k :: _ =>
    let dn := target.value.distance (.ofDecimal n p)
    let dk := target.value.distance (.ofDecimal k p)
    if dn < dk ∨ (dn = dk ∧ n % 2 = 0) then some ⟨n, p⟩ else some ⟨k, p⟩

/-- The shortest decimal of a positive number. -/
def ofBits (bits : UInt64) : Decimal :=
  let target := Target.ofBits bits
  let first := leadingExponent target.value 640 309
  match (List.range 17).findSome? fun (n : Nat) => onGrid target (first - (n : Int)) with
  | some d => strip 20 d
  | none => ⟨0, 0⟩

theorem strip_value (fuel : Nat) (d : Decimal) :
    ∃ k : Nat, d.digits = (strip fuel d).digits * Nat.pow 10 k ∧ (strip fuel d).exponent = d.exponent + k := by
  induction fuel generalizing d with
  | zero => exact ⟨0, by simp [strip]⟩
  | succ fuel ih =>
    unfold strip
    split
    · rename_i h
      obtain ⟨k, hk, he⟩ := ih ⟨d.digits / 10, d.exponent + 1⟩
      refine ⟨k + 1, ?_, ?_⟩
      · rw [show Nat.pow 10 (k + 1) = Nat.pow 10 k * 10 from rfl, ← Nat.mul_assoc, ← hk]
        have := Nat.div_add_mod d.digits 10
        simp only at this ⊢
        omega
      · rw [he]
        push_cast
        omega
    · exact ⟨0, by simp⟩

end Shortest
end ModuleBundler
