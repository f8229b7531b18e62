import TableLoader.Number.Binary64

/-!
# Decimals

A decimal is a whole coefficient times a power of ten. Here are its nearest double and the shortest decimal
that a double is the nearest one to.
-/
namespace TableLoader

structure Decimal where
  negative : Bool
  coefficient : Nat
  scale : Int
  deriving DecidableEq, Repr

def decimalLength (n : Nat) : Nat := if n = 0 then 0 else (Nat.toDigits 10 n).length

namespace Decimal

def numerator (d : Decimal) : Nat := d.coefficient * tenTo d.scale.toNat

def denominator (d : Decimal) : Nat := tenTo (-d.scale).toNat

/-- The nearest double, `none` when the magnitude rounds beyond the largest one. A decimal whose first
digit stands above `10 ^ 310` or below `10 ^ -325` is settled by that digit's place alone. -/
def toBinary64? (d : Decimal) : Option Binary64 :=
  let top := d.scale + decimalLength d.coefficient
  if d.coefficient = 0 then some (.zero d.negative)
  else if 310 < top then none
  else if top < -325 then some (.zero d.negative)
  else Binary64.ofRatio d.negative d.numerator d.denominator

def strip (fuel : Nat) (d : Decimal) : Decimal :=
  match fuel with
  | 0 => d
  | fuel + 1 =>
    if d.coefficient ≠ 0 ∧ d.coefficient % 10 = 0 then
      strip fuel { d with coefficient := d.coefficient / 10, scale := d.scale + 1 }
    else d

def normalize (d : Decimal) : Decimal := d.strip (decimalLength d.coefficient)

end Decimal

namespace Binary64

def exactDecimal (x : Binary64) : Decimal := ⟨x.negative, x.units * Nat.pow 5 1074, -1074⟩

/-- The place of the first digit of `num / den`: the greatest `e` with `10 ^ e ≤ num / den`. -/
def leadingPlace (num den : Nat) : Int :=
  if den ≤ num then (decimalLength (num / den) : Int) - 1
  else -(decimalLength ((den + num - 1) / num - 1) : Int)

/-- The neighbours of the value among the multiples of `10 ^ scale`, the nearer one first, the even one
first if both are equally near. -/
def neighbours (x : Binary64) (scale : Int) : List Decimal :=
  let num := x.units * tenTo (-scale).toNat
  let den := twoTo 1074 * tenTo scale.toNat
  let below := num / den
  let low : Decimal := ⟨x.negative, below, scale⟩
  let high : Decimal := ⟨x.negative, below + 1, scale⟩
  if roundHalfEven num den = below then [low, high] else [high, low]

def searchShortest (x : Binary64) (place : Int) : Nat → Nat → Option Decimal
  | 0, _ => none
  | fuel + 1, digits =>
    ((x.neighbours (place - digits + 1)).find? (·.toBinary64? == some x)).or
      (searchShortest x place fuel (digits + 1))

/-- The decimal with the fewest digits that reads back as the number, the nearest of those. -/
def shortestDecimal (x : Binary64) : Decimal :=
  if x.isZero then ⟨x.negative, 0, 0⟩
  else
    let place := leadingPlace x.units (twoTo 1074)
    ((x.searchShortest place 17 1).getD x.exactDecimal).normalize

end Binary64

end TableLoader
