import TableLoader.Number.Power

/-!
# Double-precision numbers

The finite numbers of the IEEE 754 format `binary64`, as exact values. Every magnitude is a whole multiple
of `2 ^ -1074`, so a number is known by its sign and its count of those units, and all rounding is done on
natural numbers.
-/
namespace TableLoader

/-- A finite double: sign, biased exponent and fraction of 52 bits. -/
structure Binary64 where
  negative : Bool
  biased : Fin 2047
  fraction : Fin 4503599627370496
  deriving DecidableEq, Repr

def roundHalfEven (num den : Nat) : Nat :=
  let quotient := num / den
  let remainder := num % den
  if 2 * remainder < den then quotient
  else if den < 2 * remainder then quotient + 1
  else if quotient % 2 = 0 then quotient else quotient + 1

namespace Binary64

def zero (negative : Bool) : Binary64 := ⟨negative, 0, 0⟩

/-- Magnitude in units of `2 ^ -1074`. -/
def units (x : Binary64) : Nat :=
  if x.biased.val = 0 then x.fraction.val
  else (twoTo 52 + x.fraction.val) * twoTo (x.biased.val - 1)

def isZero (x : Binary64) : Bool := x.units == 0

/-- The number with the given mantissa of at most 53 bits, `2 ^ 53` included, shifted left; `none` when it
lies beyond the largest finite number. A mantissa below `2 ^ 52` comes unshifted. -/
def ofMantissa (negative : Bool) (mantissa shift : Nat) : Option Binary64 :=
  if mantissa < twoTo 52 then some ⟨negative, 0, Fin.ofNat _ mantissa⟩
  else
    let (mantissa, shift) := if mantissa = twoTo 53 then (twoTo 52, shift + 1) else (mantissa, shift)
    if shift ≤ 2045 then
      some ⟨negative, Fin.ofNat _ (shift + 1), Fin.ofNat _ (mantissa - twoTo 52)⟩
    else none

/-- The double nearest to `num / den`, a half going to the even neighbour; `none` when that rounding
leaves the finite range. -/
def ofRatio (negative : Bool) (num den : Nat) : Option Binary64 :=
  let scaled := num * twoTo 1074
  let shift := (scaled / den).log2 - 52
  ofMantissa negative (roundHalfEven scaled (den * twoTo shift)) shift

def ofNat (n : Nat) : Option Binary64 := ofRatio false n 1

def mul (x y : Binary64) : Option Binary64 :=
  ofRatio (x.negative != y.negative) (x.units * y.units) (twoTo 2148)

def div (x y : Binary64) : Option Binary64 :=
  ofRatio (x.negative != y.negative) x.units y.units

def signedUnits (x : Binary64) : Int :=
  if x.negative then -(x.units : Int) else x.units

def between (lo hi : Int) (x : Binary64) : Bool :=
  lo * (twoTo 1074 : Nat) ≤ x.signedUnits && x.signedUnits ≤ hi * (twoTo 1074 : Nat)

end Binary64

end TableLoader
