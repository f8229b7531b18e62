import TableLoader.Json.Value

/-!
# Reading JSON numbers

The literals of JSON numbers and the numbers they stand for. A literal without point and exponent that fits
64 bits is read exactly. Any other is read as a double: its first digits as far as they fit 64 bits are
rounded to a double, which is then multiplied or divided by a power of ten.
-/
namespace TableLoader

structure NumberLiteral where
  negative : Bool
  whole : List Char
  fraction : List Char
  exponent : Option Int
  deriving DecidableEq, Repr

namespace NumberLiteral

/-- Takes in digits while the significand fits 64 bits; gives it with the digits left over. -/
def gather (significand : Nat) : List Char → Nat × List Char
  | [] => (significand, [])
  | c :: cs =>
    let next := significand * 10 + (c.toNat - '0'.toNat)
    if next < twoTo 64 then gather next cs else (significand, c :: cs)

def divideByPower (fuel : Nat) (x : Binary64) (exponent : Nat) : Option Binary64 :=
  match fuel with
  | 0 => some x
  | fuel + 1 =>
    -- The greatest power of ten that a double holds is `10 ^ 308`.
    if exponent ≤ 308 then (Binary64.ofNat (tenTo exponent)).bind x.div
    else if x.isZero then some x
    else
      ((Binary64.ofNat (tenTo 308)).bind x.div).bind fun y => divideByPower fuel y (exponent - 308)

def scale (significand : Nat) (exponent : Int) : Option Binary64 :=
  (Binary64.ofNat significand).bind fun x =>
    if 0 ≤ exponent then
      if exponent ≤ 308 then (Binary64.ofNat (tenTo exponent.toNat)).bind x.mul
      else if x.isZero then some x
      else none
    else divideByPower ((-exponent).toNat / 308 + 1) x (-exponent).toNat

def toBinary64? (l : NumberLiteral) : Option Binary64 :=
  let (significand, dropped) := gather 0 l.whole
  let (significand, ignored) := gather significand l.fraction
  -- What does not fit counts as zeros before the point and as nothing behind it.
  let exponent : Int := dropped.length - (l.fraction.length - ignored.length : Nat)
  (scale significand (exponent + l.exponent.getD 0)).map fun x => { x with negative := l.negative }

/-- The number that a literal stands for. A minus sign before zero makes the double `-0.0`. -/
def toNumber? (l : NumberLiteral) : Option Number :=
  let n := natOfDigits l.whole
  if l.fraction ≠ [] ∨ l.exponent.isSome then l.toBinary64?.map .double
  else if l.negative then
    if h : n ≤ 9223372036854775808 ∧ 0 < n then some (.negative ⟨n - 1, by omega⟩)
    else l.toBinary64?.map .double
  else if h : n < 18446744073709551616 then some (.natural ⟨n, h⟩)
  else l.toBinary64?.map .double

def readWhole : List Char → Option (List Char × List Char)
  | '0' :: cs =>
    match cs with
    | c :: _ => if c.isDigit then none else some (['0'], cs)
    | [] => some (['0'], cs)
  | cs =>
    let (digits, rest) := takeDigits cs
    if digits = [] then none else some (digits, rest)

def readFraction : List Char → Option (List Char × List Char)
  | '.' :: cs =>
    let (digits, rest) := takeDigits cs
    if digits = [] then none else some (digits, rest)
  | cs => some ([], cs)

def readExponent : List Char → Option (Option Int × List Char)
  | c :: cs =>
    if c = 'e' ∨ c = 'E' then
      let (negative, cs) := takeSign cs
      let (digits, rest) := takeDigits cs
      if digits = [] then none
      else
        some (some (if negative then -(natOfDigits digits : Int) else natOfDigits digits), rest)
    else some (none, c :: cs)
  | [] => some (none, [])

def read (cs : List Char) : Option (NumberLiteral × List Char) := do
  let (negative, cs) :=
    match cs with
    | '-' :: cs => (true, cs)
    | cs => (false, cs)
  let (whole, cs) ← readWhole cs
  let (fraction, cs) ← readFraction cs
  let (exponent, cs) ← readExponent cs
  pure (⟨negative, whole, fraction, exponent⟩, cs)

end NumberLiteral

end TableLoader
