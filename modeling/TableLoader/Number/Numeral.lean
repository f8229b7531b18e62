import TableLoader.Number.Decimal
import TableLoader.Text.LetterCase

/-!
# Numerals

The decimal numerals that count as numbers in cells, and the texts of numbers. A numeral is an optional
sign, digits with an optional point and at least one digit, and an optional exponent.
-/
namespace TableLoader

def natOfDigits (cs : List Char) : Nat := Nat.ofDigitChars 10 cs 0

def natText (n : Nat) : List Char := Nat.toDigits 10 n

def takeSign : List Char → Bool × List Char
  | '-' :: cs => (true, cs)
  | '+' :: cs => (false, cs)
  | cs => (false, cs)

def takeDigits (cs : List Char) : List Char × List Char :=
  (cs.takeWhile Char.isDigit, cs.dropWhile Char.isDigit)

/-- The exponent that ends a numeral: nothing, or `e` and an optionally signed digit string. -/
def exponentOfText? : List Char → Option Int
  | [] => some 0
  | c :: cs =>
    if c = 'e' ∨ c = 'E' then
      let (negative, cs) := takeSign cs
      let (digits, rest) := takeDigits cs
      if digits ≠ [] ∧ rest = [] then
        some (if negative then -(natOfDigits digits : Int) else natOfDigits digits)
      else none
    else none

def Decimal.ofText? (cs : List Char) : Option Decimal :=
  let (negative, cs) := takeSign cs
  let (whole, cs) := takeDigits cs
  let (fraction, cs) :=
    match cs with
    | '.' :: rest => takeDigits rest
    | _ => ([], cs)
  if whole = [] ∧ fraction = [] then none
  else
    (exponentOfText? cs).map fun exponent =>
      ⟨negative, natOfDigits (whole ++ fraction), exponent - fraction.length⟩

/-- The words that name a number that is not finite, in any case and with an optional sign. -/
def isNonFiniteWord (cs : List Char) : Bool :=
  [['i', 'n', 'f'], ['i', 'n', 'f', 'i', 'n', 'i', 't', 'y'], ['n', 'a', 'n']].any
    (Text.equalsIgnoringCase (takeSign cs).2)

def Binary64.ofText? (cs : List Char) : Option Binary64 :=
  (Decimal.ofText? cs).bind Decimal.toBinary64?

def namesDouble (cs : List Char) : Bool :=
  (Decimal.ofText? cs).isSome || isNonFiniteWord cs

/-- Digits and the place of the first one, written positionally from `10 ^ -5` up to below `10 ^ 16`, and
with an exponent that always bears a sign outside that range. -/
def numeralText (digits : List Char) (place : Int) : List Char :=
  if 0 ≤ place ∧ place ≤ 15 then
    let whole := place.toNat + 1
    let fraction := digits.drop whole
    (digits ++ List.replicate (whole - digits.length) '0').take whole ++
      '.' :: (if fraction = [] then ['0'] else fraction)
  else if -5 ≤ place ∧ place < 0 then
    '0' :: '.' :: List.replicate ((-place).toNat - 1) '0' ++ digits
  else
    let mantissa :=
      match digits with
      | first :: next :: more => first :: '.' :: next :: more
      | _ => digits
    mantissa ++ 'e' :: (if place < 0 then '-' else '+') :: natText place.natAbs

def Binary64.text (x : Binary64) : List Char :=
  let d := x.shortestDecimal
  let digits := natText d.coefficient
  let body :=
    if d.coefficient = 0 then ['0', '.', '0'] else numeralText digits (d.scale + digits.length - 1)
  if x.negative then '-' :: body else body

end TableLoader
