/-!
# Character codes

Characters given by their codes in hexadecimal digits.
-/
namespace TableLoader.Text

def hexValue? (c : Char) : Option Nat :=
  let n := c.toNat
  if 48 ≤ n ∧ n ≤ 57 then some (n - 48)
  else if 97 ≤ n ∧ n ≤ 102 then some (n - 87)
  else if 65 ≤ n ∧ n ≤ 70 then some (n - 55)
  else none

def isHexDigit (c : Char) : Bool := (hexValue? c).isSome

def hexNumber? (cs : List Char) : Option Nat :=
  if cs = [] then none
  else cs.foldlM (fun n c => (hexValue? c).map (16 * n + ·)) 0

def charOfCode? (n : Nat) : Option Char :=
  if h : n.isValidChar then some (Char.ofNatAux n h) else none

/-- The character with a code of exactly `width` hexadecimal digits, and what follows. -/
def readCode (width : Nat) (cs : List Char) : Option (Char × List Char) :=
  if cs.length < width then none
  else ((hexNumber? (cs.take width)).bind charOfCode?).map fun c => (c, cs.drop width)

end TableLoader.Text
