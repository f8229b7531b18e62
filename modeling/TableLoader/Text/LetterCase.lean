/-!
# Letter case

Upper-case and lower-case mappings for comparisons with ASCII words. A character whose Unicode mapping
holds an ASCII letter is mapped in full, so `ß` gives `SS` and `ı` gives `I`; every other character stands
for itself, which no ASCII word can tell from its mapping.
-/
namespace TableLoader.Text

def upper (c : Char) : List Char :=
  if c.toNat < 128 then [c.toUpper]
  else
    match c.toNat with
    | 0x00DF => ['S', 'S']
    | 0x0131 => ['I']
    | 0x0149 => ['\u02BC', 'N']
    | 0x017F => ['S']
    | 0x01F0 => ['J', '\u030C']
    | 0x1E96 => ['H', '\u0331']
    | 0x1E97 => ['T', '\u0308']
    | 0x1E98 => ['W', '\u030A']
    | 0x1E99 => ['Y', '\u030A']
    | 0x1E9A => ['A', '\u02BE']
    | 0xFB00 => ['F', 'F']
    | 0xFB01 => ['F', 'I']
    | 0xFB02 => ['F', 'L']
    | 0xFB03 => ['F', 'F', 'I']
    | 0xFB04 => ['F', 'F', 'L']
    | 0xFB05 => ['S', 'T']
    | 0xFB06 => ['S', 'T']
    | _ => [c]

def lower (c : Char) : List Char :=
  if c.toNat < 128 then [c.toLower]
  else
    match c.toNat with
    | 0x0130 => ['i', '\u0307']
    | 0x212A => ['k']
    | _ => [c]

def toUpper (cs : List Char) : List Char := cs.flatMap upper

def toLower (cs : List Char) : List Char := cs.flatMap lower

def equalsIgnoringCase (a b : List Char) : Bool :=
  a.map Char.toLower == b.map Char.toLower

/-- Whether `c` is the lower-case ASCII letter `letter` under simple case folding, in which the Kelvin
sign folds to `k` and the long s to `s`. -/
def foldsTo (letter c : Char) : Bool :=
  c.toLower == letter || (letter == 'k' && c == '\u212A') || (letter == 's' && c == '\u017F')

end TableLoader.Text
