import TableLoader.Number.Numeral

/-!
# Dates

The texts that are recognised as dates and times. Every part has a fixed width, and the date must exist in
the Gregorian calendar, carried back to the year 0.
-/
namespace TableLoader.Calendar

def isLeapYear (year : Nat) : Bool :=
  year % 4 == 0 && (year % 100 != 0 || year % 400 == 0)

def daysInMonth (year month : Nat) : Nat :=
  match month with
  | 2 => if isLeapYear year then 29 else 28
  | 4 | 6 | 9 | 11 => 30
  | 1 | 3 | 5 | 7 | 8 | 10 | 12 => 31
  | _ => 0

def isDate (year month day : Nat) : Bool := 1 ≤ day && day ≤ daysInMonth year month

/-- A time of day; the sixtieth second is a leap second. -/
def isTime (hour minute second : Nat) : Bool := hour ≤ 23 && minute ≤ 59 && second ≤ 60

/-- Whether a text has a shape, in which `9` stands for an ASCII digit and any other character for
itself. -/
def fits : List Char → List Char → Bool
  | [], [] => true
  | s :: shape, c :: cs => (if s = '9' then c.isDigit else s == c) && fits shape cs
  | _, _ => false

def numberAt (start width : Nat) (cs : List Char) : Nat :=
  natOfDigits ((cs.drop start).take width)

def isDateOfShape (shape : String) (year month day : Nat) (cs : List Char) : Bool :=
  fits shape.toList cs && isDate (numberAt year 4 cs) (numberAt month 2 cs) (numberAt day 2 cs)

def isTimeAfterDate (cs : List Char) : Bool :=
  isTime (numberAt 11 2 cs) (numberAt 14 2 cs) (numberAt 17 2 cs)

def afterFraction? : List Char → Option (List Char)
  | '.' :: cs =>
    let (digits, rest) := takeDigits cs
    if digits = [] then none else some rest
  | cs => some cs

/-- The offset that ends a timestamp: `Z`, or a sign with hours and minutes. -/
def isOffset (cs : List Char) : Bool :=
  match cs with
  | ['Z'] | ['z'] => true
  | sign :: rest =>
    (sign == '+' || sign == '-' || sign == '\u2212') && fits "99:99".toList rest &&
      numberAt 0 2 rest ≤ 23 && numberAt 3 2 rest ≤ 59
  | [] => false

def isTimestamp (cs : List Char) : Bool :=
  isDateOfShape "9999-99-99T99:99:99" 0 5 8 (cs.take 19) && isTimeAfterDate cs &&
    (afterFraction? (cs.drop 19)).any isOffset

def isRecognized (cs : List Char) : Bool :=
  isDateOfShape "9999-99-99" 0 5 8 cs ||
  (isDateOfShape "9999-99-99 99:99:99" 0 5 8 cs && isTimeAfterDate cs) ||
  isDateOfShape "99/99/9999" 6 0 3 cs ||
  isDateOfShape "99/99/9999" 6 3 0 cs ||
  isDateOfShape "9999/99/99" 0 5 8 cs ||
  isTimestamp cs

end TableLoader.Calendar
