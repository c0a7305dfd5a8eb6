import TightLists.Toml.Quoted

/-!
# Numbers, dates and times

Integers are exact and lie in the range of signed and unsigned words of 128
bits.  A number with a fraction or an exponent must not be too large for a
double-precision float; it is kept as an exact decimal, `mantissa` times ten to
the `exponent`.

A moment is a date, a time of day, or both; with both there may be an offset from
universal time.  Dates follow the Gregorian calendar, and a minute may have a
leap second.
-/

namespace TightLists.Toml

/-! ## Numbers -/

/-- The digits of a number that may have single underscores between them. -/
def ungrouped? (isDigit : Char → Bool) (word : Text) : Option Text :=
  let groups := word.splitOn '_'
  if groups.all fun group => group ≠ [] && group.all isDigit then some groups.flatten
  else none

/-- The number that digits spell in a base. -/
def digitsValue (base : Nat) (digits : Text) : Nat :=
  digits.foldl (fun value digit => value * base + (hexDigit? digit).getD 0) 0

/-- The digits of a decimal number without needless leading zeros. -/
def decimalDigits? (word : Text) : Option Text :=
  match ungrouped? Char.isDigit word with
  | some digits => if digits.head? = some '0' ∧ digits ≠ ['0'] then none else some digits
  | none => none

/-- A sign, if there is one, and the rest of a word.  A sign is one or minus
one. -/
def splitSign : Text → Int × Text
  | '-' :: rest => (-1, rest)
  | '+' :: rest => (1, rest)
  | word => (1, word)

def isDigitOf (base : Nat) (character : Char) : Bool :=
  match hexDigit? character with
  | some value => value < base
  | none => false

/-- The base that a number names with its first two characters, and the
rest. -/
def namedBase? : Text → Option (Nat × Text)
  | '0' :: 'x' :: rest => some (16, rest)
  | '0' :: 'o' :: rest => some (8, rest)
  | '0' :: 'b' :: rest => some (2, rest)
  | _ => none

/-- The integer that a word spells: with a base named in front, or in decimal with a
sign. -/
def wholeNumber? (word : Text) : Option Int :=
  match namedBase? word with
  | some (base, digits) =>
      (ungrouped? (isDigitOf base) digits).map fun digits => (digitsValue base digits : Int)
  | none =>
      let (sign, unsigned) := splitSign word
      (decimalDigits? unsigned).map fun digits => sign * (digitsValue 10 digits : Int)

/-- Whether an integer fits into a signed or an unsigned word of 128 bits. -/
def isHeld (number : Int) : Bool :=
  -(Int.pow 2 127) ≤ number && number < Int.pow 2 128

/-- The number `mantissa` times ten to the `exponent`. -/
structure Decimal where
  mantissa : Int
  exponent : Int
  deriving DecidableEq, Repr

/-- The smallest number that rounds to infinity: half a step above the largest
double-precision float. -/
def floatBound : Nat :=
  Nat.pow 2 1024 - Nat.pow 2 970

/-- Whether a decimal number is too large for a double-precision float.  How
many digits stand before the point decides most cases, so that the comparison
never meets a power of ten that the spelling does not pay for. -/
def Decimal.overflows (decimal : Decimal) : Bool :=
  let magnitude := decimal.mantissa.natAbs
  let wholeDigits := (Nat.toDigits 10 magnitude).length + decimal.exponent
  if magnitude = 0 ∨ wholeDigits < 309 then false
  else if 309 < wholeDigits then true
  else if 0 ≤ decimal.exponent then
    floatBound ≤ magnitude * Nat.pow 10 decimal.exponent.toNat
  else floatBound * Nat.pow 10 (-decimal.exponent).toNat ≤ magnitude

/-- The part of a word before the first character of a kind and the part
after it, which is missing when there is no such character. -/
def splitAtFirst (isCut : Char → Bool) (word : Text) : Text × Option Text :=
  match word.dropWhile fun character => !isCut character with
  | [] => (word, none)
  | _ :: after => (word.takeWhile fun character => !isCut character, some after)

/-- The exponent that a number spells after its mark; zero when it spells
none. -/
def exponent? : Option Text → Option Int
  | none => some 0
  | some word =>
      let (sign, unsigned) := splitSign word
      (ungrouped? Char.isDigit unsigned).map fun digits => sign * (digitsValue 10 digits : Int)

/-- The digits of a fraction; none when there is no fraction. -/
def fraction? : Option Text → Option Text
  | none => some []
  | some word => ungrouped? Char.isDigit word

/-- The decimal number that a word with a fraction or an exponent spells. -/
def decimal? (word : Text) : Option Decimal :=
  let (sign, unsigned) := splitSign word
  let (front, power) := splitAtFirst (fun character => character = 'e' || character = 'E') unsigned
  let (whole, part) := splitAtFirst (· = '.') front
  if power = none ∧ part = none then none
  else
    match decimalDigits? whole, fraction? part, exponent? power with
    | some wholeDigits, some fractionDigits, some exponent =>
        some
          { mantissa := sign * (digitsValue 10 (wholeDigits ++ fractionDigits) : Int)
            exponent := exponent - (fractionDigits.length : Int) }
    | _, _, _ => none

/-- Whether a word spells infinity or no number at all. -/
def isSpecialFloat (word : Text) : Bool :=
  let unsigned := (splitSign word).2
  unsigned == ['i', 'n', 'f'] || unsigned == ['n', 'a', 'n']

/-! ## Dates and times -/

/-- A date as it is spelled.  The calendar may not have it. -/
structure Date where
  year : Nat
  month : Nat
  day : Nat
  deriving DecidableEq, Repr

def isLeapYear (year : Nat) : Bool :=
  year % 4 = 0 && year % 100 ≠ 0 || year % 400 = 0

def daysIn (year month : Nat) : Nat :=
  if month = 2 then if isLeapYear year then 29 else 28
  else if month = 4 ∨ month = 6 ∨ month = 9 ∨ month = 11 then 30
  else 31

def Date.isValid (date : Date) : Bool :=
  1 ≤ date.month && date.month ≤ 12 && 1 ≤ date.day &&
    date.day ≤ daysIn date.year date.month

/-- A time of day, with the digits of the fraction of its second. -/
structure TimeOfDay where
  hour : Nat
  minute : Nat
  second : Nat
  fraction : Text
  deriving DecidableEq, Repr

/-- Whether a day has such a time.  Second sixty is a leap second, at any minute. -/
def TimeOfDay.isValid (time : TimeOfDay) : Bool :=
  time.hour ≤ 23 && time.minute ≤ 59 && time.second ≤ 60

/-- A date, a time of day, or both, then perhaps with an offset in minutes. -/
structure Moment where
  date : Option Date
  time : Option TimeOfDay
  offset : Option Int
  deriving DecidableEq, Repr

/-- Reads a number of exactly so many digits. -/
def readDigits (count : Nat) : Reader Nat := fun text =>
  let digits := text.take count
  if digits.length = count ∧ digits.all Char.isDigit then
    some (digitsValue 10 digits, text.drop count)
  else none

def readMark (mark : Char) : Reader Unit
  | character :: rest => if character = mark then some ((), rest) else none
  | [] => none

def readDate : Reader Date := fun text => do
  let (year, text) ← readDigits 4 text
  let ((), text) ← readMark '-' text
  let (month, text) ← readDigits 2 text
  let ((), text) ← readMark '-' text
  let (day, text) ← readDigits 2 text
  let date : Date := { year := year, month := month, day := day }
  if date.isValid then some (date, text) else none

/-- Reads the fraction of a second, which may be missing but not empty. -/
def readFraction : Reader Text
  | '.' :: rest =>
      let digits := rest.takeWhile Char.isDigit
      if digits = [] then none else some (digits, rest.dropWhile Char.isDigit)
  | text => some ([], text)

def readTime : Reader TimeOfDay := fun text => do
  let (hour, text) ← readDigits 2 text
  let ((), text) ← readMark ':' text
  let (minute, text) ← readDigits 2 text
  let ((), text) ← readMark ':' text
  let (second, text) ← readDigits 2 text
  let (fraction, text) ← readFraction text
  let time : TimeOfDay :=
    { hour := hour, minute := minute, second := second, fraction := fraction }
  if time.isValid then some (time, text) else none

/-- Reads hours and minutes of an offset with the given sign. -/
def readOffsetAmount (sign : Int) : Reader (Option Int) := fun text => do
  let (hours, text) ← readDigits 2 text
  let ((), text) ← readMark ':' text
  let (minutes, text) ← readDigits 2 text
  if hours ≤ 23 ∧ minutes ≤ 59 then some (some (sign * (hours * 60 + minutes : Nat)), text)
  else none

/-- Reads an offset, if there is one.  A single letter stands for universal time
itself. -/
def readOffset : Reader (Option Int)
  | 'Z' :: rest => some (some 0, rest)
  | 'z' :: rest => some (some 0, rest)
  | '+' :: rest => readOffsetAmount 1 rest
  | '-' :: rest => readOffsetAmount (-1) rest
  | text => some (none, text)

/-- Whether a character may stand between a date and a time. -/
def isDateEnd (character : Char) : Bool :=
  character == 'T' || character == 't' || character == ' '

/-- The moment that a word spells.  Only a date with a time may have an offset. -/
def moment? (word : Text) : Option Moment :=
  match readDate word with
  | some (date, []) => some { date := date, time := none, offset := none }
  | some (date, mark :: text) =>
      if isDateEnd mark then
        match readTime text with
        | some (time, text) =>
            match readOffset text with
            | some (offset, []) => some { date := date, time := time, offset := offset }
            | _ => none
        | none => none
      else none
  | none =>
      match readTime word with
      | some (time, []) => some { date := none, time := time, offset := none }
      | _ => none

end TightLists.Toml
