/-!
# Numbers and dates in TOML

Which words are numbers or dates. Digits may be grouped by single underscores. Integers have to fit
in 64 bits with a sign, positive floating-point numbers must not round to infinity, and dates have to
exist.
-/

namespace GoBuild.Toml

/-- The word consists of digits, in groups with single underscores between them. -/
def isDigits (digit : Char → Bool) (word : List Char) : Bool :=
  (word.splitOn '_').all fun group => !group.isEmpty && group.all digit

/-- The word is a decimal number without sign and without leading zeros. -/
def isDecimal : List Char → Bool
  | ['0'] => true
  | '0' :: _ => false
  | word => isDigits Char.isDigit word

/-- The number that digits write, in the base given; underscores are passed over. -/
def valueOf (base : Nat) (word : List Char) : Nat :=
  (word.filter (· ≠ '_')).foldl (fun n c =>
    n * base + (if c.isDigit then c.toNat - '0'.toNat else c.toLower.toNat - 'a'.toNat + 10)) 0

/-- The character is a hexadecimal digit. -/
def isHexDigit (c : Char) : Bool :=
  c.isDigit || ('a' ≤ c && c ≤ 'f') || ('A' ≤ c && c ≤ 'F')

/-- The word without a sign at its beginning, and whether that sign is a minus. -/
def unsigned : List Char → Bool × List Char
  | '+' :: word => (false, word)
  | '-' :: word => (true, word)
  | word => (false, word)

/-- The number that digits write is at most `bound`, where `bound` is below `2 ^ 64`. More than 64
digits after the leading zeros are too many in every base. -/
def isAtMost (bound base : Nat) (word : List Char) : Bool :=
  let digits := (word.filter (· ≠ '_')).dropWhile (· = '0')
  digits.length ≤ 64 && valueOf base digits ≤ bound

/-- The largest integer of 64 bits with a sign. -/
def maxInteger : Nat := Nat.pow 2 63 - 1

/-- The word is an integer of 64 bits. -/
def isInteger (word : List Char) : Bool :=
  match word with
  | '0' :: 'x' :: digits => isDigits isHexDigit digits && isAtMost maxInteger 16 digits
  | '0' :: 'o' :: digits =>
    isDigits (fun c => '0' ≤ c && c ≤ '7') digits && isAtMost maxInteger 8 digits
  | '0' :: 'b' :: digits =>
    isDigits (fun c => c = '0' || c = '1') digits && isAtMost maxInteger 2 digits
  | _ =>
    let (negative, digits) := unsigned word
    isDecimal digits && isAtMost (if negative then maxInteger + 1 else maxInteger) 10 digits

/-- The parts of a floating-point number: the digits before the point, those after it, and the
exponent. -/
structure FloatParts where
  whole : List Char
  fraction : List Char
  exponent : Int

/-- The character is a digit or an underscore. -/
def isGroupChar (c : Char) : Bool := c.isDigit || c = '_'

/-- From here on an exponent is far beyond every floating-point number of a usual length. -/
def exponentCap : Nat := 65536

/-- The size of the exponent that digits write; underscores are passed over, and so is every digit
after those that bring it to `exponentCap`. -/
def exponentSize (word : List Char) : Nat :=
  (word.filter (· ≠ '_')).foldl (fun n c =>
    if n < exponentCap then n * 10 + (c.toNat - '0'.toNat) else n) 0

/-- The exponent that the characters write. -/
def exponent? : List Char → Option Int
  | e :: rest =>
    let (negative, digits) := unsigned rest
    if (e = 'e' || e = 'E') && isDigits Char.isDigit digits then
      some (if negative then -(exponentSize digits) else exponentSize digits)
    else none
  | [] => none

/-- The parts of a floating-point number without sign. -/
def floatParts? (word : List Char) : Option FloatParts :=
  let whole := word.takeWhile isGroupChar
  if !isDecimal whole then none
  else
    match word.dropWhile isGroupChar with
    | '.' :: rest =>
      let fraction := rest.takeWhile isGroupChar
      if !isDigits Char.isDigit fraction then none
      else
        match rest.dropWhile isGroupChar with
        | [] => some ⟨whole, fraction, 0⟩
        | more => (exponent? more).map fun e => ⟨whole, fraction, e⟩
    | rest => (exponent? rest).map fun e => ⟨whole, [], e⟩

/-- The least number that rounds to infinity: the midpoint between the largest finite number of 64
bits and the next power of two. It is an integer of `overflowSize` digits. -/
def overflowBound : Nat := Nat.pow 2 1024 - Nat.pow 2 970

/-- The number of decimal digits of `overflowBound`. -/
def overflowSize : Nat := 309

/-- The number is so large that it rounds to infinity. Only as many leading digits count as the bound
has, because the bound is an integer. -/
def FloatParts.overflows (f : FloatParts) : Bool :=
  let fraction := f.fraction.filter (· ≠ '_')
  let digits := (f.whole.filter (· ≠ '_') ++ fraction).dropWhile (· = '0')
  let size := digits.length + f.exponent - fraction.length
  if digits.isEmpty || size < overflowSize then false
  else if overflowSize < size then true
  else
    overflowBound ≤
      valueOf 10 ((digits ++ List.replicate overflowSize '0').take overflowSize)

/-- The word is a floating-point number. -/
def isFloat (word : List Char) : Bool :=
  let (negative, magnitude) := unsigned word
  magnitude = ['i', 'n', 'f'] || magnitude = ['n', 'a', 'n'] ||
    match floatParts? magnitude with
    | some parts => negative || !parts.overflows
    | none => false

/-- The number of days of a month. -/
def daysIn (year month : Nat) : Nat :=
  if month = 2 then
    (if year % 4 = 0 && (year % 100 ≠ 0 || year % 400 = 0) then 29 else 28)
  else if month = 4 || month = 6 || month = 9 || month = 11 then 30
  else 31

/-- The number that two digits write is between the bounds. -/
def inRange (lo hi : Nat) (digits : List Char) : Bool :=
  digits.all Char.isDigit && lo ≤ valueOf 10 digits && valueOf 10 digits ≤ hi

/-- The word is a day of the calendar. -/
def isDate : List Char → Bool
  | [y1, y2, y3, y4, '-', m1, m2, '-', d1, d2] =>
    let month := [m1, m2]
    inRange 0 9999 [y1, y2, y3, y4] && inRange 1 12 month &&
      inRange 1 (daysIn (valueOf 10 [y1, y2, y3, y4]) (valueOf 10 month)) [d1, d2]
  | _ => false

/-- The word is a time of day; the last second may be a leap second. -/
def isTime : List Char → Bool
  | h1 :: h2 :: ':' :: m1 :: m2 :: ':' :: s1 :: s2 :: rest =>
    inRange 0 23 [h1, h2] && inRange 0 59 [m1, m2] && inRange 0 60 [s1, s2] &&
      match rest with
      | [] => true
      | '.' :: digits => !digits.isEmpty && digits.all Char.isDigit
      | _ => false
  | _ => false

/-- The word is a distance from universal time. -/
def isOffset : List Char → Bool
  | ['Z'] | ['z'] => true
  | [sign, h1, h2, ':', m1, m2] =>
    (sign = '+' || sign = '-') && inRange 0 23 [h1, h2] && inRange 0 59 [m1, m2]
  | _ => false

/-- The word is a time of day, with a distance from universal time or without. -/
def isZonedTime (word : List Char) : Bool :=
  let isClockChar (c : Char) : Bool := c.isDigit || c = ':' || c = '.'
  isTime (word.takeWhile isClockChar) &&
    (match word.dropWhile isClockChar with
      | [] => true
      | offset => isOffset offset)

/-- The word is a day, a time of day, or both with the letter `T` between them. -/
def isDateTime (word : List Char) : Bool :=
  isDate word || isTime word ||
    match word.drop 10 with
    | t :: time => (t = 'T' || t = 't') && isDate (word.take 10) && isZonedTime time
    | [] => false

end GoBuild.Toml
