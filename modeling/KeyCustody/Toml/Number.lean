import KeyCustody.Number.Binary64
import KeyCustody.Text.Reader

/-!
# Numbers and moments in TOML

A number or a moment is a run of letters, digits and a few signs, and what it is depends on the
whole run. An integer has to fit into 64 bits with a sign. A decimal number may be infinite only
by name, so a positive one that is too large is refused. A moment is a date, a time of day, or
both, and a date has to exist.

## Main definitions

* `Toml.isInteger`, `Toml.isDecimal` — the numbers
* `Toml.isDate`, `Toml.isTime`, `Toml.isDateTime` — the moments
-/

namespace KeyCustody.Toml

/-! ## Runs of digits -/

/-- Digits, between any two of which an underscore may stand, after a first digit. -/
def digitsContinue (isDigit : Char → Bool) : List Char → Bool
  | [] => true
  | '_' :: c :: rest => isDigit c && digitsContinue isDigit rest
  | c :: rest => isDigit c && digitsContinue isDigit rest

/-- One or more digits, between any two of which an underscore may stand. -/
def isDigits (isDigit : Char → Bool) : List Char → Bool
  | [] => false
  | c :: rest => isDigit c && digitsContinue isDigit rest

/-- The digits of a run without its underscores. -/
def withoutUnderscores (s : List Char) : List Char := s.filter (· ≠ '_')

/-- Splits a sign off the front, and tells whether it is a minus. -/
def splitSign : List Char → Bool × List Char
  | '+' :: rest => (false, rest)
  | '-' :: rest => (true, rest)
  | s => (false, s)

/-- A decimal whole number without sign: zero, or digits that begin with another. -/
def isWhole (s : List Char) : Bool :=
  s == ['0'] || (s.head? != some '0' && isDigits Char.isDigit s)

/-! ## Integers -/

/-- One beyond the largest integer. -/
def integerLimit : Nat := 0x8000000000000000

/-- Whether digits in a base are below a limit. -/
def isBelow (limit base : Nat) (s : List Char) : Bool :=
  match Reader.natural? base (withoutUnderscores s) with
  | some n => n < limit
  | none => false

/-- A digit of a base. -/
def isDigitOf (base : Nat) (c : Char) : Bool :=
  match Reader.digitValue? c with
  | some d => d < base
  | none => false

/-- A number in a base other than ten, after the mark of its base. -/
def isBased (base : Nat) (s : List Char) : Bool :=
  isDigits (isDigitOf base) s && isBelow integerLimit base s

/-- A whole number with or without sign, or one in a base that is a power of two. -/
def isInteger : List Char → Bool
  | '0' :: 'x' :: rest => isBased 16 rest
  | '0' :: 'o' :: rest => isBased 8 rest
  | '0' :: 'b' :: rest => isBased 2 rest
  | s =>
    let (negative, digits) := splitSign s
    isWhole digits && isBelow (if negative then integerLimit + 1 else integerLimit) 10 digits

/-! ## Decimal numbers -/

/-- The parts of a decimal number. -/
structure Decimal where
  negative : Bool
  whole : List Char
  fraction : List Char
  exponentNegative : Bool
  exponent : List Char
deriving DecidableEq, Repr

/-- Characters of a run of digits. -/
def isDigitOrUnderscore (c : Char) : Bool := c.isDigit || c == '_'

/-- The exponent of a decimal number: a letter, a sign or none, and digits. Nothing at all is an
exponent of zero. -/
def exponentOf? : List Char → Option (Bool × List Char)
  | [] => some (false, ['0'])
  | c :: rest =>
    let (negative, digits) := splitSign rest
    if (c = 'e' ∨ c = 'E') ∧ isDigits Char.isDigit digits then some (negative, digits) else none

/-- The parts of a decimal number: it needs a fraction or an exponent. -/
def decimalOf? (s : List Char) : Option Decimal :=
  let (negative, unsigned) := splitSign s
  let whole := unsigned.takeWhile isDigitOrUnderscore
  if isWhole whole then
    match unsigned.dropWhile isDigitOrUnderscore with
    | [] => none
    | '.' :: rest =>
      let fraction := rest.takeWhile isDigitOrUnderscore
      if isDigits Char.isDigit fraction then
        (exponentOf? (rest.dropWhile isDigitOrUnderscore)).map fun (n, e) =>
          ⟨negative, whole, fraction, n, e⟩
      else none
    | rest => (exponentOf? rest).map fun (n, e) => ⟨negative, whole, [], n, e⟩
  else none

/-- A power of ten that no number with so many digits needs in order to be infinite or zero. -/
def exponentBound (d : Decimal) : Nat := d.whole.length + d.fraction.length + 400

/-- The magnitude of a decimal number as a binary one. -/
def Decimal.magnitude (d : Decimal) : Binary64 :=
  let fraction := withoutUnderscores d.fraction
  let digits := (Reader.natural? 10 (withoutUnderscores d.whole ++ fraction)).getD 0
  let exponent :=
    min ((Reader.natural? 10 (withoutUnderscores d.exponent)).getD 0) (exponentBound d)
  if d.exponentNegative then .ofDecimal false digits (fraction.length + exponent)
  else .ofDecimal false (digits * Nat.pow 10 exponent) fraction.length

/-- A decimal number, or infinity or the absence of a number by name. -/
def isDecimal (s : List Char) : Bool :=
  match decimalOf? s with
  | some d => d.negative || d.magnitude.isFinite
  | none =>
    let (_, name) := splitSign s
    name == ['i', 'n', 'f'] || name == ['n', 'a', 'n']

/-! ## Moments -/

/-- The value of exactly so many digits. -/
def digitsValue? (count : Nat) (s : List Char) : Option Nat :=
  if s.length = count then Reader.natural? 10 s else none

/-- Whether the value of two digits is in a range. -/
def isPairWithin (low high : Nat) (s : List Char) : Bool :=
  match digitsValue? 2 s with
  | some n => low ≤ n && n ≤ high
  | none => false

/-- The length of a month in a year. -/
def monthLength (year month : Nat) : Nat :=
  if month = 2 then
    if year % 4 = 0 ∧ (year % 100 ≠ 0 ∨ year % 400 = 0) then 29 else 28
  else if month = 4 ∨ month = 6 ∨ month = 9 ∨ month = 11 then 30
  else 31

/-- A date: four digits for the year, two for the month and two for the day. -/
def isDate (s : List Char) : Bool :=
  match s with
  | [a, b, c, d, '-', m, n, '-', x, y] =>
    match digitsValue? 4 [a, b, c, d], digitsValue? 2 [m, n] with
    | some year, some month =>
      1 ≤ month && month ≤ 12 && isPairWithin 1 (monthLength year month) [x, y]
    | _, _ => false
  | _ => false

/-- A time of day: hours, minutes and seconds, and a fraction of a second. A leap second is
admitted. -/
def isTime : List Char → Bool
  | h :: i :: ':' :: m :: n :: ':' :: s :: t :: rest =>
    isPairWithin 0 23 [h, i] && isPairWithin 0 59 [m, n] && isPairWithin 0 60 [s, t] &&
      match rest with
      | [] => true
      | '.' :: fraction => fraction != [] && fraction.all Char.isDigit
      | _ => false
  | _ => false

/-- An offset from universal time: a letter, or hours and minutes with a sign. -/
def isOffset : List Char → Bool
  | [c] => c == 'Z' || c == 'z'
  | [sign, h, i, ':', m, n] =>
    (sign == '+' || sign == '-') && isPairWithin 0 23 [h, i] && isPairWithin 0 59 [m, n]
  | _ => false

/-- Characters of a time of day. -/
def isTimeCharacter (c : Char) : Bool := c.isDigit || c == ':' || c == '.'

/-- A time of day with or without an offset. -/
def isOffsetTime (s : List Char) : Bool :=
  let offset := s.dropWhile isTimeCharacter
  isTime (s.takeWhile isTimeCharacter) && (offset == [] || isOffset offset)

/-- A date and a time of day with a letter between them. -/
def isDateTime (s : List Char) : Bool :=
  isDate (s.take 10) &&
    match s.drop 10 with
    | c :: rest => (c == 'T' || c == 't') && isOffsetTime rest
    | [] => false

end KeyCustody.Toml
