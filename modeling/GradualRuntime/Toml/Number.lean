import GradualRuntime.Binary64
import GradualRuntime.Toml.Syntax

/-!
# Numbers and dates of TOML

Integers fit into 64 bits; an underscore may stand between two digits. A decimal integer has no
leading zero, and one in another base has no sign. A number with a fraction or an exponent must not
exceed the range of double precision upwards. A date has a day that its month has, a time a second
up to sixty.
-/

set_option autoImplicit false

namespace GradualRuntime.Toml

/-- Digits with single underscores between them. -/
def digitRun (accepts : Char → Bool) : List Char → List Char × List Char
  | '_' :: digit :: rest =>
    if accepts digit then
      let (digits, afterDigits) := digitRun accepts rest
      (digit :: digits, afterDigits)
    else ([], '_' :: digit :: rest)
  | digit :: rest =>
    if accepts digit then
      let (digits, afterDigits) := digitRun accepts rest
      (digit :: digits, afterDigits)
    else ([], digit :: rest)
  | [] => ([], [])

/-- At least one digit. -/
def digits (accepts : Char → Bool) : Reader (List Char)
  | digit :: rest =>
    if accepts digit then
      let (more, afterDigits) := digitRun accepts rest
      some (digit :: more, afterDigits)
    else none
  | [] => none

/-- The value of a digit in bases up to sixteen. -/
def digitValue (digit : Char) : Nat :=
  if digit.isDigit then digit.toNat - 48
  else if 'a' ≤ digit then digit.toNat - 87
  else digit.toNat - 55

/-- The number that digits denote in a base. -/
def numeral (base : Nat) (text : List Char) : Nat :=
  text.foldl (fun value digit ↦ value * base + digitValue digit) 0

/-- An optional sign: whether it is a minus, and the rest. -/
def sign : List Char → Bool × List Char
  | '-' :: rest => (true, rest)
  | '+' :: rest => (false, rest)
  | text => (false, text)

/-- The digits of a decimal integer: a lone zero, or digits that do not start with one. -/
def decimalDigits : Reader (List Char)
  | '0' :: rest => some (['0'], rest)
  | text => digits Char.isDigit text

/-- An integer that fits into 64 bits. -/
def bounded (value : Int) (rest : List Char) : Option (Value × List Char) :=
  if fitsInt64 value then some (.integer value, rest) else none

/-- A digit in base sixteen. -/
def isHexDigit (character : Char) : Bool :=
  character.isDigit || ('a' ≤ character && character ≤ 'f') ||
    ('A' ≤ character && character ≤ 'F')

/-- A digit in base eight. -/
def isOctalDigit (character : Char) : Bool := '0' ≤ character && character ≤ '7'

/-- A digit in base two. -/
def isBinaryDigit (character : Char) : Bool := character = '0' || character = '1'

/-- An integer. -/
def integer : Reader Value
  | '0' :: 'x' :: rest => do
    let (text, afterDigits) ← digits isHexDigit rest
    bounded (numeral 16 text : Nat) afterDigits
  | '0' :: 'o' :: rest => do
    let (text, afterDigits) ← digits isOctalDigit rest
    bounded (numeral 8 text : Nat) afterDigits
  | '0' :: 'b' :: rest => do
    let (text, afterDigits) ← digits isBinaryDigit rest
    bounded (numeral 2 text : Nat) afterDigits
  | text => do
    let (isNegative, afterSign) := sign text
    let (shown, rest) ← decimalDigits afterSign
    let magnitude : Int := (numeral 10 shown : Nat)
    bounded (if isNegative then -magnitude else magnitude) rest

/-- Whether the decimal `mantissa · 10 ^ exponent` rounds to infinity in double precision. -/
def exceedsDouble (mantissa : Nat) (exponent : Int) : Bool :=
  let places : Int := ((Nat.toDigits 10 mantissa).length : Int) + exponent
  if mantissa = 0 ∨ places < 308 then false
  else if 310 < places then true
  else
    decide
      ((twoTo 1024 - twoTo 970) * tenTo (-exponent).toNat ≤ mantissa * tenTo exponent.toNat)

/-- The fraction of a number, empty if there is none. -/
def fraction : Reader (List Char)
  | '.' :: rest => digits Char.isDigit rest
  | text => some ([], text)

/-- The exponent of a number, if there is one. -/
def exponent (text : List Char) : Option (Option Int × List Char) :=
  match text with
  | mark :: rest =>
    if mark = 'e' ∨ mark = 'E' then do
      let (isNegative, afterSign) := sign rest
      let (shown, afterDigits) ← digits Char.isDigit afterSign
      let magnitude : Int := (numeral 10 shown : Nat)
      return (some (if isNegative then -magnitude else magnitude), afterDigits)
    else some (none, text)
  | [] => some (none, [])

/-- The text that a reader has taken off. -/
def taken (text rest : List Char) : String := String.ofList (text.take (text.length - rest.length))

/-- A number with a fraction or an exponent, or one of the special numbers. -/
def float (text : List Char) : Option (Value × List Char) :=
  let (isNegative, afterSign) := sign text
  match afterSign with
  | 'i' :: 'n' :: 'f' :: rest => some (.float (taken text rest), rest)
  | 'n' :: 'a' :: 'n' :: rest => some (.float (taken text rest), rest)
  | _ => do
    let (whole, afterWhole) ← decimalDigits afterSign
    let (places, afterPlaces) ← fraction afterWhole
    let (power, rest) ← exponent afterPlaces
    if places.isEmpty && power.isNone then none
    else if !isNegative &&
        exceedsDouble (numeral 10 (whole ++ places)) (power.getD 0 - (places.length : Int)) then
      none
    else some (.float (taken text rest), rest)

/-- Exactly two digits. -/
def twoDigits : Reader Nat
  | tens :: ones :: rest =>
    if tens.isDigit ∧ ones.isDigit then some (numeral 10 [tens, ones], rest) else none
  | _ => none

/-- Two digits within bounds. -/
def twoDigitsWithin (least most : Nat) (text : List Char) : Option (Nat × List Char) := do
  let (value, rest) ← twoDigits text
  if least ≤ value ∧ value ≤ most then some (value, rest) else none

/-- Drops a given character. -/
def expect (character : Char) : List Char → Option (List Char)
  | found :: rest => if found = character then some rest else none
  | [] => none

/-- The number of days of a month. -/
def daysOfMonth (year month : Nat) : Nat :=
  if month = 2 then
    if year % 4 = 0 ∧ (year % 100 ≠ 0 ∨ year % 400 = 0) then 29 else 28
  else if month = 4 ∨ month = 6 ∨ month = 9 ∨ month = 11 then 30
  else 31

/-- Drops a calendar date. -/
def skipDate (text : List Char) : Option (List Char) := do
  let (century, afterCentury) ← twoDigits text
  let (yearOfCentury, afterYear) ← twoDigits afterCentury
  let (month, afterMonth) ← twoDigitsWithin 1 12 (← expect '-' afterYear)
  let (_, rest) ←
    twoDigitsWithin 1 (daysOfMonth (century * 100 + yearOfCentury) month) (← expect '-' afterMonth)
  return rest

/-- Drops a fraction of a second, if there is one. -/
def skipSubsecond : List Char → List Char
  | '.' :: digit :: rest =>
    if digit.isDigit then rest.dropWhile Char.isDigit else '.' :: digit :: rest
  | text => text

/-- Drops a time of day. -/
def skipTime (text : List Char) : Option (List Char) := do
  let (_, afterHour) ← twoDigitsWithin 0 23 text
  let (_, afterMinute) ← twoDigitsWithin 0 59 (← expect ':' afterHour)
  let (_, afterSecond) ← twoDigitsWithin 0 60 (← expect ':' afterMinute)
  return skipSubsecond afterSecond

/-- Drops an offset from universal time, if there is one. -/
def skipOffset : List Char → Option (List Char)
  | 'Z' :: rest => some rest
  | 'z' :: rest => some rest
  | mark :: rest =>
    if mark = '+' ∨ mark = '-' then do
      let (_, afterHour) ← twoDigitsWithin 0 23 rest
      let (_, afterMinute) ← twoDigitsWithin 0 59 (← expect ':' afterHour)
      return afterMinute
    else some (mark :: rest)
  | [] => some []

/-- Drops the time that follows a date, if one does. -/
def skipTimeOfDate (text : List Char) : Option (List Char) :=
  match text with
  | mark :: rest =>
    if mark = 'T' ∨ mark = 't' ∨ mark = ' ' then
      match (twoDigits rest).bind fun hour ↦ expect ':' hour.2 with
      | some _ => (skipTime rest).bind skipOffset
      | none => some text
    else some text
  | [] => some []

/-- A date, a time, or both. -/
def dateTime (text : List Char) : Option (Value × List Char) := do
  let rest ←
    match skipDate text with
    | some afterDate => skipTimeOfDate afterDate
    | none => skipTime text
  return (.dateTime (taken text rest), rest)

/-- A number or a date. -/
def number (text : List Char) : Option (Value × List Char) :=
  dateTime text <|> float text <|> integer text

end GradualRuntime.Toml
