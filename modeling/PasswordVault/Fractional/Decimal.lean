import PasswordVault.Fractional

/-!
# Decimal text of numbers in double precision

A number is written with the fewest digits that read back to it, the nearest of those to its exact
value. Reading takes every decimal text and rounds once.

## Main definitions

- `Fractional.decimal` — the fewest digits that read back, and where the point stands
- `Fractional.toText` — the text of a number
- `Fractional.ofText?` — the number that a text denotes
-/

namespace PasswordVault.Fractional

/-- Where the decimal point stands in a positive magnitude: the least `k` for which the magnitude
is below ten to the power of `k`. -/
def pointOf (units : Nat) : Int :=
  (Nat.toDigits 10 ((units * Nat.pow 10 maxOrder) >>> unitShift)).length - maxOrder

/-- The decimal with `count` digits nearest to a positive magnitude, if it reads back to it: the
digits, and where the decimal point stands. The two neighbours of the magnitude on the grid of such
decimals are tried, the nearer one first; the upper one may be the next power of ten. -/
def decimalOf? (units : Nat) (count : Nat) : Option (List Char × Int) :=
  let point := pointOf units
  let places := count - point
  let num := units * Nat.pow 10 places.toNat
  let den := Nat.pow 10 (-places).toNat <<< unitShift
  let nearer := roundDiv num den
  let other := if nearer * den ≤ num then nearer + 1 else nearer - 1
  let readsBack (digits : Nat) := ofDecimal false digits (-places) = .finite false units
  ([nearer, other].find? readsBack).map fun found =>
    let digits := Nat.toDigits 10 found
    (digits, point + digits.length - count)

/-- The most digits that are needed to tell two numbers apart. -/
def maxDigits : Nat := 17

/-- The fewest digits that read back to a positive magnitude, and where the decimal point stands. -/
def decimal (units : Nat) : List Char × Int :=
  match (List.range maxDigits).findSome? fun fewer => decimalOf? units (fewer + 1) with
  | some (digits, point) => ((digits.reverse.dropWhile (· == '0')).reverse, point)
  | none => (Nat.toDigits 10 units, pointOf units)

/-- The exponent of a number written with one digit before the point: a sign and two digits or
more. -/
def exponentText (exponent : Int) : List Char :=
  let magnitude := Nat.toDigits 10 exponent.natAbs
  let zeros := List.replicate (2 - magnitude.length) '0'
  'e' :: (if exponent < 0 then '-' else '+') :: (zeros ++ magnitude)

/-- Digits laid out around a decimal point. Numbers from a ten thousandth up to ten to the power of
sixteen are written positionally, with a zero for a missing part; all others with an exponent. -/
def layOut (digits : List Char) (point : Int) : List Char :=
  let zeros (count : Int) := List.replicate count.toNat '0'
  if point < -3 ∨ 16 < point then
    let behind := digits.drop 1
    digits.take 1 ++ (if behind.isEmpty then [] else '.' :: behind) ++ exponentText (point - 1)
  else if point ≤ 0 then '0' :: '.' :: zeros (-point) ++ digits
  else
    let behind := digits.drop point.toNat
    digits.take point.toNat ++ zeros (point - digits.length) ++ '.' ::
      (if behind.isEmpty then ['0'] else behind)

def toText : Fractional → String
  | .notANumber => "nan"
  | .infinite negative => if negative then "-inf" else "inf"
  | .finite negative units =>
    let (digits, point) := decimal units
    let magnitude := if units = 0 then ['0', '.', '0'] else layOut digits point
    String.ofList (if negative then '-' :: magnitude else magnitude)

/-- The number of decimal digits, which single underscores may separate, and how many there are;
and what follows them. -/
def readDigits (number count : Nat) : List Char → Nat × Nat × List Char
  | '_' :: c :: rest =>
    if c.isDigit ∧ count ≠ 0 then
      readDigits (number * 10 + (c.toNat - '0'.toNat)) (count + 1) rest
    else (number, count, '_' :: c :: rest)
  | c :: rest =>
    if c.isDigit then readDigits (number * 10 + (c.toNat - '0'.toNat)) (count + 1) rest
    else (number, count, c :: rest)
  | [] => (number, count, [])

/-- The exponent that stands at the end of a decimal, which is zero where nothing stands. -/
def readExponent? : List Char → Option Int
  | [] => some 0
  | mark :: rest =>
    if mark ≠ 'e' ∧ mark ≠ 'E' then none
    else
      let (negative, rest) : Bool × List Char :=
        match rest with
        | '-' :: rest => (true, rest)
        | '+' :: rest => (false, rest)
        | rest => (false, rest)
      match readDigits 0 0 rest with
      | (_, 0, _) => none
      | (exponent, _, []) => some (if negative then -(exponent : Int) else exponent)
      | _ => none

/-- The number that a decimal without a sign denotes. -/
def readDecimal? (negative : Bool) (text : List Char) : Option Fractional :=
  let (whole, wholeCount, rest) := readDigits 0 0 text
  let (all, partCount, rest) : Nat × Nat × List Char :=
    match rest with
    | '.' :: rest =>
      let (part, count, rest) := readDigits 0 0 rest
      (whole * Nat.pow 10 count + part, count, rest)
    | rest => (whole, 0, rest)
  if wholeCount + partCount = 0 then none
  else (readExponent? rest).map fun exponent => ofDecimal negative all (exponent - partCount)

/-- The number that a text without a sign denotes: a decimal, or a word for what is none. -/
def readMagnitude? (negative : Bool) (text : List Char) : Option Fractional :=
  let word := String.ofList (text.map Char.toLower)
  if word = "nan" then some .notANumber
  else if word = "inf" ∨ word = "infinity" then some (.infinite negative)
  else readDecimal? negative text

def ofText? (text : String) : Option Fractional :=
  match text.toList with
  | '-' :: rest => readMagnitude? true rest
  | '+' :: rest => readMagnitude? false rest
  | rest => readMagnitude? false rest

end PasswordVault.Fractional
