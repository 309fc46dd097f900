import PasswordVault.Text

/-!
# Blanks and decimal numerals in any script

Settings are read from text that a person may have typed in any script. This module holds the
white space and the decimal digits of Unicode 14, and reads whole numbers from them.

## Main definitions

- `Blank.isSpace` — Unicode white space together with the ASCII separators
- `Text.strip` — a text without white space at its ends
- `Digit.zeros`, `Digit.value?` — the decimal digits
- `Numeral.read?` — the whole number that a text denotes
- `Numeral.limit` — the least number that has too many digits

## Design notes

A numeral does not count the ASCII separators U+001C to U+001F as blanks, though `Text.strip`
removes them. Single underscores may stand between digits, and a numeral has at most
`Numeral.maxDigits` digits, leading zeros included. A number of more digits is not written out
either.
-/

namespace PasswordVault

namespace Blank

/-- White space outside ASCII. -/
def isWideSpace (c : CodePoint) : Bool :=
  [0x85, 0xA0, 0x1680, 0x2028, 0x2029, 0x202F, 0x205F, 0x3000].contains c.val ||
    (0x2000 ≤ c.val && c.val ≤ 0x200A)

/-- ASCII white space: the space and the controls from tab to carriage return. -/
def isAsciiSpace (c : CodePoint) : Bool :=
  c.val == 32 || (9 ≤ c.val && c.val ≤ 13)

def isSeparator (c : CodePoint) : Bool :=
  0x1C ≤ c.val && c.val ≤ 0x1F

def isSpace (c : CodePoint) : Bool :=
  isAsciiSpace c || isSeparator c || isWideSpace c

/-- The blanks that may stand around a numeral. -/
def isAroundNumeral (c : CodePoint) : Bool :=
  isAsciiSpace c || isWideSpace c

end Blank

def Text.strip (t : Text) : Text :=
  ((t.dropWhile Blank.isSpace).reverse.dropWhile Blank.isSpace).reverse

namespace Digit

/-- The zero of each decimal digit range; the other nine digits follow it in order. -/
def zeros : List Nat :=
  [0x30, 0x660, 0x6F0, 0x7C0, 0x966, 0x9E6, 0xA66, 0xAE6, 0xB66, 0xBE6, 0xC66, 0xCE6, 0xD66,
   0xDE6, 0xE50, 0xED0, 0xF20, 0x1040, 0x1090, 0x17E0, 0x1810, 0x1946, 0x19D0, 0x1A80, 0x1A90,
   0x1B50, 0x1BB0, 0x1C40, 0x1C50, 0xA620, 0xA8D0, 0xA900, 0xA9D0, 0xA9F0, 0xAA50, 0xABF0,
   0xFF10, 0x104A0, 0x10D30, 0x11066, 0x110F0, 0x11136, 0x111D0, 0x112F0, 0x11450, 0x114D0,
   0x11650, 0x116C0, 0x11730, 0x118E0, 0x11950, 0x11C50, 0x11D50, 0x11DA0, 0x16A60, 0x16AC0,
   0x16B50, 0x1D7CE, 0x1D7D8, 0x1D7E2, 0x1D7EC, 0x1D7F6, 0x1E140, 0x1E2F0, 0x1E950, 0x1FBF0]

example : zeros.length = 66 := rfl

/-- The value of a decimal digit of any script. -/
def value? (c : CodePoint) : Option Nat :=
  (zeros.find? fun start => start ≤ c.val && c.val < start + 10).map (c.val - ·)

theorem lt_ten_of_value? {c : CodePoint} {value : Nat} (h : value? c = some value) :
    value < 10 := by
  obtain ⟨start, hstart, rfl⟩ := Option.map_eq_some_iff.mp h
  have hrange := List.find?_some hstart
  simp only [Bool.and_eq_true, decide_eq_true_eq] at hrange
  omega

end Digit

namespace Numeral

def maxDigits : Nat := 4300

/-- The least number that has more than `maxDigits` digits. It is compared with, and never computed
in a proof. -/
@[irreducible] def limit : Nat := Nat.pow 10 maxDigits

/-- Reads digits, with single underscores between them, up to the first other character: the
number so far, how many digits it has, and the rest. `afterDigit` tells whether an underscore may
come next. Digits beyond `maxDigits` are counted, but no longer added to the number. -/
def digits (afterDigit : Bool) (number count : Nat) : Text → Option (Nat × Nat × Text)
  | [] => if afterDigit then some (number, count, []) else none
  | c :: rest =>
    match Digit.value? c with
    | some value =>
      digits true (if count < maxDigits then number * 10 + value else number) (count + 1) rest
    | none =>
      if c.val = 95 then
        if afterDigit then digits false number count rest else none
      else if afterDigit then some (number, count, c :: rest) else none

/-- The whole number of a numeral without blanks before it: an optional sign, digits, blanks. -/
def readSigned? (t : Text) : Option Int :=
  let (negative, unsigned) : Bool × Text :=
    match t with
    | c :: rest =>
      if c.val = 45 then (true, rest) else if c.val = 43 then (false, rest) else (false, t)
    | [] => (false, [])
  match digits false 0 0 unsigned with
  | some (number, count, rest) =>
    if count ≤ maxDigits && rest.all Blank.isAroundNumeral then
      some (if negative then -(number : Int) else number)
    else none
  | none => none

/-- The whole number that a text denotes. -/
def read? (t : Text) : Option Int :=
  readSigned? (t.dropWhile Blank.isAroundNumeral)

theorem lt_limit {n : Nat} (count : Nat) (h : n < Nat.pow 10 count)
    (hcount : count ≤ maxDigits) : n < limit := by
  unfold limit
  refine Nat.lt_of_lt_of_le h ?_
  generalize maxDigits = most at hcount
  exact Nat.pow_le_pow_right (by decide) hcount

/-- As many digits as have been added to a number bound it. -/
theorem digits_lt {afterDigit : Bool} {number count n total : Nat} {t rest : Text}
    (h : digits afterDigit number count t = some (n, total, rest))
    (hnumber : number < Nat.pow 10 (min count maxDigits)) :
    n < Nat.pow 10 (min total maxDigits) := by
  induction t generalizing afterDigit number count with
  | nil =>
    rw [digits] at h
    split at h <;> cases h
    exact hnumber
  | cons c t ih =>
    rw [digits] at h
    split at h
    · next value hvalue =>
      have hdigit := Digit.lt_ten_of_value? hvalue
      refine ih h ?_
      by_cases hfew : count < maxDigits
      · have hpow : Nat.pow 10 (count + 1) = Nat.pow 10 count * 10 := rfl
        rw [if_pos hfew, Nat.min_eq_left hfew, hpow]
        rw [Nat.min_eq_left (Nat.le_of_lt hfew)] at hnumber
        omega
      · have hfull := Nat.le_of_not_lt hfew
        rw [if_neg hfew, Nat.min_eq_right (Nat.le_succ_of_le hfull)]
        rwa [Nat.min_eq_right hfull] at hnumber
    · split at h
      · split at h
        · exact ih h hnumber
        · cases h
      · split at h <;> cases h
        exact hnumber

/-- A number that is read can be written out. -/
theorem natAbs_lt_limit_of_read? {t : Text} {n : Int} (h : read? t = some n) :
    n.natAbs < limit := by
  unfold read? readSigned? at h
  dsimp only at h
  split at h
  · next number count rest hdigits =>
    have hnumber := lt_limit _ (digits_lt hdigits (by decide)) (Nat.min_le_right _ _)
    have hsigned : ∀ negative : Bool,
        (if negative then -(number : Int) else number).natAbs < limit := by
      rintro (_ | _)
      · exact hnumber
      · rwa [if_pos rfl, Int.natAbs_neg, Int.natAbs_natCast]
    obtain ⟨-, hn⟩ := Option.ite_none_right_eq_some.mp h
    exact Option.some.inj hn ▸ hsigned _
  · cases h

end Numeral

end PasswordVault
