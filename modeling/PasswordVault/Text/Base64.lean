import PasswordVault.Text

/-!
# Base64

The encoder of RFC 4648, section 4, and a strict scanner. The scanner keeps its place in the
current group of four characters and the bits of it that make no octet yet; unused trailing bits
are dropped.

## Main definitions

- `Base64.encode` — octets to alphabet characters with padding
- `Base64.scan` — one step for each character
- `Base64.decode` — octets of an ASCII text, or what is wrong with it

## Design notes

A padding character counts only after two or three characters of a group, and ends the text when
it completes the group. At a group boundary, or after one character, it is passed over, but no
alphabet character may follow it.
-/

namespace PasswordVault.Base64

/-- Why a text is not Base64. -/
inductive Error
  /-- The first character is padding. -/
  | leadingPadding
  /-- Characters follow the padding that completes a group. -/
  | excessData
  /-- A character is neither padding nor in the alphabet. -/
  | foreignCharacter
  /-- An alphabet character follows padding. -/
  | discontinuousPadding
  /-- The last group has one character; the text has `characters` of the alphabet in all. -/
  | strayCharacter (characters : Nat)
  /-- The last group is not filled up by padding. -/
  | incompletePadding
  deriving DecidableEq, Repr

def Error.message : Error → String
  | .leadingPadding => "Leading padding not allowed"
  | .excessData => "Excess data after padding"
  | .foreignCharacter => "Only base64 data is allowed"
  | .discontinuousPadding => "Discontinuous padding not allowed"
  | .strayCharacter characters =>
    s!"Invalid base64-encoded string: number of data characters ({characters}) " ++
      "cannot be 1 more than a multiple of 4"
  | .incompletePadding => "Incorrect padding"

/-- The padding character `=`. -/
def padding : UInt8 := 61

def character (sextet : UInt8) : UInt8 :=
  if sextet < 26 then 65 + sextet
  else if sextet < 52 then 71 + sextet
  else if sextet < 62 then sextet - 4
  else if sextet = 62 then 43
  else 47

def value? (c : UInt8) : Option UInt8 :=
  if 65 ≤ c ∧ c ≤ 90 then some (c - 65)
  else if 97 ≤ c ∧ c ≤ 122 then some (c - 71)
  else if 48 ≤ c ∧ c ≤ 57 then some (c + 4)
  else if c = 43 then some 62
  else if c = 47 then some 63
  else none

/-- Three octets give four characters; a last group of one or two octets is filled up with zero
bits and padding. -/
def encode : Bytes → Bytes
  | [] => []
  | [a] => [character (a >>> 2), character ((a &&& 3) <<< 4), padding, padding]
  | [a, b] =>
    [character (a >>> 2), character ((a &&& 3) <<< 4 ||| b >>> 4),
      character ((b &&& 15) <<< 2), padding]
  | a :: b :: c :: rest =>
    character (a >>> 2) :: character ((a &&& 3) <<< 4 ||| b >>> 4) ::
      character ((b &&& 15) <<< 2 ||| c >>> 6) :: character (c &&& 63) :: encode rest

/-- The place in the current group, with the bits read that make no octet yet. -/
inductive Place
  | start
  | afterOne (left : UInt8)
  | afterTwo (left : UInt8)
  | afterThree (left : UInt8)
  deriving DecidableEq, Repr

/-- How many characters of the current group have been read. -/
def Place.filled : Place → Nat
  | .start => 0
  | .afterOne _ => 1
  | .afterTwo _ => 2
  | .afterThree _ => 3

/-- Takes one alphabet value: the next place, and the octet it completes if it does. -/
def Place.take (value : UInt8) : Place → Place × Option UInt8
  | .start => (.afterOne value, none)
  | .afterOne left => (.afterTwo (value &&& 15), some (left <<< 2 ||| value >>> 4))
  | .afterTwo left => (.afterThree (value &&& 3), some (left <<< 4 ||| value >>> 2))
  | .afterThree left => (.start, some (left <<< 6 ||| value))

/-- What the scanner knows between two characters. -/
structure Progress where
  /-- The place in the current group. -/
  place : Place := .start
  /-- The padding characters counted since the last alphabet character. -/
  pads : Nat := 0
  /-- Whether any padding has been seen. -/
  padded : Bool := false
  characters : Nat := 0
  deriving DecidableEq, Repr

def scan (progress : Progress) : Bytes → Except Error Bytes
  | [] =>
    match progress.place with
    | .start => .ok []
    | .afterOne _ => .error (.strayCharacter progress.characters)
    | _ => .error .incompletePadding
  | c :: rest =>
    if c = padding then
      if 2 ≤ progress.place.filled then
        if 4 ≤ progress.place.filled + progress.pads + 1 then
          if rest.isEmpty then .ok [] else .error .excessData
        else scan { progress with pads := progress.pads + 1, padded := true } rest
      else scan { progress with padded := true } rest
    else match value? c with
      | none => .error .foreignCharacter
      | some value =>
        if progress.padded then .error .discontinuousPadding
        else
          let (place, octet?) := progress.place.take value
          let next := scan
            { progress with place, pads := 0, characters := progress.characters + 1 } rest
          match octet?, next with
          | some octet, .ok octets => .ok (octet :: octets)
          | _, _ => next

/-- The octets of a Base64 text given as ASCII octets. -/
def decode (text : Bytes) : Except Error Bytes :=
  if text.head? = some padding then .error .leadingPadding else scan {} text

end PasswordVault.Base64
