import PasswordVault.Text

/-!
# Faults of character encodings

A text that an encoding cannot write, or octets that it cannot read, are reported with the range
at fault and a reason. This module holds both reports and their wording.

## Main definitions

- `EncodingError`, `EncodingError.message`
- `DecodingError`, `DecodingError.message`
- `Ascii.encode`, `Ascii.decode`, `Latin1.decode` — the single-octet encodings
-/

namespace PasswordVault

/-- The name under which an encoding reports a fault. -/
inductive CharsetName
  | ascii
  | utf8
  | utf16 (bigEndian : Bool)
  deriving DecidableEq, Repr

def CharsetName.spelling : CharsetName → String
  | .ascii => "ascii"
  | .utf8 => "utf-8"
  | .utf16 false => "utf-16-le"
  | .utf16 true => "utf-16-be"

/-- A run of code points that an encoding cannot write. -/
structure EncodingError where
  charset : CharsetName
  first : CodePoint
  /-- The run is the half-open range from `start` to `stop`. -/
  start : Nat
  stop : Nat
  deriving DecidableEq, Repr

/-- Why octets are no text. -/
inductive DecodingReason
  | invalidStart
  | invalidContinuation
  | unexpectedEnd
  | outOfRange
  | truncated
  | illegalEncoding
  | illegalSurrogate
  deriving DecidableEq, Repr

/-- A run of octets that an encoding cannot read. -/
structure DecodingError where
  charset : CharsetName
  first : UInt8
  /-- The run is the half-open range from `start` to `stop`. -/
  start : Nat
  stop : Nat
  reason : DecodingReason
  deriving DecidableEq, Repr

/-- The hexadecimal digits of a number, at least `width` of them. -/
def lowerHex (width number : Nat) : String :=
  let digits := Nat.toDigits 16 number
  String.ofList (List.replicate (width - digits.length) '0' ++ digits)

/-- A code point as an escape: two, four or eight digits, whichever is the first to suffice. -/
def CodePoint.escape (c : CodePoint) : String :=
  if c.val ≤ 0xFF then "\\x" ++ lowerHex 2 c.val
  else if c.val ≤ 0xFFFF then "\\u" ++ lowerHex 4 c.val
  else "\\U" ++ lowerHex 8 c.val

/-- Why an encoding refuses the code points it cannot write. -/
def EncodingError.reason (e : EncodingError) : String :=
  match e.charset with
  | .ascii => "ordinal not in range(128)"
  | _ => "surrogates not allowed"

/-- The wording of a text that cannot be written. A single code point is shown, a longer run is
given by its positions. -/
def EncodingError.message (e : EncodingError) : String :=
  let subject :=
    if e.stop = e.start + 1 then
      "character '" ++ e.first.escape ++ "' in position " ++ toString e.start
    else
      "characters in position " ++ toString e.start ++ "-" ++ toString (e.stop - 1)
  "'" ++ e.charset.spelling ++ "' codec can't encode " ++ subject ++ ": " ++ e.reason

def DecodingReason.message : DecodingReason → String
  | .invalidStart => "invalid start byte"
  | .invalidContinuation => "invalid continuation byte"
  | .unexpectedEnd => "unexpected end of data"
  | .outOfRange => "ordinal not in range(128)"
  | .truncated => "truncated data"
  | .illegalEncoding => "illegal encoding"
  | .illegalSurrogate => "illegal UTF-16 surrogate"

/-- The wording of octets that cannot be read. A single octet is shown, a longer run is given by
its positions. -/
def DecodingError.message (e : DecodingError) : String :=
  let subject :=
    if e.stop = e.start + 1 then
      "byte 0x" ++ lowerHex 2 e.first.toNat ++ " in position " ++ toString e.start
    else
      "bytes in position " ++ toString e.start ++ "-" ++ toString (e.stop - 1)
  "'" ++ e.charset.spelling ++ "' codec can't decode " ++ subject ++ ": " ++ e.reason.message

namespace Ascii

/-- The octets of an ASCII text, or its first run of other code points. -/
def encode (t : Text) : Except EncodingError Bytes :=
  match Text.firstRun? (fun c => !c.isAscii) 0 t with
  | some (first, start, stop) => .error ⟨.ascii, first, start, stop⟩
  | none => .ok (t.map fun c => UInt8.ofNat c.val)

/-- The text of octets below 128, or the first other octet. -/
def decode (octets : Bytes) : Except DecodingError Text :=
  match octets.findIdx? (128 ≤ ·) with
  | some start => .error ⟨.ascii, octets.getD start 0, start, start + 1, .outOfRange⟩
  | none => .ok (Text.ofAscii octets)

end Ascii

namespace Latin1

/-- Every octet is the code point of the same number. -/
def decode (octets : Bytes) : Text :=
  octets.map CodePoint.ofOctet

end Latin1

end PasswordVault
