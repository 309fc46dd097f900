import PasswordVault.Text.Coding

/-!
# UTF-16

The decoder of both octet orders, without a byte order mark. Surrogate pairs are joined; unpaired
surrogates and an odd octet at the end are faults.

## Main definitions

- `Utf16.unit` — the code unit of two octets
- `Utf16.decodeFrom`, `Utf16.decode`
-/

namespace PasswordVault.Utf16

/-- The code unit of two octets in the given order. -/
def unit (bigEndian : Bool) (a b : UInt8) : Nat :=
  if bigEndian then a.toNat * 256 + b.toNat else b.toNat * 256 + a.toNat

def isHigh (u : Nat) : Bool :=
  0xD800 ≤ u && u < 0xDC00

def isLow (u : Nat) : Bool :=
  0xDC00 ≤ u && u < 0xE000

/-- The code point of a surrogate pair. -/
def join (high low : Nat) : CodePoint :=
  .ofNat (0x10000 + high % 1024 * 1024 + low % 1024)

/-- A fault that starts at `start` with octet `first` and covers `length` octets. -/
def fault (bigEndian : Bool) (first : UInt8) (start length : Nat) (reason : DecodingReason) :
    Except DecodingError Text :=
  .error ⟨.utf16 bigEndian, first, start, start + length, reason⟩

def consUnit (c : CodePoint) (rest : Except DecodingError Text) : Except DecodingError Text :=
  match rest with
  | .ok t => .ok (c :: t)
  | .error e => .error e

/-- Reads characters from octets whose first one has position `start`. -/
def decodeFrom (bigEndian : Bool) (start : Nat) : Bytes → Except DecodingError Text
  | [] => .ok []
  | [a] => fault bigEndian a start 1 .truncated
  | a :: b :: rest =>
    let u := unit bigEndian a b
    if isLow u then fault bigEndian a start 2 .illegalEncoding
    else if isHigh u then
      match rest with
      | [] => fault bigEndian a start 2 .unexpectedEnd
      | [_] => fault bigEndian a start 3 .unexpectedEnd
      | c :: d :: rest =>
        let v := unit bigEndian c d
        if isLow v then consUnit (join u v) (decodeFrom bigEndian (start + 4) rest)
        else fault bigEndian a start 2 .illegalSurrogate
    else consUnit (.ofNat u) (decodeFrom bigEndian (start + 2) rest)

/-- The text of UTF-16 octets, or the first run that is none. -/
def decode (bigEndian : Bool) (octets : Bytes) : Except DecodingError Text :=
  decodeFrom bigEndian 0 octets

end PasswordVault.Utf16
