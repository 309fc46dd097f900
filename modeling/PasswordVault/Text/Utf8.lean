import PasswordVault.Text.Coding

/-!
# UTF-8

The encoder refuses surrogates. The decoder accepts exactly the shortest forms of scalar values
and reports the longest run of octets that starts a character without completing one.

## Main definitions

- `Utf8.encodePoint`, `Utf8.encode`
- `Utf8.decodeFrom`, `Utf8.decode`
-/

namespace PasswordVault.Utf8

/-- The one to four octets of a code point. -/
def encodePoint (c : CodePoint) : Bytes :=
  let n := c.val
  if n < 0x80 then [UInt8.ofNat n]
  else if n < 0x800 then [UInt8.ofNat (0xC0 + n / 64), UInt8.ofNat (0x80 + n % 64)]
  else if n < 0x10000 then
    [UInt8.ofNat (0xE0 + n / 4096), UInt8.ofNat (0x80 + n / 64 % 64),
      UInt8.ofNat (0x80 + n % 64)]
  else
    [UInt8.ofNat (0xF0 + n / 262144), UInt8.ofNat (0x80 + n / 4096 % 64),
      UInt8.ofNat (0x80 + n / 64 % 64), UInt8.ofNat (0x80 + n % 64)]

/-- The octets of a text, or its first run of surrogates. -/
def encode (t : Text) : Except EncodingError Bytes :=
  match Text.firstRun? CodePoint.isSurrogate 0 t with
  | some (first, start, stop) => .error ⟨.utf8, first, start, stop⟩
  | none => .ok (t.flatMap encodePoint)

def isContinuation (octet : UInt8) : Bool :=
  0x80 ≤ octet && octet < 0xC0

/-- Whether `second` may follow the lead octet `lead` of a three-octet or four-octet character:
shorter forms, surrogates and numbers above the last code point are excluded here. -/
def mayFollow (lead second : UInt8) : Bool :=
  isContinuation second &&
    !(lead == 0xE0 && second < 0xA0) && !(lead == 0xED && 0xA0 ≤ second) &&
    !(lead == 0xF0 && second < 0x90) && !(lead == 0xF4 && 0x90 ≤ second)

def payload (octet : UInt8) : Nat :=
  octet.toNat % 64

def fault (first : UInt8) (start length : Nat) (reason : DecodingReason) :
    Except DecodingError Text :=
  .error ⟨.utf8, first, start, start + length, reason⟩

def consPoint (c : CodePoint) (rest : Except DecodingError Text) : Except DecodingError Text :=
  match rest with
  | .ok t => .ok (c :: t)
  | .error e => .error e

/-- Reads characters from octets whose first one has position `start`. -/
def decodeFrom (start : Nat) : Bytes → Except DecodingError Text
  | [] => .ok []
  | a :: rest =>
    if a < 0x80 then
      consPoint (CodePoint.ofOctet a) (decodeFrom (start + 1) rest)
    else if a < 0xC2 then
      fault a start 1 .invalidStart
    else if a < 0xE0 then
      match rest with
      | [] => fault a start 1 .unexpectedEnd
      | b :: rest =>
        if isContinuation b then
          consPoint (.ofNat (a.toNat % 32 * 64 + payload b)) (decodeFrom (start + 2) rest)
        else fault a start 1 .invalidContinuation
    else if a < 0xF0 then
      match rest with
      | [] => fault a start 1 .unexpectedEnd
      | b :: rest =>
        if !mayFollow a b then fault a start 1 .invalidContinuation
        else match rest with
          | [] => fault a start 2 .unexpectedEnd
          | c :: rest =>
            if isContinuation c then
              consPoint (.ofNat (a.toNat % 16 * 4096 + payload b * 64 + payload c))
                (decodeFrom (start + 3) rest)
            else fault a start 2 .invalidContinuation
    else if a < 0xF5 then
      match rest with
      | [] => fault a start 1 .unexpectedEnd
      | b :: rest =>
        if !mayFollow a b then fault a start 1 .invalidContinuation
        else match rest with
          | [] => fault a start 2 .unexpectedEnd
          | c :: rest =>
            if !isContinuation c then fault a start 2 .invalidContinuation
            else match rest with
              | [] => fault a start 3 .unexpectedEnd
              | d :: rest =>
                if isContinuation d then
                  consPoint
                    (.ofNat (a.toNat % 8 * 262144 + payload b * 4096 + payload c * 64 + payload d))
                    (decodeFrom (start + 4) rest)
                else fault a start 3 .invalidContinuation
    else fault a start 1 .invalidStart

/-- The text of UTF-8 octets, or the first run that is none. -/
def decode (octets : Bytes) : Except DecodingError Text :=
  decodeFrom 0 octets

def mark : Bytes := [0xEF, 0xBB, 0xBF]

/-- The text of UTF-8 octets after an optional byte order mark; positions count after the mark. -/
def decodeMarked (octets : Bytes) : Except DecodingError Text :=
  decode (if mark.isPrefixOf octets then octets.drop mark.length else octets)

end PasswordVault.Utf8
