import PasswordVault.Argument.Conversion
import PasswordVault.Argument.Shown

/-!
# The envelope of an encrypted password

An encrypted password travels with everything but the passphrase that is needed to recover it.
The octets are laid out as follows.

| offset | length | field |
|---|---|---|
| 0 | 1 | version in the high half, padding length in the low half |
| 1 | 16 | salt of the key derivation |
| 17 | 16 | initialization vector |
| 33 | 1 | length `n` of the key ID |
| 34 | `n` | key ID |
| 34 + `n` | the rest | ciphertext with its tag |

## Main definitions

- `Envelope` — the fields, over the types of the numbers and of the octet fields
- `Envelope.packHeader`, `Envelope.unpackHeader` — the first octet
- `Envelope.packHeaderFrom`, `Envelope.unpackHeaderFrom` — the same for arguments of any type
- `Envelope.write` — the octets of an envelope
- `Envelope.read` — the envelope of octets
- `Envelope.readFrom` — the envelope of an argument of any type
- `Envelope.settle` — an envelope whose octet fields have been converted

## Design notes

Writing admits every version of four bits; reading admits version 0 alone and a fixed least
length, which is checked before any field is looked at.
-/

namespace PasswordVault

/-- The fields of an encrypted password. -/
structure Envelope (Number Field : Type) where
  version : Number
  padding : Number
  salt : Field
  vector : Field
  keyId : Field
  ciphertext : Field
  deriving DecidableEq, Repr

namespace Envelope

/-- The version that is written and read. -/
def currentVersion : Int := 0

def maxHalf : Int := 15

def saltLength : Nat := 16

def vectorLength : Nat := 16

def maxKeyIdLength : Nat := 255

def minLength : Nat := 36

/-- Where the length of the key ID stands. -/
def keyIdLengthOffset : Nat := 1 + saltLength + vectorLength

def map {Number Field OtherNumber OtherField : Type} (f : Number → OtherNumber)
    (g : Field → OtherField) (e : Envelope Number Field) : Envelope OtherNumber OtherField :=
  ⟨f e.version, f e.padding, g e.salt, g e.vector, g e.keyId, g e.ciphertext⟩

def packHalves (high low : Int) : UInt8 :=
  UInt8.ofNat (high.toNat * 16 + low.toNat)

/-- The first octet: two numbers of four bits. -/
def packHeader (version padding : Int) : Except Failure UInt8 :=
  if ¬(0 ≤ version ∧ version ≤ maxHalf) then
    .error ((Argument.integer version).showing fun shown => .field (.versionOutOfRange shown))
  else if ¬(0 ≤ padding ∧ padding ≤ maxHalf) then
    .error ((Argument.integer padding).showing fun shown => .field (.paddingOutOfRange shown))
  else .ok (packHalves version padding)

/-- The first octet, from arguments. Both are compared with their bounds before it matters whether
they are whole numbers. -/
def packHeaderFrom (version padding : Argument) : Except Failure UInt8 := do
  if !(← version.isWithin 0 maxHalf) then
    throw (version.showing fun shown => .field (.versionOutOfRange shown))
  if !(← padding.isWithin 0 maxHalf) then
    throw (padding.showing fun shown => .field (.paddingOutOfRange shown))
  let high ← version.operand "<<"
  let low ← padding.operand "&"
  return packHalves high low

/-- The two lowest digits to base 16 of a number, the higher one first. -/
def unpackHeader (header : Int) : Int × Int :=
  (header / 16 % 16, header % 16)

def unpackHeaderFrom (header : Argument) : Except Failure (Int × Int) :=
  match header.operand ">>" with
  | .ok header => .ok (unpackHeader header)
  | .error failure => .error failure

/-- The octets of an envelope. The lengths of salt, vector and key ID are checked first, then that
there is a ciphertext, then the header; last, each field is appended. -/
def write (e : Envelope Argument Argument) : Except Failure Bytes := do
  if (← e.salt.length) ≠ saltLength then throw (.field .saltLength)
  if (← e.vector.length) ≠ vectorLength then throw (.field .initializationVectorLength)
  let keyIdLength ← e.keyId.length
  if maxKeyIdLength < keyIdLength then throw (.field .keyIdLength)
  if !e.ciphertext.isTrue then throw (.field .emptyCiphertext)
  let header ← packHeaderFrom e.version e.padding
  let salt ← e.salt.joinable
  let vector ← e.vector.joinable
  let keyId ← e.keyId.joinable
  let ciphertext ← e.ciphertext.joinable
  return header :: salt ++ vector ++ UInt8.ofNat keyIdLength :: keyId ++ ciphertext

/-- The octets from `start` on, `length` of them. -/
def slice (raw : Bytes) (start length : Nat) : Bytes :=
  (raw.drop start).take length

def read (raw : Bytes) : Except Failure (Envelope Int Bytes) :=
  if raw.length < minLength then .error (.parse (.tooShort raw.length))
  else
    let (version, padding) := unpackHeader (raw.getD 0 0).toNat
    if version ≠ currentVersion then .error (.parse (.unsupportedVersion version))
    else
      let keyIdLength := (raw.getD keyIdLengthOffset 0).toNat
      let keyIdOffset := keyIdLengthOffset + 1
      -- Cutting never fails, so the room for the key ID and a ciphertext is checked before it.
      if raw.length < keyIdOffset + keyIdLength + 1 then
        .error (.parse (.keyIdOverrun raw.length keyIdLength))
      else
        .ok
          { version, padding
            salt := slice raw 1 saltLength
            vector := slice raw (1 + saltLength) vectorLength
            keyId := slice raw keyIdOffset keyIdLength
            ciphertext := raw.drop (keyIdOffset + keyIdLength) }

/-- The envelope of the octets that an argument is converted to. -/
def readFrom (data : Argument) : Except Failure (Envelope Int Bytes) := do
  read (← data.toBytes .constant)

/-- The envelope whose octet fields are converted to octets, salt first and ciphertext last. -/
def settle {Number : Type} (e : Envelope Number Argument) :
    Except Failure (Envelope Number Bytes) := do
  let salt ← e.salt.toBytes .constant
  let vector ← e.vector.toBytes .constant
  let keyId ← e.keyId.toBytes .constant
  let ciphertext ← e.ciphertext.toBytes .constant
  return { version := e.version, padding := e.padding, salt, vector, keyId, ciphertext }

@[simp] theorem readFrom_octets (form : Form) (raw : Bytes) :
    readFrom (.octets form raw) = read raw := rfl

@[simp] theorem packHeaderFrom_integer (version padding : Int) :
    packHeaderFrom (.integer version) (.integer padding) = packHeader version padding := by
  by_cases versionLow : 0 ≤ version <;> by_cases versionHigh : version ≤ maxHalf <;>
    by_cases paddingLow : 0 ≤ padding <;> by_cases paddingHigh : padding ≤ maxHalf <;>
      simp [packHeaderFrom, packHeader, versionLow, versionHigh, paddingLow, paddingHigh, bind,
        Except.bind, pure, Except.pure, throw, throwThe, MonadExceptOf.throw]

end Envelope

end PasswordVault
