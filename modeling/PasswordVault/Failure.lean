import PasswordVault.Failure.Category
import PasswordVault.Text.Base64
import PasswordVault.Text.Quoted
import PasswordVault.Text.Template

/-!
# Failures

What can go wrong, by cause. The wording of each cause is in one function, as are its category,
the category of the failure it was reported for, and the position it names.

## Main definitions

- `ArgumentError` — a value that cannot be used as the kind of thing it is handed in for
- `FieldError` — a value of the right kind with unusable content
- `ParseError` — a representation that is no encoded password
- `PaddingError` — padding that does not verify
- `CipherError` — what the cryptographic primitives refuse
- `Failure` — all of them
- `Failure.message`, `Failure.category`, `Failure.cause?`, `Failure.offset?`
-/

namespace PasswordVault

/-- The two kinds of octet container a value can be converted to. -/
inductive Container
  | constant
  | buffer
  deriving DecidableEq, Repr

/-- The sequences whose items can be set one by one. -/
inductive Sequence
  | buffer
  | list
  deriving DecidableEq, Repr

/-- The arguments that are refused by name when they have the wrong type. -/
inductive Role
  | keyId
  | passphrase
  | clearText
  | encodedPassword
  deriving DecidableEq, Repr

/-- A value that cannot be used as the kind of thing it is handed in for. `given` is the name of
its type. -/
inductive ArgumentError
  /-- Neither text nor octets where one of them is wanted. -/
  | unsupported (role : Role) (given : String)
  | textExpected (given : String)
  | keyExpected (given : String)
  | octetsExpected (given : String)
  | notWipeable (given : String)
  /-- Text has no octets until an encoding is named. -/
  | textWithoutCharset
  | notConvertible (given : String) (container : Container)
  | negativeCount
  | countTooLarge
  /-- A count of random octets that does not fit in a machine word. -/
  | drawTooLarge
  /-- No place in a sequence has so large a number. -/
  | placeTooLarge
  | octetsTooLong
  | notEnoughMemory
  | itemOutOfRange (container : Container)
  | notInteger (given : String)
  | noLength (given : String)
  | notAssignable
  | notJoinable (given : String)
  | notOctets (given : String)
  | notViewable (given : String)
  | notBuffer (given : String)
  | unordered (relation left right : String)
  /-- An operator does not apply to values of these types. -/
  | inoperable (operator left right : String)
  | notPlace (sequence : Sequence) (given : String)
  | notBound
  | fixedItems (given : String)
  | readOnly
  /-- A view of memory cannot be written down. -/
  | notStorable
  /-- A parse failure made from nothing. -/
  | noParts
  /-- A parse failure made from this many parts, which are too many. -/
  | tooManyParts (count : Nat)
  deriving DecidableEq, Repr

/-- A value of the right kind with unusable content. -/
inductive FieldError
  /-- The version as it is shown. -/
  | versionOutOfRange (version : String)
  /-- The padding length as it is shown. -/
  | paddingOutOfRange (padding : String)
  | saltLength
  | initializationVectorLength
  | keyIdLength
  | emptyCiphertext
  | keyIdNotHexadecimal (position : Nat)
  | keyIdTooLong (length : Nat)
  | emptyKeyId
  | emptyClearText
  | keySaltLength (length : Nat)
  | keyLength (length : Nat)
  | vectorLength (length : Nat)
  | negativeLength
  | notHexadecimal (position : Nat)
  /-- A number has too many digits to be written out, in a message or elsewhere. -/
  | numberTooLong
  deriving DecidableEq, Repr

/-- A representation that is no encoded password. -/
inductive ParseError
  | tooShort (length : Nat)
  | unsupportedVersion (version : Int)
  | keyIdOverrun (length keyIdLength : Nat)
  /-- The text after `offset` is not Base64. -/
  | notBase64 (fault : Base64.Error) (offset : Nat)
  /-- The text after `offset` is not ASCII. -/
  | notAscii (fault : EncodingError) (offset : Nat)
  deriving DecidableEq, Repr

/-- Padding that does not verify. The padding length is held as it is shown. -/
inductive PaddingError
  | outOfRange (padding : String)
  | tooLong (padding : String) (length : Nat)
  | nonZero (padding : String)
  deriving DecidableEq, Repr

/-- What the cryptographic primitives refuse. -/
inductive CipherError
  | tooFewIterations
  | negativeNumber
  | numberTooLarge
  /-- So many octets are wanted that the number is taken for a negative one. -/
  | negativeSize
  | keySize
  | nonceSize
  deriving DecidableEq, Repr

/-- Everything that can go wrong. -/
inductive Failure
  | argument (error : ArgumentError)
  | field (error : FieldError)
  | parse (error : ParseError)
  | padding (error : PaddingError)
  | cipher (error : CipherError)
  /-- Text or octets stand for a template that does not take one number. -/
  | template (error : Template.Error)
  /-- Key derivation failed for the given reason. -/
  | derivation (cause : Failure)
  | cipherKey (cause : Failure)
  | encryption (cause : Failure)
  | decryption (cause : Failure)
  | authentication
  | unencodable (error : EncodingError)
  | undecodable (error : DecodingError)
  | unknownCharset (name : String)
  /-- The name of an encoding holds NUL. -/
  | brokenCharset
  /-- The key has been destroyed. -/
  | keyDestroyed
  | immutable
  /-- No value is stored under a name. -/
  | unknownName (name : String)
  | outOfBounds (sequence : Sequence)
  /-- What a caller or a cryptographic suite reports in its own words. -/
  | reported (category : FailureCategory) (message : String)
  deriving DecidableEq, Repr

def Role.noun : Role → String
  | .keyId => "key ID"
  | .passphrase => "passphrase"
  | .clearText => "clear-text password"
  | .encodedPassword => "encoded password"

def Container.typeName : Container → String
  | .constant => "bytes"
  | .buffer => "bytearray"

def Sequence.typeName : Sequence → String
  | .buffer => "bytearray"
  | .list => "list"

/-- How a type is shown in a message. -/
def shownType (typeName : String) : String :=
  "<class '" ++ typeName ++ "'>"

def ArgumentError.message : ArgumentError → String
  | .unsupported role given => "Unsupported " ++ role.noun ++ " type: " ++ shownType given
  | .textExpected given => "Expected str, got " ++ shownType given
  | .keyExpected given => "Expected EncodedPasswordSecretKey, got " ++ shownType given
  | .octetsExpected given => "Expected a bytes-like value, got " ++ shownType given
  | .notWipeable given => "Only bytearray buffers can be wiped, got " ++ shownType given
  | .textWithoutCharset => "string argument without an encoding"
  | .notConvertible given container =>
    "cannot convert '" ++ given ++ "' object to " ++ container.typeName
  | .negativeCount => "negative count"
  | .countTooLarge => "cannot fit 'int' into an index-sized integer"
  | .placeTooLarge => "cannot fit 'int' into an index-sized integer"
  | .drawTooLarge => "Python int too large to convert to C ssize_t"
  | .octetsTooLong => "byte string is too large"
  | .notEnoughMemory => ""
  | .itemOutOfRange .constant => "bytes must be in range(0, 256)"
  | .itemOutOfRange .buffer => "byte must be in range(0, 256)"
  | .notInteger given => "'" ++ given ++ "' object cannot be interpreted as an integer"
  | .noLength given => "object of type '" ++ given ++ "' has no len()"
  | .notAssignable => "can assign only bytes, buffers, or iterables of ints in range(0, 256)"
  | .notJoinable given => "can't concat " ++ given ++ " to bytearray"
  | .notOctets given => "a bytes-like object is required, not '" ++ given ++ "'"
  | .notViewable given => "memoryview: a bytes-like object is required, not '" ++ given ++ "'"
  | .notBuffer given =>
    "Cannot convert \"" ++ shownType given ++ "\" instance to a buffer." ++
      (if given = "str" then "\nDid you mean to pass a bytestring instead?" else "")
  | .unordered relation left right =>
    "'" ++ relation ++ "' not supported between instances of '" ++ left ++ "' and '" ++ right ++ "'"
  | .inoperable operator left right =>
    "unsupported operand type(s) for " ++ operator ++ ": '" ++ left ++ "' and '" ++ right ++ "'"
  | .notPlace sequence given =>
    sequence.typeName ++ " indices must be integers or slices, not " ++ given
  | .notBound => "slice indices must be integers or None or have an __index__ method"
  | .fixedItems given => "'" ++ given ++ "' object does not support item assignment"
  | .readOnly => "cannot modify read-only memory"
  | .notStorable => "cannot pickle memoryview objects"
  | .noParts =>
    "EncodedPasswordParseError.__init__() missing 1 required positional argument: 'message'"
  | .tooManyParts count =>
    "EncodedPasswordParseError.__init__() takes from 2 to 3 positional arguments but " ++
      s!"{count + 1} were given"

def ArgumentError.category : ArgumentError → FailureCategory
  | .negativeCount => .invalidValue
  | .itemOutOfRange _ => .invalidValue
  | .countTooLarge => .overflow
  | .drawTooLarge => .overflow
  | .placeTooLarge => .outOfBounds
  | .octetsTooLong => .overflow
  | .notEnoughMemory => .outOfMemory
  | _ => .wrongType

def notHexadecimalMessage (position : Nat) : String :=
  s!"non-hexadecimal number found in fromhex() arg at position {position}"

def FieldError.message : FieldError → String
  | .versionOutOfRange version => "Encoding version " ++ version ++ " does not fit in four bits"
  | .paddingOutOfRange padding => "Padding length " ++ padding ++ " does not fit in four bits"
  | .saltLength => "Salt must be exactly 16 bytes"
  | .initializationVectorLength => "Initialization vector must be exactly 16 bytes"
  | .keyIdLength => "Key ID must not be longer than 255 bytes"
  | .emptyCiphertext => "Encrypted password must not be empty"
  | .keyIdNotHexadecimal position =>
    "Key ID is not a valid hexadecimal string: " ++ notHexadecimalMessage position
  | .keyIdTooLong length => s!"Key ID must not be longer than 255 bytes; got {length}"
  | .emptyKeyId => "Key ID must not be empty"
  | .emptyClearText => "Clear-text password must not be empty"
  | .keySaltLength length => s!"Key factory salt must be exactly 16 bytes; got {length}"
  | .keyLength length => s!"Secret key must be exactly 32 bytes; got {length}"
  | .vectorLength length => s!"Initialization vector must be exactly 16 bytes; got {length}"
  | .negativeLength => "length must not be negative"
  | .notHexadecimal position => notHexadecimalMessage position
  | .numberTooLong =>
    "Exceeds the limit (4300 digits) for integer string conversion; " ++
      "use sys.set_int_max_str_digits() to increase the limit"

def ParseError.message : ParseError → String
  | .tooShort length =>
    s!"Encoded password is {length} bytes long; at least 36 bytes are required"
  | .unsupportedVersion version =>
    s!"Unsupported encoding version {version}; only version 0 is supported"
  | .keyIdOverrun length keyIdLength =>
    s!"Encoded password is {length} bytes long, which is too short for a " ++
      s!"{keyIdLength}-byte key ID followed by an encrypted password"
  | .notBase64 fault _ => "Encoded password is not valid base64: " ++ fault.message
  | .notAscii fault _ => "Encoded password is not valid base64: " ++ fault.message

/-- The position in the octets or the text where parsing stopped. -/
def ParseError.offset : ParseError → Nat
  | .tooShort _ => 0
  | .unsupportedVersion _ => 0
  | .keyIdOverrun _ _ => 33
  | .notBase64 _ offset => offset
  | .notAscii _ offset => offset

def PaddingError.message : PaddingError → String
  | .outOfRange padding => "Padding length " ++ padding ++ " is outside 0..15"
  | .tooLong padding length =>
    "Padding length " ++ padding ++ s!" exceeds decrypted length {length}"
  | .nonZero padding =>
    "Decrypted password has non-zero bytes in its " ++ padding ++ " padding bytes"

def CipherError.message : CipherError → String
  | .tooFewIterations => "iterations must be greater than or equal to 1."
  | .negativeNumber => "can't convert negative int to unsigned"
  | .numberTooLarge => "int too big to convert"
  | .negativeSize => "Negative size passed to PyBytes_FromStringAndSize"
  | .keySize => "AESGCM key must be 128, 192, or 256 bits."
  | .nonceSize => "Nonce must be between 8 and 128 bytes"

def CipherError.category : CipherError → FailureCategory
  | .negativeNumber => .overflow
  | .numberTooLarge => .overflow
  | .negativeSize => .internal
  | _ => .invalidValue

def templateCategory : Template.Error → FailureCategory
  | .valueByName => .wrongType
  | .noNumberLeft => .wrongType
  | .octetsWanted => .wrongType
  | .numberUnused _ => .wrongType
  | .tooManyDigits => .overflow
  | .notEnoughMemory => .outOfMemory
  | _ => .invalidValue

namespace Failure

def message : Failure → String
  | .argument error => error.message
  | .field error => error.message
  | .parse error => error.message
  | .padding error => error.message
  | .cipher error => error.message
  | .template error => error.message
  | .derivation cause => "PBKDF2 key derivation failed: " ++ cause.message
  | .cipherKey cause => "AES-GCM initialization failed: " ++ cause.message
  | .encryption cause => "AES-GCM encryption failed: " ++ cause.message
  | .decryption cause => "AES-GCM decryption failed: " ++ cause.message
  | .authentication =>
    "AES-GCM authentication failed; incorrect passphrase or tampered data"
  | .unencodable error => error.message
  | .undecodable error => error.message
  | .unknownCharset name => "unknown encoding: " ++ name
  | .brokenCharset => "embedded null character"
  | .keyDestroyed => "Secret key has already been destroyed"
  | .immutable => "EncodedPassword is immutable"
  | .unknownName name => Quoted.text (Text.ofString name)
  | .outOfBounds .buffer => "bytearray index out of range"
  | .outOfBounds .list => "list assignment index out of range"
  | .reported _ message => message

def category : Failure → FailureCategory
  | .argument error => error.category
  | .field _ => .invalidValue
  | .parse _ => .parse
  | .padding _ => .padding
  | .cipher error => error.category
  | .template error => templateCategory error
  | .derivation _ => .security
  | .cipherKey _ => .security
  | .encryption _ => .security
  | .decryption _ => .security
  | .authentication => .authentication
  | .unencodable _ => .unencodable
  | .undecodable _ => .undecodable
  | .unknownCharset _ => .lookup
  | .brokenCharset => .invalidValue
  | .keyDestroyed => .illegalState
  | .immutable => .fieldAccess
  | .unknownName _ => .missingName
  | .outOfBounds _ => .outOfBounds
  | .reported category _ => category

/-- The category of the failure that a failure was reported for. -/
def cause? : Failure → Option FailureCategory
  | .field (.keyIdNotHexadecimal _) => some .invalidValue
  | .parse (.notBase64 _ _) => some .base64
  | .parse (.notAscii _ _) => some .unencodable
  | .derivation cause => some cause.category
  | .cipherKey cause => some cause.category
  | .encryption cause => some cause.category
  | .decryption cause => some cause.category
  | .authentication => some .invalidTag
  | _ => none

def offset? : Failure → Option Nat
  | .parse error => some error.offset
  | _ => none

end Failure

end PasswordVault
