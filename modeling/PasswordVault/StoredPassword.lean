import PasswordVault.Envelope.Armor
import PasswordVault.Padding
import PasswordVault.SecretKey

/-!
# Stored passwords

A password encrypted under a key derived from a passphrase, in the form in which it is stored. A
stored password is never changed; it can be written as text, and unlocked with the passphrase or
with a key derived before.

## Main definitions

- `StoredPassword` — the octets and their fields
- `StoredPassword.lock`, `StoredPassword.lockWith` — encryption under a passphrase or a key
- `StoredPassword.decode` — from text or octets
- `StoredPassword.unlock` — decryption with a passphrase or a key
- `StoredPassword.toText`, `StoredPassword.describe` — the text form and a description

## Design notes

Every buffer that locking and unlocking use for a secret of their own is overwritten before they
end, in success and in failure, but for one with a derived key of the wrong length.
-/

namespace PasswordVault

/-- What opens a stored password: a key object, or else a value to be used as a passphrase. -/
inductive Credential
  | key (ref : KeyRef)
  | value (argument : Argument)
  deriving Repr

/-- An encrypted password: its octets, and the fields they stand for. -/
structure StoredPassword where
  representation : Bytes
  envelope : Envelope Argument Bytes
  deriving Repr

namespace StoredPassword

/-- A stored password from octets and fields, neither of which is checked against the other. -/
def assemble (representation : Argument) (envelope : Envelope Argument Argument) :
    Except Failure StoredPassword := do
  let representation ← representation.toBytes .constant
  let envelope ← envelope.settle
  return { representation, envelope }

def ofBytes (raw : Bytes) : Except Failure StoredPassword :=
  match Envelope.read raw with
  | .ok envelope => .ok ⟨raw, envelope.map .integer id⟩
  | .error failure => .error failure

/-- The octets of a representation given as text or as octets. -/
def representationOf : Argument → Except Failure Bytes
  | .text content => Armor.read content
  | .octets _ content => .ok content
  | other => .error (.argument (.unsupported .encodedPassword other.typeName))

def decode (encoded : Argument) : Except Failure StoredPassword :=
  match representationOf encoded with
  | .ok raw => ofBytes raw
  | .error failure => .error failure

/-- Encrypts a clear text under the secret of a key: the ciphertext and the number of zeros that
padding added. -/
def encryptPadded (suite : Suite) (key : KeyRef) (vector clear : Bytes) :
    Action (Argument × Nat) := do
  if clear.isEmpty then Action.fail (.field .emptyClearText)
  let (padded, zeros) := Padding.add clear
  let cell ← Action.allocate padded
  Action.ensuring
    (do
      let secret ← SecretKey.secret key
      let ciphertext ← Action.ask suite (.encrypt secret vector (← Action.content cell))
      return (ciphertext, zeros))
    (Action.wipe cell)

/-- Encrypts a clear text under a key, which stays as it is. -/
def lockUnder (suite : Suite) (key : KeyRef) (vector clearText : Argument) :
    Action StoredPassword := do
  let vector ← Action.lift
    (vector.toBytesOf .constant Envelope.vectorLength fun length => .field (.vectorLength length))
  let clear ← Action.lift (clearText.secretOctets .clearText)
  let cell ← Action.allocate clear
  let (ciphertext, zeros) ← Action.ensuring
    (do encryptPadded suite key vector (← Action.content cell))
    (Action.wipe cell)
  -- The salt and the key ID are those of the key, whatever it was generated from.
  let record ← SecretKey.record key
  let envelope : Envelope Argument Argument :=
    { version := .integer Envelope.currentVersion, padding := .integer zeros
      salt := .ofBytes record.salt, vector := .ofBytes vector
      keyId := .ofBytes record.keyId, ciphertext }
  let raw ← Action.lift envelope.write
  Action.lift (assemble (.ofBytes raw) envelope)

/-- Encrypts a clear text under a key; anything that is no key is refused. -/
def lockWith (suite : Suite) (key : Credential) (vector clearText : Argument) :
    Action StoredPassword :=
  match key with
  | .key ref => lockUnder suite ref vector clearText
  | .value other => Action.fail (.argument (.keyExpected other.typeName))

def isEmptyClearText : Argument → Bool
  | .text content => content.isEmpty
  | .octets _ content => content.isEmpty
  | _ => false

/-- The given octets, or fresh random ones where none were given. -/
def givenOrDrawn (suite : Suite) (length : Nat) : Argument → Action Argument
  | .absent => Action.ask suite (.randomBytes length)
  | given => return given

/-- Encrypts a clear text under a key derived from a passphrase, which is destroyed at the end.
The salt and the vector are drawn, in this order, where they are not given. -/
def lock (suite : Suite) (keyId passphrase clearText salt vector : Argument) :
    Action StoredPassword := do
  let keyId ← Action.lift (KeyId.ofArgument keyId)
  -- Nothing is drawn before the key ID and the clear text have been checked.
  if keyId.isEmpty then Action.fail (.field .emptyKeyId)
  if isEmptyClearText clearText then Action.fail (.field .emptyClearText)
  let salt ← givenOrDrawn suite Envelope.saltLength salt
  let vector ← givenOrDrawn suite Envelope.vectorLength vector
  let key ← SecretKey.generate suite (.ofBytes keyId) passphrase salt .absent
  SecretKey.within key (lockUnder suite key vector clearText)

/-- Decrypts with the secret of a key and removes the padding. -/
def unlockUnder (suite : Suite) (password : StoredPassword) (key : KeyRef) : Action Bytes := do
  let secret ← SecretKey.secret key
  let decrypted ← Action.ask suite
    (.decrypt secret password.envelope.vector password.envelope.ciphertext)
  let cell ← Action.allocate (← Action.lift (decrypted.toBytes .buffer))
  Action.ensuring
    (do
      let padded ← Action.content cell
      let clear ← Action.allocate
        (← Action.lift (Padding.removeFrom (.octets .buffer padded) password.envelope.padding))
      Action.ensuring (Action.content clear) (Action.wipe clear))
    (Action.wipe cell)

/-- The clear text of a stored password. A key derived from a passphrase for the purpose is
destroyed at the end. -/
def unlock (suite : Suite) (password : StoredPassword) (credential : Credential) :
    Action Bytes :=
  match credential with
  | .key ref => unlockUnder suite password ref
  | .value passphrase => do
    let key ← SecretKey.generate suite (.ofBytes password.envelope.keyId) passphrase
      (.ofBytes password.envelope.salt) .absent
    SecretKey.within key (unlockUnder suite password key)

def text (password : StoredPassword) (marked : Bool) : Text :=
  Armor.write password.representation marked

/-- The text form; where nothing is said about the scheme marker, the settings decide. -/
def toText (password : StoredPassword) (marked : Argument) : Action Text := do
  let vault ← Action.vault
  return password.text (if marked.isAbsent then vault.settings.includeScheme else marked.isTrue)

def describe (password : StoredPassword) : Except Failure String := do
  let envelope := password.envelope
  let version ← envelope.version.shown
  let padding ← envelope.padding.shown
  return "EncodedPassword(string_representation='" ++ (password.text true).toString ++
    "', encoding_version=" ++ version ++
    ", padding_bytes=" ++ padding ++
    ", key_id_hex='" ++ KeyId.shown envelope.keyId ++
    "', key_factory_salt_hex='" ++ Hexadecimal.write .lower envelope.salt ++
    "', initialization_vector_hex='" ++ Hexadecimal.write .lower envelope.vector ++ "')"

/-- Stored passwords are the same if their octets are. -/
def same (a b : StoredPassword) : Bool :=
  a.representation == b.representation

end StoredPassword

end PasswordVault
