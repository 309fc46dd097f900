import PasswordVault.Suite
import PasswordVault.Crypto.Entropy
import PasswordVault.Crypto.Gcm
import PasswordVault.Crypto.Pbkdf2

/-!
# The standard suite

PBKDF2 with HMAC-SHA-512, and AES in Galois/Counter Mode with a tag of 128 bits. What the
primitives refuse is reported as a failure of the step it happened in; a tag that does not verify
is told apart from every other failure.

## Main definitions

- `Standard.randomBytes`, `Standard.deriveKey`, `Standard.encrypt`, `Standard.decrypt`
- `Suite.standard` — the suite made of them

`Standard.encrypt_of_cipherKey` and `Standard.decrypt_of_cipherKey` say what becomes of octets once a
key has been accepted.
-/

namespace PasswordVault

namespace Standard

/-- Reports every failure of a step as a failure of a wider one. -/
def reportAs {α : Type} (wrap : Failure → Failure) : Except Failure α → Except Failure α
  | .ok value => .ok value
  | .error cause => .error (wrap cause)

def drawLength (length : Argument) : Except Failure Nat := do
  if ← length.isBelow 0 then throw (.field .negativeLength)
  match length.asInteger? with
  | none => throw (.argument (.notInteger length.typeName))
  | some count =>
    if !Argument.isIndex count then throw (.argument .drawTooLarge)
    Argument.roomFor .constant count

def randomBytes (entropy : Entropy) (draw : Nat) (length : Argument) : Except Failure Bytes :=
  (drawLength length).map (entropy draw)

/-- How many octets there is room for when `length` of them are to be derived. -/
def derivedLength (length : Nat) : Except Failure Nat :=
  if Argument.maxCount < length then .error (.cipher .negativeSize)
  else match Argument.roomFor .constant length with
    | .error failure => .error failure
    | .ok length =>
      if Pbkdf2.maxLength < length then .error (.argument .notEnoughMemory) else .ok length

/-- Key derivation. The salt is converted first, then the two numbers, then the passphrase; room is
made for the octets last. -/
def deriveKey (passphrase salt iterations length : Argument) : Except Failure Bytes :=
  reportAs .derivation do
    let _ ← salt.octetCount .constant
    let length ← length.word64
    let iterations ← iterations.word64
    if iterations = 0 then throw (.cipher .tooFewIterations)
    let passphrase ← passphrase.buffer
    let length ← derivedLength length
    return Pbkdf2.derive passphrase (← salt.toBytes .constant) iterations length

def cipherKey (key : Argument) : Except Failure Bytes := do
  let key ← key.buffer
  if !Aes.isKeyLength key.length then throw (.cipher .keySize)
  return key

def checkNonceLength (length : Nat) : Except Failure Unit :=
  if length < Gcm.minNonceLength ∨ Gcm.maxNonceLength < length then
    .error (.cipher .nonceSize)
  else .ok ()

/-- Authenticated encryption: the ciphertext followed by the tag. -/
def encrypt (key vector plaintext : Argument) : Except Failure Bytes :=
  reportAs .encryption do
    let key ← cipherKey key
    let vectorLength ← vector.octetCount .constant
    let plaintext ← plaintext.buffer
    checkNonceLength vectorLength
    return Gcm.lock key (← vector.toBytes .constant) plaintext

/-- The plaintext of a ciphertext that converts to `length` octets, if its tag is the right one. -/
def opened? (key vector : Bytes) (ciphertext : Argument) (length : Nat) :
    Except Failure (Option Bytes) :=
  if ciphertext.asInteger?.isSome then .ok (Gcm.unlockZeros? key vector length)
  else (ciphertext.toBytes .constant).map (Gcm.unlock? key vector)

/-- Authenticated decryption of a ciphertext followed by its tag. -/
def decrypt (key vector ciphertext : Argument) : Except Failure Bytes := do
  let key ← reportAs .cipherKey (cipherKey key)
  let plaintext? ← reportAs .decryption do
    let vectorLength ← vector.octetCount .constant
    let length ← ciphertext.octetCount .constant
    checkNonceLength vectorLength
    opened? key (← vector.toBytes .constant) ciphertext length
  match plaintext? with
  | some plaintext => return plaintext
  | none => throw .authentication

/-- Zeros that a number stands for are opened without being made, and come out the same. -/
theorem opened?_eq {key vector : Bytes} {ciphertext : Argument} {length : Nat}
    (counted : ciphertext.octetCount .constant = .ok length) :
    opened? key vector ciphertext length =
      (ciphertext.toBytes .constant).map (Gcm.unlock? key vector) := by
  by_cases whole : ciphertext.asInteger?.isSome
  · cases ciphertext <;>
      simp_all [opened?, Argument.asInteger?, Argument.octetCount, Argument.toBytes,
        Argument.zeros, Except.map, Gcm.unlockZeros?_eq]
  · simp [opened?, whole]

/-- With a key that is accepted, octets are encrypted if the vector has a length that the cipher
takes. -/
theorem encrypt_of_cipherKey {key : Argument} {octets : Bytes} (hkey : cipherKey key = .ok octets)
    (vector plaintext : Bytes) :
    encrypt key (.ofBytes vector) (.octets .buffer plaintext) =
      match checkNonceLength vector.length with
      | .ok _ => .ok (Gcm.lock octets vector plaintext)
      | .error failure => .error (.encryption failure) := by
  rw [encrypt, hkey]
  show reportAs .encryption (checkNonceLength vector.length >>= fun _ => _) = _
  cases checkNonceLength vector.length <;> rfl

/-- With a key that is accepted, octets are decrypted if the vector has a length that the cipher
takes and their tag is the right one. -/
theorem decrypt_of_cipherKey {key : Argument} {octets : Bytes} (hkey : cipherKey key = .ok octets)
    (vector ciphertext : Bytes) :
    decrypt key (.ofBytes vector) (.ofBytes ciphertext) =
      match checkNonceLength vector.length with
      | .ok _ =>
        match Gcm.unlock? octets vector ciphertext with
        | some plaintext => .ok plaintext
        | none => .error .authentication
      | .error failure => .error (.decryption failure) := by
  have hopened : opened? octets vector (.ofBytes ciphertext) ciphertext.length =
      .ok (Gcm.unlock? octets vector ciphertext) := opened?_eq rfl
  rw [decrypt, hkey]
  show reportAs .decryption (checkNonceLength vector.length >>=
    fun _ => opened? octets vector (.ofBytes ciphertext) ciphertext.length) >>= _ = _
  rw [hopened]
  cases checkNonceLength vector.length with
  | error failure => rfl
  | ok _ => cases Gcm.unlock? octets vector ciphertext <;> rfl

end Standard

/-- The standard suite. Its random octets are numbered by the draws before. -/
def Suite.standard (entropy : Entropy) : Suite where
  answer history call :=
    Argument.ofBytes <$> match call with
    | .randomBytes length =>
      Standard.randomBytes entropy (countOf .randomBytes history) (.integer length)
    | .deriveKey passphrase salt iterations length =>
      Standard.deriveKey (.octets .buffer passphrase) (.ofBytes salt) iterations (.integer length)
    | .encrypt key vector plaintext =>
      Standard.encrypt key (.ofBytes vector) (.octets .buffer plaintext)
    | .decrypt key vector ciphertext =>
      Standard.decrypt key (.ofBytes vector) (.ofBytes ciphertext)

end PasswordVault
