import PasswordVault.Argument.Conversion

/-!
# Cryptographic suites

The library never performs cryptography itself: it asks a suite for random octets, derived keys
and authenticated encryption. A suite answers each call in the light of the calls before it, so a
suite that keeps state of its own is a function of that history.

## Main definitions

- `Suite.Operation`, `Suite.Call` — what a suite is asked
- `Suite` — how it answers
- `Suite.declared` — the suite that only declares its operations

## Design notes

An answer is a fresh value: it shares no buffer with the call or with an answer before. A suite that
hands back a buffer which it was given, or overwrites one that it handed out, is not represented.
-/

namespace PasswordVault

namespace Suite

inductive Operation
  | randomBytes
  | deriveKey
  | encrypt
  | decrypt
  deriving DecidableEq, Repr

def Operation.name : Operation → String
  | .randomBytes => "random_bytes"
  | .deriveKey => "derive_key"
  | .encrypt => "encrypt"
  | .decrypt => "decrypt"

/-- A request to a suite. -/
inductive Call
  | randomBytes (length : Nat)
  | deriveKey (passphrase salt : Bytes) (iterations : Argument) (length : Nat)
  | encrypt (key : Argument) (vector plaintext : Bytes)
  | decrypt (key : Argument) (vector ciphertext : Bytes)
  deriving Repr

def Call.operation : Call → Operation
  | .randomBytes _ => .randomBytes
  | .deriveKey .. => .deriveKey
  | .encrypt .. => .encrypt
  | .decrypt .. => .decrypt

end Suite

/-- How calls are answered, given the calls before. Every answer is a fresh value. -/
structure Suite where
  answer : List Suite.Call → Suite.Call → Except Failure Argument

namespace Suite

def countOf (operation : Operation) (history : List Call) : Nat :=
  history.countP (·.operation = operation)

/-- The suite that only declares its operations. -/
def declared : Suite where
  answer _ _ := .error (.reported .notImplemented "")

end Suite

end PasswordVault
