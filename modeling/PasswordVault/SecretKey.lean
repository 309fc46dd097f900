import PasswordVault.Vault

/-!
# Secret keys

A key derived from a passphrase, together with the key ID and the salt it was derived for. A key
object holds its secret in a buffer until it is destroyed, which overwrites the buffer with zeros.

## Main definitions

- `SecretKey.create` — a key object around a given secret
- `SecretKey.generate` — a key object derived from a passphrase
- `SecretKey.secret` — the secret of a live key
- `SecretKey.destroy`, `SecretKey.within` — the end of a key
- `SecretKey.abandon` — what happens to a key object that nobody refers to any more

## Design notes

A key object keeps whatever it was given as its secret, provided that it is 32 long. A secret that
is no buffer cannot be overwritten: destroying such a key fails and leaves it live.
-/

namespace PasswordVault.SecretKey

def standardIterations : Int := 32768

def keyLength : Nat := 32

def record (key : KeyRef) : Action KeyRecord := do
  let vault ← Action.vault
  match vault.keys[key]? with
  | some record => return record
  | none => Action.fail (.unknownName "")

/-- What a key object is given when a caller hands in a value as its secret: a buffer or a list of
its own if the value is one, else the value. -/
def materialOf : Argument → Action Material
  | .octets .buffer content => do return .buffer (← Action.allocate content)
  | .list items => do return .list (← Action.allocateList items)
  | value => return .fixed value

/-- The value that a secret presents to its users. -/
def present : Material → Action Argument
  | .buffer cell => do return .octets .buffer (← Action.content cell)
  | .list place => do return .list (← Action.itemsAt place)
  | .fixed value => return value

/-- A new key object. The lengths of salt and secret are checked first, then the key ID, and the
salt is copied last. -/
def create (keyId salt : Argument) (material : Material) : Action KeyRef := do
  let saltLength ← Action.lift salt.length
  if saltLength ≠ Envelope.saltLength then Action.fail (.field (.keySaltLength saltLength))
  let length ← Action.lift (← present material).length
  if length ≠ keyLength then Action.fail (.field (.keyLength length))
  let keyId ← Action.lift (KeyId.ofArgument keyId)
  let salt ← Action.lift (salt.toBytes .constant)
  let vault ← Action.vault
  Action.update fun vault =>
    { vault with keys := vault.keys ++ [{ keyId, salt, material, destroyed := false }] }
  return vault.keys.length

/-- The iterations that a caller asks for, or else those that the settings give. -/
def chooseIterations : Argument → Action Argument
  | .absent => Action.resolveIterations (.integer standardIterations)
  | given => return given

/-- The octets that a suite derived. Zeros that a number stands for are counted before they are
made; those of the wrong length never get into a buffer. -/
def derivedOctets (derived : Argument) : Except Failure Bytes :=
  if derived.asInteger?.isSome then
    derived.toBytesOf .buffer keyLength fun length => .field (.keyLength length)
  else derived.toBytes .buffer

/-- A key object derived from a passphrase. The copy of the passphrase is overwritten however the
derivation ends. -/
def generate (suite : Suite) (keyId passphrase salt iterations : Argument) : Action KeyRef := do
  let keyId ← Action.lift (KeyId.ofArgument keyId)
  let salt ← Action.lift
    (salt.toBytesOf .constant Envelope.saltLength fun length => .field (.keySaltLength length))
  let iterations ← chooseIterations iterations
  let secret ← Action.lift (passphrase.secretOctets .passphrase)
  let cell ← Action.allocate secret
  let derived ← Action.ensuring
    (do Action.ask suite (.deriveKey (← Action.content cell) salt iterations keyLength))
    (Action.wipe cell)
  let content ← Action.lift (derivedOctets derived)
  create (.ofBytes keyId) (.ofBytes salt) (.buffer (← Action.allocate content))

/-- The secret of a live key. -/
def secret (key : KeyRef) : Action Argument := do
  let record ← record key
  if record.destroyed then Action.fail .keyDestroyed else present record.material

/-- Overwrites a secret, if it is a buffer. -/
def wipeMaterial : Material → Action Unit
  | .buffer cell => Action.wipe cell
  | material => do
    let value ← present material
    Action.fail (.argument (.notWipeable value.typeName))

def markDestroyed (key : KeyRef) : Action Unit :=
  Action.update fun vault =>
    { vault with keys := vault.keys.modify key fun record => { record with destroyed := true } }

/-- Overwrites the secret of a key and marks the key as destroyed. -/
def destroy (key : KeyRef) : Action Unit := do
  let record ← record key
  wipeMaterial record.material
  markDestroyed key

/-- Runs an action and then destroys a key, however the action ends. -/
def within {α : Type} (key : KeyRef) (body : Action α) : Action α :=
  Action.ensuring body (destroy key)

/-- What happens to a key object that nobody refers to any more: a live one is destroyed with a
warning. One that cannot be destroyed is left as it is. -/
def abandon (key : KeyRef) : Action Unit := fun vault =>
  match record key vault with
  | (.error _, _) => (.ok (), vault)
  | (.ok record, _) =>
    if record.destroyed then (.ok (), vault)
    else match destroy key vault with
      | (.ok _, vault) => Action.warn (.keyAbandoned record.keyId) vault
      | (.error _, vault) => (.ok (), vault)

def describe (record : KeyRecord) : String :=
  "EncodedPasswordSecretKey(key_id='" ++ KeyId.shown record.keyId ++ "', state=" ++
    (if record.destroyed then "destroyed" else "live") ++ ")"

end PasswordVault.SecretKey
