import PasswordVault.Argument.Shown
import PasswordVault.KeyId
import PasswordVault.Settings
import PasswordVault.Suite

/-!
# The vault

All state that operations share: the settings, the buffers that hold secrets, the lists that
callers handed in for secrets, the key objects, the warnings given and the calls made to
cryptographic suites. An action reads and changes the vault; the changes it made before a failure
stay.

## Main definitions

- `Cell`, `ListRef`, `Material`, `KeyRecord` — buffers, lists and keys
- `Warning`, `Warning.message`
- `Vault` — the state
- `Action` — an operation on it, with `Action.fail`, `Action.lift` and `Action.ensuring`
- `Action.allocate`, `Action.content`, `Action.wipe` — buffers
- `Action.allocateList`, `Action.itemsAt`, `Action.writeList` — lists
- `Action.ask` — a call to a suite

## Design notes

Buffers are never freed. A buffer that an operation used for its own purposes stays in the vault
with whatever the operation left in it, so what outlives a call can be seen. Two keys may share
one buffer, since a key keeps the buffer that it was given.
-/

namespace PasswordVault

/-- The place of a buffer. -/
abbrev Cell := Nat

/-- The place of a list whose items can be set. -/
abbrev ListRef := Nat

/-- The place of a key object. -/
abbrev KeyRef := Nat

/-- What a key object was given as its secret, and what a caller holds of it. -/
inductive Material
  /-- A buffer, which can be overwritten. -/
  | buffer (cell : Cell)
  /-- A list, whose items can be set, but which cannot be overwritten as a whole. -/
  | list (place : ListRef)
  /-- A value that cannot change. -/
  | fixed (value : Argument)
  deriving Repr

/-- A key object. -/
structure KeyRecord where
  keyId : Bytes
  salt : Bytes
  material : Material
  destroyed : Bool
  deriving Repr

inductive Warning
  /-- The standard number of iterations, held as it is shown, was replaced. -/
  | iterationsReplaced (override : Int) (standard : String)
  /-- A key was given up before it was destroyed. -/
  | keyAbandoned (keyId : Bytes)
  deriving DecidableEq, Repr

def Warning.message : Warning → String
  | .iterationsReplaced override standard =>
    s!"AES256PW_TEST_KDF_ITERS={override} replaces the standard " ++ standard ++
      " PBKDF2 iterations; encoded passwords will not interoperate."
  | .keyAbandoned keyId =>
    "Secret key for key ID '" ++ KeyId.shown keyId ++ "' was garbage-collected without destroy()"

/-- The state that operations share. -/
structure Vault where
  settings : Settings
  /-- Whether the replacement of the iterations has been reported. -/
  reported : Bool := false
  /-- The warnings given, oldest first. -/
  warnings : List Warning := []
  /-- The calls made to suites, oldest first. -/
  calls : List Suite.Call := []
  /-- The contents of the buffers. -/
  cells : List Bytes := []
  lists : List (List Argument) := []
  /-- The key objects. -/
  keys : List KeyRecord := []
  deriving Repr

def Vault.ofSettings (settings : Settings) : Vault :=
  { settings }

/-- An operation on the vault: a value or a failure, and the vault afterwards. -/
def Action (α : Type) : Type :=
  Vault → Except Failure α × Vault

namespace Action

variable {α β : Type}

def run (action : Action α) (vault : Vault) : Except Failure α × Vault :=
  action vault

def succeed (value : α) : Action α :=
  fun vault => (.ok value, vault)

/-- One action after another; a failure of the first is the outcome. -/
def andThen (first : Action α) (next : α → Action β) : Action β := fun vault =>
  match first vault with
  | (.ok value, vault) => next value vault
  | (.error failure, vault) => (.error failure, vault)

instance : Monad Action where
  pure := succeed
  bind := andThen

def fail (failure : Failure) : Action α :=
  fun vault => (.error failure, vault)

/-- The action whose outcome does not depend on the vault. -/
def lift (outcome : Except Failure α) : Action α :=
  fun vault => (outcome, vault)

/-- Runs a clean-up after an action however that ends. A failure of the clean-up replaces the
outcome. -/
def ensuring (body : Action α) (cleanup : Action Unit) : Action α := fun vault =>
  match body vault with
  | (outcome, vault) =>
    match cleanup vault with
    | (.ok _, vault) => (outcome, vault)
    | (.error failure, vault) => (.error failure, vault)

def vault : Action Vault :=
  fun vault => (.ok vault, vault)

def update (change : Vault → Vault) : Action Unit :=
  fun vault => (.ok (), change vault)

def allocate (content : Bytes) : Action Cell := fun vault =>
  (.ok vault.cells.length, { vault with cells := vault.cells ++ [content] })

def content (cell : Cell) : Action Bytes :=
  fun vault => (.ok (vault.cells.getD cell []), vault)

def write (cell : Cell) (content : Bytes) : Action Unit :=
  update fun vault => { vault with cells := vault.cells.set cell content }

def wipe (cell : Cell) : Action Unit := fun vault =>
  write cell (vault.cells.getD cell []).cleared vault

def allocateList (items : List Argument) : Action ListRef := fun vault =>
  (.ok vault.lists.length, { vault with lists := vault.lists ++ [items] })

def itemsAt (place : ListRef) : Action (List Argument) :=
  fun vault => (.ok (vault.lists.getD place []), vault)

def writeList (place : ListRef) (items : List Argument) : Action Unit :=
  update fun vault => { vault with lists := vault.lists.set place items }

def warn (warning : Warning) : Action Unit :=
  update fun vault => { vault with warnings := vault.warnings ++ [warning] }

/-- Asks a suite. The call is recorded before it is answered. -/
def ask (suite : Suite) (call : Suite.Call) : Action Argument := fun vault =>
  (suite.answer vault.calls call, { vault with calls := vault.calls ++ [call] })

/-- The iterations to use where the caller gave none. The first replacement of a standard number
is reported, and later ones are not. It counts as reported before the warning is worded, which fails
if the standard cannot be written out. -/
def resolveIterations (standard : Argument) : Action Argument := fun vault =>
  let iterations := vault.settings.iterations standard
  match vault.settings.replacement? standard, vault.reported with
  | some override, false =>
    let vault := { vault with reported := true }
    match standard.shown with
    | .ok shown =>
      (.ok iterations,
        { vault with warnings := vault.warnings ++ [.iterationsReplaced override shown] })
    | .error failure => (.error failure, vault)
  | _, _ => (.ok iterations, vault)

/-- Reads the settings afresh; a later replacement is reported again. -/
def configure (environment : Environment) : Action Settings := fun vault =>
  let settings := Settings.ofEnvironment environment
  (.ok settings, { vault with settings, reported := false })

end Action

end PasswordVault
