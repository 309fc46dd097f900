import PasswordVault.StoredPassword

/-!
# Sessions

A session is a sequence of steps on named keys, stored passwords, and secrets that a caller holds.
It makes lifetimes visible: a key object lives as long as a name or an open block refers to it, and
is abandoned when the last reference goes away.

## Main definitions

- `Command`, `Step` — what a session can do
- `Reply`, `Report` — what a step answers
- `Session` — the vault and the names
- `Session.perform` — one command
- `Session.run`, `Session.runAll` — one step or several, with their reports

## Design notes

A failed step stores nothing. Storing a key under a name that another key has abandons that one
after the new key was made. A key whose block is still open is not abandoned before the block
ends, and by then it has been destroyed.
-/

namespace PasswordVault

/-- Where the secret of a new key comes from. -/
inductive KeySource
  /-- A value handed in. -/
  | value (argument : Argument)
  /-- What a name holds, shared with the key. -/
  | held (name : String)

/-- A key to lock with, or whatever was handed in instead. -/
inductive KeyChoice
  | named (name : String)
  | value (argument : Argument)

/-- A change to the octets of a representation: masks at places, then a cut, then an appendix. -/
structure Alteration where
  /-- Places and the masks there. -/
  masks : List (Argument × Argument)
  /-- How many octets to keep, or nothing to keep all. -/
  keep : Argument
  /-- The hexadecimal digits of the appendix. -/
  appendix : Text

/-- A single operation on what the names of a session stand for. -/
inductive Command
  | generate (suite : Suite) (target : String) (keyId passphrase salt iterations : Argument)
  | create (target : String) (keyId salt : Argument) (source : KeySource)
  | inspect (key : String)
  | reveal (key : String)
  | destroy (key : String)
  | describeKey (key : String)
  | drop (key : String)
  | newBuffer (target : String) (digits : Text)
  /-- Names what a key holds as its secret, which stays shared with the key. -/
  | hold (key target : String)
  | readHeld (name : String)
  | poke (name : String) (place value : Argument)
  | wipeHeld (name : String)
  | lock (suite : Suite) (target : String) (keyId passphrase clearText salt vector : Argument)
  | lockWith (suite : Suite) (target : String) (key : KeyChoice) (vector clearText : Argument)
  | decode (target : String) (encoded : Argument)
  | assemble (target : String) (representation : Argument) (envelope : Envelope Argument Argument)
  | alter (source target : String) (alteration : Alteration)
  | fields (password : String)
  | toText (password : String) (marked : Argument)
  | describe (password : String)
  | unlock (suite : Suite) (password : String) (key : KeyChoice)
  | compare (password other : String)
  | compareValue (password : String)
  | setField (password : String)
  /-- Writes a stored password and reads it back. -/
  | restore (source target : String)
  | configure (environment : Environment)
  | resolve (standard : Argument)

/-- What a session can do. -/
inductive Step
  | command (command : Command)
  /-- Opens a block on a key, runs the steps, fails with the given words if there are any, and
  destroys the key. -/
  | within (key : String) (body : List Step) (failing? : Option String)

structure KeyView where
  keyId : Bytes
  salt : Bytes
  destroyed : Bool
  deriving DecidableEq, Repr

structure Comparison where
  equal : Bool
  /-- Whether the representations have one hash, if both values have one. -/
  sameHash? : Option Bool
  deriving DecidableEq, Repr

inductive Reply
  | nothing
  | value (argument : Argument)
  | string (content : String)
  | key (view : KeyView)
  | password (password : StoredPassword)
  | comparison (comparison : Comparison)
  | settings (settings : Settings)
  deriving Repr

/-- What a step answers, with what it left in the vault for the caller to see. -/
structure Report where
  outcome : Except Failure Reply
  warnings : List Warning
  calls : List Suite.Call
  /-- The reports of the steps in a block. -/
  inner? : Option (List Report)

abbrev Names (α : Type) := List (String × α)

def Names.set {α : Type} (names : Names α) (name : String) (value : α) : Names α :=
  (name, value) :: names.filter (·.1 != name)

def Names.unset {α : Type} (names : Names α) (name : String) : Names α :=
  names.filter (·.1 != name)

/-- The vault and the names that a session uses. -/
structure Session where
  vault : Vault
  keys : Names KeyRef := []
  passwords : Names StoredPassword := []
  holdings : Names Material := []
  /-- The keys whose blocks are open, innermost first. -/
  entered : List KeyRef := []

namespace Alteration

/-- Octets with the one at a place set to a number. Whether the number is an octet is checked
before the place is looked for. -/
def setOctet (octets : Bytes) (place value : Argument) : Except Failure Bytes := do
  let index ← place.index .buffer
  let octet ← value.item .buffer
  let place ← Argument.placeIn .buffer octets.length index
  return octets.set place octet

def setItem (items : List Argument) (place value : Argument) : Except Failure (List Argument) := do
  let index ← place.index .list
  let place ← Argument.placeIn .list items.length index
  return items.set place value

def refusal (value place : Argument) : Failure :=
  match value with
  | .octets .view _ => .argument .readOnly
  | _ =>
    if place.asInteger?.any (!Argument.isIndex ·) then .argument .placeTooLarge
    else .argument (.fixedItems value.typeName)

/-- Octets with the bits of a mask flipped at a place. -/
def flip (octets : Bytes) (place mask : Argument) : Except Failure Bytes := do
  let index ← place.index .buffer
  let place ← Argument.placeIn .buffer octets.length index
  match mask.asInteger? with
  | none => throw (.argument (.inoperable "^=" "int" mask.typeName))
  | some _ =>
    let bits ← mask.item .buffer
    return octets.set place (octets.getD place 0 ^^^ bits)

/-- The first `keep` octets; a negative number counts from the end, and nothing keeps them all. -/
def cut (octets : Bytes) (keep : Argument) : Except Failure Bytes :=
  if keep.isAbsent then .ok octets
  else match keep.bound with
    | .ok n => .ok (octets.take (if n < 0 then (n + octets.length).toNat else n.toNat))
    | .error failure => .error failure

def octetsOf (digits : Text) : Except Failure Bytes :=
  match Hexadecimal.read digits with
  | .ok octets => .ok octets
  | .error position => .error (.field (.notHexadecimal position))

def apply (alteration : Alteration) (octets : Bytes) : Except Failure Bytes := do
  let flipped ← alteration.masks.foldlM (fun octets mask => flip octets mask.1 mask.2) octets
  let kept ← cut flipped alteration.keep
  return kept ++ (← octetsOf alteration.appendix)

end Alteration

namespace Session

def ofEnvironment (environment : Environment) : Session :=
  { vault := Vault.ofSettings (Settings.ofEnvironment environment) }

def find {α : Type} (names : Names α) (name : String) : Except Failure α :=
  match names.lookup name with
  | some value => .ok value
  | none => .error (.unknownName name)

def view (key : KeyRef) : Action KeyView := do
  let record ← SecretKey.record key
  return { keyId := record.keyId, salt := record.salt, destroyed := record.destroyed }

/-- Whether a name or an open block refers to a key. -/
def refersTo (session : Session) (key : KeyRef) : Bool :=
  session.keys.any (·.2 == key) || session.entered.contains key

/-- Abandons a key that nothing refers to any more. -/
def releaseKey (session : Session) (key : KeyRef) : Session :=
  if session.refersTo key then session
  else { session with vault := (SecretKey.abandon key session.vault).2 }

/-- Names a key, and abandons the one that had the name. -/
def storeKey (session : Session) (name : String) (key : KeyRef) : Session :=
  let stored := { session with keys := session.keys.set name key }
  match session.keys.lookup name with
  | some old => stored.releaseKey old
  | none => stored

/-- Removes the name of a key, and abandons the key. -/
def dropKey (session : Session) (name : String) (key : KeyRef) : Session :=
  { session with keys := session.keys.unset name }.releaseKey key

def act {α : Type} (session : Session) (action : Action α) : Except Failure α × Session :=
  match action session.vault with
  | (outcome, vault) => (outcome, { session with vault })

def answer (session : Session) (action : Action Reply) : Except Failure Reply × Session :=
  session.act action

/-- Runs an action that makes a key, and names that key. -/
def answerKey (session : Session) (target : String) (action : Action KeyRef) :
    Except Failure Reply × Session :=
  match session.act (do let key ← action; return (key, ← view key)) with
  | (.ok (key, view), session) => (.ok (.key view), session.storeKey target key)
  | (.error failure, session) => (.error failure, session)

def answerPassword (session : Session) (target : String) (action : Action StoredPassword) :
    Except Failure Reply × Session :=
  match session.act action with
  | (.ok password, session) =>
    (.ok (.password password), { session with passwords := session.passwords.set target password })
  | (.error failure, session) => (.error failure, session)

def answerHolding (session : Session) (target : String) (action : Action Material) :
    Except Failure Reply × Session :=
  match session.act (do let held ← action; return (held, ← SecretKey.present held)) with
  | (.ok (held, value), session) =>
    (.ok (.value value), { session with holdings := session.holdings.set target held })
  | (.error failure, session) => (.error failure, session)

/-- What a live key holds as its secret. -/
def heldBy (key : KeyRef) : Action Material := do
  let _ ← SecretKey.secret key
  return (← SecretKey.record key).material

def setIn (held : Material) (place value : Argument) : Action Unit :=
  match held with
  | .buffer cell => do
    let content ← Action.content cell
    Action.write cell (← Action.lift (Alteration.setOctet content place value))
  | .list list => do
    let items ← Action.itemsAt list
    Action.writeList list (← Action.lift (Alteration.setItem items place value))
  | .fixed fixed => Action.fail (Alteration.refusal fixed place)

def credential (session : Session) : KeyChoice → Action Credential
  | .named name => do return .key (← Action.lift (find session.keys name))
  | .value argument => return .value argument

def material (session : Session) : KeySource → Action Material
  | .value argument => SecretKey.materialOf argument
  | .held name => Action.lift (find session.holdings name)

def perform (session : Session) : Command → Except Failure Reply × Session
  | .generate suite target keyId passphrase salt iterations =>
    session.answerKey target (SecretKey.generate suite keyId passphrase salt iterations)
  | .create target keyId salt source =>
    session.answerKey target do SecretKey.create keyId salt (← session.material source)
  | .inspect key =>
    session.answer do return .key (← view (← Action.lift (find session.keys key)))
  | .reveal key =>
    session.answer do
      return .value (← SecretKey.secret (← Action.lift (find session.keys key)))
  | .destroy key =>
    session.answer do
      SecretKey.destroy (← Action.lift (find session.keys key))
      return .nothing
  | .describeKey key =>
    session.answer do
      let record ← SecretKey.record (← Action.lift (find session.keys key))
      return .string (SecretKey.describe record)
  | .drop name =>
    match find session.keys name with
    | .error failure => (.error failure, session)
    | .ok key => (.ok .nothing, session.dropKey name key)
  | .newBuffer target digits =>
    session.answerHolding target do
      return .buffer (← Action.allocate (← Action.lift (Alteration.octetsOf digits)))
  | .hold key target =>
    session.answerHolding target do heldBy (← Action.lift (find session.keys key))
  | .readHeld name =>
    session.answer do
      return .value (← SecretKey.present (← Action.lift (find session.holdings name)))
  | .poke name place value =>
    session.answer do
      let held ← Action.lift (find session.holdings name)
      setIn held place value
      return .value (← SecretKey.present held)
  | .wipeHeld name =>
    session.answer do
      let held ← Action.lift (find session.holdings name)
      SecretKey.wipeMaterial held
      return .value (← SecretKey.present held)
  | .lock suite target keyId passphrase clearText salt vector =>
    session.answerPassword target
      (StoredPassword.lock suite keyId passphrase clearText salt vector)
  | .lockWith suite target key vector clearText =>
    session.answerPassword target do
      StoredPassword.lockWith suite (← session.credential key) vector clearText
  | .decode target encoded =>
    session.answerPassword target (Action.lift (StoredPassword.decode encoded))
  | .assemble target representation envelope =>
    session.answerPassword target
      (Action.lift (StoredPassword.assemble representation envelope))
  | .alter source target alteration =>
    session.answerPassword target do
      let password ← Action.lift (find session.passwords source)
      let raw ← Action.lift (alteration.apply password.representation)
      Action.lift (StoredPassword.ofBytes raw)
  | .fields password =>
    session.answer do return .password (← Action.lift (find session.passwords password))
  | .toText password marked =>
    session.answer do
      let password ← Action.lift (find session.passwords password)
      return .string (← password.toText marked).toString
  | .describe password =>
    session.answer do
      let password ← Action.lift (find session.passwords password)
      return .string (← Action.lift password.describe)
  | .unlock suite password key =>
    session.answer do
      let credential ← session.credential key
      let password ← Action.lift (find session.passwords password)
      return .value (.ofBytes (← password.unlock suite credential))
  | .compare password other =>
    session.answer do
      let same := (← Action.lift (find session.passwords password)).same
        (← Action.lift (find session.passwords other))
      return .comparison { equal := same, sameHash? := some same }
  | .compareValue password =>
    session.answer do
      let _ ← Action.lift (find session.passwords password)
      return .comparison { equal := false, sameHash? := none }
  | .setField password =>
    session.answer do
      let _ ← Action.lift (find session.passwords password)
      Action.fail .immutable
  | .restore source target =>
    session.answerPassword target do
      let password ← Action.lift (find session.passwords source)
      Action.lift (StoredPassword.ofBytes password.representation)
  | .configure environment =>
    session.answer do return .settings (← Action.configure environment)
  | .resolve standard =>
    session.answer do return .value (← Action.resolveIterations standard)

def quiet (session : Session) : Session :=
  { session with vault := { session.vault with warnings := [], calls := [] } }

def report (session : Session) (outcome : Except Failure Reply)
    (inner? : Option (List Report)) : Report :=
  ⟨outcome, session.vault.warnings, session.vault.calls, inner?⟩

/-- Opens a block on a key. -/
def enter (session : Session) (key : KeyRef) : Session :=
  { session with entered := key :: session.entered }

/-- Ends a block on a key: the key is destroyed, and abandoned if nothing else refers to it. -/
def leave (session : Session) (key : KeyRef) (failing? : Option String) :
    Except Failure Reply × Session :=
  let body : Action Unit :=
    match failing? with
    | some message => Action.fail (.reported .illegalState message)
    | none => pure ()
  let (outcome, session) := session.act (SecretKey.within key body)
  let (shown, session) := session.act (view key)
  let session := { session with entered := session.entered.drop 1 }.releaseKey key
  match outcome, shown with
  | .ok _, .ok view => (.ok (.key view), session)
  | .ok _, .error failure => (.error failure, session)
  | .error failure, _ => (.error failure, session)

mutual

/-- Runs a step: its report and the session afterwards. -/
def run (step : Step) (session : Session) : Report × Session :=
  match step with
  | .within name body failing? =>
    match find session.keys name with
    | .error failure => (session.quiet.report (.error failure) (some []), session.quiet)
    | .ok key =>
      let (reports, ended) := runAll body (session.enter key)
      let (outcome, left) := ended.quiet.leave key failing?
      (left.report outcome (some reports), left)
  | .command command =>
    let (outcome, next) := session.quiet.perform command
    (next.report outcome none, next)

def runAll (steps : List Step) (session : Session) : List Report × Session :=
  match steps with
  | [] => ([], session)
  | step :: rest =>
    let (report, next) := run step session
    let (reports, last) := runAll rest next
    (report :: reports, last)

end

/-- The names of the keys at the end of a session, and whether each key has been destroyed. -/
def remaining (session : Session) : List (String × Bool) :=
  session.keys.map fun entry =>
    (entry.1, (session.vault.keys[entry.2]?.map (·.destroyed)).getD false)

end Session

end PasswordVault
