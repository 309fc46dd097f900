import PasswordVault.Suite.Standard

/-!
# Scripted suites

Suites for rehearsals: the random octets are given in advance, and the other operations are either
the standard ones or answer with given values. One operation may be made to fail.

## Main definitions

- `Suite.Entry`, `Suite.Call.entry` — a call as a script records it
- `Suite.journal` — what a script recorded
- `Suite.Replies` — given answers
- `Suite.scripted` — the suite that follows a script

## Design notes

A script records a call before it answers it, each argument as a number or as octets. A call that
cannot be recorded is refused.
-/

namespace PasswordVault.Suite

/-- A call as a script records it. -/
structure Entry where
  operation : Operation
  arguments : List Argument
  deriving Repr

/-- An argument as a script records it: a number stays as it is, all else is converted to octets. -/
def recorded (value : Argument) : Except Failure Argument :=
  match value.asInteger? with
  | some _ => .ok value
  | none =>
    match value.toBytes .constant with
    | .ok content => .ok (.ofBytes content)
    | .error failure => .error failure

/-- The record of a call, whose arguments are converted in order. -/
def Call.entry (call : Call) : Except Failure Entry := do
  let arguments : List Argument := match call with
    | .randomBytes length => [.integer length]
    | .deriveKey passphrase salt iterations length =>
      [.ofBytes passphrase, .ofBytes salt, iterations, .integer length]
    | .encrypt key vector plaintext => [key, .ofBytes vector, .ofBytes plaintext]
    | .decrypt key vector ciphertext => [key, .ofBytes vector, .ofBytes ciphertext]
  return { operation := call.operation, arguments := ← arguments.mapM recorded }

def journal (calls : List Call) : List Entry :=
  calls.filterMap fun call => call.entry.toOption

/-- Answers given in advance. Without a given one, encryption answers its plaintext and decryption
its ciphertext. -/
structure Replies where
  key : Argument
  ciphertext? : Option Argument
  plaintext? : Option Argument
  failing? : Option Operation

/-- The next of the random octets given in advance. -/
def draw (draws : List Argument) (history : List Call) : Except Failure Argument :=
  match draws[countOf .randomBytes history]? with
  | some octets => .ok octets
  | none => .error (.reported .illegalState "random queue exhausted")

def Replies.answer (replies : Replies) (draws : List Argument) (history : List Call) (call : Call) :
    Except Failure Argument :=
  if replies.failing? = some call.operation then
    .error (.reported .illegalState ("provider failure: " ++ call.operation.name))
  else match call with
    | .randomBytes _ => draw draws history
    | .deriveKey .. => .ok replies.key
    | .encrypt _ _ plaintext => .ok (replies.ciphertext?.getD (.ofBytes plaintext))
    | .decrypt _ _ ciphertext => .ok (replies.plaintext?.getD (.ofBytes ciphertext))

/-- The suite with the given random octets, and with the given replies if there are any. -/
def scripted (draws : List Argument) (replies? : Option Replies) : Suite where
  answer history call := do
    let _ ← call.entry
    match replies? with
    | some replies => replies.answer draws history call
    | none =>
      match call with
      | .randomBytes _ => draw draws history
      | _ => (standard fun _ length => Bytes.zeros length).answer history call

end PasswordVault.Suite
