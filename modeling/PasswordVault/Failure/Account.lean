import PasswordVault.Argument.Shown
import PasswordVault.Failure

/-!
# Accounts of failures

A failure can be made from parts of a caller's choice, written down, and read back elsewhere. What
is read back is an account: the category, the wording, and the position if it is a parse failure.

## Main definitions

- `Failure.Account` — what is read back
- `Failure.Account.ofParts` — the account of a failure made from parts

## Design notes

A parse failure has a wording and a position of its own, which is zero unless it is given. Every
other failure is worded by its parts, whatever they are.
-/

namespace PasswordVault

namespace Argument

mutual

/-- Whether a value can be written down and read back: a view of memory cannot. -/
def isStorable : Argument → Bool
  | .octets .view _ => false
  | .list items => areStorable items
  | _ => true

def areStorable : List Argument → Bool
  | [] => true
  | value :: rest => value.isStorable && areStorable rest

end

end Argument

namespace Failure

/-- What is known of a failure after it was written down and read back. -/
structure Account where
  category : FailureCategory
  message : String
  offset? : Option Argument
  deriving Repr

namespace Account

/-- The wording of a failure made from parts: a single part as it is shown, several in
parentheses. -/
def wording : List Argument → Except Failure String
  | [] => .ok ""
  | [part] => part.shown
  | parts => return "(" ++ ", ".intercalate (← Argument.spelledAll parts) ++ ")"

/-- The wording and the position of a parse failure made from parts. -/
def parseParts : List Argument → Except Failure (Argument × Argument)
  | [] => .error (.argument .noParts)
  | [message] => .ok (message, .integer 0)
  | [message, offset] => .ok (message, offset)
  | parts => .error (.argument (.tooManyParts parts.length))

/-- The account of a failure made from parts, after it was written down and read back. -/
def ofParts (category : FailureCategory) (parts : List Argument) : Except Failure Account := do
  if category = .parse then
    let (message, offset) ← parseParts parts
    if !Argument.areStorable [message, offset] then throw (.argument .notStorable)
    return { category, message := ← message.shown, offset? := some offset }
  else
    if !Argument.areStorable parts then throw (.argument .notStorable)
    return { category, message := ← wording parts, offset? := none }

end Account

end Failure

end PasswordVault
