import PasswordVault.Fractional
import PasswordVault.Text

/-!
# Arguments

The public operations accept text, octets and numbers in several forms and refuse everything else
with a message that names the type they were given. An argument is therefore a value of one of a
few types.

## Main definitions

- `Argument`, `Argument.typeName`
- `Argument.octets?` — the content of an octet string in any form
- `Argument.isTrue` — the truth value
- `Quantity`, `Argument.quantity?` — the number that a value counts as

## Design notes

A flag counts as the number zero or one wherever a number is wanted, but it is shown as a flag. A
number with a fractional part is a number too: it can be compared, though nothing else accepts it.
-/

namespace PasswordVault

/-- The forms of an octet string. Only a buffer can be overwritten. -/
inductive Form
  | constant
  | buffer
  | view
  deriving DecidableEq, Repr

/-- A value handed to an operation. -/
inductive Argument
  /-- Nothing. -/
  | absent
  | flag (value : Bool)
  | integer (value : Int)
  | fractional (value : Fractional)
  | text (content : Text)
  | octets (form : Form) (content : Bytes)
  | list (items : List Argument)
  deriving Repr

/-- A number of either kind. -/
inductive Quantity
  | whole (value : Int)
  | fractional (value : Fractional)
  deriving DecidableEq, Repr

namespace Quantity

/-- How a number compares with a whole one, unless they cannot be compared. -/
def compareInt? (quantity : Quantity) (n : Int) : Option Ordering :=
  match quantity with
  | .whole value => some (compare value n)
  | .fractional value => value.compareInt? n

def isWithin (quantity : Quantity) (low high : Int) : Bool :=
  (quantity.compareInt? low).any (· != .lt) && (quantity.compareInt? high).any (· != .gt)

@[simp] theorem isWithin_whole (value low high : Int) :
    (whole value).isWithin low high = (decide (low ≤ value) && decide (value ≤ high)) := by
  simp only [isWithin, compareInt?, Option.any_some, compare, compareOfLessAndEq]
  grind

end Quantity

namespace Argument

def ofBytes (content : Bytes) : Argument :=
  .octets .constant content

def typeName : Argument → String
  | .absent => "NoneType"
  | .flag _ => "bool"
  | .integer _ => "int"
  | .fractional _ => "float"
  | .text _ => "str"
  | .octets .constant _ => "bytes"
  | .octets .buffer _ => "bytearray"
  | .octets .view _ => "memoryview"
  | .list _ => "list"

def octets? : Argument → Option Bytes
  | .octets _ content => some content
  | _ => none

def isAbsent : Argument → Bool
  | .absent => true
  | _ => false

/-- The truth value: nothing, false, zero and whatever is empty are false. -/
def isTrue : Argument → Bool
  | .absent => false
  | .flag value => value
  | .integer value => value != 0
  | .fractional value => !value.isZero
  | .text content => !content.isEmpty
  | .octets _ content => !content.isEmpty
  | .list items => !items.isEmpty

/-- The whole number that a value counts as: a flag is zero or one. -/
def asInteger? : Argument → Option Int
  | .flag value => some (if value then 1 else 0)
  | .integer value => some value
  | _ => none

def quantity? : Argument → Option Quantity
  | .fractional value => some (.fractional value)
  | value => value.asInteger?.map .whole

/-- Whether a value is a number equal to a whole one. -/
def equalsInt (value : Argument) (n : Int) : Bool :=
  (value.quantity?.bind (·.compareInt? n)) == some .eq

@[simp] theorem asInteger?_integer (value : Int) : (integer value).asInteger? = some value := rfl

@[simp] theorem quantity?_integer (value : Int) :
    (integer value).quantity? = some (.whole value) := rfl

@[simp] theorem equalsInt_integer (value n : Int) : (integer value).equalsInt n = (value == n) := by
  simp only [equalsInt, quantity?_integer, Option.bind_some, Quantity.compareInt?, compare,
    compareOfLessAndEq]
  grind

end Argument

end PasswordVault
