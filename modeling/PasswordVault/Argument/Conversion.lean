import PasswordVault.Argument
import PasswordVault.Failure
import PasswordVault.Text.Utf8

/-!
# Conversions of arguments

Every use of an argument as a number or as octets of some kind is a conversion that names what it
refuses.

## Main definitions

- `Argument.length` — the length of text, octets or a list
- `Argument.toBytes` — the general conversion to octets, which also reads counts and lists
- `Argument.toBytesOf`, `Argument.octetCount` — the same to a fixed length, and its length alone
- `Argument.operand` — a number under an operator
- `Argument.isWithin`, `Argument.isBelow` — a number compared with bounds
- `Argument.placeIn` — a place in a sequence
- `Argument.buffer`, `Argument.word64` — what the cryptographic primitives accept

## Design notes

The general conversion turns a whole number into that many zeros, so a number handed in for octets
is not refused as such. Operations that must not accept one check the type first.
-/

namespace PasswordVault.Argument

/-- The number of code points, octets or items. -/
def length : Argument → Except Failure Nat
  | .text content => .ok content.length
  | .octets _ content => .ok content.length
  | .list items => .ok items.length
  | other => .error (.argument (.noLength other.typeName))

/-- The whole number that stands to the left of an operator with a whole number to its right. -/
def operand (operator : String) (value : Argument) : Except Failure Int :=
  match value.asInteger? with
  | some n => .ok n
  | none => .error (.argument (.inoperable operator value.typeName "int"))

def isWithin (low high : Int) (value : Argument) : Except Failure Bool :=
  match value.quantity? with
  | some quantity => .ok (quantity.isWithin low high)
  | none => .error (.argument (.unordered "<=" "int" value.typeName))

def isBelow (bound : Int) (value : Argument) : Except Failure Bool :=
  match value.quantity? with
  | some quantity => .ok (quantity.compareInt? bound == some .lt)
  | none => .error (.argument (.unordered "<" value.typeName "int"))

/-- The octet that an item of a list stands for. -/
def item (container : Container) (value : Argument) : Except Failure UInt8 :=
  match value.asInteger? with
  | none => .error (.argument (.notInteger value.typeName))
  | some n =>
    if 0 ≤ n ∧ n < 256 then .ok (UInt8.ofNat n.toNat)
    else .error (.argument (.itemOutOfRange container))

/-- The largest count that a machine can index. -/
def maxCount : Int := 0x7FFFFFFFFFFFFFFF

/-- Whether a machine can index a number, counted from either end. -/
def isIndex (n : Int) : Bool :=
  -(maxCount + 1) ≤ n && n ≤ maxCount

/-- The largest count of octets that a constant has room for beside its header. -/
def maxConstant : Int := maxCount - 33

/-- A count of octets for which a container has room. -/
def roomFor (container : Container) (count : Int) : Except Failure Nat :=
  if container = .constant ∧ maxConstant < count then .error (.argument .octetsTooLong)
  else if Bytes.maxLength < count then .error (.argument .notEnoughMemory)
  else .ok count.toNat

/-- How many zero octets a number stands for. -/
def zeroCount (container : Container) (count : Int) : Except Failure Nat :=
  if !isIndex count then .error (.argument .countTooLarge)
  else if count < 0 then .error (.argument .negativeCount)
  else roomFor container count

def zeros (container : Container) (count : Int) : Except Failure Bytes :=
  (zeroCount container count).map Bytes.zeros

def items (container : Container) : List Argument → Except Failure Bytes
  | [] => .ok []
  | value :: rest =>
    match value.item container with
    | .error failure => .error failure
    | .ok octet =>
      match items container rest with
      | .error failure => .error failure
      | .ok others => .ok (octet :: others)

/-- The general conversion to octets: octets are copied, a number gives that many zeros, a list
gives the octets its items stand for, and every other value of an `Argument` is refused. Values of
types that no `Argument` has may have octets of their own. -/
def toBytes (container : Container) : Argument → Except Failure Bytes
  | .octets _ content => .ok content
  | .text _ => .error (.argument .textWithoutCharset)
  | .flag value => zeros container (if value then 1 else 0)
  | .integer value => zeros container value
  | .list values => items container values
  | other => .error (.argument (.notConvertible other.typeName container))

/-- How many octets the general conversion gives. Zeros are counted without being made. -/
def octetCount (container : Container) : Argument → Except Failure Nat
  | .flag value => zeroCount container (if value then 1 else 0)
  | .integer value => zeroCount container value
  | value => (value.toBytes container).map List.length

/-- The general conversion to octets, where a fixed number of them is wanted; any other number is
refused before zeros are made. -/
def toBytesOf (container : Container) (length : Nat) (refusal : Nat → Failure) (value : Argument) :
    Except Failure Bytes :=
  match value.octetCount container with
  | .error failure => .error failure
  | .ok count => if count = length then value.toBytes container else .error (refusal count)

/-- The octets that can be assigned to a range of a buffer. -/
def assignable : Argument → Except Failure Bytes
  | .octets _ content => .ok content
  | .list values => items .buffer values
  | _ => .error (.argument .notAssignable)

/-- The content of an octet string, which `refusal` refuses to find in a value of any other type. -/
def contentOr (refusal : String → ArgumentError) (value : Argument) : Except Failure Bytes :=
  match value.octets? with
  | some content => .ok content
  | none => .error (.argument (refusal value.typeName))

/-- The octets that can be appended to a buffer. -/
def joinable (value : Argument) : Except Failure Bytes :=
  value.contentOr .notJoinable

/-- The content of an octet string, as a text conversion asks for it. -/
def requireOctets (value : Argument) : Except Failure Bytes :=
  value.contentOr .notOctets

/-- The content of an octet string, copied for the caller to overwrite. -/
def ownedCopy (value : Argument) : Except Failure Bytes :=
  value.contentOr .octetsExpected

/-- The content of an octet string that can be looked at without a copy. -/
def viewable (value : Argument) : Except Failure Bytes :=
  value.contentOr .notViewable

/-- The content of an octet string, as the cryptographic primitives ask for it. -/
def buffer (value : Argument) : Except Failure Bytes :=
  value.contentOr .notBuffer

def maxWord : Int := 0xFFFFFFFFFFFFFFFF

/-- The unsigned machine word that a value counts as. -/
def word64 (value : Argument) : Except Failure Nat :=
  match value.asInteger? with
  | none => .error (.argument (.notInteger value.typeName))
  | some n =>
    if n < 0 then .error (.cipher .negativeNumber)
    else if maxWord < n then .error (.cipher .numberTooLarge)
    else .ok n.toNat

/-- The end of a range, as a whole number of any size. -/
def bound (value : Argument) : Except Failure Int :=
  match value.asInteger? with
  | some n => .ok n
  | none => .error (.argument .notBound)

/-- The whole number that a value gives for a place in a sequence, whose length does not matter
yet. -/
def index (sequence : Sequence) (value : Argument) : Except Failure Int :=
  match value.asInteger? with
  | none => .error (.argument (.notPlace sequence value.typeName))
  | some n => if isIndex n then .ok n else .error (.argument .placeTooLarge)

/-- The place that a whole number denotes in a sequence; a negative one counts from the end. -/
def placeIn (sequence : Sequence) (length : Nat) (n : Int) : Except Failure Nat :=
  let place := if n < 0 then n + length else n
  if 0 ≤ place ∧ place < length then .ok place.toNat else .error (.outOfBounds sequence)

/-- The octets of text or of an octet string given for `role`; text is written in UTF-8. -/
def secretOctets (role : Role) : Argument → Except Failure Bytes
  | .text content =>
    match Utf8.encode content with
    | .ok encoded => .ok encoded
    | .error error => .error (.unencodable error)
  | .octets _ content => .ok content
  | other => .error (.argument (.unsupported role other.typeName))

@[simp] theorem toBytes_ofBytes (container : Container) (content : Bytes) :
    toBytes container (ofBytes content) = .ok content := rfl

theorem octetCount_eq_map_length (container : Container) (value : Argument) :
    octetCount container value = (toBytes container value).map List.length := by
  cases value <;> simp only [octetCount, toBytes, zeros] <;> cases zeroCount _ _ <;>
    simp [Except.map]

theorem toBytesOf_eq (container : Container) (length : Nat) (refusal : Nat → Failure)
    (value : Argument) :
    toBytesOf container length refusal value =
      (toBytes container value).bind fun octets =>
        if octets.length = length then .ok octets else .error (refusal octets.length) := by
  unfold toBytesOf
  rw [octetCount_eq_map_length]
  cases toBytes container value <;> rfl

@[simp] theorem contentOr_octets (refusal : String → ArgumentError) (form : Form)
    (content : Bytes) : contentOr refusal (.octets form content) = .ok content := rfl

@[simp] theorem operand_integer (operator : String) (n : Int) :
    operand operator (.integer n) = .ok n := rfl

/-- Whatever counts as a whole number is compared as that number. -/
theorem isWithin_of_asInteger? {value : Argument} {n : Int} (h : value.asInteger? = some n)
    (low high : Int) :
    value.isWithin low high = .ok (decide (low ≤ n) && decide (n ≤ high)) := by
  have hquantity : value.quantity? = some (.whole n) := by
    cases value with
    | fractional value => cases h
    | _ => exact congrArg (Option.map Quantity.whole) h
  rw [isWithin, hquantity]
  simp only [Quantity.isWithin_whole]

@[simp] theorem isWithin_integer (low high n : Int) :
    isWithin low high (.integer n) = .ok (decide (low ≤ n) && decide (n ≤ high)) :=
  isWithin_of_asInteger? rfl low high

theorem bound_of_asInteger? {value : Argument} {n : Int} (h : value.asInteger? = some n) :
    value.bound = .ok n := by
  rw [bound, h]

end PasswordVault.Argument
