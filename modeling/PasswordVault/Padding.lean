import PasswordVault.Argument.Conversion
import PasswordVault.Argument.Shown

/-!
# Zero padding

A clear text is filled up with zeros to a whole number of blocks, so that the length of a
ciphertext tells no more than the number of blocks. The number of zeros added is recorded beside
the ciphertext, and every one of them is checked when they are removed.

## Main definitions

- `Padding.needed` — how many zeros complete the last block
- `Padding.add` — the padded text and the number of zeros added
- `Padding.remove` — the text without its padding, if that is all zeros
- `Padding.addTo`, `Padding.removeFrom`, `Padding.neededFor` — the same for arguments of any type
-/

namespace PasswordVault.Padding

def blockLength : Nat := 16

/-- The most zeros that padding adds. -/
def maxLength : Nat := blockLength - 1

/-- The least number that makes `length` a multiple of the block length when added. -/
def needed (length : Int) : Int :=
  let remainder := length % blockLength
  if remainder = 0 then 0 else blockLength - remainder

/-- The number that completes a fractional one to a multiple of the block length: a whole zero if it
is one already. -/
def complement : Fractional → Argument
  | .finite negative units =>
    let block := blockLength <<< Fractional.unitShift
    let part := units % block
    if part = 0 then .integer 0
    else
      let remainder := if negative then Fractional.roundUnits (block - part) 1 else part
      .fractional (.finite false (Fractional.roundUnits (block - remainder) 1))
  | _ => .fractional .notANumber

/-- A text filled up with zeros, and how many. -/
def add (content : Bytes) : Bytes × Nat :=
  let zeros := (needed content.length).toNat
  (content ++ Bytes.zeros zeros, zeros)

/-- The text without its last `count` octets, which must all be zero; `given` is the count as it was
handed in, which a failure shows. -/
def removeZeros (given : Argument) (content : Bytes) (count : Nat) : Except Failure Bytes :=
  let kept := content.length - count
  if (content.drop kept).all (· == 0) then .ok (content.take kept)
  else .error (given.showing fun shown => .padding (.nonZero shown))

def remove (content : Bytes) (count : Int) : Except Failure Bytes :=
  let given := Argument.integer count
  if ¬(0 ≤ count ∧ count ≤ maxLength) then
    .error (given.showing fun shown => .padding (.outOfRange shown))
  else if (content.length : Int) < count then
    .error (given.showing fun shown => .padding (.tooLong shown content.length))
  else removeZeros given content count.toNat

/-- Pads an argument: its length decides how many zeros are added, its content is assigned. -/
def addTo (value : Argument) : Except Failure (Bytes × Nat) :=
  match value.length with
  | .error failure => .error failure
  | .ok length =>
    match value.assignable with
    | .error failure => .error failure
    | .ok content =>
      let zeros := (needed length).toNat
      .ok (content ++ Bytes.zeros zeros, zeros)

/-- Removes padding from an argument. The count is compared with its bounds and with the length of
the argument; only then does it matter whether the argument is an octet string and the count a
whole number. -/
def removeFrom (value count : Argument) : Except Failure Bytes := do
  if !(← count.isWithin 0 maxLength) then
    throw (count.showing fun shown => .padding (.outOfRange shown))
  let length ← value.length
  if !(← count.isWithin 0 length) then
    throw (count.showing fun shown => .padding (.tooLong shown length))
  let content ← value.viewable
  let bound ← count.bound
  removeZeros count content bound.toNat

/-- Why a template of the given type is no length. With the block length filled in it is no number
either, and cannot be taken from one. -/
def templateFailure (given : String) (kind : Template.Kind) (template : List Nat) : Failure :=
  match Template.check kind template with
  | .error error => .template error
  | .ok _ => .argument (.inoperable "-" "int" given)

/-- The least number that makes a length a multiple of the block length when added. A length that is
no whole number gives such a number too, if it is a number at all. -/
def neededFor : Argument → Except Failure Argument
  | .fractional length => .ok (complement length)
  | .text content => .error (templateFailure "str" .text (content.map (·.val)))
  | .octets .constant content =>
    .error (templateFailure "bytes" .octets (content.map (·.toNat)))
  | .octets .buffer content =>
    .error (templateFailure "bytearray" .octets (content.map (·.toNat)))
  | length => return .integer (needed (← length.operand "%"))

@[simp] theorem removeFrom_octets_integer (form : Form) (content : Bytes) (count : Int) :
    removeFrom (.octets form content) (.integer count) = remove content count := by
  by_cases low : 0 ≤ count <;> by_cases high : count ≤ maxLength <;>
    by_cases long : (content.length : Int) < count <;>
      simp [removeFrom, remove, Argument.length, Argument.viewable, Argument.bound, low, high, long,
        bind, Except.bind, throw, throwThe, MonadExceptOf.throw]

end PasswordVault.Padding
