import PasswordVault.Argument.Conversion

/-!
# Wiping values

Overwriting a secret that a caller holds, and using one that is overwritten afterwards.

## Main definitions

- `Wiping.wipe` — the value after it has been overwritten
- `Wiping.Trace`, `Wiping.during` — what is seen of a value while it is in use and afterwards
-/

namespace PasswordVault.Wiping

/-- The value after it has been overwritten. Nothing needs no overwriting; anything but a buffer
cannot be overwritten. -/
def wipe : Argument → Except Failure Argument
  | .absent => .ok .absent
  | .octets .buffer content => .ok (.octets .buffer content.cleared)
  | other => .error (.argument (.notWipeable other.typeName))

/-- What is seen of a value that is overwritten after use. -/
structure Trace where
  /-- The octets of the value while it was in use. -/
  inside : Bytes
  /-- The value afterwards. -/
  after : Argument
  /-- The failure that ended the use. -/
  failure? : Option Failure

/-- Uses a value, ending in `failure?` if there is one, and overwrites it. A failure to overwrite
it comes before a failure to read it. -/
def during (value : Argument) (failure? : Option Failure) : Except Failure Trace :=
  match wipe value with
  | .error failure => .error failure
  | .ok after =>
    match value.toBytes .constant with
    | .error failure => .error failure
    | .ok inside => .ok { inside, after, failure? }

end PasswordVault.Wiping
