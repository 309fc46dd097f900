/-!
# Categories of failure

Every failure has a category, and categories form a tree, so that a caller who guards against a
category also guards against the ones below it.

## Main definitions

- `FailureCategory` — the categories
- `FailureCategory.parent?`, `FailureCategory.lineage` — the tree
- `FailureCategory.within` — one category lies at or below another

## Design notes

Everything that goes wrong with an encoded password itself lies below `encodedPassword`, which
lies below `invalidValue`: callers who only guard against bad input keep working, and those who
want to tell a malformed text from a failed integrity check can.
-/

namespace PasswordVault

/-- The categories of failure. -/
inductive FailureCategory
  /-- The root of the tree: any object at all. -/
  | object
  /-- Anything that can interrupt a computation. -/
  | interruption
  /-- Any ordinary failure. -/
  | failure
  | wrongType
  /-- A value of the right type that is not acceptable. -/
  | invalidValue
  | illegalState
  /-- An operation that is only declared. -/
  | notImplemented
  /-- A field that cannot be written. -/
  | fieldAccess
  /-- An arithmetic failure. -/
  | arithmetic
  | overflow
  /-- A name or a place that is not there. -/
  | lookup
  | missingName
  /-- A place outside a sequence. -/
  | outOfBounds
  | outOfMemory
  /-- A request that the machine beneath should never have been given. -/
  | internal
  | textCoding
  /-- Text that an encoding cannot write. -/
  | unencodable
  | undecodable
  /-- Text that is not Base64. -/
  | base64
  /-- A tag that does not verify, as the cipher itself reports it. -/
  | invalidTag
  /-- Any failure of an encoded password. -/
  | encodedPassword
  | parse
  /-- A failure of key derivation or of the cipher. -/
  | security
  | authentication
  /-- Padding that is not the expected run of zeros. -/
  | padding
  deriving DecidableEq, Repr

namespace FailureCategory

/-- The category directly above. -/
def parent? : FailureCategory → Option FailureCategory
  | .object => none
  | .interruption => some .object
  | .failure => some .interruption
  | .wrongType => some .failure
  | .invalidValue => some .failure
  | .illegalState => some .failure
  | .notImplemented => some .illegalState
  | .fieldAccess => some .failure
  | .arithmetic => some .failure
  | .overflow => some .arithmetic
  | .lookup => some .failure
  | .missingName => some .lookup
  | .outOfBounds => some .lookup
  | .outOfMemory => some .failure
  | .internal => some .failure
  | .textCoding => some .invalidValue
  | .unencodable => some .textCoding
  | .undecodable => some .textCoding
  | .base64 => some .invalidValue
  | .invalidTag => some .failure
  | .encodedPassword => some .invalidValue
  | .parse => some .encodedPassword
  | .security => some .encodedPassword
  | .authentication => some .security
  | .padding => some .security

/-- The category and at most `steps` categories above it. -/
def climb : Nat → FailureCategory → List FailureCategory
  | 0, c => [c]
  | steps + 1, c =>
    match c.parent? with
    | none => [c]
    | some above => c :: climb steps above

/-- The category and all categories above it, itself first. -/
def lineage (c : FailureCategory) : List FailureCategory :=
  climb 6 c

def within (c above : FailureCategory) : Bool :=
  c.lineage.contains above

end FailureCategory

end PasswordVault
