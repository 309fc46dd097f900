/-!
# The release

## Main definitions

- `Release.Metadata` — what is known about the installed package
- `Release.version` — the version shown to callers
-/

namespace PasswordVault.Release

/-- What is known about the installed package. -/
inductive Metadata
  /-- The package is installed. -/
  | installed
  | notInstalled
  /-- Packages cannot be looked up. -/
  | unavailable
  deriving DecidableEq, Repr

def version : Metadata → String
  | .installed => "1.0.0"
  | .notInstalled => "0.0.0"
  | .unavailable => "0.0.0"

end PasswordVault.Release
