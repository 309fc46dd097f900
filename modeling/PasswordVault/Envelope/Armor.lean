import PasswordVault.Argument.Conversion
import PasswordVault.Text.Base64

/-!
# The text form of an envelope

Octets are written in Base64, with or without the name of the storage scheme in front. Reading
accepts both.

## Main definitions

- `Armor.scheme` — the storage scheme marker
- `Armor.write` — the text of octets
- `Armor.read` — the octets of a text
- `Armor.writeFrom`, `Armor.readFrom` — the same for arguments of any type
-/

namespace PasswordVault.Armor

/-- The storage scheme marker. -/
def scheme : Text :=
  Text.ofString "\x7bAES256\x7d"

/-- The text of octets, with the scheme marker if wanted. -/
def write (raw : Bytes) (marked : Bool) : Text :=
  let body := Text.ofAscii (Base64.encode raw)
  if marked then scheme ++ body else body

/-- The octets of a Base64 text that begins at position `offset` of a longer one. -/
def readBody (offset : Nat) (body : Text) : Except Failure Bytes :=
  match Ascii.encode body with
  | .error fault => .error (.parse (.notAscii fault offset))
  | .ok ascii =>
    match Base64.decode ascii with
    | .error fault => .error (.parse (.notBase64 fault offset))
    | .ok raw => .ok raw

/-- The octets of a text with or without the scheme marker. -/
def read (t : Text) : Except Failure Bytes :=
  match t.dropMarker? scheme with
  | some body => readBody scheme.length body
  | none => readBody 0 t

def writeFrom (value : Argument) (marked : Bool) : Except Failure Text :=
  match value.requireOctets with
  | .error failure => .error failure
  | .ok raw => .ok (write raw marked)

def readFrom : Argument → Except Failure Bytes
  | .text content => read content
  | other => .error (.argument (.textExpected other.typeName))

end PasswordVault.Armor
