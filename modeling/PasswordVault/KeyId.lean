import PasswordVault.Envelope
import PasswordVault.Text.Hexadecimal

/-!
# Key IDs

A key ID names the settings from which a key was derived. It is given as octets or as hexadecimal
text, and shown in upper-case hexadecimal.

## Main definitions

- `KeyId.ofArgument` — the octets of a key ID
- `KeyId.shown` — its canonical text
-/

namespace PasswordVault.KeyId

def checkLength (octets : Bytes) : Except Failure Bytes :=
  if Envelope.maxKeyIdLength < octets.length then
    .error (.field (.keyIdTooLong octets.length))
  else .ok octets

/-- The octets of a key ID; text is read as hexadecimal. -/
def ofArgument : Argument → Except Failure Bytes
  | .text content =>
    match Hexadecimal.read content with
    | .error position => .error (.field (.keyIdNotHexadecimal position))
    | .ok octets => checkLength octets
  | .octets _ content => checkLength content
  | other => .error (.argument (.unsupported .keyId other.typeName))

/-- The canonical text of a key ID. -/
def shown (keyId : Bytes) : String :=
  Hexadecimal.write .upper keyId

end PasswordVault.KeyId
