import PasswordVault.StoredPassword
import PasswordVault.Text.Charset

/-!
# Passwords as text

The operations for callers who hold everything as text: the encrypted password in its text form,
and the clear text as a string in a named encoding.

## Main definitions

- `Codecs` — the encodings that a platform adds
- `TextPassword.lock` — a clear text to a text form
- `TextPassword.read` — a text form to its fields
- `TextPassword.unlock` — a text form to the clear text
- `TextPassword.keyId` — the key ID of a text form
-/

namespace PasswordVault

/-- The encodings that a platform knows beside those of `Charset`: how the one with a name reads
octets. -/
abbrev Codecs := String → Option (Bytes → Except Failure Text)

namespace TextPassword

/-- Encrypts a clear text with a fresh salt and vector. -/
def lock (suite : Suite) (keyId passphrase clearText marked : Argument) : Action Text := do
  let password ← StoredPassword.lock suite keyId passphrase clearText .absent .absent
  password.toText marked

/-- The fields of a text form; nothing is decrypted. -/
def read (encoded : Argument) : Except Failure StoredPassword :=
  StoredPassword.decode encoded

/-- The text of octets in the encoding with a name. A name that holds NUL is always refused. No
octets are the empty text in every encoding, so any other name does for them. -/
def inCharset (codecs : Codecs) (name : String) (octets : Bytes) : Except Failure Text :=
  if name.toList.contains '\x00' then .error .brokenCharset
  else if octets.isEmpty then .ok []
  else match Charset.ofName? name with
    | some charset =>
      match charset.decode octets with
      | .ok t => .ok t
      | .error error => .error (.undecodable error)
    | none =>
      match codecs name with
      | some decode => decode octets
      | none => .error (.unknownCharset name)

/-- The clear text of a text form, read in the encoding with a name. -/
def unlock (codecs : Codecs) (suite : Suite) (encoded passphrase : Argument) (charset : String) :
    Action Text := do
  let password ← Action.lift (read encoded)
  let clear ← password.unlock suite (.value passphrase)
  Action.lift (inCharset codecs charset clear)

def keyId (encoded : Argument) : Except Failure String :=
  match read encoded with
  | .ok password => .ok (KeyId.shown password.envelope.keyId)
  | .error failure => .error failure

end TextPassword

end PasswordVault
