/-!
# Octet strings

Binary data is a list of octets, so that slicing, concatenation and zero runs are the list
operations and their lemmas.

## Main definitions

- `Bytes` — an octet string
- `Bytes.maxLength` — the most octets for which memory can be had
- `Bytes.zeros` — the all-zero octet string of a given length
- `Bytes.cleared` — the zero octet string as long as a given one
-/

namespace PasswordVault

/-- An octet string. -/
abbrev Bytes := List UInt8

namespace Bytes

/-- The most octets for which memory can be had. -/
def maxLength : Nat := 0x1000000000

def zeros (n : Nat) : Bytes :=
  List.replicate n 0

/-- What an overwritten buffer holds: as many zeros as it had octets. -/
def cleared (content : Bytes) : Bytes :=
  zeros content.length

@[simp] theorem length_zeros (n : Nat) : (zeros n).length = n := by
  simp [zeros]

@[simp] theorem length_cleared (content : Bytes) : content.cleared.length = content.length := by
  simp [cleared]

/-- Bitwise exclusive or of two octet strings, as long as the shorter one. -/
def xor (left right : Bytes) : Bytes :=
  List.zipWith (· ^^^ ·) left right

/-- The `width` low octets of a number, most significant first. -/
def bigEndian (width number : Nat) : Bytes :=
  (List.range width).reverse.map fun place => UInt8.ofNat (number >>> (8 * place))

end Bytes

end PasswordVault
