import PasswordVault.Crypto.Sha512

/-!
# HMAC-SHA-512 and PBKDF2

A passphrase is turned into key octets by iterating a keyed hash. The two chaining values that
stand for the key are computed once; each further iteration is two compressions.

## Main definitions

- `Hmac.Key`, `Hmac.Key.ofBytes`, `Hmac.digest` — the keyed hash
- `Pbkdf2.block` — one block of output
- `Pbkdf2.derive` — the wanted number of octets
-/

namespace PasswordVault

namespace Hmac

open Sha512

/-- The chaining values after the inner and the outer key block. -/
structure Key where
  inner : Digest
  outer : Digest
  deriving DecidableEq, Repr

/-- The key that an octet string denotes: one longer than a block is hashed first. -/
def Key.ofBytes (secret : Bytes) : Key :=
  let short := if secret.length ≤ blockLength then secret else (Sha512.hash secret).toBytes
  let padded := short ++ Bytes.zeros (blockLength - short.length)
  ⟨compress initial (Block.ofBytes (padded.map (· ^^^ 0x36))),
   compress initial (Block.ofBytes (padded.map (· ^^^ 0x5C)))⟩

/-- The last block of a message that is one key block and one digest long. -/
def digestBlock (x : Digest) : Block :=
  ⟨x.a, x.b, x.c, x.d, x.e, x.f, x.g, x.h, 0x8000000000000000, 0, 0, 0, 0, 0, 0, 1536⟩

/-- The outer half of the keyed hash. -/
def Key.close (key : Key) (inner : Digest) : Digest :=
  compress key.outer (digestBlock inner)

def digest (key : Key) (message : Bytes) : Digest :=
  key.close (absorb key.inner blockLength message)

def digestAgain (key : Key) (x : Digest) : Digest :=
  key.close (compress key.inner (digestBlock x))

end Hmac

namespace Pbkdf2

open Sha512

/-- The exclusive or of `sum` with the next `count` iterates after `last`. -/
def iterate (key : Hmac.Key) : Nat → Digest → Digest → Digest
  | 0, _, sum => sum
  | count + 1, last, sum =>
    let next := Hmac.digestAgain key last
    iterate key count next (sum.xor next)

/-- The output block with number `index`, counted from one. -/
def block (key : Hmac.Key) (salt : Bytes) (iterations index : Nat) : Bytes :=
  let first := Hmac.digest key (salt ++ Bytes.bigEndian 4 index)
  (iterate key (iterations - 1) first first).toBytes

def maxLength : Nat := 0x7FFFFFFF

/-- The first `length` octets of the output blocks in order. -/
def derive (passphrase salt : Bytes) (iterations length : Nat) : Bytes :=
  let key := Hmac.Key.ofBytes passphrase
  let count := (length + digestLength - 1) / digestLength
  ((List.range count).flatMap fun index => block key salt iterations (index + 1)).take length

@[simp] theorem length_block (key : Hmac.Key) (salt : Bytes) (iterations index : Nat) :
    (block key salt iterations index).length = digestLength := by
  simp [block]

@[simp] theorem length_derive (passphrase salt : Bytes) (iterations length : Nat) :
    (derive passphrase salt iterations length).length = length := by
  have total : ∀ (key : Hmac.Key) (count : Nat),
      ((List.range count).flatMap fun index => block key salt iterations (index + 1)).length =
        count * digestLength := by
    intro key count
    induction count with
    | zero => simp
    | succ count ih => simp [List.range_succ, List.flatMap_append, ih, Nat.succ_mul]
  simp only [derive, List.length_take, total]
  simp only [digestLength]
  omega

end Pbkdf2

end PasswordVault
