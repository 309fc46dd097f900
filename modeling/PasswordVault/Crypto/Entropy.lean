import PasswordVault.Crypto.Sha512

/-!
# Drawing octets from a seed

Whoever runs the library supplies the seed; the octets of each draw are hashes of the seed, the
number of the draw and a counter.

## Main definitions

- `Entropy` — octets by number of the draw and length
- `Entropy.ofSeed` — the octets that a seed gives
-/

namespace PasswordVault

/-- A source of octets, by number of the draw and wanted length. -/
abbrev Entropy := Nat → Nat → Bytes

namespace Entropy

/-- The hash of a seed, the number of a draw and a counter. -/
def chunk (seed : Bytes) (draw counter : Nat) : Bytes :=
  (Sha512.hash (Bytes.bigEndian 8 draw ++ Bytes.bigEndian 8 counter ++ seed)).toBytes

def ofSeed (seed : Bytes) : Entropy := fun draw length =>
  let count := (length + Sha512.digestLength - 1) / Sha512.digestLength
  ((List.range count).flatMap (chunk seed draw)).take length

@[simp] theorem length_ofSeed (seed : Bytes) (draw length : Nat) :
    (ofSeed seed draw length).length = length := by
  have total : ∀ count : Nat,
      ((List.range count).flatMap (chunk seed draw)).length = count * Sha512.digestLength := by
    intro count
    induction count with
    | zero => simp
    | succ count ih => simp [List.range_succ, List.flatMap_append, ih, chunk, Nat.succ_mul]
  simp only [ofSeed, List.length_take, total]
  simp only [Sha512.digestLength]
  omega

end Entropy

end PasswordVault
