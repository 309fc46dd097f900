import PasswordVault.Octets

/-!
# SHA-512

The hash of FIPS 180-4 with 64-bit words. The compression function is given on words, so that key
derivation can iterate it without going through octets.

## Main definitions

- `Sha512.Digest`, `Sha512.Block` — eight and sixteen words
- `Sha512.compress` — the compression function
- `Sha512.absorb` — the digest after whole blocks and a padded end
- `Sha512.hash` — the hash of an octet string
-/

namespace PasswordVault.Sha512

/-- A chaining value: eight words. -/
structure Digest where
  a : UInt64
  b : UInt64
  c : UInt64
  d : UInt64
  e : UInt64
  f : UInt64
  g : UInt64
  h : UInt64
  deriving DecidableEq, Repr

/-- A message block: sixteen words. -/
structure Block where
  w0 : UInt64
  w1 : UInt64
  w2 : UInt64
  w3 : UInt64
  w4 : UInt64
  w5 : UInt64
  w6 : UInt64
  w7 : UInt64
  w8 : UInt64
  w9 : UInt64
  w10 : UInt64
  w11 : UInt64
  w12 : UInt64
  w13 : UInt64
  w14 : UInt64
  w15 : UInt64
  deriving DecidableEq, Repr

def blockLength : Nat := 128

def digestLength : Nat := 64

/-- The round constants: the fractional parts of the cube roots of the first eighty primes. -/
def constants : List UInt64 :=
  [0x428a2f98d728ae22, 0x7137449123ef65cd, 0xb5c0fbcfec4d3b2f, 0xe9b5dba58189dbbc,
   0x3956c25bf348b538, 0x59f111f1b605d019, 0x923f82a4af194f9b, 0xab1c5ed5da6d8118,
   0xd807aa98a3030242, 0x12835b0145706fbe, 0x243185be4ee4b28c, 0x550c7dc3d5ffb4e2,
   0x72be5d74f27b896f, 0x80deb1fe3b1696b1, 0x9bdc06a725c71235, 0xc19bf174cf692694,
   0xe49b69c19ef14ad2, 0xefbe4786384f25e3, 0x0fc19dc68b8cd5b5, 0x240ca1cc77ac9c65,
   0x2de92c6f592b0275, 0x4a7484aa6ea6e483, 0x5cb0a9dcbd41fbd4, 0x76f988da831153b5,
   0x983e5152ee66dfab, 0xa831c66d2db43210, 0xb00327c898fb213f, 0xbf597fc7beef0ee4,
   0xc6e00bf33da88fc2, 0xd5a79147930aa725, 0x06ca6351e003826f, 0x142929670a0e6e70,
   0x27b70a8546d22ffc, 0x2e1b21385c26c926, 0x4d2c6dfc5ac42aed, 0x53380d139d95b3df,
   0x650a73548baf63de, 0x766a0abb3c77b2a8, 0x81c2c92e47edaee6, 0x92722c851482353b,
   0xa2bfe8a14cf10364, 0xa81a664bbc423001, 0xc24b8b70d0f89791, 0xc76c51a30654be30,
   0xd192e819d6ef5218, 0xd69906245565a910, 0xf40e35855771202a, 0x106aa07032bbd1b8,
   0x19a4c116b8d2d0c8, 0x1e376c085141ab53, 0x2748774cdf8eeb99, 0x34b0bcb5e19b48a8,
   0x391c0cb3c5c95a63, 0x4ed8aa4ae3418acb, 0x5b9cca4f7763e373, 0x682e6ff3d6b2b8a3,
   0x748f82ee5defb2fc, 0x78a5636f43172f60, 0x84c87814a1f0ab72, 0x8cc702081a6439ec,
   0x90befffa23631e28, 0xa4506cebde82bde9, 0xbef9a3f7b2c67915, 0xc67178f2e372532b,
   0xca273eceea26619c, 0xd186b8c721c0c207, 0xeada7dd6cde0eb1e, 0xf57d4f7fee6ed178,
   0x06f067aa72176fba, 0x0a637dc5a2c898a6, 0x113f9804bef90dae, 0x1b710b35131c471b,
   0x28db77f523047d84, 0x32caab7b40c72493, 0x3c9ebe0a15c9bebc, 0x431d67c49c100d4c,
   0x4cc5d4becb3e42b6, 0x597f299cfc657e2a, 0x5fcb6fab3ad6faec, 0x6c44198c4a475817]

/-- The initial chaining value: the fractional parts of the square roots of the first eight
primes. -/
def initial : Digest :=
  ⟨0x6a09e667f3bcc908, 0xbb67ae8584caa73b, 0x3c6ef372fe94f82b, 0xa54ff53a5f1d36f1,
   0x510e527fade682d1, 0x9b05688c2b3e6c1f, 0x1f83d9abfb41bd6b, 0x5be0cd19137e2179⟩

/-- Rotates a word to the right by `n` places, for `0 < n < 64`. -/
def rotateRight (x n : UInt64) : UInt64 :=
  x >>> n ||| x <<< (64 - n)

def choose (e f g : UInt64) : UInt64 :=
  (e &&& f) ^^^ (~~~e &&& g)

def majority (a b c : UInt64) : UInt64 :=
  (a &&& b) ^^^ (a &&& c) ^^^ (b &&& c)

/-- The rotations mixed into the first half of a round. -/
def bigSigma1 (e : UInt64) : UInt64 :=
  rotateRight e 14 ^^^ rotateRight e 18 ^^^ rotateRight e 41

/-- The rotations mixed into the second half of a round. -/
def bigSigma0 (a : UInt64) : UInt64 :=
  rotateRight a 28 ^^^ rotateRight a 34 ^^^ rotateRight a 39

/-- The rotations of the message schedule, on the word fifteen places back. -/
def smallSigma0 (w : UInt64) : UInt64 :=
  rotateRight w 1 ^^^ rotateRight w 8 ^^^ w >>> 7

/-- The rotations of the message schedule, on the word two places back. -/
def smallSigma1 (w : UInt64) : UInt64 :=
  rotateRight w 19 ^^^ rotateRight w 61 ^^^ w >>> 6

/-- The rounds for the given constants. The next sixteen words of the message schedule are held
as arguments; each round consumes the first and appends the one that follows them. -/
def rounds (constants : List UInt64)
    (w0 w1 w2 w3 w4 w5 w6 w7 w8 w9 w10 w11 w12 w13 w14 w15 : UInt64)
    (a b c d e f g h : UInt64) : Digest :=
  match constants with
  | [] => ⟨a, b, c, d, e, f, g, h⟩
  | constant :: constants =>
    let t1 := h + bigSigma1 e + choose e f g + constant + w0
    let t2 := bigSigma0 a + majority a b c
    let next := smallSigma1 w14 + w9 + smallSigma0 w1 + w0
    rounds constants w1 w2 w3 w4 w5 w6 w7 w8 w9 w10 w11 w12 w13 w14 w15 next
      (t1 + t2) a b c (d + t1) e f g

def Digest.add (x y : Digest) : Digest :=
  ⟨x.a + y.a, x.b + y.b, x.c + y.c, x.d + y.d, x.e + y.e, x.f + y.f, x.g + y.g, x.h + y.h⟩

def Digest.xor (x y : Digest) : Digest :=
  ⟨x.a ^^^ y.a, x.b ^^^ y.b, x.c ^^^ y.c, x.d ^^^ y.d,
   x.e ^^^ y.e, x.f ^^^ y.f, x.g ^^^ y.g, x.h ^^^ y.h⟩

def compress (x : Digest) (block : Block) : Digest :=
  let ⟨w0, w1, w2, w3, w4, w5, w6, w7,
       w8, w9, w10, w11, w12, w13, w14, w15⟩ := block
  x.add (rounds constants w0 w1 w2 w3 w4 w5 w6 w7 w8 w9 w10 w11 w12 w13 w14 w15
    x.a x.b x.c x.d x.e x.f x.g x.h)

/-- The big-endian word at the start of an octet string; missing octets are zero. -/
def wordOf (octets : Bytes) : UInt64 :=
  (List.range 8).foldl (fun word place => word <<< 8 ||| (octets.getD place 0).toUInt64) 0

/-- The block at the start of an octet string; missing octets are zero. -/
def Block.ofBytes (octets : Bytes) : Block :=
  let word (place : Nat) : UInt64 := wordOf ((octets.drop (8 * place)).take 8)
  ⟨word 0, word 1, word 2, word 3, word 4, word 5, word 6, word 7,
   word 8, word 9, word 10, word 11, word 12, word 13, word 14, word 15⟩

def wordBytes (word : UInt64) : Bytes :=
  [(word >>> 56).toUInt8, (word >>> 48).toUInt8, (word >>> 40).toUInt8, (word >>> 32).toUInt8,
   (word >>> 24).toUInt8, (word >>> 16).toUInt8, (word >>> 8).toUInt8, word.toUInt8]

def Digest.toBytes (x : Digest) : Bytes :=
  wordBytes x.a ++ wordBytes x.b ++ wordBytes x.c ++ wordBytes x.d ++
    wordBytes x.e ++ wordBytes x.f ++ wordBytes x.g ++ wordBytes x.h

@[simp] theorem Digest.length_toBytes (x : Digest) : x.toBytes.length = digestLength := rfl

/-- The chaining value after the first `count` blocks of an octet string. -/
def compressBlocks (x : Digest) : Nat → Bytes → Digest
  | 0, _ => x
  | count + 1, octets =>
    compressBlocks (compress x (Block.ofBytes octets)) count (octets.drop blockLength)

/-- The end of a message of `total` octets: a one bit, zero bits, and the length in bits, filling
a whole number of blocks. -/
def closing (total : Nat) : Bytes :=
  0x80 :: Bytes.zeros ((239 - total % blockLength) % blockLength) ++ Bytes.bigEndian 16 (8 * total)

/-- The digest of a message of which `before` octets, in whole blocks, gave the chaining value
`x`, and `octets` are the rest. -/
def absorb (x : Digest) (before : Nat) (octets : Bytes) : Digest :=
  let message := octets ++ closing (before + octets.length)
  compressBlocks x (message.length / blockLength) message

def hash (octets : Bytes) : Digest :=
  absorb initial 0 octets

end PasswordVault.Sha512
