import PasswordVault.Crypto.Aes

/-!
# Galois/Counter Mode

Authenticated encryption with AES, a tag of sixteen octets and no associated data. The locked form
of a plaintext is its ciphertext followed by the tag.

## Main definitions

- `Gcm.multiply`, `Gcm.hash` — the field product and the universal hash
- `Gcm.startBlock` — the first counter block of a nonce
- `Gcm.keystream`, `Gcm.crypt` — counter mode
- `Gcm.lock`, `Gcm.unlock?` — authenticated encryption and decryption
- `Gcm.unlockZeros?` — decryption of a run of zeros that is not made
-/

namespace PasswordVault.Gcm

open Aes

def tagLength : Nat := 16

def minNonceLength : Nat := 8

def maxNonceLength : Nat := 128

/-- A polynomial of degree below 128; the most significant bit of `high` is the constant term. -/
structure Element where
  high : UInt64
  low : UInt64
  deriving DecidableEq, Repr

def Element.zero : Element := ⟨0, 0⟩

/-- The polynomial whose coefficients are the bits of a block. -/
def Element.ofBlock (x : Block) : Element :=
  ⟨x.c0.toUInt64 <<< 32 ||| x.c1.toUInt64, x.c2.toUInt64 <<< 32 ||| x.c3.toUInt64⟩

def Element.toBlock (x : Element) : Block :=
  ⟨(x.high >>> 32).toUInt32, x.high.toUInt32, (x.low >>> 32).toUInt32, x.low.toUInt32⟩

/-- The product with the indeterminate, reduced. -/
def Element.step (x : Element) : Element :=
  let reduced : UInt64 := if x.low &&& 1 = 0 then 0 else 0xE100000000000000
  ⟨x.high >>> 1 ^^^ reduced, x.low >>> 1 ||| x.high <<< 63⟩

/-- Adds to `sum` the product of `y` with the polynomial whose next `bits` coefficients are the
top bits of `x`. -/
def multiplyFrom : Nat → Element → Element → Element → Element
  | 0, _, _, sum => sum
  | bits + 1, x, y, sum =>
    let sum := if x.high >>> 63 = 0 then sum else ⟨sum.high ^^^ y.high, sum.low ^^^ y.low⟩
    multiplyFrom bits ⟨x.high <<< 1 ||| x.low >>> 63, x.low <<< 1⟩ y.step sum

/-- The product in the field of order two to the power 128. -/
def multiply (x y : Element) : Element :=
  multiplyFrom 128 x y .zero

/-- The hash of the first `count` blocks of an octet string, continued from `sum`. -/
def hashFrom (key : Element) (sum : Element) : Nat → Bytes → Element
  | 0, _ => sum
  | count + 1, octets =>
    let next := Element.ofBlock (Block.ofBytes (octets.take 16))
    hashFrom key (multiply ⟨sum.high ^^^ next.high, sum.low ^^^ next.low⟩ key) count
      (octets.drop 16)

/-- The universal hash of an octet string, its last block filled up with zeros. -/
def hash (key : Element) (sum : Element) (octets : Bytes) : Element :=
  hashFrom key sum ((octets.length + 15) / 16) octets

/-- The block that closes a hash: the two lengths in bits. -/
def lengthBlock (first second : Nat) : Bytes :=
  Bytes.bigEndian 8 (8 * first) ++ Bytes.bigEndian 8 (8 * second)

/-- The first counter block of a nonce. -/
def startBlock (key : Element) (nonce : Bytes) : Block :=
  if nonce.length = 12 then Block.ofBytes (nonce ++ [0, 0, 0, 1])
  else (hash key (hash key .zero nonce) (lengthBlock 0 nonce.length)).toBlock

/-- The next counter block: the last column is counted up and wraps. -/
def increment (counter : Block) : Block :=
  { counter with c3 := counter.c3 + 1 }

/-- The encryptions of the first `count` counter blocks after `counter`. -/
def keystream (schedule : Schedule) : Nat → Block → Bytes
  | 0, _ => []
  | count + 1, counter =>
    (encrypt schedule (increment counter)).toBytes ++
      keystream schedule count (increment counter)

@[simp] theorem length_keystream (schedule : Schedule) (count : Nat) (counter : Block) :
    (keystream schedule count counter).length = 16 * count := by
  induction count generalizing counter with
  | zero => rfl
  | succ count ih => simp [keystream, ih]; omega

/-- Counter mode: the exclusive or with the keystream. -/
def crypt (schedule : Schedule) (start : Block) (octets : Bytes) : Bytes :=
  Bytes.xor octets (keystream schedule ((octets.length + 15) / 16) start)

@[simp] theorem length_crypt (schedule : Schedule) (start : Block) (octets : Bytes) :
    (crypt schedule start octets).length = octets.length := by
  simp only [crypt, Bytes.xor, List.length_zipWith, length_keystream]
  omega

/-- The tag of a ciphertext of `length` octets whose hash is `sum`. -/
def closingTag (schedule : Schedule) (key : Element) (start : Block) (sum : Element)
    (length : Nat) : Bytes :=
  ((hash key sum (lengthBlock 0 length)).toBlock.xor (encrypt schedule start)).toBytes

def tag (schedule : Schedule) (key : Element) (start : Block) (ciphertext : Bytes) : Bytes :=
  closingTag schedule key start (hash key .zero ciphertext) ciphertext.length

/-- The ciphertext of a plaintext followed by the tag. -/
def lock (key nonce plaintext : Bytes) : Bytes :=
  let schedule := Schedule.ofKey key
  let hashKey := Element.ofBlock (encrypt schedule .zero)
  let start := startBlock hashKey nonce
  let ciphertext := crypt schedule start plaintext
  ciphertext ++ tag schedule hashKey start ciphertext

/-- The plaintext of a locked octet string, if its tag is the right one. -/
def unlock? (key nonce locked : Bytes) : Option Bytes :=
  if locked.length < tagLength then none
  else
    let schedule := Schedule.ofKey key
    let hashKey := Element.ofBlock (encrypt schedule .zero)
    let start := startBlock hashKey nonce
    let ciphertext := locked.take (locked.length - tagLength)
    if locked.drop (locked.length - tagLength) = tag schedule hashKey start ciphertext then
      some (crypt schedule start ciphertext)
    else none

/-- Whether a run of `length` zeros has the right tag. Zeros hash to zero, so that the length alone
decides. -/
def opensZeros (key nonce : Bytes) (length : Nat) : Bool :=
  let schedule := Schedule.ofKey key
  let hashKey := Element.ofBlock (encrypt schedule .zero)
  let start := startBlock hashKey nonce
  closingTag schedule hashKey start .zero (length - tagLength) = Bytes.zeros tagLength

/-- The plaintext of a run of `length` zeros, which are made only if they have the right tag. -/
def unlockZeros? (key nonce : Bytes) (length : Nat) : Option Bytes :=
  if tagLength ≤ length ∧ opensZeros key nonce length then unlock? key nonce (Bytes.zeros length)
  else none

theorem multiplyFrom_zero (bits : Nat) (y sum : Element) : multiplyFrom bits .zero y sum = sum := by
  induction bits generalizing y with
  | zero => rfl
  | succ bits ih => exact ih y.step

theorem multiply_zero (y : Element) : multiply .zero y = .zero :=
  multiplyFrom_zero 128 y .zero

theorem ofBytes_zeros (n : Nat) : Block.ofBytes (Bytes.zeros n) = .zero := by
  have column : ∀ n, Block.columnOf (Bytes.zeros n) = 0 := by
    intro n
    have place : ∀ i, (Bytes.zeros n).getD i 0 = 0 := by
      intro i
      by_cases inside : i < n <;> simp [Bytes.zeros, List.getD, inside]
    simp only [Block.columnOf, place]
    decide
  have dropped : ∀ i, (Bytes.zeros n).drop i = Bytes.zeros (n - i) := by
    intro i
    simp [Bytes.zeros]
  simp only [Block.ofBytes, dropped, column, Block.zero]

theorem hashFrom_zeros (key : Element) (count n : Nat) :
    hashFrom key .zero count (Bytes.zeros n) = .zero := by
  induction count generalizing n with
  | zero => rfl
  | succ count ih =>
    have start : (Bytes.zeros n).take 16 = Bytes.zeros (min 16 n) := by simp [Bytes.zeros]
    have rest : (Bytes.zeros n).drop 16 = Bytes.zeros (n - 16) := by simp [Bytes.zeros]
    have sum : multiply ⟨Element.zero.high ^^^ (Element.ofBlock .zero).high,
        Element.zero.low ^^^ (Element.ofBlock .zero).low⟩ key = .zero := multiply_zero key
    simp only [hashFrom, start, rest, ofBytes_zeros, sum, ih]

/-- Zeros need not be made to be unlocked. -/
theorem unlockZeros?_eq (key nonce : Bytes) (length : Nat) :
    unlockZeros? key nonce length = unlock? key nonce (Bytes.zeros length) := by
  by_cases short : length < tagLength
  · have long : ¬tagLength ≤ length := by omega
    simp [unlockZeros?, unlock?, short, long]
  · have long : tagLength ≤ length := by omega
    by_cases opens : opensZeros key nonce length
    · simp [unlockZeros?, long, opens]
    · have taken : (Bytes.zeros length).take (length - tagLength) =
          Bytes.zeros (length - tagLength) := by simp [Bytes.zeros]
      have dropped : (Bytes.zeros length).drop (length - tagLength) = Bytes.zeros tagLength := by
        simp only [Bytes.zeros, List.drop_replicate]
        congr 1
        omega
      have differs : ∀ tag : Bytes, (Bytes.zeros tagLength = tag) = (tag = Bytes.zeros tagLength) :=
        fun tag => propext eq_comm
      simp only [opensZeros, decide_eq_true_eq] at opens
      simp only [unlockZeros?, unlock?, short, if_false, opensZeros, opens, decide_false,
        Bool.false_eq_true, and_false, Bytes.length_zeros, taken, dropped, tag, hash,
        hashFrom_zeros, differs]

end PasswordVault.Gcm
