import PasswordVault.Octets

/-!
# Octet strings as bit strings

A bit string is written most significant bit first. Cutting it into groups of eight gives octets,
and fewer than eight bits at its end give none.

## Main definitions

- `Bytes.lowBits` — the low bits of a number
- `Bytes.bits` — the bits of an octet string
- `Bytes.ofBits` — the octets of a bit string

`Bytes.ofBits_bits_append` says that octets come back from their bits, whatever follows.
-/

namespace PasswordVault.Bytes

/-- A statement about all octets is one about the numbers below 256. -/
theorem forall_octet {P : UInt8 → Prop} (h : ∀ n : Fin 256, P (UInt8.ofNat n.val))
    (octet : UInt8) : P octet := by
  have hp := h ⟨octet.toNat, octet.toNat_lt⟩
  simpa only [UInt8.ofNat_toNat] using hp

/-- The `width` low bits of a number, the most significant one first. -/
def lowBits : Nat → Nat → List Bool
  | 0, _ => []
  | width + 1, number => number.testBit width :: lowBits width number

def bits (octets : Bytes) : List Bool :=
  octets.flatMap fun octet => lowBits 8 octet.toNat

def octetOf (bits : List Bool) : UInt8 :=
  UInt8.ofNat (bits.foldl (fun number bit => 2 * number + bit.toNat) 0)

/-- The octets of a bit string. What is left of fewer than eight bits is dropped. -/
def ofBits : List Bool → Bytes
  | b7 :: b6 :: b5 :: b4 :: b3 :: b2 :: b1 :: b0 :: rest =>
    octetOf [b7, b6, b5, b4, b3, b2, b1, b0] :: ofBits rest
  | _ => []

@[simp] theorem length_lowBits (width number : Nat) : (lowBits width number).length = width := by
  induction width with
  | zero => rfl
  | succ width ih => rw [lowBits, List.length_cons, ih]

set_option maxRecDepth 10000 in
theorem octetOf_lowBits (octet : UInt8) : octetOf (lowBits 8 octet.toNat) = octet := by
  revert octet
  apply forall_octet
  decide

theorem ofBits_short {short : List Bool} (h : short.length < 8) : ofBits short = [] := by
  unfold ofBits
  split
  · simp only [List.length_cons] at h
    omega
  · rfl

theorem ofBits_lowBits_append (octet : UInt8) (rest : List Bool) :
    ofBits (lowBits 8 octet.toNat ++ rest) = octet :: ofBits rest := by
  have h := octetOf_lowBits octet
  simp only [lowBits] at h
  simp only [lowBits, List.cons_append, List.nil_append, ofBits, h]

/-- The octets come back from their bits, whatever follows. -/
theorem ofBits_bits_append (octets : Bytes) (rest : List Bool) :
    ofBits (octets.bits ++ rest) = octets ++ ofBits rest := by
  induction octets with
  | nil => rfl
  | cons octet octets ih =>
    rw [bits, List.flatMap_cons, List.append_assoc, ofBits_lowBits_append]
    exact congrArg (octet :: ·) ih

/-! ### Bits of the operations on octets -/

theorem testBit_octet (octet : UInt8) {place : Nat} (h : 8 ≤ place) :
    octet.toNat.testBit place = false :=
  Nat.testBit_lt_two_pow
    (Nat.lt_of_lt_of_le octet.toNat_lt (Nat.pow_le_pow_right (by decide) h))

theorem testBit_mod_256 (n place : Nat) :
    (n % 256).testBit place = (decide (place < 8) && n.testBit place) :=
  Nat.testBit_mod_two_pow n 8 place

theorem testBit_mask2 (place : Nat) : Nat.testBit 3 place = decide (place < 2) :=
  Nat.testBit_two_pow_sub_one 2 place

theorem testBit_mask4 (place : Nat) : Nat.testBit 15 place = decide (place < 4) :=
  Nat.testBit_two_pow_sub_one 4 place

theorem testBit_mask6 (place : Nat) : Nat.testBit 63 place = decide (place < 6) :=
  Nat.testBit_two_pow_sub_one 6 place

end PasswordVault.Bytes
