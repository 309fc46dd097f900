import PasswordVault.Proofs.StoredPassword.Producing
import PasswordVault.Proofs.Suite.Sealing

/-!
# What the lengths of stored passwords tell

A clear text is filled up to whole blocks before it is encrypted, so the octets, the ciphertext and
the texts of a stored password have lengths that tell the number of blocks and no more. The number
of zeros is not encrypted, and tells the rest.

## Main definitions

- `StoredPassword.LockedFrom` — a stored password of a clear text under a key with some key ID

`StoredPassword.LockedFrom.exists_fields` says what such a stored password consists of, and
`StoredPassword.length_concealed` which clear texts have stored passwords of equal lengths.
-/

namespace PasswordVault.StoredPassword

open Padding (blocks)

variable {suite : Suite} {keyId clear : Bytes} {x : StoredPassword}

/-- In some vault and with some vector, a clear text is locked under a key that has the key ID. It
is given as octets of any form, or as text for its octets in UTF-8. -/
inductive LockedFrom (suite : Suite) (clear : Bytes) : Bytes → StoredPassword → Prop
  | lockedWith {v w : Vault} {key : KeyRef} {record : KeyRecord} {vector clearText : Argument}
    {x : StoredPassword} (hrecord : v.keys[key]? = some record) (hclear : clearText.Spells clear)
    (h : lockWith suite (.key key) vector clearText v = (.ok x, w)) :
    LockedFrom suite clear record.keyId x

/-- **A stored password of a clear text** has the zeros that its padding takes, and a ciphertext
that is longer than the padded text by the tag. -/
theorem LockedFrom.exists_fields (h : LockedFrom suite clear keyId x) (hsuite : suite.AddsTag) :
    clear ≠ [] ∧ ∃ salt vector ciphertext,
      Envelope.Writable (lockedFields keyId salt vector clear ciphertext) ∧
      x = ofEnvelope (lockedFields keyId salt vector clear ciphertext) ∧
      ciphertext.length = (Padding.add clear).1.length + 16 := by
  cases h with
  | lockedWith hrecord hclear h =>
  obtain ⟨record, secret, iv, octets, answer, zeros, hstored, -, -, hoctets, hencrypted,
    hwritten⟩ := exists_encrypted_of_lockUnder h
  obtain rfl := Option.some.inj (hrecord.symm.trans hstored)
  obtain rfl : clear = octets :=
    Except.ok.inj ((Argument.secretOctets_eq_ok_iff.mpr hclear).symm.trans hoctets)
  obtain ⟨hne, rfl, hanswer⟩ := encrypted_eq_ok hencrypted
  obtain ⟨form, ciphertext, rfl, hwritable, rfl⟩ := written_eq_ok_iff.mp hwritten
  exact ⟨hne, _, _, ciphertext, hwritable, rfl, hsuite _ _ _ _ _ _ hanswer⟩

/-! ### Lengths -/

/-- The ciphertext has sixteen octets for each block and for the tag. -/
theorem LockedFrom.length_ciphertext (h : LockedFrom suite clear keyId x)
    (hsuite : suite.AddsTag) :
    x.envelope.ciphertext.length = 16 * blocks clear.length + 16 := by
  obtain ⟨-, salt, vector, ciphertext, -, rfl, hlength⟩ := h.exists_fields hsuite
  rw [Padding.length_fst_add_eq_blocks] at hlength
  exact hlength

/-- The octets are the ciphertext, the key ID and 34 others. -/
theorem LockedFrom.length_representation (h : LockedFrom suite clear keyId x)
    (hsuite : suite.AddsTag) :
    x.envelope.keyId = keyId ∧
      x.representation.length = 34 + keyId.length + x.envelope.ciphertext.length := by
  obtain ⟨-, salt, vector, ciphertext, hwritable, rfl, -⟩ := h.exists_fields hsuite
  exact ⟨rfl, Envelope.length_layout hwritable⟩

/-- The number of zeros is in the first octet, and it is what the clear text lacks of the blocks. -/
theorem LockedFrom.exists_zeros (h : LockedFrom suite clear keyId x) (hsuite : suite.AddsTag) :
    ∃ zeros : Nat, x.envelope.padding = .integer zeros ∧
      Envelope.unpackHeader (x.representation.getD 0 0).toNat = (0, (zeros : Int)) ∧
      (clear.length : Int) = x.envelope.ciphertext.length - 16 - zeros := by
  obtain ⟨-, salt, vector, ciphertext, hwritable, rfl, hlength⟩ := h.exists_fields hsuite
  refine ⟨(Padding.add clear).2, rfl, Envelope.unpackHeader_layout hwritable, ?_⟩
  rw [Padding.length_fst_add] at hlength
  show (clear.length : Int) = (ciphertext.length : Int) - 16 - ((Padding.add clear).2 : Nat)
  omega

/-! ### Two runs -/

section

variable {p q otherId : Bytes} {y : StoredPassword}

/-- A tag adds as much to either, so the ciphertexts differ in length by whole blocks. -/
theorem length_ciphertext_eq_iff (hsuite : suite.AddsTag) (hx : LockedFrom suite p keyId x)
    (hy : LockedFrom suite q otherId y) :
    x.envelope.ciphertext.length = y.envelope.ciphertext.length ↔
      blocks p.length = blocks q.length := by
  rw [hx.length_ciphertext hsuite, hy.length_ciphertext hsuite]
  omega

theorem length_representation_eq_iff (hsuite : suite.AddsTag) (hx : LockedFrom suite p keyId x)
    (hy : LockedFrom suite q keyId y) :
    x.representation.length = y.representation.length ↔ blocks p.length = blocks q.length := by
  obtain ⟨-, hxLength⟩ := hx.length_representation hsuite
  obtain ⟨-, hyLength⟩ := hy.length_representation hsuite
  rw [hxLength, hyLength, Nat.add_left_cancel_iff]
  exact length_ciphertext_eq_iff hsuite hx hy

/-- One block more is several characters more, since the octets differ by more than a group. -/
theorem length_text_eq_iff (hsuite : suite.AddsTag) (hx : LockedFrom suite p keyId x)
    (hy : LockedFrom suite q keyId y) (marked : Bool) :
    (x.text marked).length = (y.text marked).length ↔ blocks p.length = blocks q.length := by
  obtain ⟨-, hxLength⟩ := hx.length_representation hsuite
  obtain ⟨-, hyLength⟩ := hy.length_representation hsuite
  rw [text, text, Armor.length_write, Armor.length_write, hxLength, hyLength,
    hx.length_ciphertext hsuite, hy.length_ciphertext hsuite]
  omega

/-- The number of zeros says how much of the last block is clear text. -/
theorem length_ciphertext_padding_eq_iff (hsuite : suite.AddsTag) (hx : LockedFrom suite p keyId x)
    (hy : LockedFrom suite q otherId y) :
    (x.envelope.ciphertext.length = y.envelope.ciphertext.length ∧
      x.envelope.padding = y.envelope.padding) ↔ p.length = q.length := by
  obtain ⟨m, hm, -, hp⟩ := hx.exists_zeros hsuite
  obtain ⟨n, hn, -, hq⟩ := hy.exists_zeros hsuite
  rw [hm, hn, Argument.integer.injEq]
  constructor
  · rintro ⟨hciphertext, hzeros⟩
    omega
  · intro hlength
    have hciphertext : x.envelope.ciphertext.length = y.envelope.ciphertext.length := by
      rw [length_ciphertext_eq_iff hsuite hx hy, hlength]
    exact ⟨hciphertext, by omega⟩

end

/-- **What the lengths tell.** Let ciphertexts be sixteen octets longer than plaintexts. A clear
text that is not empty is locked with a live key and a vector of sixteen octets whenever the suite
answers with a ciphertext, and the key can be used again. What is locked has 34 octets, the key ID,
and sixteen octets for each block and for the tag; its ciphertext and the number of zeros, which the
first octet shows, give the length of the clear text. Two stored passwords under one key ID, with
any vectors, have equally many octets exactly if their clear texts take up equally many blocks. So
it is with their ciphertexts, with their texts, both marked or both not, and with the texts that the
same choice and the same settings give. Their ciphertexts have one length and their numbers of zeros
are the same exactly if their clear texts have one length. -/
theorem length_concealed (hsuite : suite.AddsTag) :
    (∀ v key record secret vector iv clearText p form ciphertext,
      SecretKey.Holds v key record secret → record.Bounded →
      vector.toBytes .constant = .ok iv → iv.length = 16 → clearText.Spells p → p ≠ [] →
      suite.answer v.calls (.encrypt secret iv (Padding.add p).1) =
        .ok (.octets form ciphertext) →
      ∃ x w, lockWith suite (.key key) vector clearText v = (.ok x, w) ∧
        LockedFrom suite p record.keyId x ∧ x.envelope.ciphertext = ciphertext ∧
        SecretKey.Holds w key record secret) ∧
    (∀ p keyId x, LockedFrom suite p keyId x →
      p ≠ [] ∧ x.envelope.keyId = keyId ∧
      x.representation.length = 34 + keyId.length + 16 * blocks p.length + 16 ∧
      ∃ zeros : Nat, x.envelope.padding = .integer zeros ∧
        Envelope.unpackHeader (x.representation.getD 0 0).toNat = (0, (zeros : Int)) ∧
        (p.length : Int) = x.envelope.ciphertext.length - 16 - zeros) ∧
    ∀ p q keyId x y, LockedFrom suite p keyId x → LockedFrom suite q keyId y →
      (x.representation.length = y.representation.length ↔ blocks p.length = blocks q.length) ∧
      (x.envelope.ciphertext.length = y.envelope.ciphertext.length ↔
        blocks p.length = blocks q.length) ∧
      (∀ marked, (x.text marked).length = (y.text marked).length ↔
        blocks p.length = blocks q.length) ∧
      (∀ marked v w, w.settings = v.settings → ∃ s t,
        x.toText marked v = (.ok s, v) ∧ y.toText marked w = (.ok t, w) ∧
        (s.length = t.length ↔ blocks p.length = blocks q.length)) ∧
      ((x.envelope.ciphertext.length = y.envelope.ciphertext.length ∧
        x.envelope.padding = y.envelope.padding) ↔ p.length = q.length) := by
  refine ⟨?_, ?_, ?_⟩
  · intro v key record secret vector iv clearText p form ciphertext h hrecord hvector hlength
      hclear hne hanswer
    have hciphertext : ciphertext ≠ [] := by
      rintro rfl
      exact absurd (hsuite _ _ _ _ _ _ hanswer) (Nat.succ_ne_zero _).symm
    obtain ⟨calls, w, hlocked, htidy⟩ := lockUnder_run suite h vector clearText
    rw [sealed_eq_ok hrecord hvector hlength (Argument.secretOctets_eq_ok_iff.mpr hclear) hne
      hciphertext hanswer] at hlocked
    exact ⟨_, w, hlocked, .lockedWith h.stored hclear hlocked, rfl, h.of_tidy htidy⟩
  · intro p keyId x hx
    obtain ⟨hne, -⟩ := hx.exists_fields hsuite
    obtain ⟨hkeyId, hlength⟩ := hx.length_representation hsuite
    refine ⟨hne, hkeyId, ?_, hx.exists_zeros hsuite⟩
    rw [hlength, hx.length_ciphertext hsuite]
    exact (Nat.add_assoc ..).symm
  · intro p q keyId x y hx hy
    refine ⟨length_representation_eq_iff hsuite hx hy, length_ciphertext_eq_iff hsuite hx hy,
      length_text_eq_iff hsuite hx hy, ?_, length_ciphertext_padding_eq_iff hsuite hx hy⟩
    intro marked v w hsettings
    refine ⟨_, _, rfl, rfl, ?_⟩
    rw [hsettings]
    exact length_text_eq_iff hsuite hx hy _

/-- With the standard suite, eight letters of two octets and a single octet make stored passwords of
one length, under one key and one after the other. What tells them apart is the number of zeros. A
seventeenth octet takes up another block. -/
theorem length_concealed_standard :
    ∃ x y z u v w, lockWith (.standard (.ofSeed [7])) (.key 0) (.ofBytes (.zeros 16))
        (.text (List.replicate 8 233)) .oneKey = (.ok x, u) ∧
      lockWith (.standard (.ofSeed [7])) (.key 0) (.ofBytes (1 :: Bytes.zeros 15))
        (.octets .view [97]) u = (.ok y, v) ∧
      lockWith (.standard (.ofSeed [7])) (.key 0) (.ofBytes (2 :: Bytes.zeros 15))
        (.ofBytes (.zeros 17)) v = (.ok z, w) ∧
      x.representation.length = 67 ∧ y.representation.length = 67 ∧
      z.representation.length = 83 ∧ (x.text true).length = (y.text true).length ∧
      (y.text true).length ≠ (z.text true).length ∧
      x.envelope.padding ≠ y.envelope.padding := by
  have hletters : Argument.Spells (.text (List.replicate 8 233))
      (List.replicate 8 [195, 169]).flatten :=
    Argument.secretOctets_eq_ok_iff.mp (show Argument.secretOctets .clearText _ = _ by rfl)
  obtain ⟨hlock, hlengths, hpairs⟩ := length_concealed (Suite.standard_addsTag (.ofSeed [7]))
  obtain ⟨x, u, hx, hxFrom, -, hu⟩ := hlock _ _ _ _ _ _ _ _ _ _ Vault.live_oneKey.holds
    ⟨rfl, by decide⟩ (Argument.toBytes_ofBytes .constant (.zeros 16)) rfl hletters (by decide)
    (Suite.standard_encrypt _ _ _ rfl rfl)
  obtain ⟨y, v, hy, hyFrom, -, hv⟩ := hlock _ _ _ _ _ _ _ _ _ _ hu
    ⟨rfl, by decide⟩ (Argument.toBytes_ofBytes .constant (1 :: Bytes.zeros 15)) rfl
    (.octets .view [97]) (by decide) (Suite.standard_encrypt _ _ _ rfl rfl)
  obtain ⟨z, w, hz, hzFrom, -, -⟩ := hlock _ _ _ _ _ _ _ _ _ _ hv
    ⟨rfl, by decide⟩ (Argument.toBytes_ofBytes .constant (2 :: Bytes.zeros 15)) rfl
    (.octets .constant (.zeros 17)) (by decide) (Suite.standard_encrypt _ _ _ rfl rfl)
  obtain ⟨-, -, hxLength, -⟩ := hlengths _ _ _ hxFrom
  obtain ⟨-, -, hyLength, -⟩ := hlengths _ _ _ hyFrom
  obtain ⟨-, -, hzLength, -⟩ := hlengths _ _ _ hzFrom
  obtain ⟨-, hciphertext, htexts, -, hpadding⟩ := hpairs _ _ _ _ _ hxFrom hyFrom
  obtain ⟨-, -, hlonger, -, -⟩ := hpairs _ _ _ _ _ hyFrom hzFrom
  refine ⟨x, y, z, u, v, w, hx, hy, hz, hxLength, hyLength, hzLength,
    (htexts true).mpr (by decide), ?_, ?_⟩
  · intro hsame
    exact absurd ((hlonger true).mp hsame) (by decide)
  · intro hsame
    exact absurd (hpadding.mp ⟨hciphertext.mpr (by decide), hsame⟩) (by decide)

end PasswordVault.StoredPassword
