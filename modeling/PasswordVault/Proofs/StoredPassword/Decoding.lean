import PasswordVault.Proofs.Envelope.Armor
import PasswordVault.Proofs.Envelope.Layout
import PasswordVault.StoredPassword

/-!
# Decoding untrusted octets and texts

Three conditions on octets decide whether they are decoded: their least length, the version in
their first octet, and room for a ciphertext after a key ID whose length is one of the octets.
Their order decides what is reported.

## Main definitions

- `Envelope.readWithin?` — reading that stops at a look outside the octets
- `Envelope.Reads` — the four ways in which reading ends
- `StoredPassword.Tiles` — the fields of a stored password cover octets without gap or overlap
- `StoredPassword.Refused` — decoding ends in a parse failure that names a position

`Envelope.reads_read` gives the outcome of reading in each case, `Envelope.readWithin?_eq` says
that no look goes outside, and `StoredPassword.decode_untrusted` states what decoding does on every
input of either kind.
-/

namespace PasswordVault

namespace Envelope

/-- The octets from `start` on, `length` of them, if there are so many. -/
def within? (raw : Bytes) (start length : Nat) : Option Bytes :=
  if start + length ≤ raw.length then some (slice raw start length) else none

/-- Reading that stops where it would look outside the octets. -/
def readWithin? (raw : Bytes) : Option (Except Failure (Envelope Int Bytes)) :=
  if raw.length < minLength then some (.error (.parse (.tooShort raw.length)))
  else do
    let header ← raw[0]?
    let (version, padding) := unpackHeader header.toNat
    if version ≠ currentVersion then return .error (.parse (.unsupportedVersion version))
    let salt ← within? raw 1 saltLength
    let vector ← within? raw (1 + saltLength) vectorLength
    let count ← raw[keyIdLengthOffset]?
    let keyIdOffset := keyIdLengthOffset + 1
    if raw.length < keyIdOffset + count.toNat + 1 then
      return .error (.parse (.keyIdOverrun raw.length count.toNat))
    let keyId ← within? raw keyIdOffset count.toNat
    let ciphertext ← within? raw (keyIdOffset + count.toNat)
      (raw.length - (keyIdOffset + count.toNat))
    return .ok { version, padding, salt, vector, keyId, ciphertext }

theorem within?_of_le {raw : Bytes} {start length : Nat} (h : start + length ≤ raw.length) :
    within? raw start length = some (slice raw start length) :=
  if_pos h

theorem slice_all (raw : Bytes) (start : Nat) :
    slice raw start (raw.length - start) = raw.drop start := by
  rw [slice, ← List.length_drop, List.take_length]

theorem getElem?_of_lt {raw : Bytes} {place : Nat} (h : place < raw.length) :
    raw[place]? = some (raw.getD place 0) := by
  rw [List.getD_eq_getElem?_getD, List.getElem?_eq_getElem h]
  rfl

/-- **Reading never looks outside the octets.** -/
theorem readWithin?_eq (raw : Bytes) : readWithin? raw = some (read raw) := by
  rw [readWithin?, read]
  by_cases hshort : raw.length < minLength
  · rw [if_pos hshort, if_pos hshort]
  · rw [if_neg hshort, if_neg hshort]
    simp only [minLength] at hshort
    -- Up to the length of the key ID, every look is within the least length.
    have hheader : raw[0]? = some (raw.getD 0 0) := getElem?_of_lt (by omega)
    have hcount : raw[keyIdLengthOffset]? = some (raw.getD keyIdLengthOffset 0) :=
      getElem?_of_lt (by simp only [keyIdLengthOffset, saltLength, vectorLength]; omega)
    have hsalt := @within?_of_le raw 1 saltLength (by simp only [saltLength]; omega)
    have hvector := @within?_of_le raw (1 + saltLength) vectorLength
      (by simp only [saltLength, vectorLength]; omega)
    simp only [hheader, hcount, hsalt, hvector, bind, Option.bind, pure]
    split
    · rfl
    split
    · rfl
    · next hroom =>
      rw [within?_of_le (by omega), within?_of_le (by omega), slice_all]

/-- How reading ends on octets that are too short, have another version, leave no room for a
ciphertext after the key ID, or are an envelope. -/
inductive Reads (raw : Bytes) : Except Failure (Envelope Int Bytes) → Prop
  | tooShort (h : raw.length < 36) : Reads raw (.error (.parse (.tooShort raw.length)))
  | otherVersion {header : UInt8} (hlong : 36 ≤ raw.length) (hheader : raw[0]? = some header)
    (h : header.toNat / 16 ≠ 0) :
    Reads raw (.error (.parse (.unsupportedVersion (header.toNat / 16 : Nat))))
  | noRoom {header count : UInt8} (hlong : 36 ≤ raw.length) (hheader : raw[0]? = some header)
    (hversion : header.toNat / 16 = 0) (hcount : raw[33]? = some count)
    (h : raw.length < 35 + count.toNat) :
    Reads raw (.error (.parse (.keyIdOverrun raw.length count.toNat)))
  | envelope {header count : UInt8} {e : Envelope Int Bytes} (hlong : 36 ≤ raw.length)
    (hheader : raw[0]? = some header) (hversion : header.toNat / 16 = 0)
    (hcount : raw[33]? = some count) (h : 35 + count.toNat ≤ raw.length) :
    Reads raw (.ok e)

/-- **How reading ends** is decided by the conditions in their order. -/
theorem reads_read (raw : Bytes) : Reads raw (read raw) := by
  by_cases hlong : minLength ≤ raw.length
  · have hlength : 36 ≤ raw.length := hlong
    obtain ⟨header, salt, vector, count, rest, rfl, hs, hv, htwo⟩ := exists_parts hlong
    have hdrop := (@drop_parts header count salt vector rest hs hv).2
    have hcount : (header :: salt ++ vector ++ count :: rest)[33]? = some count := by
      rw [← List.head?_drop]
      exact congrArg List.head? hdrop
    have htotal : 34 + rest.length = (header :: salt ++ vector ++ count :: rest).length := by
      simp only [List.length_append, List.length_cons, hs, hv, saltLength, vectorLength]
      omega
    rw [read_parts hs hv, if_neg (Nat.not_lt.mpr htwo)]
    by_cases hcurrent : header.toNat / 16 = 0
    · rw [if_neg (not_not_intro hcurrent)]
      by_cases hroom : rest.length < count.toNat + 1
      · rw [if_pos hroom, htotal]
        exact .noRoom hlength rfl hcurrent hcount (by omega)
      · rw [if_neg hroom]
        exact .envelope hlength rfl hcurrent hcount (by omega)
    · rw [if_pos hcurrent]
      exact .otherVersion hlength rfl hcurrent
  · have hshort : raw.length < minLength := Nat.lt_of_not_le hlong
    rw [read, if_pos hshort]
    exact .tooShort hshort

theorem read_eq_tooShort_iff {raw : Bytes} :
    read raw = .error (.parse (.tooShort raw.length)) ↔ raw.length < 36 := by
  -- The conditions of the four outcomes exclude each other, here and in the lemmas that follow.
  have h := reads_read raw
  generalize read raw = outcome at h ⊢
  constructor
  · intro heq
    cases h with
    | tooShort hshort => exact hshort
    | _ => cases heq
  · intro hshort
    cases h with
    | tooShort => rfl
    | _ => omega

theorem read_eq_unsupportedVersion_iff {raw : Bytes} {version : Nat} :
    read raw = .error (.parse (.unsupportedVersion version)) ↔
      36 ≤ raw.length ∧ ∃ header, raw[0]? = some header ∧ header.toNat / 16 = version ∧
        version ≠ 0 := by
  have h := reads_read raw
  generalize read raw = outcome at h ⊢
  constructor
  · intro heq
    cases h with
    | @otherVersion header hlong hheader hversion =>
      have hsame := ParseError.unsupportedVersion.inj (Failure.parse.inj (Except.error.inj heq))
      exact ⟨hlong, header, hheader, by omega, by omega⟩
    | _ => cases heq
  · rintro ⟨hlong, header, hheader, rfl, hversion⟩
    cases h with
    | tooShort => omega
    | otherVersion _ hheader' => rw [Option.some.inj (hheader.symm.trans hheader')]
    | noRoom _ hheader' hzero =>
      rw [Option.some.inj (hheader.symm.trans hheader')] at hversion
      exact absurd hzero hversion
    | envelope _ hheader' hzero =>
      rw [Option.some.inj (hheader.symm.trans hheader')] at hversion
      exact absurd hzero hversion

theorem read_eq_keyIdOverrun_iff {raw : Bytes} {length : Nat} :
    read raw = .error (.parse (.keyIdOverrun raw.length length)) ↔
      36 ≤ raw.length ∧ ∃ header count, raw[0]? = some header ∧ raw[33]? = some count ∧
        header.toNat / 16 = 0 ∧ count.toNat = length ∧ raw.length < 35 + length := by
  have h := reads_read raw
  generalize read raw = outcome at h ⊢
  constructor
  · intro heq
    cases h with
    | @noRoom header count hlong hheader hversion hcount hroom =>
      have hsame := ParseError.keyIdOverrun.inj (Failure.parse.inj (Except.error.inj heq))
      exact ⟨hlong, header, count, hheader, hcount, hversion, hsame.2, hsame.2 ▸ hroom⟩
    | _ => cases heq
  · rintro ⟨hlong, header, count, hheader, hcount, hversion, rfl, hroom⟩
    cases h with
    | tooShort => omega
    | otherVersion _ hheader' h =>
      rw [Option.some.inj (hheader.symm.trans hheader')] at hversion
      exact absurd hversion h
    | noRoom _ _ _ hcount' => rw [Option.some.inj (hcount.symm.trans hcount')]
    | envelope _ _ _ hcount' h =>
      rw [Option.some.inj (hcount.symm.trans hcount')] at hroom
      omega

/-- **The octets that are read** have the least length, version 0 and room for a ciphertext after
the key ID. -/
theorem exists_read_eq_ok_iff {raw : Bytes} :
    (∃ e, read raw = .ok e) ↔
      36 ≤ raw.length ∧ ∃ header count, raw[0]? = some header ∧ raw[33]? = some count ∧
        header.toNat / 16 = 0 ∧ 35 + count.toNat ≤ raw.length := by
  have h := reads_read raw
  generalize read raw = outcome at h ⊢
  constructor
  · rintro ⟨e, rfl⟩
    cases h with
    | envelope hlong hheader hversion hcount hroom =>
      exact ⟨hlong, _, _, hheader, hcount, hversion, hroom⟩
  · rintro ⟨hlong, header, count, hheader, hcount, hversion, hroom⟩
    cases h with
    | tooShort => omega
    | otherVersion _ hheader' h =>
      rw [Option.some.inj (hheader.symm.trans hheader')] at hversion
      exact absurd hversion h
    | noRoom _ _ _ hcount' h =>
      rw [Option.some.inj (hcount.symm.trans hcount')] at hroom
      omega
    | @envelope _ _ e => exact ⟨e, rfl⟩

end Envelope

namespace StoredPassword

/-- A stored password has octets as its representation, and they are its fields one after another:
the first octet with the version and the padding length, the salt, the vector, the length of the
key ID, the key ID and a ciphertext that is not empty. -/
structure Tiles (p : StoredPassword) (raw : Bytes) (header count : UInt8) : Prop where
  representation : p.representation = raw
  fields : raw = header :: p.envelope.salt ++ p.envelope.vector ++
    count :: p.envelope.keyId ++ p.envelope.ciphertext
  version : p.envelope.version = .integer (header.toNat / 16 : Nat)
  padding : p.envelope.padding = .integer (header.toNat % 16 : Nat)
  salt : p.envelope.salt.length = 16
  vector : p.envelope.vector.length = 16
  keyId : p.envelope.keyId.length = count.toNat
  ciphertext : 1 ≤ p.envelope.ciphertext.length

/-- Decoding a value ends in a parse failure that names a position. -/
def Refused (value : Argument) (error : ParseError) (offset : Nat) : Prop :=
  decode value = .error (.parse error) ∧ error.offset = offset

theorem ofBytes_of_read {raw : Bytes} {e : Envelope Int Bytes} (h : Envelope.read raw = .ok e) :
    ofBytes raw = .ok ⟨raw, e.map .integer id⟩ := by
  rw [ofBytes, h]

/-- What is written within its bounds is its fields one after another. -/
theorem exists_tiles_layout {e : Envelope Int Bytes} (h : Envelope.Writable e) :
    ∃ header count,
      Tiles ⟨Envelope.layout e, e.map .integer id⟩ (Envelope.layout e) header count := by
  have hheader := Envelope.toNat_packHalves h.version h.padding
  have hcount : (UInt8.ofNat e.keyId.length).toNat = e.keyId.length :=
    UInt8.toNat_ofNat_of_lt' (Nat.lt_of_le_of_lt h.keyId (by decide))
  have hversion := h.version
  have hpadding := h.padding
  simp only [Envelope.maxHalf] at hversion hpadding
  refine ⟨Envelope.packHalves e.version e.padding, UInt8.ofNat e.keyId.length, rfl, rfl, ?_, ?_,
    h.salt, h.vector, hcount.symm, List.length_pos_iff.mpr h.ciphertext⟩
  · refine congrArg Argument.integer ?_
    rw [hheader]
    omega
  · refine congrArg Argument.integer ?_
    rw [hheader]
    omega

theorem exists_tiles {raw : Bytes} {e : Envelope Int Bytes} (h : Envelope.read raw = .ok e) :
    ∃ header count, Tiles ⟨raw, e.map .integer id⟩ raw header count := by
  obtain ⟨hreadable, rfl⟩ := Envelope.eq_layout_of_read h
  exact exists_tiles_layout hreadable.toWritable

/-- Octets that are not read are refused as reading refuses them. -/
theorem ofBytes_eq_error_iff {raw : Bytes} {failure : Failure} :
    ofBytes raw = .error failure ↔ Envelope.read raw = .error failure := by
  rw [ofBytes]
  cases Envelope.read raw <;> simp

theorem exists_ofBytes_eq_ok_iff {raw : Bytes} :
    (∃ p, ofBytes raw = .ok p) ↔ ∃ e, Envelope.read raw = .ok e := by
  rw [ofBytes]
  cases Envelope.read raw <;> simp

theorem ofBytes_ok_or_error (raw : Bytes) :
    (∃ p, ofBytes raw = .ok p) ∨ ∃ error, ofBytes raw = .error (.parse error) := by
  rcases Envelope.read_ok_or_error raw with hread | ⟨error, herror⟩
  · exact Or.inl (exists_ofBytes_eq_ok_iff.mpr hread)
  · exact Or.inr ⟨error, ofBytes_eq_error_iff.mpr herror⟩

theorem refused_octets_iff {form : Form} {raw : Bytes} {error : ParseError} :
    Refused (.octets form raw) error error.offset ↔ Envelope.read raw = .error (.parse error) :=
  (and_iff_left rfl).trans ofBytes_eq_error_iff

/-- Any text is decoded or refused with a parse failure. -/
theorem decode_text_ok_or_error (t : Text) :
    (∃ p, decode (.text t) = .ok p) ∨ ∃ error, decode (.text t) = .error (.parse error) := by
  rw [decode, representationOf]
  cases hread : Armor.read t with
  | ok raw => exact ofBytes_ok_or_error raw
  | error failure =>
    have hnone : ∀ raw, Armor.read t ≠ .ok raw := by
      intro raw h
      rw [h] at hread
      cases hread
    obtain ⟨error, herror, -⟩ := Armor.read_eq_error hnone
    rw [herror] at hread
    cases hread
    exact Or.inr ⟨error, rfl⟩

/-- **Decoding untrusted input.** Octets are decoded if they have the least length, version 0 and
room for a ciphertext after the key ID; else the first of the three that fails is reported, at the
beginning or at the length of the key ID. The fields of what is decoded cover the octets, outside
of which nothing is looked at. Any text is decoded or refused with a parse failure. -/
theorem decode_untrusted :
    (∀ (form : Form) (raw : Bytes),
      ((∃ p, decode (.octets form raw) = .ok p) ↔
        36 ≤ raw.length ∧ ∃ header count, raw[0]? = some header ∧ raw[33]? = some count ∧
          header.toNat / 16 = 0 ∧ 35 + count.toNat ≤ raw.length) ∧
      (Refused (.octets form raw) (.tooShort raw.length) 0 ↔ raw.length < 36) ∧
      (∀ version : Nat, Refused (.octets form raw) (.unsupportedVersion version) 0 ↔
        36 ≤ raw.length ∧ ∃ header, raw[0]? = some header ∧ header.toNat / 16 = version ∧
          version ≠ 0) ∧
      (∀ length : Nat, Refused (.octets form raw) (.keyIdOverrun raw.length length) 33 ↔
        36 ≤ raw.length ∧ ∃ header count, raw[0]? = some header ∧ raw[33]? = some count ∧
          header.toNat / 16 = 0 ∧ count.toNat = length ∧ raw.length < 35 + length) ∧
      ∀ p, decode (.octets form raw) = .ok p → ∃ header count, p.Tiles raw header count) ∧
    (∀ raw : Bytes, Envelope.readWithin? raw = some (Envelope.read raw)) ∧
    ∀ t : Text, (∃ p, decode (.text t) = .ok p) ∨
      ∃ error, decode (.text t) = .error (.parse error) := by
  refine ⟨?_, Envelope.readWithin?_eq, decode_text_ok_or_error⟩
  intro form raw
  refine ⟨?_, ?_, ?_, ?_, ?_⟩
  · exact exists_ofBytes_eq_ok_iff.trans Envelope.exists_read_eq_ok_iff
  · exact refused_octets_iff.trans Envelope.read_eq_tooShort_iff
  · exact fun _ => refused_octets_iff.trans Envelope.read_eq_unsupportedVersion_iff
  · exact fun _ => refused_octets_iff.trans Envelope.read_eq_keyIdOverrun_iff
  · intro p hp
    obtain ⟨e, he⟩ := exists_ofBytes_eq_ok_iff.mp ⟨p, hp⟩
    have hsame : p = ⟨raw, e.map .integer id⟩ :=
      Except.ok.inj (hp.symm.trans (ofBytes_of_read he))
    exact hsame ▸ exists_tiles he

/-- The shortest octets that are decoded, in memory that is looked at without a copy. -/
theorem decode_untrusted_shortest :
    ∃ p, decode (.octets .view (Envelope.layout (Envelope.shortest 0))) = .ok p ∧
      ∃ header count, p.Tiles (Envelope.layout (Envelope.shortest 0)) header count := by
  have h : decode (.octets .view (Envelope.layout (Envelope.shortest 0))) =
      .ok ⟨Envelope.layout (Envelope.shortest 0), (Envelope.shortest 0).map .integer id⟩ := by cbv
  exact ⟨_, h, (decode_untrusted.1 .view _).2.2.2.2 _ h⟩

end StoredPassword

end PasswordVault
