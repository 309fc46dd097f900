import Mathlib.Data.List.Permutation
import PasswordVault.Envelope

/-!
# The layout of envelopes

Writing puts the fields of an envelope one after another, and reading cuts octets into the same
fields. Both check bounds, and not the same ones: what is written may have any version of four bits
and a key ID and a ciphertext of one octet together, what is read may not.

## Main definitions

- `Envelope.layout` — the octets of an envelope
- `Envelope.Writable`, `Envelope.Readable` — the bounds that writing and reading check
- `Envelope.Carries` — an envelope of arguments that stands for one of numbers and octets

`Envelope.read_eq_ok_iff` says that an envelope is read from its layout and from nothing else,
`Envelope.write_eq_ok` and `Envelope.write_eq_error` when it is written.
-/

namespace PasswordVault.Envelope

/-- The bounds within which an envelope is written. -/
structure Writable (e : Envelope Int Bytes) : Prop where
  salt : e.salt.length = saltLength
  vector : e.vector.length = vectorLength
  keyId : e.keyId.length ≤ maxKeyIdLength
  ciphertext : e.ciphertext ≠ []
  version : 0 ≤ e.version ∧ e.version ≤ maxHalf
  padding : 0 ≤ e.padding ∧ e.padding ≤ maxHalf

/-- The bounds within which an envelope is read. -/
structure Readable (e : Envelope Int Bytes) : Prop extends Writable e where
  current : e.version = currentVersion
  twoOctets : 2 ≤ e.keyId.length + e.ciphertext.length

/-- The fields of an envelope one after another, the key ID after its length. -/
def layout (e : Envelope Int Bytes) : Bytes :=
  packHalves e.version e.padding :: e.salt ++ e.vector ++
    UInt8.ofNat e.keyId.length :: e.keyId ++ e.ciphertext

/-- The arguments are whole numbers and octet strings, of any form, with the given values. -/
def Carries (f : Envelope Argument Argument) (e : Envelope Int Bytes) : Prop :=
  f.map Argument.asInteger? Argument.octets? = e.map some some

theorem carries_map (e : Envelope Int Bytes) : (e.map .integer .ofBytes).Carries e := rfl

/-! ### Writing -/

theorem packHeaderFrom_eq {version padding : Argument} {v p : Int}
    (hv : version.asInteger? = some v) (hp : padding.asInteger? = some p) :
    packHeaderFrom version padding =
      if ¬(0 ≤ v ∧ v ≤ maxHalf) then
        .error (version.showing fun shown => .field (.versionOutOfRange shown))
      else if ¬(0 ≤ p ∧ p ≤ maxHalf) then
        .error (padding.showing fun shown => .field (.paddingOutOfRange shown))
      else .ok (packHalves v p) := by
  have hhigh : version.operand "<<" = .ok v := by rw [Argument.operand, hv]
  have hlow : padding.operand "&" = .ok p := by rw [Argument.operand, hp]
  rw [packHeaderFrom, Argument.isWithin_of_asInteger? hv, Argument.isWithin_of_asInteger? hp, hhigh,
    hlow]
  by_cases hversion : 0 ≤ v ∧ v ≤ maxHalf
  · by_cases hpadding : 0 ≤ p ∧ p ≤ maxHalf
    · simp [bind, Except.bind, pure, Except.pure, hversion, hpadding]
    · have hfalse : (decide (0 ≤ p) && decide (p ≤ maxHalf)) = false := by
        simpa using hpadding
      simp [bind, Except.bind, throw, throwThe, MonadExceptOf.throw, hversion, hpadding, hfalse]
  · have hfalse : (decide (0 ≤ v) && decide (v ≤ maxHalf)) = false := by
      simpa using hversion
    simp [bind, Except.bind, throw, throwThe, MonadExceptOf.throw, hversion, hfalse]

theorem exists_form_of_octets? {value : Argument} {content : Bytes}
    (h : value.octets? = some content) : ∃ form, value = .octets form content := by
  cases value with
  | octets form octets => exact ⟨form, congrArg (Argument.octets form) (Option.some.inj h)⟩
  | _ => cases h

/-- Writing checks the bounds one after another and then puts out the layout. -/
theorem write_eq {f : Envelope Argument Argument} {e : Envelope Int Bytes} (h : f.Carries e) :
    f.write =
      if e.salt.length ≠ saltLength then .error (.field .saltLength)
      else if e.vector.length ≠ vectorLength then .error (.field .initializationVectorLength)
      else if maxKeyIdLength < e.keyId.length then .error (.field .keyIdLength)
      else if e.ciphertext = [] then .error (.field .emptyCiphertext)
      else if ¬(0 ≤ e.version ∧ e.version ≤ maxHalf) then
        .error (f.version.showing fun shown => .field (.versionOutOfRange shown))
      else if ¬(0 ≤ e.padding ∧ e.padding ≤ maxHalf) then
        .error (f.padding.showing fun shown => .field (.paddingOutOfRange shown))
      else .ok (layout e) := by
  obtain ⟨version, padding, salt, vector, keyId, ciphertext⟩ := f
  simp only [Carries, map, mk.injEq] at h
  obtain ⟨hversion, hpadding, hsalt, hvector, hkeyId, hciphertext⟩ := h
  obtain ⟨saltForm, rfl⟩ := exists_form_of_octets? hsalt
  obtain ⟨vectorForm, rfl⟩ := exists_form_of_octets? hvector
  obtain ⟨keyIdForm, rfl⟩ := exists_form_of_octets? hkeyId
  obtain ⟨ciphertextForm, rfl⟩ := exists_form_of_octets? hciphertext
  simp only [write, packHeaderFrom_eq hversion hpadding, Argument.length, Argument.joinable,
    Argument.contentOr_octets, Argument.isTrue]
  simp only [bind, Except.bind, pure, Except.pure, throw, throwThe, MonadExceptOf.throw]
  split
  · rfl
  split
  · rfl
  split
  · rfl
  -- The header is packed once there is a ciphertext.
  cases hempty : e.ciphertext with
  | nil => rfl
  | cons first rest =>
    simp only [List.isEmpty_cons, Bool.not_false, Bool.not_true, Bool.false_eq_true, if_false,
      reduceCtorEq, layout, hempty]
    by_cases hversionFits : 0 ≤ e.version ∧ e.version ≤ maxHalf
    · simp only [if_neg (not_not_intro hversionFits)]
      by_cases hpaddingFits : 0 ≤ e.padding ∧ e.padding ≤ maxHalf
      · simp only [if_neg (not_not_intro hpaddingFits)]
      · simp only [if_pos hpaddingFits]
    · simp only [if_pos hversionFits]

/-- **Within its bounds an envelope is written** as its layout. -/
theorem write_eq_ok {f : Envelope Argument Argument} {e : Envelope Int Bytes} (h : f.Carries e)
    (hw : Writable e) : f.write = .ok (layout e) := by
  rw [write_eq h, if_neg (not_not_intro hw.salt), if_neg (not_not_intro hw.vector),
    if_neg (Nat.not_lt.mpr hw.keyId), if_neg hw.ciphertext, if_neg (not_not_intro hw.version),
    if_neg (not_not_intro hw.padding)]

/-- A failure that shows a value for a field is about a field, whether or not it shows it. -/
theorem exists_field_showing (value : Argument) (wording : String → FieldError) :
    ∃ error, (.error (value.showing fun shown => .field (wording shown)) : Except Failure Bytes) =
      .error (.field error) := by
  rcases value.showing_cases fun shown => .field (wording shown) with ⟨shown, -, h⟩ | h <;>
    exact ⟨_, congrArg Except.error h⟩

/-- Outside its bounds it is refused for one of its fields. -/
theorem write_eq_error {f : Envelope Argument Argument} {e : Envelope Int Bytes}
    (h : f.Carries e) (hw : ¬Writable e) : ∃ error, f.write = .error (.field error) := by
  rw [write_eq h]
  split
  · exact ⟨_, rfl⟩
  split
  · exact ⟨_, rfl⟩
  split
  · exact ⟨_, rfl⟩
  split
  · exact ⟨_, rfl⟩
  split
  · exact exists_field_showing _ _
  split
  · exact exists_field_showing _ _
  · next hsalt hvector hkeyId hciphertext hversion hpadding =>
    exact absurd ⟨Decidable.of_not_not hsalt, Decidable.of_not_not hvector,
      Nat.le_of_not_lt hkeyId, hciphertext, Decidable.of_not_not hversion,
      Decidable.of_not_not hpadding⟩ hw

theorem write_eq_ok_iff {f : Envelope Argument Argument} {e : Envelope Int Bytes} {raw : Bytes}
    (h : f.Carries e) : f.write = .ok raw ↔ Writable e ∧ raw = layout e := by
  constructor
  · intro hraw
    by_cases hw : Writable e
    · exact ⟨hw, Except.ok.inj (hraw.symm.trans (write_eq_ok h hw))⟩
    · obtain ⟨error, herror⟩ := write_eq_error h hw
      exact absurd (hraw.symm.trans herror) (by simp)
  · rintro ⟨hw, rfl⟩
    exact write_eq_ok h hw

/-! ### The first octet -/

theorem toNat_packHalves {high low : Int} (hh : 0 ≤ high ∧ high ≤ maxHalf)
    (hl : 0 ≤ low ∧ low ≤ maxHalf) : (packHalves high low).toNat = high.toNat * 16 + low.toNat := by
  refine UInt8.toNat_ofNat_of_lt' ?_
  simp only [maxHalf] at hh hl
  show high.toNat * 16 + low.toNat < 256
  omega

theorem packHalves_halves (octet : UInt8) :
    packHalves (octet.toNat / 16 : Nat) (octet.toNat % 16 : Nat) = octet := by
  rw [packHalves, Int.toNat_natCast, Int.toNat_natCast, Nat.div_add_mod', UInt8.ofNat_toNat]

/-- Within the bounds the fields can be told from the layout. -/
theorem layout_inj {e other : Envelope Int Bytes} (h : Writable e) (ho : Writable other)
    (heq : layout e = layout other) : e = other := by
  obtain ⟨version, padding, salt, vector, keyId, ciphertext⟩ := e
  obtain ⟨version', padding', salt', vector', keyId', ciphertext'⟩ := other
  simp only [layout, List.cons_append, List.append_assoc, List.cons.injEq] at heq
  obtain ⟨hheader, hfields⟩ := heq
  obtain ⟨rfl, hlater⟩ := List.append_inj hfields (h.salt.trans ho.salt.symm)
  obtain ⟨rfl, hcounted⟩ := List.append_inj hlater (h.vector.trans ho.vector.symm)
  obtain ⟨hcount, hlast⟩ := List.cons.inj hcounted
  -- The key IDs are equally long, since the octet before them tells lengths up to 255 apart.
  have hlength : keyId.length = keyId'.length := by
    have hnumbers := congrArg UInt8.toNat hcount
    rwa [UInt8.toNat_ofNat_of_lt' (Nat.lt_of_le_of_lt h.keyId (by decide)),
      UInt8.toNat_ofNat_of_lt' (Nat.lt_of_le_of_lt ho.keyId (by decide))] at hnumbers
  obtain ⟨rfl, rfl⟩ := List.append_inj hlast hlength
  have hhalves := congrArg UInt8.toNat hheader
  rw [toNat_packHalves h.version h.padding, toNat_packHalves ho.version ho.padding] at hhalves
  dsimp only at hhalves
  have hv := h.version
  have hp := h.padding
  have hv' := ho.version
  have hp' := ho.padding
  simp only [maxHalf] at hv hp hv' hp'
  obtain rfl : version = version' := by omega
  obtain rfl : padding = padding' := by omega
  rfl

theorem length_layout {e : Envelope Int Bytes} (h : Writable e) :
    (layout e).length = keyIdLengthOffset + 1 + e.keyId.length + e.ciphertext.length := by
  simp only [layout, List.length_append, List.length_cons, h.salt, h.vector, keyIdLengthOffset,
    saltLength, vectorLength]
  omega

/-- The octet before the key ID is its length. -/
theorem toNat_getD_layout {e : Envelope Int Bytes} (h : Writable e) :
    ((layout e).getD keyIdLengthOffset 0).toNat = e.keyId.length := by
  have hbefore : (packHalves e.version e.padding :: e.salt ++ e.vector).length =
      keyIdLengthOffset := by
    rw [List.length_append, List.length_cons, h.salt, h.vector]
    rfl
  have hoctet : (layout e)[keyIdLengthOffset]? = some (UInt8.ofNat e.keyId.length) := by
    rw [layout, List.append_assoc, ← hbefore, List.getElem?_append_right (Nat.le_refl _),
      Nat.sub_self]
    rfl
  rw [List.getD_eq_getElem?_getD, hoctet]
  exact UInt8.toNat_ofNat_of_lt' (Nat.lt_of_le_of_lt h.keyId (by decide))

/-! ### Reading -/

/-- Octets of the least length fall into those that have a fixed place and a rest. -/
theorem exists_parts {raw : Bytes} (h : minLength ≤ raw.length) :
    ∃ header salt vector count rest, raw = header :: salt ++ vector ++ count :: rest ∧
      salt.length = saltLength ∧ vector.length = vectorLength ∧ 2 ≤ rest.length := by
  simp only [minLength] at h
  cases raw with
  | nil => simp at h
  | cons header tail =>
    simp only [List.length_cons] at h
    have hlater : (tail.drop saltLength).drop vectorLength ≠ [] := by
      simp only [List.drop_drop, ne_eq, List.drop_eq_nil_iff, saltLength, vectorLength]
      omega
    obtain ⟨count, rest, hrest⟩ := List.exists_cons_of_ne_nil hlater
    refine ⟨header, tail.take saltLength, (tail.drop saltLength).take vectorLength, count, rest,
      ?_, ?_, ?_, ?_⟩
    · rw [← hrest, List.cons_append, List.cons_append, List.append_assoc, List.take_append_drop,
        List.take_append_drop]
    · rw [List.length_take, saltLength]
      omega
    · rw [List.length_take, List.length_drop, saltLength, vectorLength]
      omega
    · have hlength := congrArg List.length hrest
      simp only [List.length_drop, List.length_cons, saltLength, vectorLength] at hlength
      omega

theorem unpackHeader_toNat (header : UInt8) :
    unpackHeader header.toNat =
      (((header.toNat / 16 : Nat) : Int), ((header.toNat % 16 : Nat) : Int)) := by
  have h := header.toNat_lt
  refine Prod.ext ?_ ?_
  · show (header.toNat : Int) / 16 % 16 = (header.toNat / 16 : Nat)
    omega
  · rfl

/-- The first octet shows the version and the padding length. -/
theorem unpackHeader_layout {e : Envelope Int Bytes} (h : Writable e) :
    unpackHeader ((layout e).getD 0 0).toNat = (e.version, e.padding) := by
  obtain ⟨hversionLow, -⟩ := h.version
  obtain ⟨hpaddingLow, hpaddingHigh⟩ := h.padding
  have hheader : ((layout e).getD 0 0).toNat = e.version.toNat * 16 + e.padding.toNat :=
    toNat_packHalves h.version h.padding
  rw [maxHalf] at hpaddingHigh
  rw [unpackHeader_toNat, hheader]
  refine Prod.ext ?_ ?_
  · show (((e.version.toNat * 16 + e.padding.toNat) / 16 : Nat) : Int) = e.version
    omega
  · show (((e.version.toNat * 16 + e.padding.toNat) % 16 : Nat) : Int) = e.padding
    omega

theorem drop_parts {header count : UInt8} {salt vector rest : Bytes}
    (hs : salt.length = saltLength) (hv : vector.length = vectorLength) :
    (header :: salt ++ vector ++ count :: rest).drop (1 + saltLength) = vector ++ count :: rest ∧
    (header :: salt ++ vector ++ count :: rest).drop keyIdLengthOffset = count :: rest := by
  have hsalt : (header :: salt).length = 1 + saltLength := by
    rw [List.length_cons, hs, Nat.add_comm]
  have hvector : (header :: salt ++ vector).length = keyIdLengthOffset := by
    rw [List.length_append, hsalt, hv, keyIdLengthOffset]
  constructor
  · rw [List.append_assoc, List.drop_left' hsalt]
  · exact List.drop_left' hvector

/-- Reading looks at the parts in the order of its checks. -/
theorem read_parts {header count : UInt8} {salt vector rest : Bytes}
    (hs : salt.length = saltLength) (hv : vector.length = vectorLength) :
    read (header :: salt ++ vector ++ count :: rest) =
      if rest.length < 2 then .error (.parse (.tooShort (34 + rest.length)))
      else if header.toNat / 16 ≠ 0 then
        .error (.parse (.unsupportedVersion (header.toNat / 16 : Nat)))
      else if rest.length < count.toNat + 1 then
        .error (.parse (.keyIdOverrun (34 + rest.length) count.toNat))
      else
        .ok ⟨currentVersion, (header.toNat % 16 : Nat), salt, vector, rest.take count.toNat,
          rest.drop count.toNat⟩ := by
  obtain ⟨hdropVector, hdropCount⟩ :=
    @drop_parts header count salt vector rest hs hv
  generalize hraw : header :: salt ++ vector ++ count :: rest = raw at *
  have hlength : raw.length = 34 + rest.length := by
    rw [← hraw]
    simp only [List.length_append, List.length_cons, hs, hv, saltLength, vectorLength]
    omega
  -- Every place that reading looks at lies in one of the parts.
  have hheader : raw.getD 0 0 = header := by rw [← hraw]; rfl
  have hcount : raw.getD keyIdLengthOffset 0 = count := by
    rw [List.getD_eq_getElem?_getD, ← List.head?_drop, hdropCount]
    rfl
  have hsalt : slice raw 1 saltLength = salt := by
    rw [slice, ← hraw]
    show (salt ++ vector ++ count :: rest).take saltLength = salt
    rw [List.append_assoc, List.take_left' hs]
  have hvector : slice raw (1 + saltLength) vectorLength = vector := by
    rw [slice, hdropVector, List.take_left' hv]
  have hrest : ∀ n, raw.drop (keyIdLengthOffset + 1 + n) = rest.drop n := by
    intro n
    rw [← List.drop_drop, ← List.drop_drop, hdropCount]
    rfl
  have hkeyId : ∀ n, slice raw (keyIdLengthOffset + 1) n = rest.take n := by
    intro n
    rw [slice, hrest 0]
    rfl
  have hshort : raw.length < minLength ↔ rest.length < 2 := by
    rw [hlength, minLength]
    omega
  have hroom : ∀ n, raw.length < keyIdLengthOffset + 1 + n + 1 ↔ rest.length < n + 1 := by
    intro n
    rw [hlength, keyIdLengthOffset, saltLength, vectorLength]
    omega
  have hversion : ((header.toNat / 16 : Nat) : Int) ≠ currentVersion ↔ header.toNat / 16 ≠ 0 := by
    rw [currentVersion]
    omega
  simp only [read, hheader, hcount, unpackHeader_toNat, hsalt, hvector, hrest, hkeyId, hshort,
    hroom, hversion]
  split
  · rw [hlength]
  split
  · rfl
  split
  · rw [hlength]
  · next hcurrent _ =>
    have hzero : ((header.toNat / 16 : Nat) : Int) = currentVersion :=
      Decidable.of_not_not fun h => hcurrent (hversion.mp h)
    rw [hzero]

theorem read_layout {e : Envelope Int Bytes} (h : Readable e) : read (layout e) = .ok e := by
  have hkeyId : (UInt8.ofNat e.keyId.length).toNat = e.keyId.length :=
    UInt8.toNat_ofNat_of_lt' (Nat.lt_of_le_of_lt h.keyId (by decide))
  have hheader := toNat_packHalves h.version h.padding
  have hpadding := h.padding
  have htwo := h.twoOctets
  have hpositive : 0 < e.ciphertext.length := List.length_pos_iff.mpr h.ciphertext
  rw [h.current, currentVersion] at hheader
  simp only [maxHalf, Int.toNat_zero] at hheader hpadding
  have hparts : layout e = packHalves e.version e.padding :: e.salt ++ e.vector ++
      UInt8.ofNat e.keyId.length :: (e.keyId ++ e.ciphertext) := by
    rw [layout]
    simp
  rw [hparts, read_parts h.salt h.vector, hkeyId, h.current, currentVersion, hheader,
    List.length_append, if_neg (by omega), if_neg (by omega), if_neg (by omega), List.take_left,
    List.drop_left]
  refine congrArg Except.ok (Envelope.mk.injEq .. |>.mpr ⟨h.current.symm, ?_, rfl, rfl, rfl, rfl⟩)
  omega

/-- Whatever is read is the layout of an envelope within the bounds of reading. -/
theorem eq_layout_of_read {raw : Bytes} {e : Envelope Int Bytes} (h : read raw = .ok e) :
    Readable e ∧ raw = layout e := by
  by_cases hlong : minLength ≤ raw.length
  · obtain ⟨header, salt, vector, count, rest, rfl, hs, hv, -⟩ := exists_parts hlong
    rw [read_parts hs hv] at h
    split at h
    · cases h
    split at h
    · cases h
    split at h
    · cases h
    next hshort hcurrent hroom =>
    cases h
    have hheader := header.toNat_lt
    have hcount := count.toNat_lt
    have hzero : header.toNat / 16 = 0 := Decidable.of_not_not hcurrent
    have hlength : (rest.take count.toNat).length = count.toNat := by
      rw [List.length_take]
      omega
    have hciphertext : 0 < (rest.drop count.toNat).length := by
      rw [List.length_drop]
      omega
    -- Its version is zero, so the first octet is packed from the padding length alone.
    have hpack : packHalves currentVersion (header.toNat % 16 : Nat) = header := by
      have hsame := packHalves_halves header
      rw [hzero] at hsame
      exact hsame
    have hversion : 0 ≤ currentVersion ∧ currentVersion ≤ maxHalf := by decide
    refine ⟨⟨⟨hs, hv, ?_, List.length_pos_iff.mp hciphertext, hversion, ?_⟩, rfl, ?_⟩, ?_⟩
    · show (rest.take count.toNat).length ≤ maxKeyIdLength
      rw [hlength]
      exact Nat.le_of_lt_succ hcount
    · show 0 ≤ ((header.toNat % 16 : Nat) : Int) ∧ ((header.toNat % 16 : Nat) : Int) ≤ maxHalf
      rw [maxHalf]
      omega
    · show 2 ≤ (rest.take count.toNat).length + (rest.drop count.toNat).length
      rw [← List.length_append, List.take_append_drop]
      omega
    · simp only [layout, hpack, hlength, UInt8.ofNat_toNat, List.append_assoc, List.cons_append,
        List.take_append_drop]
  · rw [read, if_pos (Nat.lt_of_not_le hlong)] at h
    cases h

/-- **An envelope is read from its layout alone**, if it is within the bounds of reading. -/
theorem read_eq_ok_iff {raw : Bytes} {e : Envelope Int Bytes} :
    read raw = .ok e ↔ Readable e ∧ raw = layout e := by
  constructor
  · exact eq_layout_of_read
  · rintro ⟨h, rfl⟩
    exact read_layout h

theorem read_ok_or_error (raw : Bytes) :
    (∃ e, read raw = .ok e) ∨ ∃ error, read raw = .error (.parse error) := by
  rw [read]
  split
  · exact Or.inr ⟨_, rfl⟩
  dsimp only
  split
  · exact Or.inr ⟨_, rfl⟩
  split
  · exact Or.inr ⟨_, rfl⟩
  · exact Or.inl ⟨_, rfl⟩

/-- **Writing and reading invert each other** on exactly known domains. What is read is written
again as the same octets. What is written is read as the same fields if it has the version that is
read and two octets of key ID and ciphertext, and is else refused as no envelope. Envelopes within
their bounds are written, and all others are refused as unusable values. -/
theorem write_read_inverse :
    (∀ (form : Form) (raw : Bytes) (e : Envelope Int Bytes),
      readFrom (.octets form raw) = .ok e → (e.map .integer .ofBytes).write = .ok raw) ∧
    (∀ (f : Envelope Argument Argument) (e : Envelope Int Bytes) (raw : Bytes),
      f.Carries e → f.write = .ok raw → ∀ form : Form,
        (readFrom (.octets form raw) = .ok e ↔
          e.version = 0 ∧ 2 ≤ e.keyId.length + e.ciphertext.length) ∧
        ((∃ error, readFrom (.octets form raw) = .error (.parse error)) ↔
          ¬(e.version = 0 ∧ 2 ≤ e.keyId.length + e.ciphertext.length))) ∧
    ∀ (f : Envelope Argument Argument) (e : Envelope Int Bytes), f.Carries e →
      ((∃ raw, f.write = .ok raw) ↔ Writable e) ∧
      ((∃ failure, f.write = .error failure ∧ failure.category = .invalidValue) ↔ ¬Writable e) := by
  refine ⟨?_, ?_, ?_⟩
  · intro form raw e h
    obtain ⟨hreadable, rfl⟩ := eq_layout_of_read h
    exact write_eq_ok (carries_map e) hreadable.toWritable
  · intro f e raw hcarries hwrite form
    rw [readFrom_octets]
    obtain ⟨hw, rfl⟩ := (write_eq_ok_iff hcarries).mp hwrite
    have hread : read (layout e) = .ok e ↔
        e.version = 0 ∧ 2 ≤ e.keyId.length + e.ciphertext.length :=
      ⟨fun h => ⟨(eq_layout_of_read h).1.current, (eq_layout_of_read h).1.twoOctets⟩,
        fun h => read_layout ⟨hw, h.1, h.2⟩⟩
    refine ⟨hread, ?_, ?_⟩
    · rintro ⟨error, herror⟩ h
      exact absurd ((hread.mpr h).symm.trans herror) (by simp)
    · intro hnot
      rcases read_ok_or_error (layout e) with ⟨other, hother⟩ | herror
      · -- No other envelope has this layout.
        obtain ⟨hreadable, heq⟩ := eq_layout_of_read hother
        obtain rfl := layout_inj hw hreadable.toWritable heq
        exact absurd (hread.mp hother) hnot
      · exact herror
  · intro f e hcarries
    refine ⟨⟨?_, fun hw => ⟨layout e, write_eq_ok hcarries hw⟩⟩, ?_, ?_⟩
    · rintro ⟨raw, hraw⟩
      exact ((write_eq_ok_iff hcarries).mp hraw).1
    · rintro ⟨failure, hfailure, -⟩ hw
      exact absurd ((write_eq_ok hcarries hw).symm.trans hfailure) (by simp)
    · intro hw
      obtain ⟨error, herror⟩ := write_eq_error hcarries hw
      exact ⟨.field error, herror, rfl⟩

def shortest (version : Int) : Envelope Int Bytes :=
  ⟨version, 5, .zeros 16, .zeros 16, [7], [9]⟩

/-- Such an envelope is written and read back; with version 3 it is written and not read. -/
theorem write_read_inverse_shortest :
    read (layout (shortest 0)) = .ok (shortest 0) ∧
      ((shortest 0).map .integer .ofBytes).write = .ok (layout (shortest 0)) ∧
      ((shortest 3).map .integer .ofBytes).write = .ok (layout (shortest 3)) ∧
      ∃ error, read (layout (shortest 3)) = .error (.parse error) := by
  have hread : read (layout (shortest 0)) = .ok (shortest 0) := by cbv
  have hwrite : ((shortest 3).map .integer .ofBytes).write = .ok (layout (shortest 3)) := by cbv
  have hnewer := write_read_inverse.2.1 _ (shortest 3) _ (carries_map _) hwrite .constant
  exact ⟨hread, write_read_inverse.1 .view _ _ hread, hwrite, hnewer.2.mpr (by decide)⟩

end PasswordVault.Envelope
