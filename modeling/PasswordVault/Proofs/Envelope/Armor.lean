import PasswordVault.Envelope.Armor
import PasswordVault.Proofs.Text.Base64.Grammar
import PasswordVault.Proofs.Text.Coding

/-!
# Texts that are read as octets

A text is read by taking off one scheme marker in front, if there is one, and reading the rest as
Base64. The brace that opens the marker is no character of Base64, so what is left cannot begin
with a marker again.

## Main definitions

- `Armor.body`, `Armor.bodyOffset` — the part of a text that is Base64, and where it begins

`Armor.read_eq_ok_iff` gives the texts that are read with their octets, `Armor.read_eq_error` how
every other text is refused, and `Armor.read_write` the round trip. `Armor.readFrom_text_language`
states all of it.
-/

namespace PasswordVault.Armor

/-- A text without the scheme marker in front, if there is one. -/
def body (t : Text) : Text :=
  if scheme <+: t then t.drop scheme.length else t

def bodyOffset (t : Text) : Nat :=
  if scheme <+: t then scheme.length else 0

theorem length_scheme : scheme.length = 8 := by decide

theorem body_scheme_append (t : Text) : body (scheme ++ t) = t := by
  rw [body, if_pos (List.prefix_append scheme t), List.drop_left]

theorem bodyOffset_scheme_append (t : Text) : bodyOffset (scheme ++ t) = scheme.length :=
  if_pos (List.prefix_append scheme t)

theorem read_eq (t : Text) : read t = readBody (bodyOffset t) (body t) := by
  by_cases h : scheme <+: t
  · rw [read, Text.dropMarker?, if_pos (List.isPrefixOf_iff_prefix.mpr h), bodyOffset, body,
      if_pos h, if_pos h]
  · rw [read, Text.dropMarker?, if_neg fun hp => h (List.isPrefixOf_iff_prefix.mp hp), bodyOffset,
      body, if_neg h, if_neg h]

/-! ### The body -/

theorem toNat_lt_of_denotes {ascii raw : Bytes} (h : Base64.Denotes ascii raw) :
    ∀ c ∈ ascii, c.toNat < 128 := by
  obtain ⟨data, count, rfl, hdata, -, -⟩ := h
  have halphabet : ∀ c ∈ Base64.alphabet, c.toNat < 128 := by decide +kernel
  intro c hc
  rcases List.mem_append.mp hc with hc | hc
  · exact halphabet c (hdata c hc)
  · rw [List.eq_of_mem_replicate hc]
    decide

/-- A body is read if it is a text in Base64, and as the octets that text stands for. -/
theorem readBody_eq_ok_iff {offset : Nat} {t : Text} {raw : Bytes} :
    readBody offset t = .ok raw ↔
      ∃ ascii, t = Text.ofAscii ascii ∧ Base64.Denotes ascii raw := by
  constructor
  · intro h
    rw [readBody] at h
    cases hascii : Ascii.encode t with
    | error fault => simp [hascii] at h
    | ok ascii =>
      cases hraw : Base64.decode ascii with
      | error fault => simp [hascii, hraw] at h
      | ok octets =>
        simp only [hascii, hraw, Except.ok.injEq] at h
        subst h
        exact ⟨ascii, (Ascii.encode_eq_ok_iff.mp hascii).1, Base64.decode_eq_ok_iff.mp hraw⟩
  · rintro ⟨ascii, ht, hdenotes⟩
    have hascii : Ascii.encode t = .ok ascii :=
      Ascii.encode_eq_ok_iff.mpr ⟨ht, toNat_lt_of_denotes hdenotes⟩
    simp only [readBody, hascii, Base64.decode_eq_ok_iff.mpr hdenotes]

/-- Reading a body ends in octets or in a parse failure that names where the body begins. -/
theorem readBody_ok_or_error (offset : Nat) (t : Text) :
    (∃ raw, readBody offset t = .ok raw) ∨
      ∃ error : ParseError, readBody offset t = .error (.parse error) ∧ error.offset = offset := by
  rw [readBody]
  cases hascii : Ascii.encode t with
  | error fault => exact Or.inr ⟨.notAscii fault offset, rfl, rfl⟩
  | ok ascii =>
    cases hraw : Base64.decode ascii with
    | error fault => exact Or.inr ⟨.notBase64 fault offset, by simp only [hraw], rfl⟩
    | ok octets => exact Or.inl ⟨octets, by simp only [hraw]⟩

/-! ### Whole texts -/

/-- **The texts that are read** are those whose body is in Base64. -/
theorem read_eq_ok_iff {t : Text} {raw : Bytes} :
    read t = .ok raw ↔ ∃ ascii, body t = Text.ofAscii ascii ∧ Base64.Denotes ascii raw := by
  rw [read_eq, readBody_eq_ok_iff]

/-- Every text that is not read is refused at the beginning of its body. -/
theorem read_eq_error {t : Text} (h : ∀ raw, read t ≠ .ok raw) :
    ∃ error : ParseError, read t = .error (.parse error) ∧ error.offset = bodyOffset t := by
  rw [read_eq] at h ⊢
  rcases readBody_ok_or_error (bodyOffset t) (body t) with ⟨raw, hraw⟩ | herror
  · exact absurd hraw (h raw)
  · exact herror

/-- A text in Base64 does not begin with the scheme marker, whose first character is foreign. -/
theorem not_scheme_prefix {ascii raw : Bytes} (h : Base64.Denotes ascii raw) :
    ¬scheme <+: Text.ofAscii ascii := by
  rintro ⟨rest, hrest⟩
  obtain ⟨data, count, rfl, hdata, -, -⟩ := h
  -- The brace that opens the marker would be in the alphabet or be padding.
  have hopen : CodePoint.ofOctet 123 ∈ Text.ofAscii (data ++ List.replicate count Base64.padding) :=
    hrest ▸ List.mem_append_left rest (by decide)
  obtain ⟨c, hc, hcode⟩ := List.mem_map.mp hopen
  have hnumber : c.toNat = 123 := Fin.val_eq_of_eq hcode
  have hbrace : c = 123 := UInt8.toNat_inj.mp hnumber
  subst hbrace
  rcases List.mem_append.mp hc with hc | hc
  · exact absurd (hdata 123 hc) (by decide)
  · exact absurd (List.eq_of_mem_replicate hc) (by decide)

theorem denotes_encode (raw : Bytes) : Base64.Denotes (Base64.encode raw) raw :=
  Base64.decode_eq_ok_iff.mp (Base64.decode_encode raw)

/-- An unmarked text is never taken for a marked one. -/
theorem not_scheme_prefix_write (raw : Bytes) : ¬scheme <+: write raw false :=
  not_scheme_prefix (denotes_encode raw)

theorem body_write (raw : Bytes) (marked : Bool) :
    body (write raw marked) = Text.ofAscii (Base64.encode raw) := by
  cases marked with
  | false => exact if_neg (not_scheme_prefix_write raw)
  | true => exact body_scheme_append (Text.ofAscii (Base64.encode raw))

theorem length_write (raw : Bytes) (marked : Bool) :
    (write raw marked).length = (if marked then 8 else 0) + 4 * ((raw.length + 2) / 3) := by
  have hbody : (Text.ofAscii (Base64.encode raw)).length = 4 * ((raw.length + 2) / 3) := by
    rw [Text.ofAscii, List.length_map, Base64.length_encode]
  cases marked with
  | false => exact hbody.trans (Nat.zero_add _).symm
  | true =>
    show (scheme ++ Text.ofAscii (Base64.encode raw)).length = _
    rw [List.length_append, length_scheme, hbody]
    rfl

/-- **Reading undoes writing**, with the marker and without. -/
theorem read_write (raw : Bytes) (marked : Bool) : read (write raw marked) = .ok raw :=
  read_eq_ok_iff.mpr ⟨Base64.encode raw, body_write raw marked, denotes_encode raw⟩

/-- A marker that is written twice is refused. -/
theorem read_scheme_scheme_append (t : Text) :
    ∃ error : ParseError, read (scheme ++ (scheme ++ t)) = .error (.parse error) ∧
      error.offset = scheme.length := by
  rw [← bodyOffset_scheme_append (scheme ++ t)]
  refine read_eq_error fun raw h => ?_
  obtain ⟨ascii, hascii, hdenotes⟩ := read_eq_ok_iff.mp h
  rw [body_scheme_append] at hascii
  exact not_scheme_prefix hdenotes (hascii ▸ List.prefix_append scheme t)

/-- **The language of texts and what they stand for.** A text is read if its body is a run of
characters of the Base64 alphabet with padding that may follow it, and as the octets of the bits of
these characters; any other text is refused at the beginning of its body. Every octet string is
read back from what is written for it, so an unmarked text is never taken for a marked one, and a
doubled marker is refused. -/
theorem readFrom_text_language :
    (∀ (t : Text) (raw : Bytes), readFrom (.text t) = .ok raw ↔
      ∃ ascii, body t = Text.ofAscii ascii ∧ Base64.Denotes ascii raw) ∧
    (∀ t : Text, (∃ error : ParseError, readFrom (.text t) = .error (.parse error) ∧
        error.offset = if scheme <+: t then 8 else 0) ↔
      ¬∃ raw ascii, body t = Text.ofAscii ascii ∧ Base64.Denotes ascii raw) ∧
    (∀ (form : Form) (raw : Bytes) (marked : Bool),
      writeFrom (.octets form raw) marked = .ok (write raw marked) ∧
        readFrom (.text (write raw marked)) = .ok raw) ∧
    (∀ raw : Bytes, ¬scheme <+: write raw false ∧ write raw true = scheme ++ write raw false) ∧
    ∀ t : Text, ∃ error : ParseError,
      readFrom (.text (scheme ++ (scheme ++ t))) = .error (.parse error) ∧ error.offset = 8 := by
  refine ⟨fun t raw => read_eq_ok_iff, ?_, fun _ raw marked => ⟨rfl, read_write raw marked⟩, ?_, ?_⟩
  · intro t
    have hoffset : bodyOffset t = if scheme <+: t then 8 else 0 := by
      rw [bodyOffset, length_scheme]
    rw [← hoffset]
    constructor
    · rintro ⟨error, herror, -⟩ ⟨raw, ascii, h⟩
      have hread : read t = .ok raw := read_eq_ok_iff.mpr ⟨ascii, h⟩
      exact absurd (hread.symm.trans herror) (by simp)
    · intro hnone
      exact read_eq_error fun raw h => hnone ⟨raw, read_eq_ok_iff.mp h⟩
  · exact fun raw => ⟨not_scheme_prefix_write raw, rfl⟩
  · exact fun t => length_scheme ▸ read_scheme_scheme_append t

end PasswordVault.Armor
