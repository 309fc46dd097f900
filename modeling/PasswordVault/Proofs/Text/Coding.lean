import PasswordVault.Text.Coding
import PasswordVault.Text.Utf8
import Mathlib.Logic.Basic

/-!
# Texts that encodings write

ASCII writes exactly the texts of octets below 128. UTF-8 writes exactly the texts without
surrogates, and reading gives back what was written.

`Ascii.encode_eq_ok_iff` and `Utf8.encode_eq_ok_iff` say when and how a text is written, and
`Utf8.decode_of_encode` that it can be read again.
-/

namespace PasswordVault

namespace Ascii

theorem encode_eq_ok_iff {t : Text} {octets : Bytes} :
    encode t = .ok octets ↔ t = Text.ofAscii octets ∧ ∀ octet ∈ octets, octet.toNat < 128 := by
  constructor
  · intro h
    rw [encode] at h
    split at h
    · cases h
    · next hrun =>
      have hascii : ∀ c ∈ t, c.val < 128 := by
        intro c hc
        have := Text.firstRun?_eq_none_iff.mp hrun c hc
        simpa [CodePoint.isAscii] using this
      cases h
      constructor
      · rw [Text.ofAscii, List.map_map]
        refine (List.map_congr_left fun c hc => ?_).trans (List.map_id t) |>.symm
        refine Fin.ext ?_
        exact UInt8.toNat_ofNat_of_lt' (Nat.lt_trans (hascii c hc) (by decide))
      · intro octet hoctet
        obtain ⟨c, hc, rfl⟩ := List.mem_map.mp hoctet
        rw [UInt8.toNat_ofNat_of_lt' (Nat.lt_trans (hascii c hc) (by decide))]
        exact hascii c hc
  · rintro ⟨rfl, hlow⟩
    have hrun : Text.firstRun? (fun c => !c.isAscii) 0 (Text.ofAscii octets) = none := by
      refine Text.firstRun?_eq_none_iff.mpr fun c hc => ?_
      obtain ⟨octet, hoctet, rfl⟩ := List.mem_map.mp hc
      simp [CodePoint.isAscii, CodePoint.ofOctet, hlow octet hoctet]
    rw [encode, hrun]
    refine congrArg Except.ok ?_
    rw [Text.ofAscii, List.map_map]
    refine (List.map_congr_left fun octet _ => ?_).trans (List.map_id octets)
    exact UInt8.ofNat_toNat

end Ascii

namespace Utf8

/-- UTF-8 writes the texts without surrogates, one code point after another. -/
theorem encode_eq_ok_iff {t : Text} {octets : Bytes} :
    encode t = .ok octets ↔
      (∀ c ∈ t, c.isSurrogate = false) ∧ octets = t.flatMap encodePoint := by
  rw [encode]
  cases hrun : Text.firstRun? CodePoint.isSurrogate 0 t with
  | some run =>
    have hbad : ¬∀ c ∈ t, c.isSurrogate = false := fun h => by
      rw [Text.firstRun?_eq_none_iff.mpr h] at hrun
      cases hrun
    simp [hbad]
  | none =>
    have hgood := Text.firstRun?_eq_none_iff.mp hrun
    simp only [Except.ok.injEq]
    exact ⟨fun h => ⟨hgood, h.symm⟩, fun h => h.2.symm⟩

/-! ### Octets of a character -/

theorem ofNat_lt_iff {n : Nat} {bound : UInt8} (h : n < 256) :
    UInt8.ofNat n < bound ↔ n < bound.toNat := by
  rw [UInt8.lt_iff_toNat_lt, UInt8.toNat_ofNat_of_lt' h]

theorem isContinuation_tail {bits : Nat} (h : bits < 64) :
    isContinuation (UInt8.ofNat (0x80 + bits)) = true := by
  simp only [isContinuation, Bool.and_eq_true, decide_eq_true_eq, UInt8.le_iff_toNat_le,
    UInt8.toNat_ofNat_of_lt' (show 0x80 + bits < 256 by omega), ofNat_lt_iff
      (show 0x80 + bits < 256 by omega)]
  constructor
  · exact Nat.le_add_right _ _
  · exact Nat.add_lt_add_left h 0x80

theorem payload_tail {bits : Nat} (h : bits < 64) :
    payload (UInt8.ofNat (0x80 + bits)) = bits := by
  rw [payload, UInt8.toNat_ofNat_of_lt' (show 0x80 + bits < 256 by omega)]
  omega

/-- The second octet may be any that carries six bits, unless the first octet is one of four that
restrict it. -/
theorem mayFollow_tail {lead bits : Nat} (hlead : lead < 256) (h : bits < 64)
    (h3 : lead = 0xE0 → 32 ≤ bits) (hs : lead = 0xED → bits < 32)
    (h4 : lead = 0xF0 → 16 ≤ bits) (hl : lead = 0xF4 → bits < 16) :
    mayFollow (UInt8.ofNat lead) (UInt8.ofNat (0x80 + bits)) = true := by
  have hoctet : 0x80 + bits < 256 := by omega
  -- As numbers, only the four first octets that restrict the second are left to compare.
  have heq : ∀ k : UInt8, UInt8.ofNat lead = k ↔ lead = k.toNat := by
    intro k
    rw [← UInt8.toNat_inj, UInt8.toNat_ofNat_of_lt' hlead]
  simp only [mayFollow, isContinuation_tail h, Bool.true_and, Bool.and_eq_true, Bool.not_eq_true',
    Bool.and_eq_false_iff, beq_eq_false_iff_ne, ne_eq, heq, decide_eq_false_iff_not,
    UInt8.le_iff_toNat_le, ofNat_lt_iff hoctet, UInt8.toNat_ofNat_of_lt' hoctet,
    UInt8.reduceToNat]
  omega

/-! ### Characters by their number of octets -/

theorem decodeFrom_one {lead : Nat} (h : lead < 0x80) (start : Nat) (rest : Bytes) :
    decodeFrom start (UInt8.ofNat lead :: rest) =
      consPoint (CodePoint.ofNat lead) (decodeFrom (start + 1) rest) := by
  have hlead : lead < 256 := by omega
  have c1 : UInt8.ofNat lead < 0x80 := (ofNat_lt_iff hlead).mpr h
  have hpoint : CodePoint.ofOctet (UInt8.ofNat lead) = CodePoint.ofNat lead := by
    refine Fin.ext ?_
    simp only [CodePoint.ofOctet, CodePoint.ofNat, UInt8.toNat_ofNat_of_lt' hlead]
    omega
  rw [decodeFrom.eq_def]
  dsimp only
  rw [if_pos c1, hpoint]

theorem decodeFrom_two {lead b : Nat} (hlow : 0xC2 ≤ lead) (hhigh : lead < 0xE0) (hb : b < 64)
    (start : Nat) (rest : Bytes) :
    decodeFrom start (UInt8.ofNat lead :: UInt8.ofNat (0x80 + b) :: rest) =
      consPoint (CodePoint.ofNat (lead % 32 * 64 + b)) (decodeFrom (start + 2) rest) := by
  have hlead : lead < 256 := by omega
  have c1 : ¬UInt8.ofNat lead < 0x80 := (ofNat_lt_iff hlead).not.mpr (by simp; omega)
  have c2 : ¬UInt8.ofNat lead < 0xC2 := (ofNat_lt_iff hlead).not.mpr (by simp; omega)
  have c3 : UInt8.ofNat lead < 0xE0 := (ofNat_lt_iff hlead).mpr hhigh
  rw [decodeFrom.eq_def]
  dsimp only
  rw [if_neg c1, if_neg c2, if_pos c3, isContinuation_tail hb, if_pos rfl,
    UInt8.toNat_ofNat_of_lt' hlead, payload_tail hb]

theorem decodeFrom_three {lead b c : Nat} (hlow : 0xE0 ≤ lead) (hhigh : lead < 0xF0) (hb : b < 64)
    (hc : c < 64) (hshort : lead = 0xE0 → 32 ≤ b) (hsurrogate : lead = 0xED → b < 32)
    (start : Nat) (rest : Bytes) :
    decodeFrom start
        (UInt8.ofNat lead :: UInt8.ofNat (0x80 + b) :: UInt8.ofNat (0x80 + c) :: rest) =
      consPoint (CodePoint.ofNat (lead % 16 * 4096 + b * 64 + c))
        (decodeFrom (start + 3) rest) := by
  have hlead : lead < 256 := by omega
  have c1 : ¬UInt8.ofNat lead < 0x80 := (ofNat_lt_iff hlead).not.mpr (by simp; omega)
  have c2 : ¬UInt8.ofNat lead < 0xC2 := (ofNat_lt_iff hlead).not.mpr (by simp; omega)
  have c3 : ¬UInt8.ofNat lead < 0xE0 := (ofNat_lt_iff hlead).not.mpr (by simp; omega)
  have c4 : UInt8.ofNat lead < 0xF0 := (ofNat_lt_iff hlead).mpr hhigh
  have hfollow : mayFollow (UInt8.ofNat lead) (UInt8.ofNat (0x80 + b)) = true :=
    mayFollow_tail hlead hb hshort hsurrogate (by omega) (by omega)
  rw [decodeFrom.eq_def]
  dsimp only
  rw [if_neg c1, if_neg c2, if_neg c3, if_pos c4, hfollow, if_neg (by decide),
    isContinuation_tail hc, if_pos rfl, UInt8.toNat_ofNat_of_lt' hlead, payload_tail hb,
    payload_tail hc]

theorem decodeFrom_four {lead b c d : Nat} (hlow : 0xF0 ≤ lead) (hhigh : lead < 0xF5)
    (hb : b < 64) (hc : c < 64) (hd : d < 64) (hshort : lead = 0xF0 → 16 ≤ b)
    (hlast : lead = 0xF4 → b < 16) (start : Nat) (rest : Bytes) :
    decodeFrom start
        (UInt8.ofNat lead :: UInt8.ofNat (0x80 + b) :: UInt8.ofNat (0x80 + c) ::
          UInt8.ofNat (0x80 + d) :: rest) =
      consPoint (CodePoint.ofNat (lead % 8 * 262144 + b * 4096 + c * 64 + d))
        (decodeFrom (start + 4) rest) := by
  have hlead : lead < 256 := by omega
  have c1 : ¬UInt8.ofNat lead < 0x80 := (ofNat_lt_iff hlead).not.mpr (by simp; omega)
  have c2 : ¬UInt8.ofNat lead < 0xC2 := (ofNat_lt_iff hlead).not.mpr (by simp; omega)
  have c3 : ¬UInt8.ofNat lead < 0xE0 := (ofNat_lt_iff hlead).not.mpr (by simp; omega)
  have c4 : ¬UInt8.ofNat lead < 0xF0 := (ofNat_lt_iff hlead).not.mpr (by simp; omega)
  have c5 : UInt8.ofNat lead < 0xF5 := (ofNat_lt_iff hlead).mpr hhigh
  have hfollow : mayFollow (UInt8.ofNat lead) (UInt8.ofNat (0x80 + b)) = true :=
    mayFollow_tail hlead hb (by omega) (by omega) hshort hlast
  rw [decodeFrom.eq_def]
  dsimp only
  rw [if_neg c1, if_neg c2, if_neg c3, if_neg c4, if_pos c5, hfollow, if_neg (by decide),
    isContinuation_tail hc, if_neg (by decide), isContinuation_tail hd, if_pos rfl,
    UInt8.toNat_ofNat_of_lt' hlead, payload_tail hb, payload_tail hc, payload_tail hd]

/-- A code point that is no surrogate is read back, and then the octets after it. -/
theorem decodeFrom_encodePoint_append (c : CodePoint) (h : c.isSurrogate = false) (start : Nat)
    (rest : Bytes) :
    decodeFrom start (encodePoint c ++ rest) =
      consPoint c (decodeFrom (start + (encodePoint c).length) rest) := by
  obtain ⟨n, hn⟩ := c
  have hscalar : ¬(0xD800 ≤ n ∧ n ≤ 0xDFFF) := by
    simpa [CodePoint.isSurrogate] using h
  have hpoint : ∀ k, k = n → CodePoint.ofNat k = ⟨n, hn⟩ := by
    rintro k rfl
    exact Fin.ext (Nat.mod_eq_of_lt hn)
  -- The parts of six bits make up the code point again, however many there are.
  by_cases h1 : n < 0x80
  · have henc : encodePoint ⟨n, hn⟩ = [UInt8.ofNat n] := if_pos h1
    rw [henc, List.singleton_append, decodeFrom_one h1, hpoint n rfl]
    rfl
  by_cases h2 : n < 0x800
  · have henc : encodePoint ⟨n, hn⟩ = [UInt8.ofNat (0xC0 + n / 64), UInt8.ofNat (0x80 + n % 64)] :=
      (if_neg h1).trans (if_pos h2)
    rw [henc, List.cons_append, List.singleton_append,
      decodeFrom_two (by omega) (by omega) (by omega), hpoint _ (by omega)]
    rfl
  by_cases h3 : n < 0x10000
  · have henc : encodePoint ⟨n, hn⟩ = [UInt8.ofNat (0xE0 + n / 4096),
        UInt8.ofNat (0x80 + n / 64 % 64), UInt8.ofNat (0x80 + n % 64)] :=
      (if_neg h1).trans ((if_neg h2).trans (if_pos h3))
    rw [henc, List.cons_append, List.cons_append, List.singleton_append,
      decodeFrom_three (by omega) (by omega) (by omega) (by omega) (by omega) (by omega),
      hpoint _ (by omega)]
    rfl
  · have henc : encodePoint ⟨n, hn⟩ = [UInt8.ofNat (0xF0 + n / 262144),
        UInt8.ofNat (0x80 + n / 4096 % 64), UInt8.ofNat (0x80 + n / 64 % 64),
        UInt8.ofNat (0x80 + n % 64)] :=
      (if_neg h1).trans ((if_neg h2).trans (if_neg h3))
    rw [henc, List.cons_append, List.cons_append, List.cons_append, List.singleton_append,
      decodeFrom_four (by omega) (by omega) (by omega) (by omega) (by omega) (by omega) (by omega),
      hpoint _ (by omega)]
    rfl

/-- **Reading gives back what was written.** -/
theorem decode_of_encode {t : Text} {octets : Bytes} (h : encode t = .ok octets) :
    decode octets = .ok t := by
  obtain ⟨hgood, rfl⟩ := encode_eq_ok_iff.mp h
  -- Where an octet stands matters to faults alone.
  have hall : ∀ start, decodeFrom start (t.flatMap encodePoint) = .ok t := by
    clear h
    induction t with
    | nil => exact fun _ => rfl
    | cons c t ih =>
      intro start
      rw [List.flatMap_cons, decodeFrom_encodePoint_append c (hgood c List.mem_cons_self),
        ih fun d hd => hgood d (List.mem_cons_of_mem c hd)]
      rfl
  exact hall 0

end Utf8

end PasswordVault
