import PasswordVault.Proofs.Octets.Bits
import PasswordVault.Text.Hexadecimal

/-!
# The language of hexadecimal text

A hexadecimal text is a run of groups of two digits, one group an octet, with blanks before, between
and after them and none inside. Neither the blanks nor the letter case of the digits matter: what is
left of a text without them depends on the octets alone.

## Main definitions

- `Hexadecimal.alphabet`, `Hexadecimal.blanks` — the characters
- `Hexadecimal.Denotes` — a text and its octets
- `Hexadecimal.canonical` — a text without its blanks, in upper case

`Hexadecimal.read_eq_ok_iff` says that reading gives exactly the octets that a text denotes,
`Hexadecimal.denotes_append_iff` that a text may be cut between groups, and
`Hexadecimal.canonical_eq` that its canonical form is how its octets are written.
-/

namespace PasswordVault

/-- An ASCII letter in upper case; any other character is left as it is. -/
def CodePoint.upper (c : CodePoint) : CodePoint :=
  if 97 ≤ c.val ∧ c.val ≤ 122 then ofNat (c.val - 32) else c

namespace Hexadecimal

/-- The digits of a letter case, in the order of their values. -/
def alphabet : Case → Text
  | .lower => Text.ofString "0123456789abcdef"
  | .upper => Text.ofString "0123456789ABCDEF"

/-- Space, tab, line feed, vertical tab, form feed and carriage return. -/
def blanks : Text :=
  [32, 9, 10, 11, 12, 13]

/-- A character is a digit of a value, in one letter case or the other. -/
def Stands (c : CodePoint) (half : Nat) : Prop :=
  (alphabet .lower)[half]? = some c ∨ (alphabet .upper)[half]? = some c

/-- A text stands for octets: two digits for each octet, and blanks around them. -/
inductive Denotes : Text → Bytes → Prop
  | nil : Denotes [] []
  | blank {c : CodePoint} {t : Text} {octets : Bytes} (hc : c ∈ blanks) (h : Denotes t octets) :
    Denotes (c :: t) octets
  | octet {c d : CodePoint} {t : Text} {high low : Nat} {octets : Bytes} (hc : Stands c high)
    (hd : Stands d low) (h : Denotes t octets) :
    Denotes (c :: d :: t) (UInt8.ofNat (16 * high + low) :: octets)

/-- A text without its blanks, in upper case. -/
def canonical (t : Text) : Text :=
  (t.filter (· ∉ blanks)).map CodePoint.upper

variable {c d : CodePoint} {s t : Text} {octets rest : Bytes} {high low : Nat}

instance : Decidable (Stands c high) :=
  inferInstanceAs (Decidable (_ ∨ _))

/-! ### Characters -/

/-- A statement about all ASCII characters is one about the numbers below 128. -/
theorem forall_ascii {P : CodePoint → Prop} (h : ∀ n : Fin 128, P (CodePoint.ofNat n.val))
    (hc : c.isAscii = true) : P c := by
  have hlt : c.val < 128 := by simpa [CodePoint.isAscii] using hc
  have hp := h ⟨c.val, hlt⟩
  rwa [CodePoint.ofNat_val] at hp

theorem isAscii_of_isBlank (h : isBlank c = true) : c.isAscii = true := by
  simp only [isBlank, Bool.or_eq_true, beq_iff_eq, Bool.and_eq_true, decide_eq_true_eq] at h
  simp only [CodePoint.isAscii, decide_eq_true_eq]
  omega

theorem isAscii_of_mem_blanks (h : c ∈ blanks) : c.isAscii = true := by
  have hall : blanks.all CodePoint.isAscii = true := by decide
  exact List.all_eq_true.mp hall c h

theorem isBlank_iff : isBlank c = true ↔ c ∈ blanks := by
  have hall : c.isAscii = true → (isBlank c = true ↔ c ∈ blanks) :=
    forall_ascii (P := fun c => isBlank c = true ↔ c ∈ blanks) (by decide)
  exact ⟨fun h => (hall (isAscii_of_isBlank h)).mp h,
    fun h => (hall (isAscii_of_mem_blanks h)).mpr h⟩

theorem isAscii_of_value? {half : UInt8} (h : value? c = some half) : c.isAscii = true := by
  simp only [CodePoint.isAscii, decide_eq_true_eq]
  rw [value?] at h
  split at h
  · omega
  split at h
  · omega
  split at h
  · omega
  · cases h

theorem stands_of_getElem? {case : Case} (h : (alphabet case)[high]? = some c) : Stands c high := by
  cases case with
  | lower => exact Or.inl h
  | upper => exact Or.inr h

/-- Characters that follow each other in the alphabet have values that follow each other. -/
theorem stands_of_run (case : Case) (first place count : Nat)
    (hrun : ∀ n : Fin count, (alphabet case)[place + n.val]? = some (CodePoint.ofNat (first + n)))
    (hlow : first ≤ c.val) (hhigh : c.val < first + count) :
    Stands c (place + (c.val - first)) := by
  have hget := hrun ⟨c.val - first, by omega⟩
  rw [show first + (c.val - first) = c.val by omega, CodePoint.ofNat_val] at hget
  exact stands_of_getElem? hget

theorem stands_of_value? {half : UInt8} (h : value? c = some half) : Stands c half.toNat := by
  rw [value?] at h
  split at h
  · obtain rfl := Option.some.inj h
    rw [UInt8.toNat_ofNat_of_lt' (show c.val - 48 < 256 by omega), ← Nat.zero_add (c.val - 48)]
    exact stands_of_run .lower 48 0 10 (by decide) (by omega) (by omega)
  split at h
  · obtain rfl := Option.some.inj h
    rw [UInt8.toNat_ofNat_of_lt' (show c.val - 55 < 256 by omega),
      show c.val - 55 = 10 + (c.val - 65) by omega]
    exact stands_of_run .upper 65 10 6 (by decide) (by omega) (by omega)
  split at h
  · obtain rfl := Option.some.inj h
    rw [UInt8.toNat_ofNat_of_lt' (show c.val - 87 < 256 by omega),
      show c.val - 87 = 10 + (c.val - 97) by omega]
    exact stands_of_run .lower 97 10 6 (by decide) (by omega) (by omega)
  · cases h

/-- The digits of each letter case have their values. -/
theorem value?_alphabet (case : Case) (n : Fin 16) :
    value? ((alphabet case).getD n 0) = some (UInt8.ofNat n) := by
  revert n
  cases case <;> decide

theorem alphabet_not_blank (case : Case) (n : Fin 16) : (alphabet case).getD n 0 ∉ blanks := by
  revert n
  cases case <;> decide

/-- A character that stands for a value is a digit, and the value is below sixteen. -/
theorem Stands.exists_digit (h : Stands c high) :
    ∃ case, ∃ n : Fin 16, high = n ∧ c = (alphabet case).getD n 0 := by
  obtain ⟨case, hget⟩ : ∃ case, (alphabet case)[high]? = some c := by
    rcases h with h | h
    · exact ⟨.lower, h⟩
    · exact ⟨.upper, h⟩
  have hlength : (alphabet case).length = 16 := by cases case <;> rfl
  have hlt : high < 16 := hlength ▸ (List.getElem?_eq_some_iff.mp hget).1
  refine ⟨case, ⟨high, hlt⟩, rfl, ?_⟩
  rw [List.getD_eq_getElem?_getD, hget, Option.getD_some]

theorem Stands.value?_eq (h : Stands c high) : value? c = some (UInt8.ofNat high) := by
  obtain ⟨case, n, rfl, rfl⟩ := h.exists_digit
  exact value?_alphabet case n

theorem Stands.isBlank_eq (h : Stands c high) : isBlank c = false := by
  obtain ⟨case, n, rfl, rfl⟩ := h.exists_digit
  rw [← Bool.not_eq_true, isBlank_iff]
  exact alphabet_not_blank case n

theorem Stands.lt (h : Stands c high) : high < 16 := by
  obtain ⟨case, n, rfl, -⟩ := h.exists_digit
  exact n.isLt

/-- Two values below sixteen are put together to an octet. -/
theorem join_halves (hh : high < 16) (hl : low < 16) :
    UInt8.ofNat high <<< 4 ||| UInt8.ofNat low = UInt8.ofNat (16 * high + low) := by
  have hall : ∀ m n : Fin 16, UInt8.ofNat m.val <<< 4 ||| UInt8.ofNat n.val =
      UInt8.ofNat (16 * m.val + n.val) := by
    decide
  exact hall ⟨high, hh⟩ ⟨low, hl⟩

/-! ### Reading -/

theorem denotes_of_readFrom {position : Nat} (h : readFrom position t = .ok octets) :
    Denotes t octets := by
  fun_induction readFrom position t generalizing octets with
  | case1 =>
    obtain rfl := Except.ok.inj h
    exact .nil
  | case2 position c rest hblank ih => exact .blank (isBlank_iff.mp hblank) (ih h)
  | case6 position c hblank high d rest hhigh low hlow found hfound ih =>
    obtain rfl := Except.ok.inj h
    have hc := stands_of_value? hhigh
    have hd := stands_of_value? hlow
    have hoctet := Denotes.octet hc hd (ih hfound)
    rwa [← join_halves hc.lt hd.lt, UInt8.ofNat_toNat, UInt8.ofNat_toNat] at hoctet
  -- Anything else is at fault.
  | _ => cases h

theorem readFrom_of_denotes (h : Denotes t octets) (position : Nat) :
    readFrom position t = .ok octets := by
  induction h generalizing position with
  | nil => rfl
  | blank hc h ih =>
    rw [readFrom.eq_def]
    exact (if_pos (isBlank_iff.mpr hc)).trans (ih (position + 1))
  | octet hc hd h ih =>
    rw [readFrom.eq_def]
    simp only [hc.isBlank_eq, Bool.false_eq_true, if_false, hc.value?_eq, hd.value?_eq, ih,
      join_halves hc.lt hd.lt]

theorem Denotes.isAscii (h : Denotes t octets) : ∀ c ∈ t, c.isAscii = true := by
  induction h with
  | nil => exact fun _ h => absurd h List.not_mem_nil
  | blank hc h ih => exact List.forall_mem_cons.mpr ⟨isAscii_of_mem_blanks hc, ih⟩
  | octet hc hd h ih =>
    exact List.forall_mem_cons.mpr ⟨isAscii_of_value? hc.value?_eq,
      List.forall_mem_cons.mpr ⟨isAscii_of_value? hd.value?_eq, ih⟩⟩

/-- **A text is read as the octets that it denotes**, and no other text is read. -/
theorem read_eq_ok_iff : read t = .ok octets ↔ Denotes t octets := by
  constructor
  · intro h
    rw [read] at h
    split at h
    · cases h
    · exact denotes_of_readFrom h
  · intro h
    have hascii : t.findIdx? (fun c => !c.isAscii) = none := by
      simpa [List.findIdx?_eq_none_iff] using h.isAscii
    rw [read, hascii]
    exact readFrom_of_denotes h 0

theorem Denotes.unique (h : Denotes t octets) (h' : Denotes t rest) : octets = rest :=
  Except.ok.inj ((read_eq_ok_iff.mpr h).symm.trans (read_eq_ok_iff.mpr h'))

/-! ### Cutting between groups -/

theorem Stands.notMem_blanks (h : Stands c high) : c ∉ blanks := by
  intro hc
  exact absurd (isBlank_iff.mpr hc) (by simp [h.isBlank_eq])

theorem Stands.unique {other : Nat} (h : Stands c high) (h' : Stands c other) : high = other := by
  have hvalue := Option.some.inj (h.value?_eq.symm.trans h'.value?_eq)
  have hh := h.lt
  have hh' := h'.lt
  have := congrArg UInt8.toNat hvalue
  simp only [UInt8.toNat_ofNat'] at this
  omega

theorem denotes_blank_iff (hc : c ∈ blanks) : Denotes (c :: t) octets ↔ Denotes t octets := by
  constructor
  · intro h
    cases h with
    | blank _ h => exact h
    | octet hdigit => exact absurd hc hdigit.notMem_blanks
  · exact .blank hc

theorem denotes_octet_iff (hc : Stands c high) (hd : Stands d low) :
    Denotes (c :: d :: t) octets ↔
      ∃ rest, octets = UInt8.ofNat (16 * high + low) :: rest ∧ Denotes t rest := by
  constructor
  · intro h
    cases h with
    | blank hblank => exact absurd hblank hc.notMem_blanks
    | octet hc' hd' h =>
      obtain rfl := hc.unique hc'
      obtain rfl := hd.unique hd'
      exact ⟨_, rfl, h⟩
  · rintro ⟨rest, rfl, h⟩
    exact .octet hc hd h

/-- **A text may be cut between groups.** What follows a text that denotes octets denotes those that
follow these. -/
theorem denotes_append_iff (hs : Denotes s octets) :
    Denotes (s ++ t) rest ↔ ∃ more, rest = octets ++ more ∧ Denotes t more := by
  induction hs generalizing rest with
  | nil => simp
  | blank hc h ih => rw [List.cons_append, denotes_blank_iff hc, ih]
  | octet hc hd h ih =>
    rw [List.cons_append, List.cons_append, denotes_octet_iff hc hd]
    constructor
    · rintro ⟨tail, rfl, htail⟩
      obtain ⟨more, rfl, hmore⟩ := ih.mp htail
      exact ⟨more, rfl, hmore⟩
    · rintro ⟨more, rfl, hmore⟩
      exact ⟨_, rfl, ih.mpr ⟨more, rfl, hmore⟩⟩

/-- Blanks denote nothing. -/
theorem denotes_nil_iff : Denotes t [] ↔ ∀ c ∈ t, c ∈ blanks := by
  constructor
  · intro h
    generalize hnone : ([] : Bytes) = octets at h
    induction h with
    | nil => exact fun _ h => absurd h List.not_mem_nil
    | blank hc h ih => exact List.forall_mem_cons.mpr ⟨hc, ih hnone⟩
    | octet => cases hnone
  · intro h
    induction t with
    | nil => exact .nil
    | cons c t ih =>
      obtain ⟨hc, ht⟩ := List.forall_mem_cons.mp h
      exact .blank hc (ih ht)

/-- No octets come out of a text of blanks, and of no other. -/
theorem read_eq_nil_iff : read t = .ok [] ↔ ∀ c ∈ t, isBlank c = true := by
  simp only [read_eq_ok_iff, denotes_nil_iff, isBlank_iff]

/-- Blanks may be put where a text may be cut. -/
theorem denotes_insert_iff {gap : Text} (hs : Denotes s octets) (hgap : ∀ c ∈ gap, c ∈ blanks) :
    Denotes (s ++ gap ++ t) rest ↔ Denotes (s ++ t) rest := by
  have hopen : Denotes (s ++ gap) octets :=
    (denotes_append_iff hs).mpr ⟨[], (List.append_nil octets).symm, denotes_nil_iff.mpr hgap⟩
  rw [denotes_append_iff hopen, denotes_append_iff hs]

/-! ### Letter case -/

/-- What is the same for the ASCII characters in upper case is the same for all characters. -/
theorem apply_upper {α : Type} (f : CodePoint → α)
    (h : ∀ n : Fin 128, f (CodePoint.ofNat n.val).upper = f (CodePoint.ofNat n.val))
    (c : CodePoint) : f c.upper = f c := by
  by_cases hc : c.isAscii = true
  · exact forall_ascii (P := fun c => f c.upper = f c) h hc
  · have hsame : c.upper = c := by
      simp only [CodePoint.isAscii, decide_eq_true_eq] at hc
      rw [CodePoint.upper, if_neg (by omega)]
    rw [hsame]

theorem isAscii_upper (c : CodePoint) : c.upper.isAscii = c.isAscii :=
  apply_upper CodePoint.isAscii (by decide) c

theorem isBlank_upper (c : CodePoint) : isBlank c.upper = isBlank c :=
  apply_upper isBlank (by decide) c

theorem value?_upper (c : CodePoint) : value? c.upper = value? c :=
  apply_upper value? (by decide) c

theorem readFrom_map_upper (position : Nat) (t : Text) :
    readFrom position (t.map CodePoint.upper) = readFrom position t := by
  fun_induction readFrom position t with
  | case1 => rfl
  | case2 position c rest hblank ih =>
    rw [List.map_cons, readFrom.eq_def]
    simp only [isBlank_upper, hblank, if_true, ih]
  | _ =>
    rw [readFrom.eq_def]
    simp_all only [List.map_cons, List.map_nil, isBlank_upper, value?_upper]
    rfl

/-- **The letter case does not matter**, for what is read or for where the fault is. -/
theorem read_map_upper (t : Text) : read (t.map CodePoint.upper) = read t := by
  have hfind : (t.map CodePoint.upper).findIdx? (fun c => !c.isAscii) =
      t.findIdx? (fun c => !c.isAscii) := by
    rw [List.findIdx?_map]
    congr 1
    funext c
    rw [Function.comp_apply, isAscii_upper]
  rw [read, read, hfind, readFrom_map_upper]

/-! ### The canonical form -/

theorem shiftRight_four (octet : UInt8) : octet >>> 4 = UInt8.ofNat (octet.toNat / 16) := by
  have hlt := octet.toNat_lt
  refine UInt8.toNat_inj.mp ?_
  rw [UInt8.toNat_shiftRight, UInt8.toNat_ofNat_of_lt' (show octet.toNat / 16 < 256 by omega)]
  exact Nat.shiftRight_eq_div_pow octet.toNat 4

theorem and_fifteen (octet : UInt8) : octet &&& 15 = UInt8.ofNat (octet.toNat % 16) := by
  refine UInt8.toNat_inj.mp ?_
  rw [UInt8.toNat_and, UInt8.toNat_ofNat_of_lt' (show octet.toNat % 16 < 256 by omega)]
  exact Nat.and_two_pow_sub_one_eq_mod octet.toNat 4

/-- The digits of an octet are those of its two halves. -/
theorem getElem?_alphabet (case : Case) (octet : UInt8) :
    (alphabet case)[octet.toNat / 16]? = some (CodePoint.ofOctet (digit case (octet >>> 4))) ∧
      (alphabet case)[octet.toNat % 16]? =
        some (CodePoint.ofOctet (digit case (octet &&& 15))) := by
  have hlt := octet.toNat_lt
  have hall : ∀ n : Fin 16,
      (alphabet case)[n.val]? = some (CodePoint.ofOctet (digit case (UInt8.ofNat n))) := by
    cases case <;> decide
  rw [shiftRight_four, and_fifteen]
  exact ⟨hall ⟨octet.toNat / 16, by omega⟩, hall ⟨octet.toNat % 16, by omega⟩⟩

/-- Octets are denoted by their digits in either letter case. -/
theorem denotes_digits (case : Case) (octets : Bytes) :
    Denotes (Text.ofAscii (digits case octets)) octets := by
  induction octets with
  | nil => exact .nil
  | cons octet rest ih =>
    obtain ⟨hhigh, hlow⟩ := getElem?_alphabet case octet
    have hoctet := Denotes.octet (stands_of_getElem? hhigh) (stands_of_getElem? hlow) ih
    rwa [Nat.div_add_mod, UInt8.ofNat_toNat] at hoctet

/-- A digit in upper case is the one that is written for its value. -/
theorem Stands.upper_eq (h : Stands c high) : (alphabet .upper)[high]? = some c.upper := by
  have hall : ∀ case, ∀ n : Fin 16,
      (alphabet .upper)[n.val]? = some ((alphabet case).getD n 0).upper := by
    intro case
    cases case <;> decide
  obtain ⟨case, n, rfl, rfl⟩ := h.exists_digit
  exact hall case n

/-- Digits in upper case are those of the octet that their values make up. -/
theorem Stands.upper_digits (hc : Stands c high) (hd : Stands d low) :
    c.upper = CodePoint.ofOctet (digit .upper (UInt8.ofNat (16 * high + low) >>> 4)) ∧
      d.upper = CodePoint.ofOctet (digit .upper (UInt8.ofNat (16 * high + low) &&& 15)) := by
  have hh := hc.lt
  have hl := hd.lt
  have hoctet : (UInt8.ofNat (16 * high + low)).toNat = 16 * high + low :=
    UInt8.toNat_ofNat_of_lt' (show 16 * high + low < 256 by omega)
  obtain ⟨hhigh, hlow⟩ := getElem?_alphabet .upper (UInt8.ofNat (16 * high + low))
  rw [hoctet, show (16 * high + low) / 16 = high by omega, hc.upper_eq] at hhigh
  rw [hoctet, show (16 * high + low) % 16 = low by omega, hd.upper_eq] at hlow
  exact ⟨Option.some.inj hhigh, Option.some.inj hlow⟩

/-- **The canonical form** of a text is what is written for its octets. -/
theorem canonical_eq (h : Denotes t octets) :
    canonical t = Text.ofAscii (digits .upper octets) := by
  induction h with
  | nil => rfl
  | blank hc h ih =>
    rw [canonical, List.filter_cons_of_neg (by simpa using hc)]
    exact ih
  | octet hc hd h ih =>
    obtain ⟨hhigh, hlow⟩ := hc.upper_digits hd
    rw [canonical, List.filter_cons_of_pos (by simpa using hc.notMem_blanks),
      List.filter_cons_of_pos (by simpa using hd.notMem_blanks), List.map_cons, List.map_cons,
      hhigh, hlow]
    exact congrArg (_ :: _ :: ·) ih

/-- **Two texts denote the same octets if their canonical forms are the same**, and only then. -/
theorem eq_iff_canonical_eq (hs : Denotes s octets) (ht : Denotes t rest) :
    octets = rest ↔ canonical s = canonical t := by
  rw [canonical_eq hs, canonical_eq ht]
  constructor
  · rintro rfl
    rfl
  · intro h
    have hrest := denotes_digits .upper rest
    rw [← h] at hrest
    exact (denotes_digits .upper octets).unique hrest

/-- What is written is read again. -/
theorem denotes_write (case : Case) (octets : Bytes) :
    Denotes (Text.ofString (write case octets)) octets := by
  have hdigits := denotes_digits case octets
  have hscalar : ∀ c ∈ Text.ofAscii (digits case octets), c.isSurrogate = false := by
    intro c hc
    have hascii := hdigits.isAscii c hc
    simp only [CodePoint.isAscii, decide_eq_true_eq] at hascii
    simp only [CodePoint.isSurrogate, Bool.and_eq_false_iff, decide_eq_false_iff_not]
    omega
  rwa [write, Text.ofString_toString hscalar]

end Hexadecimal

end PasswordVault
