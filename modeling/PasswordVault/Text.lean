import PasswordVault.Octets

/-!
# Text

Text is a list of Unicode code points. Surrogates are code points like any other here, since text
that holds unpaired surrogates reaches the library and must be refused with the position at fault.

## Main definitions

- `CodePoint`, `Text` — a code point and a text
- `Text.ofString`, `Text.toString` — conversion from and to strings of scalar values
- `Text.firstRun?` — the first maximal run of code points with a property
- `Text.ofAscii` — the text whose code points are the given octets
-/

namespace PasswordVault

/-- A Unicode code point, surrogates included. -/
abbrev CodePoint := Fin 0x110000

namespace CodePoint

def ofChar (c : Char) : CodePoint :=
  ⟨c.toNat, by
    have h : c.toNat < 0xD800 ∨ 0xDFFF < c.toNat ∧ c.toNat < 0x110000 := c.valid
    omega⟩

/-- The character of a code point; a surrogate has none and gives NUL. -/
def toChar (c : CodePoint) : Char :=
  Char.ofNat c.val

/-- Whether a code point is one of the surrogates, which no encoding form admits alone. -/
def isSurrogate (c : CodePoint) : Bool :=
  0xD800 ≤ c.val && c.val ≤ 0xDFFF

theorem ofChar_toChar {c : CodePoint} (h : c.isSurrogate = false) : ofChar c.toChar = c := by
  have hvalid : c.val.isValidChar := by
    have hlt := c.isLt
    simp only [isSurrogate, Bool.and_eq_false_iff, decide_eq_false_iff_not] at h
    simp only [Nat.isValidChar]
    omega
  refine Fin.ext ?_
  show (Char.ofNat c.val).toNat = c.val
  rw [Char.ofNat, dif_pos hvalid]
  rfl

def isAscii (c : CodePoint) : Bool :=
  c.val < 0x80

/-- The code point with a number, which is below 0x110000 wherever this is used. -/
def ofNat (n : Nat) : CodePoint :=
  ⟨n % 0x110000, Nat.mod_lt n (by decide)⟩

theorem ofNat_val (c : CodePoint) : ofNat c.val = c :=
  Fin.ext (Nat.mod_eq_of_lt c.isLt)

def ofOctet (octet : UInt8) : CodePoint :=
  ⟨octet.toNat, Nat.lt_trans octet.toNat_lt (by decide)⟩

end CodePoint

/-- A sequence of code points. -/
abbrev Text := List CodePoint

namespace Text

def ofString (s : String) : Text :=
  s.toList.map CodePoint.ofChar

/-- The string of a text without surrogates. -/
def toString (t : Text) : String :=
  String.ofList (t.map CodePoint.toChar)

theorem ofString_toString {t : Text} (h : ∀ c ∈ t, c.isSurrogate = false) :
    ofString (toString t) = t := by
  rw [ofString, toString, String.toList_ofList, List.map_map]
  induction t with
  | nil => rfl
  | cons c t ih =>
    obtain ⟨hc, ht⟩ := List.forall_mem_cons.mp h
    rw [List.map_cons, ih ht, Function.comp_apply, CodePoint.ofChar_toChar hc]

def ofAscii (octets : Bytes) : Text :=
  octets.map CodePoint.ofOctet

/-- The half-open range of the first maximal run of code points with property `bad`, and the code
point it starts with; positions count from `start`. -/
def firstRun? (bad : CodePoint → Bool) : Nat → Text → Option (CodePoint × Nat × Nat)
  | _, [] => none
  | start, c :: rest =>
    if bad c then some (c, start, start + 1 + (rest.takeWhile bad).length)
    else firstRun? bad (start + 1) rest

theorem firstRun?_eq_none_iff {bad : CodePoint → Bool} {start : Nat} {t : Text} :
    firstRun? bad start t = none ↔ ∀ c ∈ t, bad c = false := by
  induction t generalizing start with
  | nil => simp [firstRun?]
  | cons c rest ih => by_cases h : bad c <;> simp [firstRun?, h, ih]

/-- What is left of a text after a leading marker, if it starts with that marker. -/
def dropMarker? (t marker : Text) : Option Text :=
  if marker.isPrefixOf t then some (t.drop marker.length) else none

end Text

end PasswordVault
