import PasswordVault.Proofs.Octets.Bits
import PasswordVault.Text.Base64

/-!
# The language that the Base64 scanner accepts

A text is accepted if it is a run of alphabet characters, closed by as much padding as completes
its last group; after whole groups any amount of padding is passed over. Its octets are the
six-bit values of the characters, written one after another and cut into groups of eight bits.

## Main definitions

- `Base64.alphabet`, `Base64.sextet` — the characters and their bits
- `Base64.Closes` — how much padding may follow how many characters
- `Base64.Denotes` — a text and its octets

`Base64.decode_eq_ok_iff` says that decoding gives exactly the octets that a text denotes, and
`Base64.decode_encode` that it undoes encoding.
-/

namespace PasswordVault.Base64

open Bytes

def alphabet : Bytes :=
  "ABCDEFGHIJKLMNOPQRSTUVWXYZabcdefghijklmnopqrstuvwxyz0123456789+/".toList.map
    fun c => UInt8.ofNat c.toNat

/-- The six bits that a character of the alphabet stands for. -/
def sextet (c : UInt8) : List Bool :=
  lowBits 6 (alphabet.idxOf c)

/-- Whether `count` padding characters may end a text after `length` characters of the alphabet:
two or three characters of a last group are filled up to four, and after whole groups, of which
there must be one if there is padding at all, any number is passed over. -/
def Closes (length count : Nat) : Prop :=
  length % 4 = 0 ∧ (count = 0 ∨ 0 < length) ∨ length % 4 = 2 ∧ count = 2 ∨
    length % 4 = 3 ∧ count = 1

/-- A text stands for octets: it is a run of alphabet characters with padding that may follow it,
and the octets are those of the bits of the characters. -/
def Denotes (text octets : Bytes) : Prop :=
  ∃ data count, text = data ++ List.replicate count padding ∧ (∀ c ∈ data, c ∈ alphabet) ∧
    Closes data.length count ∧ octets = ofBits (data.flatMap sextet)

/-! ### The alphabet -/

theorem alphabet_eq : alphabet = (List.range 64).map fun n => character (UInt8.ofNat n) := by
  decide

/-- A statement about all six-bit values is one about the numbers below 64. -/
theorem forall_value {P : UInt8 → Prop} (h : ∀ n : Fin 64, P (UInt8.ofNat n.val)) {value : UInt8}
    (hv : value.toNat < 64) : P value := by
  have hp := h ⟨value.toNat, hv⟩
  simpa only [UInt8.ofNat_toNat] using hp

theorem character_mem_alphabet {value : UInt8} (h : value.toNat < 64) :
    character value ∈ alphabet := by
  rw [alphabet_eq, List.mem_map]
  exact ⟨value.toNat, List.mem_range.mpr h, by rw [UInt8.ofNat_toNat]⟩

theorem idxOf_character {value : UInt8} (h : value.toNat < 64) :
    alphabet.idxOf (character value) = value.toNat := by
  refine forall_value (P := fun v => alphabet.idxOf (character v) = v.toNat) ?_ h
  rw [alphabet_eq]
  decide +kernel

theorem value?_character {value : UInt8} (h : value.toNat < 64) :
    value? (character value) = some value := by
  refine forall_value (P := fun v => value? (character v) = some v) ?_ h
  decide +kernel

theorem character_of_value? {c value : UInt8} (h : value? c = some value) :
    value.toNat < 64 ∧ character value = c := by
  have hall : ∀ c : UInt8, ∀ value ∈ value? c, value.toNat < 64 ∧ character value = c :=
    forall_octet (by decide +kernel)
  exact hall c value h

theorem sextet_character {value : UInt8} (h : value.toNat < 64) :
    sextet (character value) = lowBits 6 value.toNat := by
  rw [sextet, idxOf_character h]

theorem value?_eq_none_iff {c : UInt8} : value? c = none ↔ c ∉ alphabet := by
  constructor
  · intro h hc
    rw [alphabet_eq, List.mem_map] at hc
    obtain ⟨n, hn, rfl⟩ := hc
    have hlt : n < 64 := List.mem_range.mp hn
    have hvalue : (UInt8.ofNat n).toNat < 64 := by
      rw [UInt8.toNat_ofNat_of_lt' (Nat.lt_trans hlt (by decide))]
      exact hlt
    rw [value?_character hvalue] at h
    cases h
  · intro h
    cases hv : value? c with
    | none => rfl
    | some value =>
      obtain ⟨hlt, rfl⟩ := character_of_value? hv
      exact absurd (character_mem_alphabet hlt) h

theorem exists_value {c : UInt8} (h : c ∈ alphabet) :
    ∃ value, value? c = some value ∧ value.toNat < 64 ∧ sextet c = lowBits 6 value.toNat := by
  cases hv : value? c with
  | none => exact absurd h (value?_eq_none_iff.mp hv)
  | some value =>
    obtain ⟨hlt, rfl⟩ := character_of_value? hv
    exact ⟨value, rfl, hlt, sextet_character hlt⟩

theorem padding_notMem_alphabet : padding ∉ alphabet := by decide

/-! ### The scanner on alphabet characters -/

/-- The bits read in the current group that make no octet yet. -/
def Place.pending : Place → List Bool
  | .start => []
  | .afterOne left => lowBits 6 left.toNat
  | .afterTwo left => lowBits 4 left.toNat
  | .afterThree left => lowBits 2 left.toNat

theorem Place.length_pending_lt (place : Place) : place.pending.length < 8 := by
  cases place <;> simp [Place.pending]

/-- Taking a value loses no bits: those pending and those of the value are the octet completed, if
any, and the bits then pending. -/
theorem Place.pending_take (place : Place) {value : UInt8} (h : value.toNat < 64) :
    place.pending ++ lowBits 6 value.toNat =
      bits (place.take value).2.toList ++ (place.take value).1.pending := by
  have h6 : value.toNat.testBit 6 = false := Nat.testBit_lt_two_pow h
  have h7 : value.toNat.testBit 7 = false := Nat.testBit_lt_two_pow (Nat.lt_trans h (by decide))
  cases place with
  | start => simp [pending, take, bits]
  | afterOne left =>
    simp [pending, take, bits, lowBits, testBit_mod_256, testBit_octet, testBit_mask4, h6, h7]
  | afterTwo left =>
    simp [pending, take, bits, lowBits, testBit_mod_256, testBit_octet, testBit_mask2, h6, h7]
  | afterThree left =>
    simp [pending, take, bits, lowBits, testBit_mod_256, h6, h7]

theorem Place.filled_take (place : Place) (value : UInt8) :
    (place.take value).1.filled = (place.filled + 1) % 4 := by
  cases place <;> simp [take, filled]

theorem Place.filled_lt (place : Place) : place.filled < 4 := by
  cases place <;> simp [filled]

theorem scan_cons {place : Place} {pads characters : Nat} {c value : UInt8} (rest : Bytes)
    (hc : c ∈ alphabet) (hv : value? c = some value) :
    scan ⟨place, pads, false, characters⟩ (c :: rest) =
      (scan ⟨(place.take value).1, 0, false, characters + 1⟩ rest).map
        ((place.take value).2.toList ++ ·) := by
  have hpad : c ≠ padding := fun h => padding_notMem_alphabet (h ▸ hc)
  simp only [scan, if_neg hpad, hv, Bool.false_eq_true, if_false]
  cases (place.take value).2 <;> cases scan _ rest <;> rfl

/-- Reading alphabet characters turns their bits into octets, up to the bits pending at the place
that is reached. -/
theorem scan_append {data : Bytes} (h : ∀ c ∈ data, c ∈ alphabet) (place : Place)
    (characters : Nat) :
    ∃ next octets, next.filled = (place.filled + data.length) % 4 ∧
      place.pending ++ data.flatMap sextet = bits octets ++ next.pending ∧
      ∀ rest, scan ⟨place, 0, false, characters⟩ (data ++ rest) =
        (scan ⟨next, 0, false, characters + data.length⟩ rest).map (octets ++ ·) := by
  -- The bits pending carry the induction: taking a value moves them on without loss.
  induction data generalizing place characters with
  | nil =>
    refine ⟨place, [], ?_, ?_, ?_⟩
    · exact (Nat.mod_eq_of_lt place.filled_lt).symm
    · simp [bits]
    · intro rest
      cases hs : scan ⟨place, 0, false, characters⟩ rest <;> simp [Except.map, hs]
  | cons c data ih =>
    obtain ⟨value, hv, hlt, hbits⟩ := exists_value (h c List.mem_cons_self)
    obtain ⟨next, octets, hfilled, hpending, hscan⟩ :=
      ih (fun d hd => h d (List.mem_cons_of_mem c hd)) (place.take value).1 (characters + 1)
    refine ⟨next, (place.take value).2.toList ++ octets, ?_, ?_, ?_⟩
    · rw [hfilled, Place.filled_take, List.length_cons]
      omega
    · rw [List.flatMap_cons, hbits, ← List.append_assoc, place.pending_take hlt, List.append_assoc,
        hpending]
      simp [bits]
    · intro rest
      rw [List.cons_append, scan_cons (data ++ rest) (h c List.mem_cons_self) hv, hscan rest,
        List.length_cons, Nat.add_assoc, Nat.add_comm 1]
      cases scan _ rest <;> simp [Except.map]

/-! ### The scanner on padding -/

/-- What ends a text from a place: padding that fills up a group of two or three characters, or any
amount of it at a group boundary. -/
def Ends (filled pads count : Nat) : Prop :=
  filled = 0 ∨ 2 ≤ filled ∧ filled + pads + count = 4

theorem exists_replicate_padding_cons {rest : Bytes} {P : Nat → Prop} :
    (∃ count, padding :: rest = List.replicate count padding ∧ P count) ↔
      ∃ fewer, rest = List.replicate fewer padding ∧ P (fewer + 1) := by
  constructor
  · rintro ⟨count, h, hp⟩
    cases count with
    | zero => cases h
    | succ fewer => exact ⟨fewer, (List.cons.inj h).2, hp⟩
  · rintro ⟨fewer, rfl, hp⟩
    exact ⟨fewer + 1, rfl, hp⟩

/-- Once no alphabet character may follow, the scanner accepts nothing but the padding that ends
the text, and adds no octets. -/
theorem scan_eq_ok_iff_ends {rest octets : Bytes} {progress : Progress}
    (hopen : 2 ≤ progress.place.filled → progress.place.filled + progress.pads < 4)
    (hstop : progress.padded = true ∨ ∀ c ∈ rest.head?, value? c = none) :
    scan progress rest = .ok octets ↔
      octets = [] ∧ ∃ count, rest = List.replicate count padding ∧
        Ends progress.place.filled progress.pads count := by
  induction rest generalizing progress with
  | nil =>
    have hcount : ∀ count, [] = List.replicate count padding ↔ count = 0 := by
      intro count
      cases count <;> simp [List.replicate_succ]
    simp only [hcount, exists_eq_left, Ends, Nat.add_zero]
    rcases progress with ⟨place, pads, padded, characters⟩
    cases place <;> simp [scan, Place.filled] at hopen ⊢ <;> grind
  | cons c rest ih =>
    by_cases hpad : c = padding
    · subst hpad
      simp only [exists_replicate_padding_cons]
      by_cases hgroup : 2 ≤ progress.place.filled
      · by_cases hlast : 4 ≤ progress.place.filled + progress.pads + 1
        · -- This padding completes the group, so the text must end here.
          have hfew : ∀ fewer,
              Ends progress.place.filled progress.pads (fewer + 1) ↔ fewer = 0 := by
            intro fewer
            have := hopen hgroup
            simp only [Ends]
            omega
          simp only [scan, if_pos hgroup, if_pos hlast, if_true, hfew, exists_eq_right,
            List.replicate_zero]
          cases rest <;> simp [eq_comm]
        · -- One padding character more is wanted after this one.
          have hmore : ∀ fewer, Ends progress.place.filled progress.pads (fewer + 1) ↔
              Ends progress.place.filled (progress.pads + 1) fewer := by
            intro fewer
            simp only [Ends]
            omega
          simp only [scan, if_pos hgroup, if_neg hlast, if_true, hmore]
          exact ih (fun _ => by simp only; omega) (Or.inl rfl)
      · -- At a group boundary padding is passed over.
        have hsame : ∀ fewer, Ends progress.place.filled progress.pads (fewer + 1) ↔
            Ends progress.place.filled progress.pads fewer := by
          intro fewer
          simp only [Ends]
          omega
        simp only [scan, if_neg hgroup, if_true, hsame]
        exact ih (fun h => absurd h hgroup) (Or.inl rfl)
    · -- Any other character is refused: it is foreign or stands after padding.
      have hnone : ∀ count, c :: rest ≠ List.replicate count padding := by
        intro count h
        exact hpad (List.eq_of_mem_replicate (h ▸ List.mem_cons_self))
      simp only [scan, if_neg hpad, hnone, false_and, exists_false, and_false, iff_false]
      cases hv : value? c with
      | none => simp
      | some value =>
        rcases hstop with hpadded | hforeign
        · simp [hpadded]
        · exact absurd (hv.symm.trans (hforeign c rfl)) (by simp)

/-! ### Decoding -/

/-- A run of alphabet characters, read to its end, leaves what its bits amount to. -/
theorem scan_data_eq_ok_iff {data rest octets : Bytes} (hdata : ∀ c ∈ data, c ∈ alphabet)
    (hrest : ∀ c ∈ rest.head?, c ∉ alphabet) :
    scan {} (data ++ rest) = .ok octets ↔
      octets = ofBits (data.flatMap sextet) ∧ ∃ count, rest = List.replicate count padding ∧
        Ends (data.length % 4) 0 count := by
  obtain ⟨next, whole, hfilled, hbits, hscan⟩ := scan_append hdata .start 0
  -- The bits that are still pending at the end are too few for an octet.
  have hwhole : ofBits (data.flatMap sextet) = whole := by
    have h : data.flatMap sextet = bits whole ++ next.pending := hbits
    rw [h, ofBits_bits_append, ofBits_short next.length_pending_lt, List.append_nil]
  have hplace : next.filled = data.length % 4 := by
    rw [hfilled, Place.filled, Nat.zero_add]
  have hend := fun tail => @scan_eq_ok_iff_ends rest tail ⟨next, 0, false, 0 + data.length⟩
    (fun _ => next.filled_lt) (Or.inr fun c hc => value?_eq_none_iff.mpr (hrest c hc))
  rw [hscan rest, hwhole, ← hplace]
  cases hs : scan ⟨next, 0, false, 0 + data.length⟩ rest with
  | error fault =>
    simp only [Except.map, reduceCtorEq, false_iff]
    rintro ⟨-, hcount⟩
    exact absurd (hs.symm.trans ((hend []).mpr ⟨rfl, hcount⟩)) (by simp)
  | ok tail =>
    obtain ⟨rfl, hcount⟩ := (hend tail).mp hs
    simp only [Except.map, List.append_nil, Except.ok.injEq]
    exact ⟨fun h => ⟨h.symm, hcount⟩, fun h => h.1.symm⟩

theorem closes_iff {length count : Nat} :
    Closes length count ↔ Ends (length % 4) 0 count ∧ (length = 0 → count = 0) := by
  simp only [Closes, Ends]
  omega

/-- Every text is a run of alphabet characters and a rest that starts with none. -/
theorem exists_data_append (text : Bytes) :
    ∃ data rest, text = data ++ rest ∧ (∀ c ∈ data, c ∈ alphabet) ∧
      ∀ c ∈ rest.head?, c ∉ alphabet := by
  refine ⟨text.takeWhile (· ∈ alphabet), text.dropWhile (· ∈ alphabet),
    List.takeWhile_append_dropWhile.symm, ?_, ?_⟩
  · intro c hc
    have hall := List.all_eq_true.mp (List.all_takeWhile (l := text) (p := (· ∈ alphabet))) c hc
    simpa using hall
  · intro c hc
    have hhead := List.head?_dropWhile_not (· ∈ alphabet) text
    rw [Option.mem_def.mp hc] at hhead
    simpa using hhead

/-- **Decoding accepts exactly the texts that denote octets**, and gives those octets. -/
theorem decode_eq_ok_iff {text octets : Bytes} :
    decode text = .ok octets ↔ Denotes text octets := by
  constructor
  · intro h
    -- Padding in front is refused at once, so none can follow an empty run.
    have hhead : text.head? ≠ some padding := fun hp => by simp [decode, hp] at h
    rw [decode, if_neg hhead] at h
    obtain ⟨data, rest, rfl, hdata, hrest⟩ := exists_data_append text
    obtain ⟨hoctets, count, rfl, hends⟩ := (scan_data_eq_ok_iff hdata hrest).mp h
    refine ⟨data, count, rfl, hdata, closes_iff.mpr ⟨hends, ?_⟩, hoctets⟩
    intro hempty
    rw [List.length_eq_zero_iff.mp hempty, List.nil_append, List.head?_replicate] at hhead
    exact Decidable.byContradiction fun hcount => hhead (if_neg hcount)
  · rintro ⟨data, count, rfl, hdata, hcloses, rfl⟩
    obtain ⟨hends, hzero⟩ := closes_iff.mp hcloses
    have hhead : (data ++ List.replicate count padding).head? ≠ some padding := by
      cases data with
      | nil => simp [hzero rfl]
      | cons c data =>
        intro h
        exact padding_notMem_alphabet (Option.some.inj h ▸ hdata c List.mem_cons_self)
    have hrest : ∀ c ∈ (List.replicate count padding).head?, c ∉ alphabet := by
      intro c hc
      rw [List.eq_of_mem_replicate (List.mem_of_head? hc)]
      exact padding_notMem_alphabet
    rw [decode, if_neg hhead, scan_data_eq_ok_iff hdata hrest]
    exact ⟨rfl, count, rfl, hends⟩

/-! ### Encoding -/

theorem toNat_lt_of_testBit {value : UInt8} (h6 : value.toNat.testBit 6 = false)
    (h7 : value.toNat.testBit 7 = false) : value.toNat < 64 := by
  refine Nat.lt_pow_two_of_testBit (n := 6) value.toNat fun place h => ?_
  obtain rfl | rfl | hfar : place = 6 ∨ place = 7 ∨ 8 ≤ place := by omega
  · exact h6
  · exact h7
  · exact testBit_octet value hfar

-- The four values of a group, by the bits they take from its octets: six; two and four; four and
-- two; six.
theorem first_lt (a : UInt8) : (a >>> 2).toNat < 64 := by
  apply toNat_lt_of_testBit <;> simp [testBit_octet]

theorem second_lt (a b : UInt8) : ((a &&& 3) <<< 4 ||| b >>> 4).toNat < 64 := by
  apply toNat_lt_of_testBit <;> simp [testBit_octet, testBit_mod_256, testBit_mask2]

theorem third_lt (b c : UInt8) : ((b &&& 15) <<< 2 ||| c >>> 6).toNat < 64 := by
  apply toNat_lt_of_testBit <;> simp [testBit_octet, testBit_mod_256, testBit_mask4]

theorem fourth_lt (c : UInt8) : (c &&& 63).toNat < 64 := by
  apply toNat_lt_of_testBit <;> simp [testBit_mask6]

/-- Three octets, or what is left of them at the end, give four characters. -/
theorem length_encode (raw : Bytes) : (encode raw).length = 4 * ((raw.length + 2) / 3) := by
  fun_induction encode raw with
  | case1 => rfl
  | case2 a => simp
  | case3 a b => simp
  | case4 a b c rest ih =>
    simp only [List.length_cons, ih]
    omega

/-- An encoded text is the characters of some values and the padding that closes them. The bits of
the values are those of the octets, with zeros to fill up the last value. -/
theorem exists_encode_eq (raw : Bytes) :
    ∃ (values : Bytes) (count : Nat) (short : List Bool),
      encode raw = values.map character ++ List.replicate count padding ∧
      (∀ value ∈ values, value.toNat < 64) ∧ Closes values.length count ∧
      values.flatMap (fun value => lowBits 6 value.toNat) = bits raw ++ short ∧
      short.length < 8 := by
  fun_induction encode raw with
  | case1 => exact ⟨[], 0, [], rfl, by simp, Or.inl ⟨rfl, Or.inl rfl⟩, rfl, by decide⟩
  | case2 a =>
    have hs : ((a &&& 3) <<< 4).toNat < 64 := by simpa using second_lt a 0
    refine ⟨[a >>> 2, (a &&& 3) <<< 4], 2, lowBits 4 0, rfl, ?_, Or.inr (Or.inl ⟨rfl, rfl⟩), ?_,
      by decide⟩
    · simp only [List.forall_mem_cons]
      exact ⟨first_lt a, hs, by simp⟩
    · simp [bits, lowBits, testBit_mod_256, testBit_mask2]
  | case3 a b =>
    have hs : ((b &&& 15) <<< 2).toNat < 64 := by simpa using third_lt b 0
    refine ⟨[a >>> 2, (a &&& 3) <<< 4 ||| b >>> 4, (b &&& 15) <<< 2], 1, lowBits 2 0, rfl, ?_,
      Or.inr (Or.inr ⟨rfl, rfl⟩), ?_, by decide⟩
    · simp only [List.forall_mem_cons]
      exact ⟨first_lt a, second_lt a b, hs, by simp⟩
    · simp [bits, lowBits, testBit_mod_256, testBit_octet, testBit_mask2, testBit_mask4]
  | case4 a b c rest ih =>
    obtain ⟨values, count, short, hencode, hvalues, hcloses, hbits, hshort⟩ := ih
    refine ⟨[a >>> 2, (a &&& 3) <<< 4 ||| b >>> 4, (b &&& 15) <<< 2 ||| c >>> 6, c &&& 63] ++
      values, count, short, ?_, ?_, ?_, ?_, hshort⟩
    · rw [hencode]
      rfl
    · simp only [List.cons_append, List.nil_append, List.forall_mem_cons]
      exact ⟨first_lt a, second_lt a b, third_lt b c, fourth_lt c, hvalues⟩
    · simp only [Closes, List.length_append, List.length_cons, List.length_nil] at hcloses ⊢
      omega
    · rw [List.flatMap_append, hbits]
      simp [bits, lowBits, testBit_mod_256, testBit_octet, testBit_mask2, testBit_mask4,
        testBit_mask6]

/-- **Decoding undoes encoding.** -/
theorem decode_encode (raw : Bytes) : decode (encode raw) = .ok raw := by
  obtain ⟨values, count, short, hencode, hvalues, hcloses, hbits, hshort⟩ := exists_encode_eq raw
  refine decode_eq_ok_iff.mpr ⟨values.map character, count, hencode, ?_, ?_, ?_⟩
  · intro c hc
    obtain ⟨value, hvalue, rfl⟩ := List.mem_map.mp hc
    exact character_mem_alphabet (hvalues value hvalue)
  · rw [List.length_map]
    exact hcloses
  · have hsextets : (values.map character).flatMap sextet =
        values.flatMap fun value => lowBits 6 value.toNat := by
      rw [List.flatMap_map, List.flatMap_def, List.flatMap_def]
      exact congrArg List.flatten (List.map_congr_left fun value hvalue =>
        sextet_character (hvalues value hvalue))
    rw [hsextets, hbits, ofBits_bits_append, ofBits_short hshort, List.append_nil]

end PasswordVault.Base64
