import PasswordVault.Padding

/-!
# Padding comes off exactly

Removing padding gives the text that the zeros were added to, and accepts nothing else.

## Main definitions

- `Padding.blocks` — how many blocks a text takes up
- `Padding.Removes` — the ways in which removing padding ends
- `Padding.retrim` — what is left of a padded text when another number of zeros is taken off

`Padding.removes_removeFrom` says how removing ends, `Padding.remove_eq_ok_iff` what is accepted,
`Padding.remove_add` that padding which was added comes off again, `Padding.add_of_remove` that
padding which came off is added again, and `Padding.remove_add_eq_retrim` what comes of a wrong
number of zeros. `Padding.addTo_removeFrom_exact` states it for arguments.
-/

namespace PasswordVault.Padding

/-- At most fifteen zeros are needed, and they complete the last block. -/
theorem needed_spec (length : Int) :
    0 ≤ needed length ∧ needed length ≤ maxLength ∧ (length + needed length) % 16 = 0 := by
  have hblock : (blockLength : Int) = 16 := rfl
  have hmax : (maxLength : Int) = 15 := rfl
  rw [needed, hmax]
  by_cases h : length % blockLength = 0
  · rw [if_pos h]
    rw [hblock] at h
    omega
  · rw [if_neg h, hblock]
    rw [hblock] at h
    omega

/-- No other number of fewer than sixteen zeros completes the last block. -/
theorem eq_needed {length count : Int} (hlow : 0 ≤ count) (hhigh : count ≤ maxLength)
    (h : (length + count) % 16 = 0) : count = needed length := by
  obtain ⟨hneededLow, hneededHigh, hneeded⟩ := needed_spec length
  have hmax : (maxLength : Int) = 15 := rfl
  rw [hmax] at hhigh hneededHigh
  omega

/-- No smaller number of zeros completes the last block. -/
theorem needed_le {length count : Int} (hcount : 0 ≤ count) (h : (length + count) % 16 = 0) :
    needed length ≤ count := by
  obtain ⟨hlow, hhigh, hneeded⟩ := needed_spec length
  have hmax : (maxLength : Int) = 15 := rfl
  omega

/-- As many zeros are added as complete the last block. -/
theorem add_spec (content : Bytes) :
    (add content).2 ≤ maxLength ∧ (content.length + (add content).2) % 16 = 0 := by
  obtain ⟨hlow, hhigh, hneeded⟩ := needed_spec content.length
  have hcount : ((add content).2 : Int) = needed content.length := Int.toNat_of_nonneg hlow
  exact ⟨by omega, by omega⟩

theorem length_fst_add (content : Bytes) :
    (add content).1.length = content.length + (add content).2 := by
  show (content ++ Bytes.zeros (add content).2).length = _
  rw [List.length_append, Bytes.length_zeros]

/-- How many blocks a text of some length takes up: its sixteenth part, rounded up. -/
def blocks (length : Nat) : Nat :=
  (length + 15) / 16

/-- The blocks have room for the text, and one block less would not. -/
theorem blocks_spec (length : Nat) :
    length ≤ 16 * blocks length ∧ 16 * blocks length < length + 16 := by
  rw [blocks]
  exact ⟨by omega, by omega⟩

/-- A padded text fills the blocks that it takes up. -/
theorem length_fst_add_eq_blocks (content : Bytes) :
    (add content).1.length = 16 * blocks content.length := by
  obtain ⟨hhigh, hmultiple⟩ := add_spec content
  obtain ⟨hroom, hleast⟩ := blocks_spec content.length
  have hmax : maxLength = 15 := rfl
  rw [length_fst_add]
  omega

/-! ### What comes off -/

/-- How removing padding from octets ends, given a number of zeros and the value that it was handed
in as, which failures show. -/
inductive Removes (content : Bytes) (count : Int) (given : Argument) : Except Failure Bytes → Prop
  | outOfRange {shown : String} (h : count < 0 ∨ 15 < count) (hshort : count.natAbs < Numeral.limit)
    (hshown : given.shown = .ok shown) :
    Removes content count given (.error (.padding (.outOfRange shown)))
  /-- The number is out of range, and has too many digits for a failure to show it. -/
  | unshown (h : count < 0 ∨ 15 < count) (hlong : Numeral.limit ≤ count.natAbs) :
    Removes content count given (.error (.field .numberTooLong))
  | tooLong {shown : String} (hrange : 0 ≤ count ∧ count ≤ 15) (h : content.length < count)
    (hshown : given.shown = .ok shown) :
    Removes content count given (.error (.padding (.tooLong shown content.length)))
  | nonZero {shown : String} (hrange : 0 ≤ count ∧ count ≤ 15) (hlong : count ≤ content.length)
    (h : ∃ octet ∈ content.drop (content.length - count.toNat), octet ≠ 0)
    (hshown : given.shown = .ok shown) :
    Removes content count given (.error (.padding (.nonZero shown)))
  | text {text : Bytes} (hrange : 0 ≤ count ∧ count ≤ 15)
    (h : content = text ++ Bytes.zeros count.toNat) : Removes content count given (.ok text)

variable {content text : Bytes} {count : Int} {given : Argument} {outcome : Except Failure Bytes}

/-- A number in the range of padding lengths has few digits. -/
theorem lt_limit_of_range (hrange : 0 ≤ count ∧ count ≤ 15) : count.natAbs < Numeral.limit := by
  have htwo : count.natAbs < 10 ^ 2 := by omega
  exact Numeral.lt_limit 2 htwo (by decide)

/-- What is left is the text before the zeros, and what is refused does not end in so many. -/
theorem Removes.eq_ok_iff (h : Removes content count given outcome) :
    outcome = .ok text ↔ (0 ≤ count ∧ count ≤ 15) ∧ content = text ++ Bytes.zeros count.toNat := by
  cases h with
  | outOfRange h | unshown h =>
    refine iff_of_false (by simp) ?_
    rintro ⟨hrange, -⟩
    omega
  | tooLong _ h =>
    refine iff_of_false (by simp) ?_
    rintro ⟨hrange, rfl⟩
    rw [List.length_append, Bytes.length_zeros] at h
    omega
  | nonZero _ _ h =>
    refine iff_of_false (by simp) ?_
    rintro ⟨hrange, rfl⟩
    obtain ⟨octet, hoctet, hne⟩ := h
    rw [List.length_append, Bytes.length_zeros, Nat.add_sub_cancel, List.drop_left] at hoctet
    exact hne (List.eq_of_mem_replicate hoctet)
  | text hrange h =>
    rw [Except.ok.injEq, h, List.append_cancel_right_eq]
    exact (and_iff_right hrange).symm

/-- Whatever is refused is refused for its padding, as long as the number can be shown. -/
theorem Removes.eq_error_iff (h : Removes content count given outcome) :
    (∃ error, outcome = .error (.padding error)) ↔
      count.natAbs < Numeral.limit ∧ ∀ text, outcome ≠ .ok text := by
  cases h with
  | outOfRange _ hshort => exact iff_of_true ⟨_, rfl⟩ ⟨hshort, by simp⟩
  | unshown _ hlong => exact iff_of_false (by simp) fun h => Nat.not_lt.mpr hlong h.1
  | tooLong hrange | nonZero hrange =>
    exact iff_of_true ⟨_, rfl⟩ ⟨lt_limit_of_range hrange, by simp⟩
  | text => exact iff_of_false (by simp) (by simp)

/-- A number that cannot be shown is refused for that alone. -/
theorem Removes.eq_numberTooLong_iff (h : Removes content count given outcome) :
    outcome = .error (.field .numberTooLong) ↔ Numeral.limit ≤ count.natAbs := by
  cases h with
  | outOfRange _ hshort => exact iff_of_false (by simp) (Nat.not_le.mpr hshort)
  | unshown _ hlong => exact iff_of_true rfl hlong
  | tooLong hrange | nonZero hrange | text hrange =>
    exact iff_of_false (by simp) (Nat.not_le.mpr (lt_limit_of_range hrange))

theorem removes_removeZeros {shown : String} (hrange : 0 ≤ count ∧ count ≤ 15)
    (hlong : count ≤ content.length) (hshown : given.shown = .ok shown) :
    Removes content count given (removeZeros given content count.toNat) := by
  rw [removeZeros, Argument.showing_of_ok hshown]
  by_cases hzeros : ∀ octet ∈ content.drop (content.length - count.toNat), octet = 0
  · have hpadding : content.drop (content.length - count.toNat) = Bytes.zeros count.toNat := by
      refine List.eq_replicate_iff.mpr ⟨?_, hzeros⟩
      rw [List.length_drop]
      omega
    rw [if_pos (List.all_eq_true.mpr fun octet h => beq_iff_eq.mpr (hzeros octet h))]
    refine .text hrange ?_
    rw [← hpadding, List.take_append_drop]
  · rw [if_neg fun h => hzeros fun octet ho => beq_iff_eq.mp (List.all_eq_true.mp h octet ho)]
    refine .nonZero hrange hlong ?_ hshown
    simpa using hzeros

/-- A number out of range is refused as such if it can be shown, and else because it cannot. -/
theorem removes_outOfRange (h : given.asInteger? = some count) (hrange : count < 0 ∨ 15 < count) :
    Removes content count given
      (.error (given.showing fun shown => .padding (.outOfRange shown))) := by
  by_cases hshort : count.natAbs < Numeral.limit
  · obtain ⟨shown, hshown⟩ := Argument.exists_shown_of_lt h hshort
    rw [Argument.showing_of_ok hshown]
    exact .outOfRange hrange hshort hshown
  · have hlong := Nat.le_of_not_lt hshort
    rw [Argument.showing, Argument.shown_of_limit_le h hlong]
    exact .unshown hrange hlong

/-- **How removing padding ends** for octets of any form and whatever counts as a whole number. -/
theorem removes_removeFrom {value : Argument} (h : value.asInteger? = some count) (form : Form)
    (content : Bytes) :
    Removes content count value (removeFrom (.octets form content) value) := by
  have hmax : (maxLength : Int) = 15 := rfl
  rw [removeFrom, Argument.isWithin_of_asInteger? h, hmax]
  by_cases hrange : 0 ≤ count ∧ count ≤ 15
  · have hfits : (decide (0 ≤ count) && decide (count ≤ 15)) = true := by simpa using hrange
    obtain ⟨shown, hshown⟩ := Argument.exists_shown_of_lt h (lt_limit_of_range hrange)
    by_cases hlong : count ≤ content.length
    · have hshort : value.isWithin 0 content.length = .ok true := by
        rw [Argument.isWithin_of_asInteger? h]
        simpa using ⟨hrange.1, hlong⟩
      simpa [bind, Except.bind, hfits, Argument.length, hshort, Argument.viewable,
        Argument.bound_of_asInteger? h] using removes_removeZeros hrange hlong hshown
    · have hrefused : value.isWithin 0 content.length = .ok false := by
        rw [Argument.isWithin_of_asInteger? h]
        simpa using fun _ => Int.not_le.mp hlong
      simpa [bind, Except.bind, throw, throwThe, MonadExceptOf.throw, hfits, Argument.length,
        hrefused, Argument.showing_of_ok hshown] using
        Removes.tooLong hrange (Int.not_le.mp hlong) hshown
  · have hrefused : (decide (0 ≤ count) && decide (count ≤ 15)) = false := by simpa using hrange
    simpa [bind, Except.bind, throw, throwThe, MonadExceptOf.throw, hrefused] using
      removes_outOfRange h (by omega)

theorem removes_remove (content : Bytes) (count : Int) :
    Removes content count (.integer count) (remove content count) := by
  rw [← removeFrom_octets_integer .buffer]
  exact removes_removeFrom rfl .buffer content

/-- **Removing padding** accepts a text followed by at most fifteen zeros, their number given. -/
theorem remove_eq_ok_iff :
    remove content count = .ok text ↔
      (0 ≤ count ∧ count ≤ maxLength) ∧ content = text ++ Bytes.zeros count.toNat :=
  (removes_remove content count).eq_ok_iff

/-- **Padding that was added comes off again.** -/
theorem remove_add (content : Bytes) : remove (add content).1 (add content).2 = .ok content := by
  obtain ⟨hhigh, -⟩ := add_spec content
  exact remove_eq_ok_iff.mpr ⟨⟨Int.natCast_nonneg _, Int.ofNat_le.mpr hhigh⟩, rfl⟩

/-- What is refused for a padding length that was stored is refused for its padding. -/
theorem remove_ok_or_error (content : Bytes) (hrange : 0 ≤ count ∧ count ≤ 15) :
    (∃ text, remove content count = .ok text) ∨
      ∃ error, remove content count = .error (.padding error) := by
  by_cases hok : ∃ text, remove content count = .ok text
  · exact Or.inl hok
  · exact Or.inr ((removes_remove content count).eq_error_iff.mpr
      ⟨lt_limit_of_range hrange, not_exists.mp hok⟩)

/-! ### Adding what came off -/

theorem add_of_remove (hblocks : content.length % 16 = 0) (h : remove content count = .ok text) :
    add text = (content, count.toNat) := by
  obtain ⟨⟨hlow, hhigh⟩, rfl⟩ := remove_eq_ok_iff.mp h
  rw [List.length_append, Bytes.length_zeros] at hblocks
  have hneeded : count = needed text.length := eq_needed hlow hhigh (by omega)
  rw [add, ← hneeded]

/-- Whole blocks that padding comes off are more than padding. -/
theorem ne_nil_of_remove (hblocks : content.length % 16 = 0) (hne : content ≠ [])
    (h : remove content count = .ok text) : text ≠ [] := by
  rintro rfl
  obtain ⟨⟨hlow, hhigh⟩, rfl⟩ := remove_eq_ok_iff.mp h
  have hmax : (maxLength : Int) = 15 := rfl
  rw [List.nil_append, Bytes.length_zeros] at hblocks
  rw [hmax] at hhigh
  have hzero : count.toNat = 0 := by omega
  rw [hzero] at hne
  exact hne rfl

/-! ### Taking off another number -/

/-- What is left of a text to which some zeros were added when another number of them is taken off:
a smaller number leaves zeros, and a greater one takes the last octets of the text, if these are
zeros too. -/
def retrim (text : Bytes) (added taken : Nat) : Except Failure Bytes :=
  let kept := text.length - (taken - added)
  if taken ≤ added then .ok (text ++ Bytes.zeros (added - taken))
  else if text.drop kept = Bytes.zeros (taken - added) then .ok (text.take kept)
  else .error (.padding (.nonZero (toString taken)))

theorem zeros_append (m n : Nat) : Bytes.zeros m ++ Bytes.zeros n = Bytes.zeros (m + n) :=
  List.replicate_append_replicate

theorem remove_eq_nonZero {content : Bytes} {count : Nat} (hrange : count ≤ maxLength)
    (hlong : count ≤ content.length) (h : ∀ text, remove content count ≠ .ok text) :
    remove content count = .error (.padding (.nonZero (toString count))) := by
  have hmax : maxLength = 15 := rfl
  have hshown : (Argument.integer count).shown = .ok (toString count) :=
    Argument.shown_integer (lt_limit_of_range (by omega))
  have hends := removes_remove content count
  generalize remove content count = outcome at h hends ⊢
  cases hends with
  | outOfRange | unshown | tooLong => omega
  | nonZero _ _ _ hgiven =>
    obtain rfl := Except.ok.inj (hgiven.symm.trans hshown)
    rfl
  | text => exact absurd rfl (h _)

/-- A text that is not empty fills a block once it is padded. -/
theorem sixteen_le_length_add {text : Bytes} (h : text ≠ []) :
    16 ≤ text.length + (add text).2 := by
  obtain ⟨-, hblocks⟩ := add_spec text
  have hpositive : 0 < text.length := List.length_pos_iff.mpr h
  omega

/-- **A wrong number of zeros** taken off a padded text shows only when it takes an octet of the
text that is not zero. -/
theorem remove_add_eq_retrim {text : Bytes} {taken : Nat} (hne : text ≠ [])
    (htaken : taken ≤ maxLength) :
    remove (add text).1 taken = retrim text (add text).2 taken := by
  have hblock := sixteen_le_length_add hne
  have hmax : maxLength = 15 := rfl
  have hrange : 0 ≤ (taken : Int) ∧ (taken : Int) ≤ maxLength := by omega
  have hadd : (add text).1 = text ++ Bytes.zeros (add text).2 := rfl
  rw [hadd, retrim]
  generalize (add text).2 = added at hblock ⊢
  by_cases hfew : taken ≤ added
  · rw [if_pos hfew]
    refine remove_eq_ok_iff.mpr ⟨hrange, ?_⟩
    rw [List.append_assoc, Int.toNat_natCast, zeros_append, Nat.sub_add_cancel hfew]
  -- The zeros taken off are the ones that were added and others before them.
  have hsplit : Bytes.zeros taken = Bytes.zeros (taken - added) ++ Bytes.zeros added := by
    rw [zeros_append, Nat.sub_add_cancel (Nat.le_of_not_le hfew)]
  rw [if_neg hfew]
  by_cases hzeros : text.drop (text.length - (taken - added)) = Bytes.zeros (taken - added)
  · rw [if_pos hzeros]
    refine remove_eq_ok_iff.mpr ⟨hrange, ?_⟩
    rw [Int.toNat_natCast, hsplit, ← List.append_assoc, ← hzeros, List.take_append_drop]
  · rw [if_neg hzeros]
    refine remove_eq_nonZero htaken ?_ ?_
    · rw [List.length_append, Bytes.length_zeros]
      omega
    · intro kept hkept
      have hsame := (remove_eq_ok_iff.mp hkept).2
      rw [Int.toNat_natCast, hsplit, ← List.append_assoc] at hsame
      have htext : text = kept ++ Bytes.zeros (taken - added) := List.append_cancel_right hsame
      refine hzeros ?_
      rw [htext, List.length_append, Bytes.length_zeros, Nat.add_sub_cancel, List.drop_left]

/-! ### Arguments -/

/-- **Adding and removing padding are exact**, for octets of any form. They are padded with the
least number of zeros that makes their length a multiple of sixteen, which is at most fifteen and is
what is needed for that length, and come back when so many are removed. Removing any whole number of
zeros gives a text exactly if the number is from 0 to 15 and the octets are the text and so many
zeros; a number out of this range, a number that exceeds the length and an octet that is not zero
are refused as such, as long as the number has at most 4300 digits. One with more digits is refused
as a value that cannot be shown. Whole blocks from which padding was removed are padded to
themselves again. -/
theorem addTo_removeFrom_exact (form : Form) (d : Bytes) :
    (∃ n : Nat, addTo (.octets form d) = .ok (d ++ Bytes.zeros n, n) ∧ n ≤ 15 ∧
      (d.length + n) % 16 = 0 ∧ (∀ m, (d.length + m) % 16 = 0 → n ≤ m) ∧
      neededFor (.integer d.length) = .ok (.integer n) ∧
      ∀ form', removeFrom (.octets form' (d ++ Bytes.zeros n)) (.integer n) = .ok d) ∧
    ∀ (value : Argument) (n : Int), value.asInteger? = some n →
      Removes d n value (removeFrom (.octets form d) value) ∧
      (∀ p, removeFrom (.octets form d) value = .ok p ↔
        (0 ≤ n ∧ n ≤ 15) ∧ d = p ++ Bytes.zeros n.toNat) ∧
      ((∃ error, removeFrom (.octets form d) value = .error (.padding error)) ↔
        n.natAbs < Numeral.limit ∧ ∀ p, ¬((0 ≤ n ∧ n ≤ 15) ∧ d = p ++ Bytes.zeros n.toNat)) ∧
      (removeFrom (.octets form d) value = .error (.field .numberTooLong) ↔
        Numeral.limit ≤ n.natAbs) ∧
      ∀ p, d.length % 16 = 0 → removeFrom (.octets form d) value = .ok p →
        ∀ form', ∃ zeros : Nat, n = zeros ∧ addTo (.octets form' p) = .ok (d, zeros) := by
  refine ⟨?_, ?_⟩
  · obtain ⟨hlow, hhigh, hneeded⟩ := needed_spec d.length
    have hmax : (maxLength : Int) = 15 := rfl
    have hcount : ((add d).2 : Int) = needed d.length := Int.toNat_of_nonneg hlow
    refine ⟨(add d).2, rfl, by omega, by omega, ?_, ?_, ?_⟩
    · intro m hm
      have hleast := @needed_le d.length m (by omega) (by omega)
      omega
    · rw [hcount]
      rfl
    · intro form'
      rw [removeFrom_octets_integer]
      exact remove_add d
  · intro value n h
    have hends := removes_removeFrom h form d
    refine ⟨hends, fun _ => hends.eq_ok_iff, ?_, hends.eq_numberTooLong_iff, ?_⟩
    · rw [hends.eq_error_iff]
      exact and_congr_right fun _ => forall_congr' fun _ => not_congr hends.eq_ok_iff
    · intro p hblocks hremoved form'
      have hexact := hends.eq_ok_iff.mp hremoved
      have hadd := add_of_remove hblocks (remove_eq_ok_iff.mpr hexact)
      exact ⟨n.toNat, (Int.toNat_of_nonneg hexact.1.1).symm, congrArg Except.ok hadd⟩

/-- Three of fifteen zeros come off a block and are added to it again. A flag counts as one zero,
and an octet that is none in its place is refused. -/
theorem addTo_removeFrom_exact_block :
    removeFrom (.octets .buffer ([104] ++ Bytes.zeros 15)) (.integer 3) =
        .ok ([104] ++ Bytes.zeros 12) ∧
      addTo (.octets .view ([104] ++ Bytes.zeros 12)) = .ok ([104] ++ Bytes.zeros 15, 3) ∧
      ∃ error, removeFrom (.octets .constant (Bytes.zeros 15 ++ [1])) (.flag true) =
        .error (.padding error) := by
  obtain ⟨-, hblock⟩ := addTo_removeFrom_exact .buffer ([104] ++ Bytes.zeros 15)
  obtain ⟨-, hended⟩ := addTo_removeFrom_exact .constant (Bytes.zeros 15 ++ [1])
  obtain ⟨-, hthree, -, -, hadd⟩ := hblock (.integer 3) 3 rfl
  obtain ⟨-, -, hrefused, -, -⟩ := hended (.flag true) 1 rfl
  have hremoved := (hthree ([104] ++ Bytes.zeros 12)).mpr ⟨by decide, rfl⟩
  obtain ⟨zeros, hzeros, hadded⟩ := hadd _ rfl hremoved .view
  obtain rfl : 3 = zeros := Int.ofNat.inj hzeros
  refine ⟨hremoved, hadded, hrefused.mpr ⟨lt_limit_of_range (by decide), ?_⟩⟩
  rintro p ⟨-, hp⟩
  -- The last octet of the one is 1, and of the other 0.
  exact absurd (congrArg List.getLast? hp) (by simp [Bytes.zeros])

/-- **A padding length of 4301 digits** is out of range, of either sign, and is not refused for
that: the failure cannot show it, and is that of an unusable value. -/
theorem unshown_length_not_padding :
    removeFrom (.octets .constant []) (.integer Numeral.limit) =
        .error (.field .numberTooLong) ∧
      removeFrom (.octets .constant []) (.integer (-Numeral.limit)) =
        .error (.field .numberTooLong) ∧
      (Failure.field .numberTooLong).category = .invalidValue ∧
      ¬∃ error, removeFrom (.octets .constant []) (.integer Numeral.limit) =
        .error (.padding error) := by
  have hpositive := @removes_removeFrom _ (.integer Numeral.limit) rfl .constant []
  have hnegative := @removes_removeFrom _ (.integer (-Numeral.limit)) rfl .constant []
  have hlimit : Numeral.limit ≤ (Numeral.limit : Int).natAbs := Nat.le_of_eq rfl
  have hlong := hpositive.eq_numberTooLong_iff.mpr hlimit
  refine ⟨hlong, hnegative.eq_numberTooLong_iff.mpr ?_, rfl, ?_⟩
  · rwa [Int.natAbs_neg]
  · rintro ⟨error, herror⟩
    cases hlong.symm.trans herror

end PasswordVault.Padding
