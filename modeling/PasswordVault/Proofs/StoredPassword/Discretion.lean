import PasswordVault.Proofs.StoredPassword.Dialogues
import PasswordVault.Proofs.Suite.Discretion
import PasswordVault.Proofs.Text.Coding
import PasswordVault.TextPassword

/-!
# Failures do not give secrets away

Two runs of an operation that agree in all but the content of the passphrase, of the clear text and
of the key fail with the same text, if they fail with the same category and it is not a coding that
failed. The suites have to answer alike, and so have the encodings that a platform adds.

## Main definitions

- `Credential.Alike` — passphrases or keys that agree but for their content
- `StoredPassword.Closing` — what is made of a clear text after it was unlocked
- `Codecs.Discreet` — encodings of a platform that fail alike for octets of one length

`StoredPassword.operations_discreet` is the result for all operations with a passphrase or a key.
-/

namespace PasswordVault

open Suite (Call)

section Outcomes

variable {α β : Type}

theorem discreet_of_category {f g : Failure} (h : f.category ≠ g.category) :
    Discreet (.error f : Except Failure α) (.error g : Except Failure β) :=
  discreet_error fun hcategory => absurd hcategory h

/-- An outcome is not the failure of a suite that does not trust a ciphertext. -/
def Unsuspecting (outcome : Except Failure α) : Prop :=
  ∀ failure, outcome = .error failure → ¬failure.IsDistrust

theorem unsuspecting_ok (value : α) : Unsuspecting (.ok value) := by
  intro failure h
  cases h

theorem unsuspecting_error {failure : Failure} (h : ¬failure.IsDistrust) :
    Unsuspecting (.error failure : Except Failure α) := by
  rintro _ ⟨⟩
  exact h

theorem unsuspecting_argument (error : ArgumentError) :
    Unsuspecting (.error (.argument error) : Except Failure α) := by
  refine unsuspecting_error ?_
  rintro (h | h) <;> cases error <;> cases h

theorem unsuspecting_padding (error : PaddingError) :
    Unsuspecting (.error (.padding error) : Except Failure α) := by
  refine unsuspecting_error ?_
  rintro (h | h) <;> cases h

theorem Unsuspecting.bind {first : Except Failure α} {next : α → Except Failure β}
    (h : Unsuspecting first) (hnext : ∀ value, Unsuspecting (next value)) :
    Unsuspecting (first >>= next) := by
  cases first with
  | ok value => exact hnext value
  | error failure => exact unsuspecting_error (h failure rfl)

theorem Unsuspecting.discreet {outcome : Except Failure α} {g : Failure} (h : Unsuspecting outcome)
    (hg : g.IsDistrust) : Discreet outcome (.error g : Except Failure β) := by
  rintro f _ hf ⟨⟩ hcategory -
  refine absurd ?_ (h f hf)
  rw [Failure.IsDistrust, hcategory]
  exact hg

end Outcomes

namespace Utf8

/-- Only the empty text is written without octets. -/
theorem isEmpty_flatMap (t : Text) : (t.flatMap encodePoint).isEmpty = t.isEmpty := by
  cases t with
  | nil => rfl
  | cons c rest =>
    have hpoint : encodePoint c ≠ [] := by
      rw [encodePoint]
      split
      · exact List.cons_ne_nil _ _
      split
      · exact List.cons_ne_nil _ _
      split
      · exact List.cons_ne_nil _ _
      · exact List.cons_ne_nil _ _
    refine List.isEmpty_eq_false_iff.mpr ?_
    rw [List.flatMap_cons]
    exact List.append_ne_nil_of_left_ne_nil hpoint _

end Utf8

namespace Argument

theorem isEmpty_eq_of_length {α β : Type} {items : List α} {others : List β}
    (h : items.length = others.length) : items.isEmpty = others.isEmpty := by
  cases items <;> cases others <;> first | rfl | cases h

theorem Alike.typeName_eq {a b : Argument} (h : a.Alike b) : a.typeName = b.typeName := by
  cases h with
  | text h => rfl
  | octets form h => cases form <;> rfl
  | other ha hb htype hlength => exact htype

/-- Text has octets, or it cannot be encoded. -/
theorem secretOctets_text (role : Role) (t : Text) :
    (∃ failure, secretOctets role (.text t) = .error failure ∧ failure.IsCoding) ∨
      ∃ octets, secretOctets role (.text t) = .ok octets ∧ octets.isEmpty = t.isEmpty := by
  rw [secretOctets]
  cases hencode : Utf8.encode t with
  | error error => exact Or.inl ⟨_, rfl, rfl⟩
  | ok octets =>
    obtain ⟨-, rfl⟩ := Utf8.encode_eq_ok_iff.mp hencode
    exact Or.inr ⟨_, rfl, Utf8.isEmpty_flatMap t⟩

theorem secretOctets_of_isOther {value : Argument} (h : value.IsOther) (role : Role) :
    secretOctets role value = .error (.argument (.unsupported role value.typeName)) := by
  cases value with
  | text content => exact h.elim
  | octets form content => exact h.elim
  | _ => rfl

end Argument

namespace Dialogue

variable {α β : Type}

theorem discreet_done_bind (first : Except Failure β) {more more' : β → Dialogue α}
    (h : ∀ value, first = .ok value → (more value).Discreet (more' value)) :
    (done first >>= more).Discreet (done first >>= more') := by
  cases first with
  | error failure => exact .done (discreet_error (Failure.discreet_self failure))
  | ok value => exact h value rfl

/-- Secrets that agree but for their content are octets of which none or both are empty. -/
theorem discreet_secret_bind {a b : Argument} (h : a.Alike b) (role : Role)
    {more more' : Bytes → Dialogue α}
    (hmore : ∀ octets octets' : Bytes, octets.isEmpty = octets'.isEmpty →
      (more octets).Discreet (more' octets')) :
    (done (a.secretOctets role) >>= more).Discreet (done (b.secretOctets role) >>= more') := by
  cases h with
  | octets form h => exact hmore _ _ (Argument.isEmpty_eq_of_length h)
  | @text t t' h =>
    rcases Argument.secretOctets_text role t with
      ⟨failure, hleft, hcoding⟩ | ⟨octets, hleft, hempty⟩
    · rw [hleft]
      exact .codingLeft hcoding _
    rcases Argument.secretOctets_text role t' with
      ⟨failure, hright, hcoding⟩ | ⟨octets', hright, hempty'⟩
    · rw [hright]
      exact .codingRight hcoding _
    rw [hleft, hright]
    exact hmore octets octets'
      (hempty.trans ((Argument.isEmpty_eq_of_length h).trans hempty'.symm))
  | other ha hb htype hlength =>
    rw [Argument.secretOctets_of_isOther ha, Argument.secretOctets_of_isOther hb, htype]
    exact .done (discreet_error (Failure.discreet_self _))

end Dialogue

namespace SecretKey

variable {α : Type} {passphrase passphrase' : Argument}

/-- Keys that are derived from such passphrases agree but for their content. -/
theorem discreet_derivation_bind (settings : Settings) (keyId salt iterations : Argument)
    (h : passphrase.Alike passphrase') {more more' : Ingredients → Dialogue α}
    (hmore : ∀ i i' : Ingredients, i.keyId = i'.keyId → i.salt = i'.salt →
      i.content.length = i'.content.length → (more i).Discreet (more' i')) :
    (derivation settings keyId passphrase salt iterations >>= more).Discreet
      (derivation settings keyId passphrase' salt iterations >>= more') := by
  rw [derivation, derivation]
  simp only [bind_assoc]
  refine Dialogue.discreet_done_bind _ fun id _ => ?_
  refine Dialogue.discreet_done_bind _ fun s _ => ?_
  refine Dialogue.discreet_secret_bind h .passphrase fun secret secret' _ => ?_
  refine .ask (.deriveKey secret secret' s _ keyLength) ?_ ?_
  · rintro (hop | hop) <;> cases hop
  intro derived derived' hderived
  cases hderived with
  | same =>
    refine Dialogue.discreet_done_bind (derivedOctets derived) fun content _ => ?_
    refine Dialogue.discreet_done_bind _ fun i _ => ?_
    exact hmore i i rfl rfl rfl
  | @octets form content content' hlength =>
    show Dialogue.Discreet (.done (if content.length = keyLength then _ else _) >>= more)
      (.done (if content'.length = keyLength then _ else _) >>= more')
    rw [hlength]
    by_cases hfull : content'.length = keyLength
    · rw [if_pos hfull, if_pos hfull]
      exact hmore _ _ rfl rfl hlength
    · rw [if_neg hfull, if_neg hfull]
      exact .done (discreet_error (Failure.discreet_self _))

end SecretKey

/-- What two keys give that agree but for their content: two such secrets, or one failure. -/
inductive GivesAlike : Except Failure Argument → Except Failure Argument → Prop
  | secrets {a b : Argument} (h : a.Alike b) : GivesAlike (.ok a) (.ok b)
  | refused (failure : Failure) : GivesAlike (.error failure) (.error failure)

/-- Credentials agree but for their content: two values to be used as passphrases, or two keys that
share their key ID and their salt. -/
inductive Credential.Alike (v v' : Vault) : Credential → Credential → Prop
  | value {a b : Argument} (h : a.Alike b) : Alike v v' (.value a) (.value b)
  | key {key key' : KeyRef} {record record' : KeyRecord} {secret secret' : Except Failure Argument}
    (h : SecretKey.Yields v key record secret) (h' : SecretKey.Yields v' key' record' secret')
    (hkeyId : record.keyId = record'.keyId) (hsalt : record.salt = record'.salt)
    (hsecret : GivesAlike secret secret') : Alike v v' (.key key) (.key key')

namespace StoredPassword

/-- What is written around a ciphertext, which has to be octets, but not none. -/
def joined {α : Type} (ciphertext : Argument) (value : Bytes → α) : Except Failure α :=
  if !ciphertext.isTrue then .error (.field .emptyCiphertext) else ciphertext.joinable.map value

/-- What is written is refused for the length of a field, or else for the ciphertext. -/
theorem written_eq (record : KeyRecord) (iv : Bytes) {zeros : Nat} (hzeros : zeros ≤ 15)
    (ciphertext : Argument) :
    ∃ value, written record iv zeros ciphertext =
      if record.salt.length ≠ 16 then .error (.field .saltLength)
      else if iv.length ≠ 16 then .error (.field .initializationVectorLength)
      else if 255 < record.keyId.length then .error (.field .keyIdLength)
      else joined ciphertext value := by
  have hheader : Envelope.packHeaderFrom (.integer Envelope.currentVersion) (.integer zeros) =
      .ok (Envelope.packHalves 0 zeros) := by
    rw [Envelope.packHeaderFrom_integer, Envelope.packHeader, if_neg (by decide),
      if_neg (by simp [Envelope.maxHalf]; omega)]
    rfl
  let envelope (content : Bytes) : Envelope Argument Bytes :=
    { version := .integer 0, padding := .integer zeros, salt := record.salt, vector := iv
      keyId := record.keyId, ciphertext := content }
  refine ⟨fun content => ⟨Envelope.packHalves 0 zeros :: record.salt ++ iv ++
    UInt8.ofNat record.keyId.length :: record.keyId ++ content, envelope content⟩, ?_⟩
  rw [written, Envelope.write]
  show (if record.salt.length ≠ 16 then _ else _) >>= _ = _
  by_cases hsalt : record.salt.length = 16
  · rw [if_neg (not_not_intro hsalt), if_neg (not_not_intro hsalt)]
    show (if iv.length ≠ 16 then _ else _) >>= _ = _
    by_cases hvector : iv.length = 16
    · rw [if_neg (not_not_intro hvector), if_neg (not_not_intro hvector)]
      show (if 255 < record.keyId.length then _ else _) >>= _ = _
      by_cases hkeyId : 255 < record.keyId.length
      · rw [if_pos hkeyId, if_pos hkeyId]
        rfl
      · rw [if_neg hkeyId, if_neg hkeyId, joined]
        cases htrue : ciphertext.isTrue
        · rfl
        · show (Envelope.packHeaderFrom _ _ >>= _) >>= _ = _
          rw [hheader]
          show (ciphertext.joinable >>= _) >>= _ = _
          cases ciphertext <;> rfl
    · rw [if_pos hvector, if_pos hvector]
      rfl
  · rw [if_pos hsalt, if_pos hsalt]
    rfl

theorem joined_cases {α : Type} (ciphertext : Argument) (value : Bytes → α) :
    (∃ x, joined ciphertext value = .ok x) ∨
    joined ciphertext value = .error (.field .emptyCiphertext) ∨
    joined ciphertext value = .error (.argument (.notJoinable ciphertext.typeName)) := by
  rw [joined]
  cases ciphertext.isTrue with
  | false => exact Or.inr (Or.inl rfl)
  | true =>
    cases ciphertext with
    | octets form content => exact Or.inl ⟨value content, rfl⟩
    | _ => exact Or.inr (Or.inr rfl)

theorem discreet_joined {α β : Type} {ciphertext ciphertext' : Argument}
    (htype : ciphertext.typeName = ciphertext'.typeName) (value : Bytes → α)
    (value' : Bytes → β) : Discreet (joined ciphertext value) (joined ciphertext' value') := by
  rcases joined_cases ciphertext value with ⟨x, hx⟩ | hempty | hother
  · rw [hx]
    exact discreet_ok x _
  · rw [hempty]
    rcases joined_cases ciphertext' value' with ⟨x', hx'⟩ | hempty' | hother'
    · rw [hx']
      exact (discreet_ok x' _).symm
    · rw [hempty']
      exact discreet_error (Failure.discreet_self _)
    · rw [hother']
      exact discreet_of_category
        (show FailureCategory.invalidValue ≠ FailureCategory.wrongType by decide)
  · rw [hother]
    rcases joined_cases ciphertext' value' with ⟨x', hx'⟩ | hempty' | hother'
    · rw [hx']
      exact (discreet_ok x' _).symm
    · rw [hempty']
      exact discreet_of_category
        (show FailureCategory.wrongType ≠ FailureCategory.invalidValue by decide)
    · rw [hother', htype]
      exact discreet_error (Failure.discreet_self _)

theorem unsuspecting_field {α : Type} (error : FieldError) :
    Unsuspecting (.error (.field error) : Except Failure α) := by
  refine unsuspecting_error ?_
  rintro (h | h) <;> cases h

theorem unsuspecting_joined {α : Type} (ciphertext : Argument) (value : Bytes → α) :
    Unsuspecting (joined ciphertext value) := by
  rcases joined_cases ciphertext value with ⟨x, hx⟩ | hempty | hother
  · rw [hx]
    exact unsuspecting_ok x
  · rw [hempty]
    exact unsuspecting_field _
  · rw [hother]
    exact unsuspecting_argument _

variable {record record' : KeyRecord} {secret secret' : Except Failure Argument}

/-- What comes of two ciphertexts of one type under one salt and one key ID. -/
theorem discreet_written (hsalt : record.salt = record'.salt)
    (hkeyId : record.keyId = record'.keyId) (iv : Bytes) {zeros zeros' : Nat}
    (hzeros : zeros ≤ 15) (hzeros' : zeros' ≤ 15) {ciphertext ciphertext' : Argument}
    (htype : ciphertext.typeName = ciphertext'.typeName) :
    Discreet (written record iv zeros ciphertext) (written record' iv zeros' ciphertext') := by
  obtain ⟨value, hwritten⟩ := written_eq record iv hzeros ciphertext
  obtain ⟨value', hwritten'⟩ := written_eq record' iv hzeros' ciphertext'
  rw [hwritten, hwritten', hsalt, hkeyId]
  split
  · exact discreet_same _
  split
  · exact discreet_same _
  split
  · exact discreet_same _
  · exact discreet_joined htype value value'

theorem unsuspecting_written (record : KeyRecord) (iv : Bytes) {zeros : Nat} (hzeros : zeros ≤ 15)
    (ciphertext : Argument) : Unsuspecting (written record iv zeros ciphertext) := by
  obtain ⟨value, hwritten⟩ := written_eq record iv hzeros ciphertext
  rw [hwritten]
  split
  · exact unsuspecting_field _
  split
  · exact unsuspecting_field _
  split
  · exact unsuspecting_field _
  · exact unsuspecting_joined ciphertext value

/-- Locking under such keys. -/
theorem discreet_encryption (hsalt : record.salt = record'.salt)
    (hkeyId : record.keyId = record'.keyId) (hsecret : GivesAlike secret secret')
    (vector : Argument) {clearText clearText' : Argument} (h : clearText.Alike clearText') :
    (encryption record secret vector clearText).Discreet
      (encryption record' secret' vector clearText') := by
  rw [encryption, encryption]
  refine Dialogue.discreet_done_bind _ fun iv _ => ?_
  refine Dialogue.discreet_secret_bind h .clearText fun clear clear' hempty => ?_
  have hzeros : ∀ clear, (Padding.add clear).2 ≤ 15 := by
    intro clear
    obtain ⟨-, hhigh, -⟩ := Padding.needed_spec clear.length
    exact Int.toNat_le.mpr hhigh
  rw [paddedEncryption, paddedEncryption, hempty]
  cases clear'.isEmpty with
  | true => exact .done (discreet_same _)
  | false =>
  cases hsecret with
  | refused failure => exact .done (discreet_same _)
  | @secrets a b hab =>
    refine .cipher (.encrypt hab iv _ _) ?_ ?_ ?_
    · intro ciphertext ciphertext' htype
      exact discreet_written hsalt hkeyId iv (hzeros clear) (hzeros clear') htype
    · intro ciphertext g hg
      exact (unsuspecting_written record iv (hzeros clear) ciphertext).discreet hg
    · intro f ciphertext' hf
      exact ((unsuspecting_written record' iv (hzeros clear') ciphertext').discreet hf).symm

/-! ### Unlocking -/

/-- What is made of a clear text after it was unlocked. It fails alike for clear texts of one
length, and its failures are told apart from those of unlocking. -/
structure Closing {α : Type} (finish : Bytes → Except Failure α) : Prop where
  discreet : ∀ {clear clear' : Bytes}, clear.length = clear'.length →
    Discreet (finish clear) (finish clear')
  unsuspecting : ∀ clear, Unsuspecting (finish clear)
  unpadded : ∀ {clear failure}, finish clear = .error failure → failure.category ≠ .padding

theorem closing_ok : Closing (Except.ok : Bytes → Except Failure Bytes) where
  discreet _ := discreet_ok _ _
  unsuspecting clear := unsuspecting_ok clear
  unpadded h := by cases h

end StoredPassword

/-- The encodings that a platform adds fail alike for octets of one length, unless a coding fails,
and not as unlocking does. -/
def Codecs.Discreet (codecs : Codecs) : Prop :=
  ∀ name decode, codecs name = some decode → StoredPassword.Closing decode

namespace StoredPassword

/-- Reading a clear text as text. -/
theorem closing_inCharset {codecs : Codecs} (h : codecs.Discreet) (charset : String) :
    Closing (TextPassword.inCharset codecs charset) := by
  have hcategory : ∀ clear failure, TextPassword.inCharset codecs charset clear = .error failure →
      ¬failure.IsDistrust ∧ failure.category ≠ .padding := by
    intro clear failure hfailed
    rw [TextPassword.inCharset] at hfailed
    split at hfailed
    · cases hfailed
      simp [Failure.IsDistrust, Failure.category]
    split at hfailed
    · cases hfailed
    split at hfailed
    · split at hfailed
      · cases hfailed
      · cases hfailed
        simp [Failure.IsDistrust, Failure.category]
    · split at hfailed
      · next decode hdecode =>
        have hclosing := h charset decode hdecode
        exact ⟨hclosing.unsuspecting clear failure hfailed, hclosing.unpadded hfailed⟩
      · cases hfailed
        simp [Failure.IsDistrust, Failure.category]
  refine ⟨?_, fun clear failure hfailed => (hcategory clear failure hfailed).1,
    fun hfailed => (hcategory _ _ hfailed).2⟩
  intro clear clear' hlength
  rw [TextPassword.inCharset, TextPassword.inCharset, Argument.isEmpty_eq_of_length hlength]
  split
  · exact discreet_same _
  split
  · exact discreet_same _
  cases Charset.ofName? charset with
  | none =>
    cases hdecode : codecs charset with
    | none => exact discreet_same _
    | some decode => exact (h charset decode hdecode).discreet hlength
  | some known =>
    dsimp only
    cases known.decode clear with
    | ok t => exact discreet_ok t _
    | error error => exact discreet_coding (show (Failure.undecodable error).IsCoding from rfl) _

section Opening

variable {α : Type} {finish : Bytes → Except Failure α}

/-- What is cut off is zeros, or it is refused for their number alone. -/
theorem removeZeros_cases (given : Argument) (content : Bytes) (count : Nat) :
    (∃ clear, Padding.removeZeros given content count = .ok clear ∧
      clear.length = content.length - count) ∨
    Padding.removeZeros given content count =
      .error (given.showing fun shown => .padding (.nonZero shown)) := by
  rw [Padding.removeZeros]
  split
  · refine Or.inl ⟨_, rfl, ?_⟩
    rw [List.length_take, Nat.min_eq_left (Nat.sub_le _ _)]
  · exact Or.inr rfl

/-- How many octets are cut off from so many, or why none are. -/
def cutFrom (count : Argument) (length : Nat) : Except Failure Nat := do
  if !(← count.isWithin 0 Padding.maxLength) then
    throw (count.showing fun shown => .padding (.outOfRange shown))
  if !(← count.isWithin 0 length) then
    throw (count.showing fun shown => .padding (.tooLong shown length))
  return (← count.bound).toNat

/-- A number of octets that are cut off is small enough to be shown. -/
theorem exists_shown_of_cutFrom {count : Argument} {length n : Nat}
    (h : cutFrom count length = .ok n) : ∃ shown, count.shown = .ok shown := by
  rw [cutFrom] at h
  obtain ⟨fits, hfits, h⟩ := bind_eq_ok h
  obtain ⟨hfit, h⟩ := guard_eq_ok h
  obtain ⟨short, -, h⟩ := bind_eq_ok h
  obtain ⟨-, h⟩ := guard_eq_ok h
  obtain ⟨m, hbound, -⟩ := bind_eq_ok h
  obtain ⟨k, hk⟩ : ∃ k, count.asInteger? = some k := by
    rw [Argument.bound] at hbound
    split at hbound
    · next k hk => exact ⟨k, hk⟩
    · cases hbound
  rw [Argument.isWithin_of_asInteger? hk] at hfits
  obtain rfl := Except.ok.inj hfits
  have hrange : 0 ≤ k ∧ k ≤ Padding.maxLength := by simpa using hfit
  exact Argument.exists_shown_of_lt hk (Padding.lt_limit_of_range hrange)

theorem removeFrom_eq (content : Bytes) (count : Argument) :
    Padding.removeFrom (.octets .buffer content) count =
      cutFrom count content.length >>= Padding.removeZeros count content := by
  rw [Padding.removeFrom, cutFrom]
  cases count.isWithin 0 Padding.maxLength with
  | error failure => rfl
  | ok small =>
  cases small with
  | false => rfl
  | true =>
  show (count.isWithin 0 content.length >>= _) = (count.isWithin 0 content.length >>= _) >>= _
  cases count.isWithin 0 content.length with
  | error failure => rfl
  | ok short =>
  cases short with
  | false => rfl
  | true =>
  show (count.bound >>= _) = (count.bound >>= _) >>= _
  cases count.bound <;> rfl

/-- A failure of the padding that shows a value, or cannot, does not distrust a ciphertext. -/
theorem unsuspecting_showing (value : Argument) (wording : String → PaddingError) :
    Unsuspecting (.error (value.showing fun shown => .padding (wording shown)) :
      Except Failure Bytes) := by
  rcases value.showing_cases fun shown => .padding (wording shown) with ⟨shown, -, h⟩ | h <;> rw [h]
  · exact unsuspecting_padding _
  · exact unsuspecting_field _

theorem unsuspecting_removeFrom (content : Bytes) (count : Argument) :
    Unsuspecting (Padding.removeFrom (.octets .buffer content) count) := by
  have hwithin : ∀ high, Unsuspecting (count.isWithin 0 high) := by
    intro high
    rw [Argument.isWithin]
    split
    · exact unsuspecting_ok _
    · exact unsuspecting_argument _
  have hbound : Unsuspecting count.bound := by
    rw [Argument.bound]
    split
    · exact unsuspecting_ok _
    · exact unsuspecting_argument _
  rw [Padding.removeFrom]
  refine (hwithin _).bind fun fits => ?_
  cases fits with
  | false => exact unsuspecting_showing count _
  | true =>
  refine (hwithin content.length).bind fun fits => ?_
  cases fits with
  | false => exact unsuspecting_showing count _
  | true =>
  refine hbound.bind fun n => ?_
  rcases removeZeros_cases count content n.toNat with ⟨clear, hclear, -⟩ | hrefused
  · rw [hclear]
    exact unsuspecting_ok clear
  · rw [hrefused]
    exact unsuspecting_showing count _

theorem unsuspecting_items (container : Container) (values : List Argument) :
    Unsuspecting (Argument.items container values) := by
  induction values with
  | nil => exact unsuspecting_ok []
  | cons value rest ih =>
    rw [Argument.items, Argument.item]
    split
    · next failure hitem =>
      split at hitem
      · cases hitem
        exact unsuspecting_argument _
      · split at hitem
        · cases hitem
        · cases hitem
          exact unsuspecting_argument _
    · split
      · next failure hrest => exact unsuspecting_error (ih failure hrest)
      · exact unsuspecting_ok _

theorem unsuspecting_zeros (container : Container) (count : Int) :
    Unsuspecting (Argument.zeros container count) := by
  rw [Argument.zeros, Argument.zeroCount, Argument.roomFor]
  split
  · exact unsuspecting_argument _
  split
  · exact unsuspecting_argument _
  split
  · exact unsuspecting_argument _
  split
  · exact unsuspecting_argument _
  · exact unsuspecting_ok _

theorem unsuspecting_toBytes (container : Container) (value : Argument) :
    Unsuspecting (value.toBytes container) := by
  cases value with
  | octets form content => exact unsuspecting_ok content
  | flag value => exact unsuspecting_zeros container _
  | integer value => exact unsuspecting_zeros container value
  | list values => exact unsuspecting_items container values
  | _ => exact unsuspecting_argument _

theorem unsuspecting_opened (password : StoredPassword) (answer : Argument) :
    Unsuspecting (password.opened (.ok answer)) :=
  (unsuspecting_toBytes .buffer answer).bind fun _ => unsuspecting_removeFrom _ _

/-- What is cut off from plaintexts of one length. -/
theorem discreet_removeZeros (hfinish : Closing finish) {count : Argument} {shown : String}
    (hshown : count.shown = .ok shown) {content content' : Bytes}
    (hlength : content.length = content'.length) (n : Nat) :
    Discreet (Padding.removeZeros count content n >>= finish)
      (Padding.removeZeros count content' n >>= finish) := by
  have hpadding : ∀ clear, Discreet (finish clear)
      (.error (.padding (.nonZero shown)) : Except Failure α) := by
    rintro clear f _ hf ⟨⟩ hcategory
    exact absurd hcategory (hfinish.unpadded hf)
  have hcases := removeZeros_cases count content n
  have hcases' := removeZeros_cases count content' n
  rw [Argument.showing_of_ok hshown] at hcases hcases'
  rcases hcases with ⟨clear, hclear, hsize⟩ | hrefused
  · rw [hclear]
    rcases hcases' with ⟨clear', hclear', hsize'⟩ | hrefused'
    · rw [hclear']
      exact hfinish.discreet (hsize.trans ((congrArg (· - n) hlength).trans hsize'.symm))
    · rw [hrefused']
      exact hpadding clear
  · rw [hrefused]
    rcases hcases' with ⟨clear', hclear', -⟩ | hrefused'
    · rw [hclear']
      exact (hpadding clear').symm
    · rw [hrefused']
      exact discreet_same _

/-- Plaintexts of one length. -/
theorem discreet_opened (password : StoredPassword) (hfinish : Closing finish)
    {answer answer' : Argument} (h : answer.Resembles answer') :
    Discreet (password.opened (.ok answer) >>= finish)
      (password.opened (.ok answer') >>= finish) := by
  cases h with
  | same => exact discreet_same _
  | @octets form content content' hlength =>
    show Discreet (Padding.removeFrom (.octets .buffer content) _ >>= finish)
      (Padding.removeFrom (.octets .buffer content') _ >>= finish)
    rw [removeFrom_eq, removeFrom_eq, hlength]
    cases hcut : cutFrom password.envelope.padding content'.length with
    | error failure => exact discreet_same _
    | ok count =>
      obtain ⟨shown, hshown⟩ := exists_shown_of_cutFrom hcut
      exact discreet_removeZeros hfinish hshown hlength count

/-- Unlocking under keys that agree but for their content. -/
theorem discreet_decryption (password : StoredPassword) (hfinish : Closing finish)
    (hsecret : GivesAlike secret secret') :
    (decryption password secret >>= fun clear => .done (finish clear)).Discreet
      (decryption password secret' >>= fun clear => .done (finish clear)) := by
  cases hsecret with
  | refused failure => exact .done (discreet_same _)
  | @secrets a b hab =>
    have hclosed : ∀ given,
        (decryption password (.ok given) >>= fun clear => .done (finish clear)) =
        .ask (password.opening given) fun answer =>
          .done (password.opened (.ok answer) >>= finish) := by
      intro given
      refine congrArg (Dialogue.ask _) (funext fun answer => ?_)
      show (Dialogue.done (password.opened (.ok answer)) >>= fun clear => _) = _
      cases password.opened (.ok answer) <;> rfl
    have hunsuspecting : ∀ answer, Unsuspecting (password.opened (.ok answer) >>= finish) :=
      fun answer => (unsuspecting_opened password answer).bind hfinish.unsuspecting
    rw [hclosed, hclosed]
    refine .cipher (.decrypt hab _ _) ?_ ?_ ?_
    · intro answer answer' hanswers
      exact discreet_opened password hfinish hanswers
    · intro answer g hg
      exact (hunsuspecting answer).discreet hg
    · intro f answer' hf
      exact ((hunsuspecting answer').discreet hf).symm

end Opening

/-! ### The operations -/

theorem isEmptyClearText_of_isOther {value : Argument} (h : value.IsOther) :
    isEmptyClearText value = false := by
  cases value with
  | text content => exact h.elim
  | octets form content => exact h.elim
  | _ => rfl

/-- A value that is given, or else drawn. -/
theorem discreet_drawing_bind {α : Type} (length : Nat) (given : Argument)
    {more more' : Argument → Dialogue α} (h : ∀ drawn, (more drawn).Discreet (more' drawn)) :
    (drawing length given >>= more).Discreet (drawing length given >>= more') := by
  cases given with
  | absent =>
    refine .ask (.randomBytes length) ?_ ?_
    · rintro (hop | hop) <;> cases hop
    · rintro a _ ⟨⟩
      exact h a
  | _ => exact h _

/-- Locking under such passphrases. -/
theorem discreet_locking (settings : Settings) (keyId salt vector : Argument)
    {passphrase passphrase' clearText clearText' : Argument}
    (hsecret : passphrase.Alike passphrase') (hclear : clearText.Alike clearText') :
    (locking settings keyId passphrase clearText salt vector).Discreet
      (locking settings keyId passphrase' clearText' salt vector) := by
  have hempty : isEmptyClearText clearText = isEmptyClearText clearText' := by
    cases hclear with
    | text h => exact Argument.isEmpty_eq_of_length h
    | octets form h => exact Argument.isEmpty_eq_of_length h
    | other ha hb => rw [isEmptyClearText_of_isOther ha, isEmptyClearText_of_isOther hb]
  rw [locking, locking, hempty]
  refine Dialogue.discreet_done_bind _ fun id _ => ?_
  refine Dialogue.discreet_done_bind _ fun _ _ => ?_
  refine Dialogue.discreet_done_bind _ fun _ _ => ?_
  refine discreet_drawing_bind _ salt fun givenSalt => ?_
  refine discreet_drawing_bind _ vector fun givenVector => ?_
  refine SecretKey.discreet_derivation_bind _ _ _ _ hsecret ?_
  intro i i' hkeyId hsalt hlength
  exact discreet_encryption hsalt hkeyId (.secrets (.octets .buffer hlength)) givenVector hclear

/-- Unlocking under such passphrases. -/
theorem discreet_unlocking {α : Type} {finish : Bytes → Except Failure α} (hfinish : Closing finish)
    (settings : Settings) (password : StoredPassword) {passphrase passphrase' : Argument}
    (hsecret : passphrase.Alike passphrase') :
    (unlocking settings password passphrase >>= fun clear => .done (finish clear)).Discreet
      (unlocking settings password passphrase' >>= fun clear => .done (finish clear)) := by
  rw [unlocking, unlocking, bind_assoc, bind_assoc]
  refine SecretKey.discreet_derivation_bind _ _ _ _ hsecret ?_
  intro i i' _ _ hlength
  exact discreet_decryption password hfinish (.secrets (.octets .buffer hlength))

end StoredPassword

namespace TextPassword

/-- What is locked is written as text at the end. -/
theorem lock_fst (suite : Suite) (keyId passphrase clearText marked : Argument) (v : Vault) :
    ∃ text, (lock suite keyId passphrase clearText marked v).1 =
      (StoredPassword.lock suite keyId passphrase clearText .absent .absent v).1.map text := by
  rcases hrun : StoredPassword.lock suite keyId passphrase clearText .absent .absent v with
    ⟨failure | password, w⟩
  · exact ⟨fun _ => [], congrArg Prod.fst (Action.bind_of_error hrun)⟩
  · exact ⟨fun _ => _, congrArg Prod.fst (Action.bind_of_ok hrun)⟩

theorem unlock_conducts (codecs : Codecs) (suite : Suite) (v : Vault)
    (encoded passphrase : Argument) (charset : String) :
    Action.Conducts suite (unlock codecs suite encoded passphrase charset) v
      (.done (read encoded) >>= fun password =>
        StoredPassword.unlocking v.settings password passphrase >>= fun clear =>
          .done (inCharset codecs charset clear)) := by
  refine Action.Conducts.lift_bind fun password _ => ?_
  refine (StoredPassword.unlock_conducts suite v password passphrase).bind ?_
  intro clear w _
  exact Action.conducts_done rfl rfl

end TextPassword

namespace StoredPassword

section Operations

variable {suite suite' : Suite} {v v' : Vault}
  {passphrase passphrase' clearText clearText' : Argument}

/-- Two actions that deal with their suites as such dialogues do. -/
theorem discreet_of_conducts {α : Type} {action action' : Action α} {d d' : Dialogue α}
    (h : Action.Conducts suite action v d) (h' : Action.Conducts suite' action' v' d')
    (hd : d.Discreet d') (hsuite : suite.Discreet suite')
    (hcalls : List.Forall₂ Call.Alike v.calls v'.calls) :
    Discreet (action v).1 (action' v').1 := by
  rw [h.outcome, h'.outcome]
  exact hd.run hsuite hcalls

theorem discreet_lock (hsuite : suite.Discreet suite') (hsettings : v.settings = v'.settings)
    (hcalls : List.Forall₂ Call.Alike v.calls v'.calls) (hpassphrase : passphrase.Alike passphrase')
    (hclear : clearText.Alike clearText') (keyId salt vector : Argument) :
    Discreet (lock suite keyId passphrase clearText salt vector v).1
      (lock suite' keyId passphrase' clearText' salt vector v').1 := by
  refine discreet_of_conducts (lock_conducts suite v keyId passphrase clearText salt vector)
    (lock_conducts suite' v' keyId passphrase' clearText' salt vector) ?_ hsuite hcalls
  rw [hsettings]
  exact discreet_locking v'.settings keyId salt vector hpassphrase hclear

theorem discreet_lockWith (hsuite : suite.Discreet suite')
    (hcalls : List.Forall₂ Call.Alike v.calls v'.calls) {credential credential' : Credential}
    (h : Credential.Alike v v' credential credential') (hclear : clearText.Alike clearText')
    (vector : Argument) :
    Discreet (lockWith suite credential vector clearText v).1
      (lockWith suite' credential' vector clearText' v').1 := by
  cases h with
  | @value a b hab =>
    show Discreet (.error (.argument (.keyExpected a.typeName)))
      (.error (.argument (.keyExpected b.typeName)))
    rw [hab.typeName_eq]
    exact discreet_same _
  | key h h' hkeyId hsalt hsecret =>
    exact discreet_of_conducts (lockUnder_conducts suite h vector clearText)
      (lockUnder_conducts suite' h' vector clearText')
      (discreet_encryption hsalt hkeyId hsecret vector hclear) hsuite hcalls

/-- Unlocking under such credentials. With nothing more to do, the clear text comes out. -/
theorem discreet_unlock (hsuite : suite.Discreet suite') (hsettings : v.settings = v'.settings)
    (hcalls : List.Forall₂ Call.Alike v.calls v'.calls) {credential credential' : Credential}
    (h : Credential.Alike v v' credential credential') (password : StoredPassword) :
    Discreet (password.unlock suite credential v).1 (password.unlock suite' credential' v').1 := by
  have hclosed : ∀ d : Dialogue Bytes, (d >>= fun clear => .done (.ok clear)) = d := bind_pure
  cases h with
  | @value a b hab =>
    have hdialogue := discreet_unlocking closing_ok v'.settings password hab
    rw [hclosed, hclosed] at hdialogue
    refine discreet_of_conducts (unlock_conducts suite v password a)
      (unlock_conducts suite' v' password b) ?_ hsuite hcalls
    rw [hsettings]
    exact hdialogue
  | key h h' hkeyId hsalt hsecret =>
    have hdialogue := discreet_decryption password closing_ok hsecret
    rw [hclosed, hclosed] at hdialogue
    exact discreet_of_conducts (unlockUnder_conducts suite password h)
      (unlockUnder_conducts suite' password h') hdialogue hsuite hcalls

/-- **Operations do not give secrets away.** Two runs of an operation that agree in everything but
the content of the secrets fail in the same words if they fail with the same category, unless it is
a coding that failed. Their suites have to be discreet, which is to say that their own failures are,
and that keys which are derived and plaintexts which are recovered have one form and one length in
both runs. A clear text may be read in any encoding of `Charset`, and in any other that fails alike
for octets of one length, unless a coding fails. -/
theorem operations_discreet (hsuite : suite.Discreet suite') (hsettings : v.settings = v'.settings)
    (hcalls : List.Forall₂ Call.Alike v.calls v'.calls) (hpassphrase : passphrase.Alike passphrase')
    (hclear : clearText.Alike clearText') :
    (∀ keyId salt iterations,
      Discreet (SecretKey.generate suite keyId passphrase salt iterations v).1
        (SecretKey.generate suite' keyId passphrase' salt iterations v').1) ∧
    (∀ keyId salt vector,
      Discreet (lock suite keyId passphrase clearText salt vector v).1
        (lock suite' keyId passphrase' clearText' salt vector v').1) ∧
    (∀ credential credential', Credential.Alike v v' credential credential' →
      (∀ vector, Discreet (lockWith suite credential vector clearText v).1
        (lockWith suite' credential' vector clearText' v').1) ∧
      ∀ password : StoredPassword, Discreet (password.unlock suite credential v).1
        (password.unlock suite' credential' v').1) ∧
    (∀ keyId marked,
      Discreet (TextPassword.lock suite keyId passphrase clearText marked v).1
        (TextPassword.lock suite' keyId passphrase' clearText' marked v').1) ∧
    ∀ codecs : Codecs, codecs.Discreet → ∀ encoded charset,
      Discreet (TextPassword.unlock codecs suite encoded passphrase charset v).1
        (TextPassword.unlock codecs suite' encoded passphrase' charset v').1 := by
  refine ⟨?_, discreet_lock hsuite hsettings hcalls hpassphrase hclear, ?_, ?_, ?_⟩
  · intro keyId salt iterations
    refine discreet_of_conducts
      (SecretKey.generate_conducts suite v keyId passphrase salt iterations)
      (SecretKey.generate_conducts suite' v' keyId passphrase' salt iterations) ?_ hsuite hcalls
    rw [hsettings]
    exact SecretKey.discreet_derivation_bind _ _ _ _ hpassphrase
      fun i i' _ _ _ => .done (discreet_ok _ _)
  · intro credential credential' hcredential
    exact ⟨discreet_lockWith hsuite hcalls hcredential hclear,
      discreet_unlock hsuite hsettings hcalls hcredential⟩
  · intro keyId marked
    obtain ⟨text, hleft⟩ := TextPassword.lock_fst suite keyId passphrase clearText marked v
    obtain ⟨text', hright⟩ := TextPassword.lock_fst suite' keyId passphrase' clearText' marked v'
    rw [hleft, hright]
    exact (discreet_lock hsuite hsettings hcalls hpassphrase hclear keyId .absent .absent).map
  · intro codecs hcodecs encoded charset
    refine discreet_of_conducts
      (TextPassword.unlock_conducts codecs suite v encoded passphrase charset)
      (TextPassword.unlock_conducts codecs suite' v' encoded passphrase' charset) ?_ hsuite hcalls
    rw [hsettings]
    refine Dialogue.discreet_done_bind _ fun password _ => ?_
    exact discreet_unlocking (closing_inCharset hcodecs charset) v'.settings password hpassphrase

/-- A platform that knows a coding between octets, and refuses to read text in it. -/
def binaryCodecs : Codecs := fun name =>
  if name = "hex" then
    some fun _ => .error (.reported .lookup
      "'hex' is not a text encoding; use codecs.decode() to handle arbitrary codecs")
  else none

theorem discreet_binaryCodecs : binaryCodecs.Discreet := by
  intro name decode h
  obtain ⟨-, hdecode⟩ := Option.ite_none_right_eq_some.mp h
  obtain rfl := Option.some.inj hdecode
  refine ⟨fun _ => discreet_same _, fun _ => unsuspecting_error ?_, ?_⟩
  · rintro (hcategory | hcategory) <;> cases hcategory
  · rintro clear failure ⟨⟩ hcategory
    cases hcategory

/-- With the standard suite, two passphrases and two clear texts of one length. The clear text may
be read in an encoding that a platform refuses. -/
theorem operations_discreet_standard :
    (Suite.standard (.ofSeed [7])).Discreet (.standard (.ofSeed [7])) ∧
    (Argument.ofBytes [112]).Alike (.ofBytes [113]) ∧
    (Argument.text [104, 105]).Alike (.text [104, 0xE9]) ∧
    Discreet
      (lock (.standard (.ofSeed [7])) (.ofBytes [1]) (.ofBytes [112]) (.text [104, 105])
        (.ofBytes (.zeros 15)) .absent .oneKey).1
      (lock (.standard (.ofSeed [7])) (.ofBytes [1]) (.ofBytes [113]) (.text [104, 0xE9])
        (.ofBytes (.zeros 15)) .absent .oneKey).1 ∧
    Discreet
      ((ofEnvelope (lockedFields [1] (.zeros 16) (.zeros 16) [104] [0, 0])).unlock
        (.standard (.ofSeed [7])) (.value (.ofBytes [112])) .oneKey).1
      ((ofEnvelope (lockedFields [1] (.zeros 16) (.zeros 16) [104] [0, 0])).unlock
        (.standard (.ofSeed [7])) (.value (.ofBytes [113])) .oneKey).1 ∧
    Discreet
      (TextPassword.unlock binaryCodecs (.standard (.ofSeed [7]))
        (.ofBytes (Envelope.layout (lockedFields [1] (.zeros 16) (.zeros 16) [104] [0, 0])))
        (.ofBytes [112]) "hex" .oneKey).1
      (TextPassword.unlock binaryCodecs (.standard (.ofSeed [7]))
        (.ofBytes (Envelope.layout (lockedFields [1] (.zeros 16) (.zeros 16) [104] [0, 0])))
        (.ofBytes [113]) "hex" .oneKey).1 := by
  have hsuite := Suite.standard_discreet (.ofSeed [7])
  have hpassphrase : (Argument.ofBytes [112]).Alike (.ofBytes [113]) := .octets .constant rfl
  have hclear : (Argument.text [104, 105]).Alike (.text [104, 0xE9]) := .text rfl
  obtain ⟨-, hlock, hwith, -, hunlock⟩ :=
    @operations_discreet _ _ .oneKey .oneKey _ _ _ _ hsuite rfl .nil hpassphrase hclear
  exact ⟨hsuite, hpassphrase, hclear, hlock _ _ _, (hwith _ _ (.value hpassphrase)).2 _,
    hunlock binaryCodecs discreet_binaryCodecs _ _⟩

/-- **A coding that fails shows a secret**: passphrases that differ in one surrogate, and clear
texts that differ in one octet, fail with the same category and with different texts. -/
theorem coding_indiscreet :
    (Argument.text [0xD800]).Alike (.text [0xD801]) ∧
    (∃ f g : Failure,
      (SecretKey.generate (.standard (.ofSeed [7])) (.ofBytes [1]) (.text [0xD800])
        (.ofBytes (.zeros 16)) .absent .oneKey).1 = .error f ∧
      (SecretKey.generate (.standard (.ofSeed [7])) (.ofBytes [1]) (.text [0xD801])
        (.ofBytes (.zeros 16)) .absent .oneKey).1 = .error g ∧
      f.category = g.category ∧ f.message ≠ g.message) ∧
    ∃ f g : Failure, TextPassword.inCharset (fun _ => none) "utf-8" [0xFE] = .error f ∧
      TextPassword.inCharset (fun _ => none) "utf-8" [0xFF] = .error g ∧
      f.category = g.category ∧ f.message ≠ g.message := by
  refine ⟨.text rfl, ⟨.unencodable ⟨.utf8, 0xD800, 0, 1⟩, .unencodable ⟨.utf8, 0xD801, 0, 1⟩,
    rfl, rfl, rfl, by decide⟩, ?_⟩
  exact ⟨.undecodable ⟨.utf8, 0xFE, 0, 1, .invalidStart⟩,
    .undecodable ⟨.utf8, 0xFF, 0, 1, .invalidStart⟩, by rfl, by rfl, rfl, by decide⟩

end Operations

end StoredPassword

end PasswordVault
