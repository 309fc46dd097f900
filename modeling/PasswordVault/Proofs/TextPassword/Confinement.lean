import PasswordVault.Proofs.SecretKey.Ending
import PasswordVault.Proofs.StoredPassword.Aging
import PasswordVault.Proofs.StoredPassword.Dialogues
import PasswordVault.Proofs.StoredPassword.Unlocking
import PasswordVault.Proofs.Suite.Primitives
import PasswordVault.TextPassword

/-!
# How unlocking a text form can fail

Unlocking a text form with a passphrase goes through steps of which each fails in its own way:
reading the text, writing the passphrase in UTF-8, deriving the key, decrypting, removing the
padding and reading the clear text in UTF-8. Whatever the primitives answer, a failure is one of an
invalid value, and its category tells the step. The key is destroyed however the steps end.

## Main definitions

- `Settings.number` — the number of iterations where the caller gives none
- `StoredPassword.derived`, `StoredPassword.decrypted` — what the primitives answer
- `TextPassword.Derives` — the steps up to the key
- `TextPassword.Ends` — the ways in which unlocking ends
- `TextPassword.Confined` — what the outcome tells, and what is left behind

`TextPassword.ends_unlocked` says how unlocking ends in every case, and
`TextPassword.unlock_confined` is the main result.
-/

namespace PasswordVault

open SecretKey (keyLength)

/-- The number of iterations where the caller gives none. -/
def Settings.number (settings : Settings) : Int :=
  settings.override?.getD SecretKey.standardIterations

theorem SecretKey.usedIterations_absent (settings : Settings) :
    usedIterations settings .absent = .integer settings.number :=
  settings.iterations_integer standardIterations

namespace StoredPassword

variable {primitives : Primitives} {v : Vault} {x : StoredPassword}

/-- The call by which the key of a stored password is derived. -/
def keying (settings : Settings) (password : StoredPassword) (secret : Bytes) : Suite.Call :=
  .deriveKey secret password.envelope.salt (.integer settings.number) keyLength

/-- What primitives derive for a stored password from the octets of a passphrase. -/
def derived (primitives : Primitives) (v : Vault) (password : StoredPassword) (secret : Bytes) :
    Except Failure Bytes :=
  primitives.derive v.calls secret password.envelope.salt (.integer v.settings.number) keyLength

/-- What primitives then decrypt with a key. -/
def decrypted (primitives : Primitives) (v : Vault) (password : StoredPassword)
    (secret key : Bytes) : Except Failure Bytes :=
  primitives.unlock (v.calls ++ [password.keying v.settings secret]) (.octets .buffer key)
    password.envelope.vector password.envelope.ciphertext

/-- Unlocking with orderly primitives: derivation and decryption are reported as such, and padding
comes off last. -/
theorem fst_unlock_over (horderly : primitives.Orderly) {encoded : Argument}
    (hdecode : decode encoded = .ok x)
    (hiterations : v.settings.number < Primitives.iterationsBound)
    (passphrase : Argument) :
    (x.unlock (.over primitives) (.value passphrase) v).1 = (do
      let secret ← passphrase.secretOctets .passphrase
      let key ← reportOrdinary .derivation (derived primitives v x secret)
      let padded ← reportUnlocking (decrypted primitives v x secret key)
      Padding.removeFrom (.octets .buffer padded) x.envelope.padding) := by
  obtain ⟨e, hreadable, rfl⟩ := exists_readable_of_decode hdecode
  have hkeyId : KeyId.ofArgument (.ofBytes (ofEnvelope e).envelope.keyId) = .ok e.keyId :=
    KeyId.ofArgument_ofBytes hreadable.keyId
  have hsalt : (Argument.ofBytes (ofEnvelope e).envelope.salt).toBytesOf .constant
      Envelope.saltLength (fun length => .field (.keySaltLength length)) = .ok e.salt :=
    if_pos hreadable.salt
  rw [(unlock_conducts (.over primitives) v (ofEnvelope e) passphrase).outcome, unlocking,
    SecretKey.derivation]
  simp only [decryption, bind_assoc, Dialogue.fst_run_done_bind, Dialogue.fst_run_call_bind, hkeyId,
    hsalt, SecretKey.usedIterations_absent]
  cases passphrase.secretOctets .passphrase with
  | error failure => rfl
  | ok secret =>
  show Argument.ofBytes <$> reportOrdinary .derivation (derived primitives v (ofEnvelope e) secret)
    >>= _ = reportOrdinary .derivation (derived primitives v (ofEnvelope e) secret) >>= _
  cases hderived : derived primitives v (ofEnvelope e) secret with
  | error cause => rfl
  | ok key =>
  have hlength : key.length = keyLength := horderly.derives hiterations _ _ _ _ hderived
  show (if key.length = keyLength then _ else _) >>= _ = reportUnlocking _ >>= _
  rw [if_pos hlength]
  show (Suite.over primitives).answer _ (.decrypt (.octets .buffer key) _ _) >>= _ = _
  rw [horderly.answer_decrypt _ _ _ hlength]
  show Argument.ofBytes <$> reportUnlocking (decrypted primitives v (ofEnvelope e) secret key)
    >>= _ = _
  cases reportUnlocking (decrypted primitives v (ofEnvelope e) secret key) <;> rfl

end StoredPassword

namespace TextPassword

open StoredPassword (derived decrypted)

variable {primitives : Primitives} {v : Vault} {encoded passphrase : Text}
variable {x : StoredPassword} {secret key : Bytes}

/-- Octets read as UTF-8, for which no platform has an encoding of its own. -/
def inUtf8 (octets : Bytes) : Except Failure Text :=
  inCharset (fun _ => none) "utf-8" octets

theorem inCharset_utf8_eq (codecs : Codecs) (octets : Bytes) :
    inCharset codecs "utf-8" octets = inUtf8 octets := by
  have hname : Charset.ofName? "utf-8" = some .utf8 := by decide
  rw [inUtf8, inCharset, inCharset, hname]

/-- Unlocking a text form with the suite made of primitives, the clear text in UTF-8. -/
def unlocked (primitives : Primitives) (v : Vault) (encoded passphrase : Text) :
    Except Failure Text × Vault :=
  unlock (fun _ => none) (.over primitives) (.text encoded) (.text passphrase) "utf-8" v

theorem unlock_eq_unlocked (codecs : Codecs) (primitives : Primitives) (v : Vault)
    (encoded passphrase : Text) :
    unlock codecs (.over primitives) (.text encoded) (.text passphrase) "utf-8" v =
      unlocked primitives v encoded passphrase := by
  have hutf8 : inCharset codecs "utf-8" = inUtf8 := funext (inCharset_utf8_eq codecs)
  rw [unlocked, unlock, hutf8]
  rfl

theorem unlocked_of_unread {failure : Failure} (h : read (.text encoded) = .error failure) :
    unlocked primitives v encoded passphrase = (.error failure, v) :=
  Action.bind_of_error (congrArg (·, v) h)

theorem unlocked_of_read (h : read (.text encoded) = .ok x) :
    unlocked primitives v encoded passphrase =
      ((x.unlock (.over primitives) (.value (.text passphrase)) v).1 >>= inUtf8,
        (x.unlock (.over primitives) (.value (.text passphrase)) v).2) := by
  have hlift : Action.lift (read (.text encoded)) v = (.ok x, v) := congrArg (·, v) h
  rw [unlocked, unlock, Action.bind_of_ok hlift]
  cases hrun : x.unlock (.over primitives) (.value (.text passphrase)) v with
  | mk outcome w =>
  cases outcome with
  | error failure => exact Action.bind_of_error hrun
  | ok clear => exact Action.bind_of_ok hrun

/-- A text form has been read, and a key has been derived for it. -/
structure Derives (primitives : Primitives) (v : Vault) (encoded passphrase : Text)
    (x : StoredPassword) (secret key : Bytes) : Prop where
  read : TextPassword.read (.text encoded) = .ok x
  spelled : (Argument.text passphrase).secretOctets .passphrase = .ok secret
  key : derived primitives v x secret = .ok key

/-- How unlocking ends: with the first step that fails, or with the clear text. -/
inductive Ends (primitives : Primitives) (v : Vault) (encoded passphrase : Text) :
    Except Failure Text → Prop
  | unread {error : ParseError} (h : read (.text encoded) = .error (.parse error)) :
    Ends primitives v encoded passphrase (.error (.parse error))
  | unencodable {x : StoredPassword} {error : EncodingError}
    (hread : read (.text encoded) = .ok x)
    (h : (Argument.text passphrase).secretOctets .passphrase = .error (.unencodable error)) :
    Ends primitives v encoded passphrase (.error (.unencodable error))
  | underived {x : StoredPassword} {secret : Bytes} {cause : Failure}
    (hread : read (.text encoded) = .ok x)
    (hsecret : (Argument.text passphrase).secretOctets .passphrase = .ok secret)
    (h : derived primitives v x secret = .error cause) :
    Ends primitives v encoded passphrase (.error (.derivation cause))
  | refused {x : StoredPassword} {secret key : Bytes} {cause : Failure}
    (hderives : Derives primitives v encoded passphrase x secret key)
    (h : decrypted primitives v x secret key = .error cause) (htag : cause.isInvalidTag = true) :
    Ends primitives v encoded passphrase (.error .authentication)
  | undecrypted {x : StoredPassword} {secret key : Bytes} {cause : Failure}
    (hderives : Derives primitives v encoded passphrase x secret key)
    (h : decrypted primitives v x secret key = .error cause) (htag : cause.isInvalidTag = false) :
    Ends primitives v encoded passphrase (.error (.decryption cause))
  | unpadded {x : StoredPassword} {secret key padded : Bytes} {error : PaddingError}
    (hderives : Derives primitives v encoded passphrase x secret key)
    (h : decrypted primitives v x secret key = .ok padded) :
    Ends primitives v encoded passphrase (.error (.padding error))
  | undecodable {error : DecodingError} :
    Ends primitives v encoded passphrase (.error (.undecodable error))
  | unlocked {t : Text} : Ends primitives v encoded passphrase (.ok t)

/-- A key has been derived, and its cipher reports that the tag does not verify. -/
def Refused (primitives : Primitives) (v : Vault) (encoded passphrase : Text) : Prop :=
  ∃ x secret key cause, Derives primitives v encoded passphrase x secret key ∧
    decrypted primitives v x secret key = .error cause ∧ cause.isInvalidTag = true

/-- Octets are text in UTF-8 or they are refused as such. -/
theorem inUtf8_ok_or_error (octets : Bytes) :
    (∃ t, inUtf8 octets = .ok t) ∨ ∃ error, inUtf8 octets = .error (.undecodable error) := by
  have hname : Charset.ofName? "utf-8" = some .utf8 := by decide
  rw [inUtf8, inCharset, if_neg (by decide), hname]
  split
  · exact Or.inl ⟨_, rfl⟩
  dsimp only
  split
  · exact Or.inl ⟨_, rfl⟩
  · exact Or.inr ⟨_, rfl⟩

theorem secretOctets_text_ok_or_error (role : Role) (t : Text) :
    (∃ octets, (Argument.text t).secretOctets role = .ok octets) ∨
      ∃ error, (Argument.text t).secretOctets role = .error (.unencodable error) := by
  rw [Argument.secretOctets]
  split
  · exact Or.inl ⟨_, rfl⟩
  · exact Or.inr ⟨_, rfl⟩

/-- Padding that cannot come off what was decrypted is a failure of the padding. -/
theorem removeFrom_ok_or_error (h : read (.text encoded) = .ok x) (padded : Bytes) :
    (∃ clear, Padding.removeFrom (.octets .buffer padded) x.envelope.padding = .ok clear) ∨
      ∃ error, Padding.removeFrom (.octets .buffer padded) x.envelope.padding =
        .error (.padding error) := by
  obtain ⟨e, hreadable, rfl⟩ := StoredPassword.exists_readable_of_decode h
  have hremove := Padding.remove_ok_or_error padded hreadable.padding
  rwa [← Padding.removeFrom_octets_integer .buffer] at hremove

/-! ### The category of a failure -/

variable {failure : Failure}

theorem Ends.within_invalidValue (h : Ends primitives v encoded passphrase (.error failure)) :
    failure.category.within .invalidValue = true := by
  cases h <;> rfl

theorem Ends.read_eq (h : Ends primitives v encoded passphrase (.error failure))
    (hparse : failure.category.within .parse = true) :
    read (.text encoded) = .error failure := by
  cases h with
  | unread h => exact h
  | _ => exact absurd hparse Bool.false_ne_true

theorem Ends.eq_authentication (h : Ends primitives v encoded passphrase (.error failure))
    (hauthentication : failure.category.within .authentication = true) :
    failure = .authentication := by
  cases h with
  | refused => rfl
  | _ => exact absurd hauthentication Bool.false_ne_true

theorem Ends.exists_decrypted (h : Ends primitives v encoded passphrase (.error failure))
    (hpadding : failure.category.within .padding = true) :
    ∃ x secret key padded, Derives primitives v encoded passphrase x secret key ∧
      decrypted primitives v x secret key = .ok padded := by
  cases h with
  | unpadded hderives h => exact ⟨_, _, _, _, hderives, h⟩
  | _ => exact absurd hpadding Bool.false_ne_true

/-- Whether a tag verifies depends on the salt, the vector and the ciphertext alone. -/
theorem Refused.relabel {other : Text} {x y : StoredPassword}
    (h : Refused primitives v encoded passphrase) (hx : read (.text encoded) = .ok x)
    (hy : read (.text other) = .ok y) (hsalt : y.envelope.salt = x.envelope.salt)
    (hvector : y.envelope.vector = x.envelope.vector)
    (hciphertext : y.envelope.ciphertext = x.envelope.ciphertext) :
    Refused primitives v other passphrase := by
  obtain ⟨z, secret, key, cause, hderives, hcause, htag⟩ := h
  obtain rfl : x = z := Except.ok.inj (hx.symm.trans hderives.read)
  refine ⟨y, secret, key, cause, ⟨hy, hderives.spelled, ?_⟩, ?_, htag⟩
  · rw [derived, hsalt]
    exact hderives.key
  · rw [decrypted, StoredPassword.keying, hsalt, hvector, hciphertext]
    exact hcause

/-! ### How the steps end -/

section Steps

variable (horderly : primitives.Orderly)
variable (hiterations : v.settings.number < Primitives.iterationsBound)
include horderly hiterations

/-- Once the passphrase has been written in UTF-8, primitives decide. -/
theorem fst_unlocked_of_secret (hread : read (.text encoded) = .ok x)
    (hsecret : (Argument.text passphrase).secretOctets .passphrase = .ok secret) :
    (unlocked primitives v encoded passphrase).1 =
      reportOrdinary .derivation (derived primitives v x secret) >>= fun key =>
        reportUnlocking (decrypted primitives v x secret key) >>= fun padded =>
          Padding.removeFrom (.octets .buffer padded) x.envelope.padding >>= inUtf8 := by
  rw [unlocked_of_read hread, StoredPassword.fst_unlock_over horderly hread hiterations, hsecret]
  simp only [bind_assoc]
  rfl

/-- A derivation that fails is reported. -/
theorem fst_unlocked_of_underived {cause : Failure} (hread : read (.text encoded) = .ok x)
    (hsecret : (Argument.text passphrase).secretOctets .passphrase = .ok secret)
    (h : derived primitives v x secret = .error cause) :
    (unlocked primitives v encoded passphrase).1 = .error (.derivation cause) := by
  have hordinary := horderly.derivation hiterations _ _ _ _ h
  rw [fst_unlocked_of_secret horderly hiterations hread hsecret, h, reportOrdinary,
    if_pos hordinary]
  rfl

theorem fst_unlocked_of_derives (h : Derives primitives v encoded passphrase x secret key) :
    (unlocked primitives v encoded passphrase).1 =
      reportUnlocking (decrypted primitives v x secret key) >>= fun padded =>
        Padding.removeFrom (.octets .buffer padded) x.envelope.padding >>= inUtf8 := by
  rw [fst_unlocked_of_secret horderly hiterations h.read h.spelled, h.key]
  rfl

/-- A tag that does not verify has the same outcome always. -/
theorem fst_unlocked_of_refused {cause : Failure}
    (h : Derives primitives v encoded passphrase x secret key)
    (hcause : decrypted primitives v x secret key = .error cause)
    (htag : cause.isInvalidTag = true) :
    (unlocked primitives v encoded passphrase).1 = .error .authentication := by
  rw [fst_unlocked_of_derives horderly hiterations h, hcause, reportUnlocking, if_pos htag]
  rfl

/-- Any other failure of decryption is reported. -/
theorem fst_unlocked_of_undecrypted {cause : Failure}
    (h : Derives primitives v encoded passphrase x secret key)
    (hcause : decrypted primitives v x secret key = .error cause)
    (htag : cause.isInvalidTag = false) :
    (unlocked primitives v encoded passphrase).1 = .error (.decryption cause) := by
  have hordinary := horderly.unlocking _ _ _ _ _ hcause
  rw [fst_unlocked_of_derives horderly hiterations h, hcause, reportUnlocking, htag,
    if_neg Bool.false_ne_true, if_pos hordinary]
  rfl

/-- **How unlocking ends** in every case. -/
theorem ends_unlocked (encoded passphrase : Text) :
    Ends primitives v encoded passphrase (unlocked primitives v encoded passphrase).1 := by
  rcases StoredPassword.decode_text_ok_or_error encoded with ⟨x, hread⟩ | ⟨error, hread⟩
  swap
  · rw [unlocked_of_unread hread]
    exact .unread hread
  rcases secretOctets_text_ok_or_error .passphrase passphrase with
    ⟨secret, hsecret⟩ | ⟨error, hsecret⟩
  swap
  · rw [unlocked_of_read hread, StoredPassword.fst_unlock_over horderly hread hiterations, hsecret]
    exact .unencodable hread hsecret
  cases hderived : derived primitives v x secret with
  | error cause =>
    rw [fst_unlocked_of_underived horderly hiterations hread hsecret hderived]
    exact .underived hread hsecret hderived
  | ok key =>
  have hderives : Derives primitives v encoded passphrase x secret key := ⟨hread, hsecret, hderived⟩
  cases hdecrypted : decrypted primitives v x secret key with
  | error cause =>
    cases htag : cause.isInvalidTag with
    | true =>
      rw [fst_unlocked_of_refused horderly hiterations hderives hdecrypted htag]
      exact .refused hderives hdecrypted htag
    | false =>
      rw [fst_unlocked_of_undecrypted horderly hiterations hderives hdecrypted htag]
      exact .undecrypted hderives hdecrypted htag
  | ok padded =>
  rw [fst_unlocked_of_derives horderly hiterations hderives, hdecrypted]
  show Ends primitives v encoded passphrase
    (Padding.removeFrom (.octets .buffer padded) x.envelope.padding >>= inUtf8)
  rcases removeFrom_ok_or_error hread padded with ⟨clear, hclear⟩ | ⟨error, hclear⟩ <;> rw [hclear]
  · show Ends primitives v encoded passphrase (inUtf8 clear)
    rcases inUtf8_ok_or_error clear with ⟨t, ht⟩ | ⟨error, ht⟩ <;> rw [ht]
    · exact .unlocked
    · exact .undecodable
  · exact .unpadded hderives hdecrypted

/-- Authentication fails exactly if a key is derived and its cipher reports that the tag does not
verify. -/
theorem fst_unlocked_eq_authentication_iff :
    (unlocked primitives v encoded passphrase).1 = .error .authentication ↔
      Refused primitives v encoded passphrase := by
  constructor
  · intro h
    have hends := ends_unlocked horderly hiterations encoded passphrase
    rw [h] at hends
    cases hends with
    | refused hderives hcause htag => exact ⟨_, _, _, _, hderives, hcause, htag⟩
  · rintro ⟨x, secret, key, cause, hderives, hcause, htag⟩
    exact fst_unlocked_of_refused horderly hiterations hderives hcause htag

/-! ### What becomes of the key -/

/-- A key is made of what is derived. -/
theorem exists_ingredients_iff (hread : read (.text encoded) = .ok x) :
    (∃ i, SecretKey.ingredients (.over primitives) v (.ofBytes x.envelope.keyId) (.text passphrase)
        (.ofBytes x.envelope.salt) .absent = .ok i) ↔
      ∃ secret key, Derives primitives v encoded passphrase x secret key := by
  constructor
  · rintro ⟨i, hi⟩
    obtain ⟨-, hsalt, -, ⟨secret, answer, hsecret, hanswer, -⟩, -⟩ :=
      SecretKey.ingredients_eq_ok_iff.mp hi
    rw [← Except.ok.inj hsalt, SecretKey.usedIterations_absent] at hanswer
    obtain ⟨key, hkey, -⟩ := map_eq_ok hanswer
    refine ⟨secret, key, hread, hsecret, ?_⟩
    change reportOrdinary .derivation (derived primitives v x secret) = .ok key at hkey
    cases hderived : derived primitives v x secret with
    | error cause => rw [hderived] at hkey; cases hkey
    | ok content => rw [hderived] at hkey; exact hkey
  · rintro ⟨secret, key, h⟩
    obtain ⟨e, hreadable, rfl⟩ := StoredPassword.exists_readable_of_decode hread
    refine ⟨⟨e.keyId, e.salt, key⟩, SecretKey.ingredients_eq_ok_iff.mpr
      ⟨KeyId.ofArgument_ofBytes hreadable.keyId, rfl, hreadable.salt,
        ⟨secret, .ofBytes key, h.spelled, ?_, rfl⟩, horderly.derives hiterations _ _ _ _ h.key⟩⟩
    rw [SecretKey.usedIterations_absent]
    show Argument.ofBytes <$> reportOrdinary .derivation
      (derived primitives v (StoredPassword.ofEnvelope e) secret) = _
    rw [h.key]
    rfl

/-- A key that is derived is spent at the end. -/
theorem spent_of_derives (h : Derives primitives v encoded passphrase x secret key) :
    SecretKey.Spent v (unlocked primitives v encoded passphrase).2 := by
  obtain ⟨i, hi⟩ := (exists_ingredients_iff horderly hiterations h.read).mpr ⟨secret, key, h⟩
  obtain ⟨cell, calls, w, hrun, hspent⟩ := SecretKey.generate_within_of_ok
    (StoredPassword.uses_unlockUnder (.over primitives) x) hi
  rw [unlocked_of_read h.read]
  exact congrArg Prod.snd hrun ▸ hspent

theorem keys_of_not_derives
    (h : ∀ x secret key, ¬Derives primitives v encoded passphrase x secret key) :
    (unlocked primitives v encoded passphrase).2.keys = v.keys := by
  cases hread : read (.text encoded) with
  | error failure => rw [unlocked_of_unread hread]
  | ok x =>
  rw [unlocked_of_read hread]
  cases hi : SecretKey.ingredients (.over primitives) v (.ofBytes x.envelope.keyId)
      (.text passphrase) (.ofBytes x.envelope.salt) .absent with
  | error failure =>
    obtain ⟨w, hrun, hkeys⟩ := SecretKey.generate_bind_of_error
      (fun key => SecretKey.within key (StoredPassword.unlockUnder (.over primitives) x key)) hi
    exact congrArg (fun run => run.2.keys) hrun ▸ hkeys
  | ok i =>
    obtain ⟨secret, key, hderives⟩ :=
      (exists_ingredients_iff horderly hiterations hread).mp ⟨i, hi⟩
    exact absurd hderives (h x secret key)

end Steps

theorem sparing_unlock (codecs : Codecs) (suite : Suite) (encoded passphrase : Argument)
    (charset : String) {written : List Cell} :
    (unlock codecs suite encoded passphrase charset).Sparing written := by
  refine (Action.sparing_lift _).bind fun password => ?_
  refine (StoredPassword.sparing_unlock suite password _).bind fun clear => ?_
  exact Action.sparing_lift _

/-- Nothing is given up, and nothing is left to be. -/
theorem quiet_unlocked (primitives : Primitives) (v : Vault) (encoded passphrase : Text) :
    (unlocked primitives v encoded passphrase).2.abandonments = v.abandonments ∧
      ∀ key, v.keys.length ≤ key →
        (SecretKey.abandon key (unlocked primitives v encoded passphrase).2).2 =
          (unlocked primitives v encoded passphrase).2 := by
  have hsparing : (unlock (fun _ => none) (.over primitives) (.text encoded) (.text passphrase)
      "utf-8").Sparing [] := sparing_unlock ..
  refine ⟨hsparing.abandonments v, fun key hkey => ?_⟩
  exact SecretKey.abandon_of_not_live (hsparing.spare v hkey)

/-- What the outcome of unlocking a text form tells, and what is left behind. -/
structure Confined (primitives : Primitives) (v : Vault) (encoded passphrase : Text)
    (outcome : Except Failure Text) (after : Vault) : Prop where
  /-- Callers who guard against invalid values guard against every failure. -/
  invalidValue : ∀ failure, outcome = .error failure →
    failure.category.within .invalidValue = true
  /-- Parse failures are those of reading. -/
  parse : ∀ failure, failure.category.within .parse = true →
    (outcome = .error failure ↔ read (.text encoded) = .error failure)
  /-- Authentication fails exactly if the tag does not verify under a key that was derived, and
  fails in one way only. -/
  authentication : ∀ failure,
    (outcome = .error failure ∧ failure.category.within .authentication = true) ↔
      failure = .authentication ∧ Refused primitives v encoded passphrase
  /-- The number of zeros and the key ID make no difference to that. -/
  relabelled : ∀ other x y, read (.text encoded) = .ok x → read (.text other) = .ok y →
    y.envelope.salt = x.envelope.salt → y.envelope.vector = x.envelope.vector →
    y.envelope.ciphertext = x.envelope.ciphertext →
      ((unlocked primitives v other passphrase).1 = .error .authentication ↔
        outcome = .error .authentication)
  /-- Padding is looked at only after the tag has been verified. -/
  padding : ∀ failure, outcome = .error failure → failure.category.within .padding = true →
    ∃ x secret key padded, Derives primitives v encoded passphrase x secret key ∧
      decrypted primitives v x secret key = .ok padded
  /-- Other failures of the primitives are reported as such, with the cause. -/
  derivation : ∀ x secret cause, read (.text encoded) = .ok x →
    (Argument.text passphrase).secretOctets .passphrase = .ok secret →
    derived primitives v x secret = .error cause →
      outcome = .error (.derivation cause) ∧ (Failure.derivation cause).category = .security
  decryption : ∀ x secret key cause, Derives primitives v encoded passphrase x secret key →
    decrypted primitives v x secret key = .error cause → cause.isInvalidTag = false →
      outcome = .error (.decryption cause) ∧ (Failure.decryption cause).category = .security
  /-- The key has been destroyed, if one was made. -/
  spent : ∀ x secret key, Derives primitives v encoded passphrase x secret key →
    SecretKey.Spent v after
  noneMade : (∀ x secret key, ¬Derives primitives v encoded passphrase x secret key) →
    after.keys = v.keys
  /-- No key was given up before it was destroyed, and none is left to be. -/
  quiet : after.abandonments = v.abandonments ∧
    ∀ key, v.keys.length ≤ key → (SecretKey.abandon key after).2 = after

/-- **Failures of unlocking a text form are confined**, whatever orderly primitives answer and
whatever other encodings a platform has. The standard suite is made of such primitives. -/
theorem unlock_confined :
    (∀ (codecs : Codecs) (primitives : Primitives) (v : Vault) (encoded passphrase : Text),
      primitives.Orderly → v.settings.number < Primitives.iterationsBound →
        Confined primitives v encoded passphrase
          (unlock codecs (.over primitives) (.text encoded) (.text passphrase) "utf-8" v).1
          (unlock codecs (.over primitives) (.text encoded) (.text passphrase) "utf-8" v).2) ∧
    ∀ entropy, Suite.standard entropy = .over (.standard entropy) ∧
      (Primitives.standard entropy).Orderly := by
  refine ⟨?_, fun entropy => ⟨Suite.standard_eq_over entropy, Primitives.standard_orderly entropy⟩⟩
  intro codecs primitives v encoded passphrase horderly hiterations
  rw [unlock_eq_unlocked]
  have hends := ends_unlocked horderly hiterations encoded passphrase
  have hrefused : ∀ other, (unlocked primitives v other passphrase).1 = .error .authentication ↔
      Refused primitives v other passphrase :=
    fun other => fst_unlocked_eq_authentication_iff horderly hiterations
  refine ⟨?_, ?_, ?_, ?_, ?_, ?_, ?_, ?_, ?_, ?_⟩
  · intro failure hfailure
    exact Ends.within_invalidValue (hfailure ▸ hends)
  · intro failure hparse
    refine ⟨fun hfailure => Ends.read_eq (hfailure ▸ hends) hparse, fun hread => ?_⟩
    exact congrArg Prod.fst (unlocked_of_unread hread)
  · intro failure
    constructor
    · rintro ⟨hfailure, hauthentication⟩
      obtain rfl := Ends.eq_authentication (hfailure ▸ hends) hauthentication
      exact ⟨rfl, (hrefused encoded).mp hfailure⟩
    · rintro ⟨rfl, h⟩
      exact ⟨(hrefused encoded).mpr h, rfl⟩
  · intro other x y hx hy hsalt hvector hciphertext
    refine (hrefused other).trans (Iff.trans ?_ (hrefused encoded).symm)
    constructor
    · exact fun h => h.relabel hy hx hsalt.symm hvector.symm hciphertext.symm
    · exact fun h => h.relabel hx hy hsalt hvector hciphertext
  · intro failure hfailure hpadding
    exact Ends.exists_decrypted (hfailure ▸ hends) hpadding
  · intro x secret cause hread hsecret hcause
    exact ⟨fst_unlocked_of_underived horderly hiterations hread hsecret hcause, rfl⟩
  · intro x secret key cause hderives hcause htag
    exact ⟨fst_unlocked_of_undecrypted horderly hiterations hderives hcause htag, rfl⟩
  · exact fun x secret key h => spent_of_derives horderly hiterations h
  · exact keys_of_not_derives horderly hiterations
  · exact quiet_unlocked primitives v encoded passphrase

/-- A ciphertext of one octet has no room for a tag, so that the standard suite does not accept it
under any passphrase. -/
theorem unlock_confined_short :
    (unlock (fun _ => none) (.standard (.ofSeed [7]))
      (.text ((StoredPassword.ofEnvelope (Envelope.shortest 0)).text true))
      (.text (Text.ofString "pw")) "utf-8" (.ofSettings (.ofEnvironment []))).1 =
        .error .authentication := by
  have hlayout : Envelope.read (Envelope.layout (Envelope.shortest 0)) =
      .ok (Envelope.shortest 0) := by cbv
  have hread := (StoredPassword.decode_ofEnvelope (Envelope.eq_layout_of_read hlayout).1).2 true
  let x := StoredPassword.ofEnvelope (Envelope.shortest 0)
  let v := Vault.ofSettings (.ofEnvironment [])
  let primitives := Primitives.standard (.ofSeed [7])
  have hspelled : (Argument.text (Text.ofString "pw")).secretOctets .passphrase = .ok [112, 119] :=
    by decide
  let key := Pbkdf2.derive [112, 119] (Bytes.zeros 16) 32768 32
  have hkey : derived primitives v x [112, 119] = .ok key := rfl
  have hcause : decrypted primitives v x [112, 119] key = .error (.reported .invalidTag "") := by
    have haccepted : Standard.cipherKey (.octets .buffer key) = .ok key :=
      Suite.cipherKey_eq (Pbkdf2.length_derive ..)
    show Standard.cipherKey (.octets .buffer key) >>= _ = _
    rw [haccepted]
    rfl
  obtain ⟨hunlock, hstandard⟩ := unlock_confined
  obtain ⟨hover, horderly⟩ := hstandard (.ofSeed [7])
  have hconfined := hunlock (fun _ => none) primitives v (x.text true) (Text.ofString "pw")
    horderly (by decide)
  rw [hover]
  exact ((hconfined.authentication .authentication).mpr
    ⟨rfl, x, _, key, _, ⟨hread, hspelled, hkey⟩, hcause, rfl⟩).1

end TextPassword

end PasswordVault
