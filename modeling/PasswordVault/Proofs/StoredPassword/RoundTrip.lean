import PasswordVault.Proofs.Argument.Secrets
import PasswordVault.Proofs.SecretKey.Generation
import PasswordVault.Proofs.StoredPassword.Unlocking
import PasswordVault.Proofs.Suite.Faithful
import PasswordVault.TextPassword

/-!
# What was locked is unlocked

With a faithful suite a clear text comes back from its stored password, through octets or either
text form, with the passphrase or with a key derived from it, as long as the settings give the same
number of iterations.

## Main definitions

- `Argument.FixedOrDrawn` — a salt or a vector of sixteen octets, or one that is left to be drawn

`StoredPassword.lock_eq_ok` runs locking with a faithful suite, and `StoredPassword.unlock_lock` is
the round trip.
-/

namespace PasswordVault

/-- Sixteen octets are given, or are left to be drawn. -/
def Argument.FixedOrDrawn (value : Argument) : Prop :=
  value = .absent ∨ ∃ octets, value.toBytes .constant = .ok octets ∧ octets.length = 16

variable {suite : Suite} {v w : Vault}

namespace SecretKey

/-- A suite that derives keys derives the same secret whenever a key is made of one passphrase and
salt under the same settings. -/
theorem ingredients_of_derives {derive : Bytes → Bytes → Bytes} {keyId passphrase salt : Argument}
    {id s secret : Bytes}
    (hderive : suite.Derives (v.settings.iterations (.integer standardIterations)) derive)
    (hid : KeyId.ofArgument keyId = .ok id) (hsalt : salt.toBytes .constant = .ok s)
    (hs : s.length = Envelope.saltLength)
    (hsecret : passphrase.secretOctets .passphrase = .ok secret) :
    ingredients suite v keyId passphrase salt .absent = .ok ⟨id, s, derive secret s⟩ := by
  obtain ⟨form, hanswer, hlength⟩ := hderive v.calls secret s
  exact ingredients_eq_ok_iff.mpr ⟨hid, hsalt, hs, ⟨secret, _, hsecret, hanswer, rfl⟩, hlength⟩

end SecretKey

namespace StoredPassword

/-! ### Locking -/

theorem givenOrDrawn_eq {iterations value : Argument} (hsuite : suite.Faithful iterations)
    (hvalue : value.FixedOrDrawn) :
    ∃ given octets calls, givenOrDrawn suite 16 value v = (.ok given, { v with calls }) ∧
      given.toBytes .constant = .ok octets ∧ octets.length = 16 := by
  rcases hvalue with rfl | ⟨octets, hoctets, hlength⟩
  · obtain ⟨form, octets, hanswer, hlength⟩ := hsuite.draws v.calls
    refine ⟨.octets form octets, octets, v.calls ++ [.randomBytes 16], ?_, rfl, hlength⟩
    rw [givenOrDrawn, Action.ask_apply, hanswer]
  · refine ⟨value, octets, v.calls, ?_, hoctets, hlength⟩
    cases value with
    | absent => cases hoctets
    | _ => rfl

theorem isEmptyClearText_of_spells {clearText : Argument} {clear : Bytes}
    (h : clearText.Spells clear) (hne : clear ≠ []) : isEmptyClearText clearText = false := by
  cases h with
  | octets form => exact List.isEmpty_eq_false_iff.mpr hne
  | @text t _ =>
    refine List.isEmpty_eq_false_iff.mpr ?_
    rintro rfl
    exact hne rfl

/-- Once the key ID and the clear text have been checked, locking draws what is not given and uses a
key of its own. -/
theorem lock_eq {keyId : Argument} {id : Bytes} (hid : KeyId.ofArgument keyId = .ok id)
    (hne : id ≠ []) (passphrase clearText salt vector : Argument) :
    lock suite keyId passphrase clearText salt vector v =
      if isEmptyClearText clearText then (.error (.field .emptyClearText), v)
      else (do
        let salt ← givenOrDrawn suite Envelope.saltLength salt
        let vector ← givenOrDrawn suite Envelope.vectorLength vector
        let key ← SecretKey.generate suite (.ofBytes id) passphrase salt .absent
        SecretKey.within key (lockUnder suite key vector clearText)) v := by
  have hfirst : Action.lift (KeyId.ofArgument keyId) v = (.ok id, v) := by
    rw [Action.lift_apply, hid]
  have hidEmpty : id.isEmpty = false := List.isEmpty_eq_false_iff.mpr hne
  rw [lock, Action.bind_of_ok hfirst, if_neg (by rw [hidEmpty]; decide)]
  dsimp only
  by_cases hempty : isEmptyClearText clearText
  · rw [if_pos hempty, if_pos hempty]
    rfl
  · rw [if_neg hempty, if_neg hempty]

/-- **Locking with a faithful suite** succeeds. What the suite encrypted can be decrypted at any
later time under the secret that it derives from the passphrase and the salt stored. -/
theorem lock_eq_ok {derive : Bytes → Bytes → Bytes}
    {keyId passphrase clearText salt vector : Argument} {id secret clear : Bytes}
    (hsuite : suite.Faithful (v.settings.iterations (.integer SecretKey.standardIterations)))
    (hderive : suite.Derives (v.settings.iterations (.integer SecretKey.standardIterations)) derive)
    (hid : KeyId.ofArgument keyId = .ok id) (hidNonempty : id ≠ [])
    (hsecret : passphrase.Spells secret) (hclear : clearText.Spells clear) (hnonempty : clear ≠ [])
    (hsalt : salt.FixedOrDrawn) (hvector : vector.FixedOrDrawn) :
    ∃ s iv ciphertext after,
      lock suite keyId passphrase clearText salt vector v =
        (.ok (ofEnvelope (lockedFields id s iv clear ciphertext)), after) ∧
      after.settings = v.settings ∧ s.length = 16 ∧ iv.length = 16 ∧ ciphertext ≠ [] ∧
      suite.Opens (derive secret s) iv ciphertext (Padding.add clear).1 := by
  have hidLength := KeyId.length_le_of_ofArgument hid
  obtain ⟨givenSalt, s, calls, hgivenSalt, hs, hsLength⟩ :=
    @givenOrDrawn_eq suite v _ _ hsuite hsalt
  obtain ⟨givenVector, iv, calls', hgivenVector, hiv, hivLength⟩ :=
    @givenOrDrawn_eq suite { v with calls } _ _ hsuite hvector
  have hi := @SecretKey.ingredients_of_derives suite { v with calls := calls' } derive (.ofBytes id)
    _ _ _ _ _ hderive (KeyId.ofArgument_ofBytes hidLength) hs hsLength
    (Argument.secretOctets_eq_ok_iff.mpr hsecret)
  obtain ⟨cell, asked, after, hlocked, hspent⟩ :=
    SecretKey.generate_within_of_ok (uses_lockUnder suite givenVector clearText) hi
  -- Encryption is asked for after the calls that were made up to then.
  have hderived : (derive secret s).length = 32 := (hderive [] secret s).choose_spec.2
  obtain ⟨form, ciphertext, hanswer, hciphertext, hopens⟩ :=
    hsuite.exists_opens asked (Padding.add clear).1 hderived hivLength
  rw [sealed_eq_ok ⟨hsLength, hidLength⟩ hiv hivLength
    (Argument.secretOctets_eq_ok_iff.mpr hclear) hnonempty hciphertext hanswer] at hlocked
  have hrun : lock suite keyId passphrase clearText salt vector v =
      (SecretKey.generate suite (.ofBytes id) passphrase givenSalt .absent >>= fun key =>
        SecretKey.within key (lockUnder suite key givenVector clearText))
        { v with calls := calls' } := by
    rw [lock_eq hid hidNonempty, isEmptyClearText_of_spells hclear hnonempty, if_neg (by decide)]
    exact (Action.bind_of_ok hgivenSalt).trans (Action.bind_of_ok hgivenVector)
  exact ⟨s, iv, ciphertext, after, hrun.trans hlocked, hspent.settings, hsLength, hivLength,
    hciphertext, hopens⟩

/-! ### Unlocking -/

/-- The passphrase unlocks what was locked. -/
theorem unlock_lockedFields {derive : Bytes → Bytes → Bytes} {passphrase : Argument}
    {id s secret iv clear ciphertext : Bytes}
    (hderive : suite.Derives (v.settings.iterations (.integer SecretKey.standardIterations)) derive)
    (hid : id.length ≤ Envelope.maxKeyIdLength) (hs : s.length = 16)
    (hsecret : passphrase.Spells secret)
    (hopens : suite.Opens (derive secret s) iv ciphertext (Padding.add clear).1) :
    (unlock suite (ofEnvelope (lockedFields id s iv clear ciphertext)) (.value passphrase) v).1 =
      .ok clear := by
  have hi := SecretKey.ingredients_of_derives hderive (KeyId.ofArgument_ofBytes hid)
    (Argument.toBytes_ofBytes .constant s) hs (Argument.secretOctets_eq_ok_iff.mpr hsecret)
  obtain ⟨cell, calls, after, hrun, -⟩ :=
    SecretKey.generate_within_of_ok (uses_unlockUnder suite _) hi
  exact (congrArg Prod.fst hrun).trans (opened_lockedFields hopens calls)

/-- A key that is generated from the passphrase for the salt stored unlocks what was locked, as long
as it gives the secret that it was generated with. -/
theorem unlock_generated {derive : Bytes → Bytes → Bytes} {keyId passphrase salt : Argument}
    {id id' s secret iv clear ciphertext : Bytes}
    (hderive : suite.Derives (v.settings.iterations (.integer SecretKey.standardIterations)) derive)
    (hid : KeyId.ofArgument keyId = .ok id') (hsalt : salt.toBytes .constant = .ok s)
    (hs : s.length = 16) (hsecret : passphrase.Spells secret)
    (hopens : suite.Opens (derive secret s) iv ciphertext (Padding.add clear).1) :
    ∃ key made, SecretKey.generate suite keyId passphrase salt .absent v = (.ok key, made) ∧
      ∀ later, (SecretKey.secret key later).1 = (SecretKey.secret key made).1 →
        (unlock suite (ofEnvelope (lockedFields id s iv clear ciphertext)) (.key key) later).1 =
          .ok clear := by
  obtain ⟨cell, made, hgenerate, hmade⟩ := SecretKey.generate_of_ok
    (SecretKey.ingredients_of_derives hderive hid hsalt hs
      (Argument.secretOctets_eq_ok_iff.mpr hsecret))
  refine ⟨_, made, hgenerate, ?_⟩
  intro later hlater
  rw [hmade.live.secret_eq] at hlater
  have hstill : SecretKey.secret v.keys.length later =
      (.ok (.octets .buffer (derive secret s)), later) :=
    Prod.ext hlater (SecretKey.secret_snd _ later)
  obtain ⟨unlocked, hunlocked, -⟩ := unlockUnder_run suite
    (ofEnvelope (lockedFields id s iv clear ciphertext)) hstill
  exact (congrArg Prod.fst hunlocked).trans (opened_lockedFields hopens later.calls)

end StoredPassword

namespace TextPassword

theorem inCharset_utf8 (codecs : Codecs) {t : Text} (h : ∀ c ∈ t, c.isSurrogate = false) :
    inCharset codecs "utf-8" (t.flatMap Utf8.encodePoint) = .ok t := by
  have hnul : "utf-8".toList.contains '\x00' = false := by decide
  have hname : Charset.ofName? "utf-8" = some .utf8 := by decide
  have hdecode : Utf8.decode (t.flatMap Utf8.encodePoint) = .ok t :=
    Utf8.decode_of_encode (Utf8.encode_eq_ok_iff.mpr ⟨h, rfl⟩)
  rw [inCharset, hnul, if_neg (by decide), hname]
  cases hempty : (t.flatMap Utf8.encodePoint).isEmpty with
  | true =>
    -- No octets are the empty text without being decoded.
    rw [List.isEmpty_iff.mp hempty] at hdecode
    have ht : (Except.ok [] : Except DecodingError Text) = .ok t := hdecode
    exact congrArg Except.ok (Except.ok.inj ht)
  | false => simp only [Charset.decode, hdecode, Bool.false_eq_true, if_false]

/-- A text form whose stored password gives the octets of a text in UTF-8 gives that text. -/
theorem unlock_of_decode (codecs : Codecs) {x : StoredPassword} {encoded t : Text}
    {passphrase : Argument} (hdecode : StoredPassword.decode (.text encoded) = .ok x)
    (ht : ∀ c ∈ t, c.isSurrogate = false)
    (hclear : (x.unlock suite (.value passphrase) v).1 = .ok (t.flatMap Utf8.encodePoint)) :
    (unlock codecs suite (.text encoded) passphrase "utf-8" v).1 = .ok t := by
  have hread : Action.lift (read (.text encoded)) v = (.ok x, v) := by
    rw [Action.lift_apply, read, hdecode]
  have hunlock : x.unlock suite (.value passphrase) v =
      (.ok (t.flatMap Utf8.encodePoint), (x.unlock suite (.value passphrase) v).2) :=
    Prod.ext hclear rfl
  rw [unlock, Action.bind_of_ok hread, Action.bind_of_ok hunlock]
  exact inCharset_utf8 codecs ht

end TextPassword

namespace StoredPassword

/-- **What was locked is unlocked.** With a faithful suite, locking a clear text under a key ID and
a passphrase succeeds. The octets of the result and both its texts are read as the same stored
password, and from then on, whatever else has happened, it gives the clear text for the passphrase
and for every key that is generated for its key ID and salt. As text, the same holds for the text
form with any choice of marker, which also gives the key ID. -/
theorem unlock_lock {keyId passphrase clearText salt vector : Argument} {id secret clear : Bytes}
    (hsuite : suite.Faithful (v.settings.iterations (.integer SecretKey.standardIterations)))
    (hid : KeyId.ofArgument keyId = .ok id) (hidNonempty : id ≠ [])
    (hsecret : passphrase.Spells secret) (hclear : clearText.Spells clear) (hnonempty : clear ≠ [])
    (hsalt : salt.FixedOrDrawn) (hvector : vector.FixedOrDrawn) :
    (∃ x after, lock suite keyId passphrase clearText salt vector v = (.ok x, after) ∧
      after.settings = v.settings ∧ x.envelope.keyId = id ∧
      (∀ form, decode (.octets form x.representation) = .ok x) ∧
      (∀ marked, decode (.text (x.text marked)) = .ok x) ∧
      ∀ w, w.settings = v.settings →
        (x.unlock suite (.value passphrase) w).1 = .ok clear ∧
        ∀ keyId' salt', KeyId.ofArgument keyId' = .ok x.envelope.keyId →
          salt'.toBytes .constant = .ok x.envelope.salt →
          ∃ key made, SecretKey.generate suite keyId' passphrase salt' .absent w = (.ok key, made) ∧
            ∀ later, (SecretKey.secret key later).1 = (SecretKey.secret key made).1 →
              (x.unlock suite (.key key) later).1 = .ok clear) ∧
    ∀ marked t, clearText = .text t →
      ∃ encoded after,
        TextPassword.lock suite keyId passphrase clearText marked v = (.ok encoded, after) ∧
        after.settings = v.settings ∧
        TextPassword.keyId (.text encoded) = .ok (KeyId.shown id) ∧
        ∀ codecs w, w.settings = v.settings →
          (TextPassword.unlock codecs suite (.text encoded) passphrase "utf-8" w).1 = .ok t := by
  obtain ⟨derive, hderive⟩ := hsuite.exists_derives
  have hidLength := KeyId.length_le_of_ofArgument hid
  refine ⟨?_, ?_⟩
  · obtain ⟨s, iv, ciphertext, after, hlock, hsettings, hs, hiv, hciphertext, hopens⟩ :=
      lock_eq_ok hsuite hderive hid hidNonempty hsecret hclear hnonempty hsalt hvector
    have hdecode := decode_ofEnvelope (@readable_lockedFields id s iv clear ciphertext hidLength
      hidNonempty hs hiv hciphertext)
    refine ⟨_, after, hlock, hsettings, rfl, hdecode.1, hdecode.2, ?_⟩
    intro w hw
    -- A later vault has the same settings, and so derives keys with the same iterations.
    rw [← hw] at hderive
    refine ⟨unlock_lockedFields hderive hidLength hs hsecret hopens, ?_⟩
    intro keyId' salt' hkeyId' hsalt'
    exact unlock_generated hderive hkeyId' hsalt' hs hsecret hopens
  · rintro marked t rfl
    obtain ⟨s, iv, ciphertext, after, hlock, hsettings, hs, hiv, hciphertext, hopens⟩ :=
      lock_eq_ok hsuite hderive hid hidNonempty hsecret hclear hnonempty (Or.inl rfl) (Or.inl rfl)
    have hdecode := (decode_ofEnvelope (@readable_lockedFields id s iv clear ciphertext hidLength
      hidNonempty hs hiv hciphertext)).2
    refine ⟨_, after, Action.bind_of_ok hlock, hsettings, ?_, ?_⟩
    · rw [TextPassword.keyId, TextPassword.read, hdecode]
      rfl
    · intro codecs w hw
      rw [← hw] at hderive
      cases hclear with
      | text hscalar =>
        exact TextPassword.unlock_of_decode codecs (hdecode _) hscalar
          (unlock_lockedFields hderive hidLength hs hsecret hopens)

/-- The standard suite locks a text that ends in NUL under a key ID in hexadecimal, with a salt that
is drawn and a vector that is given, and unlocks it at once. -/
theorem unlock_lock_standard :
    ∃ x after, lock (.standard (.ofSeed [7])) (.text (Text.ofString "0a FF")) (.ofBytes [112])
        (.text [112, 233, 0]) .absent (.ofBytes (.zeros 16)) (.ofSettings (.ofEnvironment [])) =
          (.ok x, after) ∧
      x.envelope.keyId = [10, 255] ∧ decode (.text (x.text true)) = .ok x ∧
      (x.unlock (.standard (.ofSeed [7])) (.value (.ofBytes [112])) after).1 =
        .ok [112, 195, 169, 0] := by
  have hsuite : (Suite.standard (.ofSeed [7])).Faithful
      ((Vault.ofSettings (.ofEnvironment [])).settings.iterations
        (.integer SecretKey.standardIterations)) :=
    Suite.standard_faithful (fun draw => Entropy.length_ofSeed [7] draw 16) (by decide) (by decide)
  have hid : KeyId.ofArgument (.text (Text.ofString "0a FF")) = .ok [10, 255] := by rfl
  have hclear : Argument.Spells (.text [112, 233, 0]) [112, 195, 169, 0] :=
    Argument.secretOctets_eq_ok_iff.mp (show Argument.secretOctets .clearText _ = _ by rfl)
  have hsalt : Argument.FixedOrDrawn .absent := Or.inl rfl
  have hvector : Argument.FixedOrDrawn (.ofBytes (.zeros 16)) := Or.inr ⟨.zeros 16, rfl, rfl⟩
  obtain ⟨⟨x, after, hlock, hsettings, hkeyId, -, htext, hunlock⟩, -⟩ :=
    unlock_lock hsuite hid (by decide) (.octets .constant [112]) hclear (by decide) hsalt hvector
  exact ⟨x, after, hlock, hkeyId, htext true, (hunlock after hsettings).1⟩

end StoredPassword

end PasswordVault
