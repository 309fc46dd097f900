import PasswordVault.Proofs.StoredPassword.Equality
import PasswordVault.Proofs.StoredPassword.Naming

/-!
# Spellings of a key ID

A key ID that is given as text may be spelt in many ways, with digits of either letter case and with
blanks between groups. What is shown of it afterwards is the same for all of them.

## Main definitions

- `KeyId.TakenFrom` — the key IDs of keys and stored passwords that were made from a text

`KeyId.TakenFrom.ofArgument_eq` says that whatever was made from a text has the octets that the text
denotes, and `KeyId.spelling_canonical` when two spellings agree and what is shown.
-/

namespace PasswordVault.KeyId

open Hexadecimal (Denotes canonical blanks)

variable {s : Text} {id : Bytes}

/-- The key ID of something that was made from a text: of a key that was generated or created, of a
stored password that was locked with the text or under such a key, or of a copy of one. -/
inductive TakenFrom (s : Text) : Bytes → Prop
  | generated {suite : Suite} {passphrase salt iterations : Argument} {key : KeyRef}
    {record : KeyRecord} {v w : Vault}
    (h : SecretKey.generate suite (.text s) passphrase salt iterations v = (.ok key, w))
    (hrecord : w.keys[key]? = some record) : TakenFrom s record.keyId
  | created {salt : Argument} {material : Material} {key : KeyRef} {record : KeyRecord}
    {v w : Vault} (h : SecretKey.create (.text s) salt material v = (.ok key, w))
    (hrecord : w.keys[key]? = some record) : TakenFrom s record.keyId
  | locked {suite : Suite} {passphrase clearText salt vector : Argument} {x : StoredPassword}
    {v w : Vault}
    (h : StoredPassword.lock suite (.text s) passphrase clearText salt vector v = (.ok x, w)) :
    TakenFrom s x.envelope.keyId
  | lockedWith {suite : Suite} {key : KeyRef} {record : KeyRecord} {vector clearText : Argument}
    {x : StoredPassword} {v w : Vault} (hkey : TakenFrom s record.keyId)
    (hrecord : v.keys[key]? = some record)
    (h : StoredPassword.lockWith suite (.key key) vector clearText v = (.ok x, w)) :
    TakenFrom s x.envelope.keyId
  | copied {x y : StoredPassword} (hx : TakenFrom s x.envelope.keyId) (hobtained : x.Obtained)
    (h : x.CopyOf y) : TakenFrom s y.envelope.keyId

/-- **The octets of a spelling are kept**, by keys and by stored passwords. -/
theorem TakenFrom.ofArgument_eq (h : TakenFrom s id) : ofArgument (.text s) = .ok id := by
  induction h with
  | generated h hrecord =>
    obtain ⟨i, cell, hi, rfl, hmade⟩ := SecretKey.made_of_generate h
    obtain rfl := Option.some.inj (hmade.live.record.symm.trans hrecord)
    exact (SecretKey.ingredients_eq_ok_iff.mp hi).1
  | created h hrecord =>
    obtain ⟨octets, salt, secret, hid, -, -, -, -, rfl, rfl⟩ := SecretKey.create_eq_ok h
    obtain rfl := Option.some.inj (List.getElem?_concat_length.symm.trans hrecord)
    exact hid
  | locked h => exact (StoredPassword.stored_of_lock h).2.1
  | lockedWith hkey hrecord h ih =>
    obtain ⟨key, record, ⟨⟩, hstored, hkeyId⟩ := StoredPassword.stored_of_lockWith h
    obtain rfl := Option.some.inj (hrecord.symm.trans hstored)
    rw [hkeyId]
    exact ih
  | copied hx hobtained h ih =>
    obtain rfl := hobtained.eq_of_same h.obtained (StoredPassword.same_iff.mpr h.representation)
    exact ih

/-- **Key IDs in text.** A text is a key ID exactly if it consists of groups of two digits, with
blanks around but not inside them, for at most 255 octets; any other is refused as an unusable
value. What is shown of a key ID stands for it. Neither the letter case of a text nor blanks between
its groups make a difference, and two texts are the same key ID exactly if they are the same without
blanks and in upper case. That form is what keys and stored passwords show that were made from a
text. -/
theorem spelling_canonical :
    (∀ s id, ofArgument (.text s) = .ok id ↔ Denotes s id ∧ id.length ≤ 255) ∧
    (∀ s, (∀ id, ¬(Denotes s id ∧ id.length ≤ 255)) →
      ∃ error, ofArgument (.text s) = .error (.field error) ∧
        (Failure.field error).category = .invalidValue) ∧
    (∀ id, id.length ≤ 255 → ofArgument (.text (Text.ofString (shown id))) = .ok id) ∧
    (∀ s t, s.map CodePoint.upper = t.map CodePoint.upper →
      ofArgument (.text s) = ofArgument (.text t)) ∧
    (∀ s gap t octets id, Denotes s octets → (∀ c ∈ gap, c ∈ blanks) →
      (ofArgument (.text (s ++ gap ++ t)) = .ok id ↔ ofArgument (.text (s ++ t)) = .ok id)) ∧
    (∀ s t id id', ofArgument (.text s) = .ok id → ofArgument (.text t) = .ok id' →
      (id = id' ↔ canonical s = canonical t)) ∧
    (∀ s id, TakenFrom s id → shown id = (canonical s).toString) ∧
    ∀ suite s passphrase clearText marked v text w,
      TextPassword.lock suite (.text s) passphrase clearText marked v = (.ok text, w) →
        TextPassword.keyId (.text text) = .ok (canonical s).toString := by
  refine ⟨fun _ _ => ofArgument_text_eq_ok_iff, ?_, fun _ => ofArgument_shown, ?_, ?_, ?_, ?_, ?_⟩
  · intro s h
    by_cases hdenotes : ∃ octets, Denotes s octets
    · obtain ⟨octets, hoctets⟩ := hdenotes
      have hlong : Envelope.maxKeyIdLength < octets.length :=
        Nat.lt_of_not_le fun hle => h octets ⟨hoctets, hle⟩
      exact ⟨_, ofArgument_text_of_long hoctets hlong, rfl⟩
    · obtain ⟨position, hposition⟩ := ofArgument_text_of_not_denotes (not_exists.mp hdenotes)
      exact ⟨_, hposition, rfl⟩
  · intro s t h
    rw [← ofArgument_text_upper s, h, ofArgument_text_upper]
  · intro s gap t octets id hs hgap
    rw [ofArgument_text_eq_ok_iff, ofArgument_text_eq_ok_iff,
      Hexadecimal.denotes_insert_iff hs hgap]
  · intro s t id id' hs ht
    exact Hexadecimal.eq_iff_canonical_eq (ofArgument_text_eq_ok_iff.mp hs).1
      (ofArgument_text_eq_ok_iff.mp ht).1
  · intro s id h
    exact shown_eq_canonical h.ofArgument_eq
  · intro suite s passphrase clearText marked v text w h
    obtain ⟨x, u, hlocked, htext⟩ := Action.bind_eq_ok h
    obtain ⟨-, hid, hdecode⟩ := StoredPassword.stored_of_lock hlocked
    cases htext
    rw [TextPassword.keyId, TextPassword.read, hdecode]
    exact congrArg Except.ok (shown_eq_canonical hid)

/-- A key that is generated for a text of mixed letter case and with blanks shows its canonical
form, and the same text in another letter case and without blanks is the same key ID. -/
theorem spelling_canonical_mixed :
    ∃ key record v,
      SecretKey.generate StoredPassword.zeroOctets (.text (Text.ofString " 0a fF")) (.text [112])
        (.ofBytes (.zeros 16)) .absent (Vault.ofSettings (.ofEnvironment [])) = (.ok key, v) ∧
      v.keys[key]? = some record ∧ shown record.keyId = "0AFF" ∧
      ofArgument (.text (Text.ofString "0aff")) = .ok record.keyId := by
  have hrun : ∃ key record v, SecretKey.generate StoredPassword.zeroOctets
      (.text (Text.ofString " 0a fF")) (.text [112]) (.ofBytes (.zeros 16)) .absent
      (Vault.ofSettings (.ofEnvironment [])) = (.ok key, v) ∧ v.keys[key]? = some record :=
    ⟨_, _, _, by rfl, by rfl⟩
  obtain ⟨key, record, v, hgenerate, hrecord⟩ := hrun
  have htaken : TakenFrom (Text.ofString " 0a fF") record.keyId := .generated hgenerate hrecord
  obtain ⟨-, -, hread, hcase, -, -, hshown, -⟩ := spelling_canonical
  have hform : shown record.keyId = "0AFF" := hshown _ _ htaken
  refine ⟨key, record, v, hgenerate, hrecord, hform, ?_⟩
  have hround := hread record.keyId (length_le_of_ofArgument htaken.ofArgument_eq)
  rw [hform] at hround
  rw [← hround]
  exact hcase _ _ (by decide)

end PasswordVault.KeyId
