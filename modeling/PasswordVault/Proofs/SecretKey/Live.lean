import PasswordVault.Proofs.KeyId
import PasswordVault.Proofs.Vault.Runs
import PasswordVault.SecretKey

/-!
# The life of a secret key

A key is created at the end of the list of keys. It gives the secret in its buffer as long as its
record and that buffer stay where they are.

## Main definitions

- `SecretKey.Live` — a key that has not been destroyed, with its fields and its secret

`SecretKey.create_eq` runs the creation of a key around a buffer, and `SecretKey.Live.secret_eq`
says what a live key gives. `SecretKey.within_eq` destroys a key after an action that used it.
-/

namespace PasswordVault.SecretKey

variable {suite : Suite} {v w : Vault}

/-- A key has not been destroyed, and its secret is in a buffer. -/
structure Live (v : Vault) (key : KeyRef) (cell : Cell) (keyId salt content : Bytes) : Prop where
  record : v.keys[key]? = some { keyId, salt, material := .buffer cell, destroyed := false }
  content : v.cells[cell]? = some content

theorem record_eq {key : KeyRef} {r : KeyRecord} (h : v.keys[key]? = some r) :
    record key v = (.ok r, v) := by
  rw [record, Action.bind_of_ok (Action.vault_apply v), h]
  rfl

theorem record_eq_of_none {key : KeyRef} (h : v.keys[key]? = none) :
    record key v = (.error (.unknownName ""), v) := by
  rw [record, Action.bind_of_ok (Action.vault_apply v), h]
  rfl

theorem record_eq_ok {key : KeyRef} {r : KeyRecord} {v w : Vault}
    (h : record key v = (.ok r, w)) : v.keys[key]? = some r := by
  rw [record, Action.bind_of_ok (Action.vault_apply v)] at h
  cases hfound : v.keys[key]? with
  | none =>
    rw [hfound] at h
    cases h
  | some found =>
    rw [hfound] at h
    cases h
    rfl

theorem present_buffer {cell : Cell} {content : Bytes} (h : v.cells[cell]? = some content) :
    present (.buffer cell) v = (.ok (.octets .buffer content), v) := by
  have hcontent : Action.content cell v = (.ok content, v) := by
    rw [Action.content_apply, List.getD_eq_getElem?_getD, h]
    rfl
  rw [present, Action.bind_of_ok hcontent]
  rfl

/-- Looking at the secret of a key changes nothing. -/
theorem secret_snd (key : KeyRef) (v : Vault) : (secret key v).2 = v := by
  -- A key that is gone or destroyed fails, and a live one shows its material.
  cases hrecord : v.keys[key]? with
  | none =>
    rw [secret, Action.bind_of_error (record_eq_of_none hrecord)]
  | some r =>
    rw [secret, Action.bind_of_ok (record_eq hrecord)]
    cases hd : r.destroyed with
    | true => rfl
    | false =>
      show (present r.material v).2 = v
      cases r.material <;> rfl

theorem Live.secret_eq {key : KeyRef} {cell : Cell} {keyId salt content : Bytes}
    (h : Live v key cell keyId salt content) :
    secret key v = (.ok (.octets .buffer content), v) := by
  rw [secret, Action.bind_of_ok (record_eq h.record)]
  exact present_buffer h.content

/-- A key stays live while keys and buffers are only added. -/
theorem Live.mono {key : KeyRef} {cell : Cell} {keyId salt content : Bytes}
    (h : Live v key cell keyId salt content) (hk : v.keys <+: w.keys) (hc : v.cells <+: w.cells) :
    Live w key cell keyId salt content :=
  ⟨Vault.getElem?_of_prefix hk h.record, Vault.getElem?_of_prefix hc h.content⟩

/-- Destroying a live key overwrites its secret and marks it. -/
theorem Live.destroy_eq {key : KeyRef} {cell : Cell} {keyId salt content : Bytes}
    (h : Live v key cell keyId salt content) :
    destroy key v = (.ok (),
      { v with
        cells := v.cells.set cell content.cleared
        keys := v.keys.modify key fun record => { record with destroyed := true } }) := by
  have hcontent : v.cells.getD cell [] = content := by
    rw [List.getD_eq_getElem?_getD, h.content]
    rfl
  rw [destroy, Action.bind_of_ok (record_eq h.record), wipeMaterial,
    Action.bind_of_ok (Action.wipe_apply cell v), hcontent]
  rfl

/-- A live key is destroyed after an action that leaves it live. -/
theorem within_eq {α : Type} {body : Action α} {outcome : Except Failure α} {key : KeyRef}
    {cell : Cell} {keyId salt content : Bytes} (hb : body v = (outcome, w))
    (hlive : Live w key cell keyId salt content) :
    within key body v = (outcome,
      { w with
        cells := w.cells.set cell content.cleared
        keys := w.keys.modify key fun record => { record with destroyed := true } }) :=
  Action.ensuring_eq hb hlive.destroy_eq

/-- A key is created around a buffer if that has the length of a secret. -/
theorem create_eq {id s content : Bytes} {cell : Cell} (hid : id.length ≤ Envelope.maxKeyIdLength)
    (hs : s.length = Envelope.saltLength) (hcell : v.cells[cell]? = some content) :
    create (.ofBytes id) (.ofBytes s) (.buffer cell) v =
      if content.length = keyLength then
        (.ok v.keys.length,
          { v with keys := v.keys ++
            [{ keyId := id, salt := s, material := .buffer cell, destroyed := false }] })
      else (.error (.field (.keyLength content.length)), v) := by
  have hsalt : Action.lift (Argument.ofBytes s).length v = (.ok s.length, v) := rfl
  have hmaterial : Action.lift (Argument.octets .buffer content).length v =
      (.ok content.length, v) := rfl
  have hkeyId : Action.lift (KeyId.ofArgument (.ofBytes id)) v = (.ok id, v) := by
    rw [Action.lift_apply, KeyId.ofArgument_ofBytes hid]
  have hcopy : Action.lift ((Argument.ofBytes s).toBytes .constant) v = (.ok s, v) := rfl
  rw [create, Action.bind_of_ok hsalt, if_neg (not_not_intro hs)]
  dsimp only
  rw [Action.bind_of_ok (present_buffer hcell), Action.bind_of_ok hmaterial]
  by_cases hlength : content.length = keyLength
  · rw [if_pos hlength, if_neg (not_not_intro hlength)]
    rw [Action.bind_of_ok hkeyId, Action.bind_of_ok hcopy]
    rfl
  · rw [if_neg hlength, if_pos hlength]
    rfl

end PasswordVault.SecretKey
