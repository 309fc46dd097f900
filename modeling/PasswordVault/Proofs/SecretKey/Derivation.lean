import PasswordVault.Proofs.SecretKey.Generation
import PasswordVault.Proofs.Suite.Dialogue

/-!
# What a key asks of a suite

Generating a key asks for one derivation, after everything that can be refused without it. A key
that has been destroyed gives no secret, so nothing can be asked with it.

## Main definitions

- `SecretKey.derivation` — the dialogue that makes the ingredients of a key
- `SecretKey.Yields` — a key that gives its secret, or one that has been destroyed

`SecretKey.generate_conducts` says that generating a key deals with the suite in this way.
-/

namespace PasswordVault.SecretKey

variable {suite : Suite} {v w : Vault} {keyId passphrase salt iterations : Argument}

/-- What a key is made of, as a suite answers. -/
def derivation (settings : Settings) (keyId passphrase salt iterations : Argument) :
    Dialogue Ingredients := do
  let keyId ← .done (KeyId.ofArgument keyId)
  let salt ← .done (salt.toBytesOf .constant Envelope.saltLength
    fun length => .field (.keySaltLength length))
  let secret ← .done (passphrase.secretOctets .passphrase)
  let derived ← .call (.deriveKey secret salt (usedIterations settings iterations) keyLength)
  let content ← .done (derivedOctets derived)
  .done (if content.length = keyLength then .ok { keyId, salt, content }
    else .error (.field (.keyLength content.length)))

theorem fst_run_derivation (suite : Suite) (v : Vault)
    (keyId passphrase salt iterations : Argument) :
    ((derivation v.settings keyId passphrase salt iterations).run suite v.calls).1 =
      ingredients suite v keyId passphrase salt iterations := by
  simp only [derivation, ingredients, Dialogue.fst_run_done_bind, Dialogue.fst_run_call_bind]
  rfl

/-- What was derived is stored and made into a key without asking for more. -/
theorem create_conducts {id s : Bytes} (suite : Suite) (v : Vault) (content : Bytes)
    (hid : id.length ≤ Envelope.maxKeyIdLength) (hs : s.length = Envelope.saltLength) :
    Action.Conducts suite (create (.ofBytes id) (.ofBytes s) (.buffer v.cells.length))
      { v with cells := v.cells ++ [content] }
      ((fun _ : Ingredients => v.keys.length) <$> .done (if content.length = keyLength
        then .ok ⟨id, s, content⟩ else .error (.field (.keyLength content.length)))) := by
  have hcreate := create_eq (v := { v with cells := v.cells ++ [content] }) hid hs
    List.getElem?_concat_length
  by_cases hlength : content.length = keyLength
  · rw [if_pos hlength] at hcreate ⊢
    exact Action.conducts_done hcreate rfl
  · rw [if_neg hlength] at hcreate ⊢
    exact Action.conducts_done hcreate rfl

/-- **Generating a key** deals with the suite as the derivation of its ingredients does. -/
theorem generate_conducts (suite : Suite) (v : Vault)
    (keyId passphrase salt iterations : Argument) :
    Action.Conducts suite (generate suite keyId passphrase salt iterations) v
      ((fun _ => v.keys.length) <$> derivation v.settings keyId passphrase salt iterations) := by
  rw [generate, derivation]
  simp only [map_bind]
  refine Action.Conducts.lift_bind fun id hid => ?_
  refine Action.Conducts.lift_bind fun s hs => ?_
  obtain ⟨octets, -, hs⟩ := bind_eq_ok ((Argument.toBytesOf_eq ..).symm.trans hs)
  obtain ⟨hlength, rfl⟩ := ite_eq_ok hs
  obtain ⟨reported, warnings, hchosen⟩ := chooseIterations_eq iterations v
  let chosen : Vault := { v with reported, warnings }
  refine Action.Conducts.of_silent hchosen rfl ?_
  refine Action.Conducts.lift_bind fun secret _ => ?_
  let copied : Vault := { chosen with cells := chosen.cells ++ [secret] }
  have hcontent : Action.content chosen.cells.length copied = (.ok secret, copied) :=
    Action.content_allocated rfl
  refine Action.Conducts.of_silent (Action.allocate_apply secret chosen) rfl ?_
  refine Action.Conducts.bind (Action.conducts_ensuring_wipe
    (Action.Conducts.of_silent hcontent rfl (Action.conducts_ask suite _ _))) ?_
  intro derived asked hasked
  -- The number of keys is what it was before the suite was asked.
  obtain ⟨after, hafter, htidy⟩ := Action.ensuring_ask suite
    (fun secret => .deriveKey secret octets (usedIterations v.settings iterations) keyLength) secret
    chosen
  obtain rfl : after = asked := congrArg Prod.snd (hafter.symm.trans hasked)
  refine Action.Conducts.lift_bind fun content _ => ?_
  refine Action.Conducts.of_silent (Action.allocate_apply content after) rfl ?_
  rw [show v.keys.length = after.keys.length from congrArg List.length htidy.keys.symm]
  exact create_conducts suite after content (KeyId.length_le_of_ofArgument hid) hlength

/-- What comes of asking a key for its secret: the secret, or the failure of a key that has been
destroyed. -/
inductive Yields (v : Vault) (key : KeyRef) (record : KeyRecord) : Except Failure Argument → Prop
  | secret {secret : Argument} (h : Holds v key record secret) : Yields v key record (.ok secret)
  | destroyed (stored : v.keys[key]? = some record) (destroyed : record.destroyed = true) :
    Yields v key record (.error .keyDestroyed)

variable {key : KeyRef} {record : KeyRecord} {secret : Except Failure Argument}

theorem Yields.stored (h : Yields v key record secret) : v.keys[key]? = some record := by
  cases h with
  | secret h => exact h.stored
  | destroyed stored => exact stored

theorem Yields.secret_eq (h : Yields v key record secret) :
    SecretKey.secret key v = (secret, v) := by
  cases h with
  | secret h => exact h.secret_eq
  | destroyed stored destroyed =>
    rw [SecretKey.secret, Action.bind_of_ok (record_eq stored), destroyed]
    rfl

/-- A key yields what it yielded while keys, buffers and lists are only added. -/
theorem Yields.mono (h : Yields v key record secret) (hk : v.keys <+: w.keys)
    (hc : v.cells <+: w.cells) (hl : v.lists <+: w.lists) : Yields w key record secret := by
  cases h with
  | secret h => exact .secret (h.mono hk hc hl)
  | destroyed stored destroyed => exact .destroyed (Vault.getElem?_of_prefix hk stored) destroyed

end PasswordVault.SecretKey
