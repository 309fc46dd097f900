import PasswordVault.Proofs.StoredPassword.Calls
import PasswordVault.Proofs.StoredPassword.Unlocking

/-!
# Padding and the length of a clear text

A stored password records how many zeros its clear text was padded with. Unlocking takes so many
off what the suite decrypts, and looks at these alone: it does not ask whether there were whole
blocks. If there were, the number recorded is the one that the clear text needs, and else it is
not.

## Main definitions

- `StoredPassword.Attempt` — the two ways in which unlocking deals with a suite
- `StoredPassword.Decrypted` — what a suite has decrypted to octets

`StoredPassword.attempt_unlock` says that every unlocking is an attempt,
`StoredPassword.padding_of_unlock` what the number of zeros has to do with the clear text, and
`StoredPassword.unlocked_short` that it may be wrong where there is no whole block.
-/

namespace PasswordVault.StoredPassword

open Suite (Call)

variable {suite : Suite} {v w : Vault} {x : StoredPassword} {padded : Bytes}

/-- Unlocking fails before the suite is asked to decrypt, or it asks for that last of all and ends
as the answer says. -/
inductive Attempt (suite : Suite) (x : StoredPassword) (v : Vault) :
    Except Failure Bytes × Vault → Prop
  | unasked {failure : Failure} {made : List Call} {w : Vault} (hcalls : w.calls = v.calls ++ made)
    (h : ∀ secret, x.opening secret ∉ made) : Attempt suite x v (.error failure, w)
  | asked {made : List Call} {secret : Argument} {w : Vault}
    (hcalls : w.calls = v.calls ++ (made ++ [x.opening secret])) :
    Attempt suite x v (x.opened (suite.answer (v.calls ++ made) (x.opening secret)), w)

/-- Between two vaults a suite was asked last of all to decrypt what is stored, and answered with
something that converts to octets. -/
def Decrypted (suite : Suite) (x : StoredPassword) (v w : Vault) (padded : Bytes) : Prop :=
  ∃ made secret answer, w.calls = v.calls ++ (made ++ [x.opening secret]) ∧
    suite.answer (v.calls ++ made) (x.opening secret) = .ok answer ∧
    answer.toBytes .buffer = .ok padded

/-! ### Attempts -/

/-- An action that deals with a suite by decrypting is an attempt. -/
theorem Attempt.of_conducts {action : Action Bytes} {secret : Except Failure Argument}
    (h : Action.Conducts suite action v (decryption x secret)) : Attempt suite x v (action v) := by
  obtain ⟨houtcome, hcalls⟩ := h
  rw [fst_run_decryption] at houtcome
  cases haction : action v with
  | mk outcome w =>
  rw [haction] at houtcome hcalls
  cases secret with
  | error failure =>
    obtain rfl : outcome = .error failure := houtcome
    exact .unasked hcalls fun _ => List.not_mem_nil
  | ok given =>
    rw [snd_run_decryption] at hcalls
    obtain rfl : outcome = x.opened (suite.answer v.calls (x.opening given)) := houtcome
    have hasked : Attempt suite x v
        (x.opened (suite.answer (v.calls ++ []) (x.opening given)), w) := .asked hcalls
    rwa [List.append_nil] at hasked

/-- With a passphrase, a key is derived before. -/
theorem attempt_passphrase (suite : Suite) (x : StoredPassword) (passphrase : Argument)
    (v : Vault) : Attempt suite x v (x.unlock suite (.value passphrase) v) := by
  obtain ⟨houtcome, hcalls⟩ := unlock_conducts suite v x passphrase
  rw [unlocking] at houtcome hcalls
  have hderivation := derivation_asks suite v.calls v.settings (.ofBytes x.envelope.keyId)
    passphrase (.ofBytes x.envelope.salt) .absent
  cases hderived : (SecretKey.derivation v.settings (.ofBytes x.envelope.keyId) passphrase
    (.ofBytes x.envelope.salt) .absent).run suite v.calls with
  | mk derived made =>
  rw [hderived] at hderivation
  cases hrun : x.unlock suite (.value passphrase) v with
  | mk outcome w =>
  rw [hrun] at houtcome hcalls
  cases derived with
  | error failure =>
    rw [Dialogue.run_bind_of_error hderived] at houtcome hcalls
    obtain rfl : outcome = .error failure := houtcome
    refine .unasked hcalls fun secret hmem => ?_
    -- At most a derivation was asked for.
    rcases hderivation with ⟨other, hnone⟩ | ⟨octets, salt, -, -, -, hmade⟩
    · obtain rfl : made = [] := congrArg Prod.snd hnone
      exact List.not_mem_nil hmem
    · obtain rfl : made = [_] := hmade
      cases List.mem_singleton.mp hmem
  | ok i =>
    rw [Dialogue.run_bind_of_ok hderived, snd_run_decryption] at hcalls
    rw [Dialogue.run_bind_of_ok hderived, fst_run_decryption] at houtcome
    obtain rfl : outcome = x.opened (suite.answer (v.calls ++ made)
      (x.opening (.octets .buffer i.content))) := houtcome
    exact .asked hcalls

/-- **Every unlocking is an attempt.** -/
theorem attempt_unlock (suite : Suite) (x : StoredPassword) (credential : Credential) (v : Vault) :
    Attempt suite x v (x.unlock suite credential v) := by
  cases credential with
  | key key => exact .of_conducts (unlockUnder_asks suite x key v)
  | value passphrase => exact attempt_passphrase suite x passphrase v

theorem Attempt.exists_decrypted {clear : Bytes} (h : Attempt suite x v (.ok clear, w)) :
    ∃ padded, Decrypted suite x v w padded ∧
      Padding.removeFrom (.octets .buffer padded) x.envelope.padding = .ok clear := by
  generalize hrun : ((.ok clear, w) : Except Failure Bytes × Vault) = run at h
  cases h with
  | unasked => cases hrun
  | asked hcalls =>
    obtain ⟨hopened, rfl⟩ := Prod.mk.inj hrun
    obtain ⟨answer, hanswer, hconverted⟩ := bind_eq_ok hopened.symm
    obtain ⟨padded, hpadded, hremoved⟩ := bind_eq_ok hconverted
    exact ⟨padded, ⟨_, _, answer, hcalls, hanswer, hpadded⟩, hremoved⟩

/-- Once a suite has decrypted, the padding decides. -/
theorem Attempt.of_decrypted {outcome : Except Failure Bytes}
    (h : Attempt suite x v (outcome, w)) (hd : Decrypted suite x v w padded) :
    outcome = Padding.removeFrom (.octets .buffer padded) x.envelope.padding := by
  obtain ⟨made, secret, answer, hmade, hanswer, hpadded⟩ := hd
  generalize hrun : (outcome, w) = run at h
  cases h with
  | unasked hcalls hnone =>
    obtain ⟨-, rfl⟩ := Prod.mk.inj hrun
    rw [List.append_cancel_left (hcalls.symm.trans hmade)] at hnone
    exact absurd (List.mem_append_right made List.mem_cons_self) (hnone secret)
  | asked hcalls =>
    obtain ⟨rfl, rfl⟩ := Prod.mk.inj hrun
    -- The last call is the same, and so is its answer.
    have hsame := List.append_cancel_left (hcalls.symm.trans hmade)
    obtain ⟨rfl, hlast⟩ := List.append_inj' hsame rfl
    rw [(List.cons.inj hlast).1, hanswer, opened]
    show answer.toBytes .buffer >>= _ = _
    rw [hpadded]
    rfl

/-! ### The number of zeros -/

/-- At most fifteen zeros are what a text needs if they complete its last block, and only then. -/
theorem eq_complement_iff {length zeros : Nat} (h : zeros ≤ 15) :
    zeros = (16 - length % 16) % 16 ↔ (length + zeros) % 16 = 0 := by
  omega

/-- **What a clear text says of its padding.** What was decoded records a number of at most fifteen
zeros. However it is unlocked, a clear text comes of octets that the suite has decrypted, which are
the clear text and so many zeros; the number is the one that completes the last block of the clear
text exactly if these octets are whole blocks. Octets that are decrypted and do not end in so many
zeros are refused for their padding, and no others are. -/
theorem padding_of_unlock {encoded : Argument} (hdecode : decode encoded = .ok x) :
    ∃ n : Nat, n ≤ 15 ∧ x.envelope.padding = .integer n ∧
      (∀ suite credential v p w, x.unlock suite credential v = (.ok p, w) →
        ∃ d, Decrypted suite x v w d ∧ d = p ++ Bytes.zeros n ∧
          (n = (16 - p.length % 16) % 16 ↔ d.length % 16 = 0)) ∧
      ∀ suite credential v outcome w d, x.unlock suite credential v = (outcome, w) →
        Decrypted suite x v w d →
          (∀ p, outcome = .ok p ↔ d = p ++ Bytes.zeros n) ∧
          ((∃ error, outcome = .error (.padding error)) ↔ ∀ p, d ≠ p ++ Bytes.zeros n) := by
  obtain ⟨e, hreadable, rfl⟩ := exists_readable_of_decode hdecode
  obtain ⟨n, hn⟩ := Int.eq_ofNat_of_zero_le hreadable.padding.1
  have hrange : (0 : Int) ≤ n ∧ (n : Int) ≤ 15 := hn ▸ hreadable.padding
  have hpadding : (ofEnvelope e).envelope.padding = .integer n := congrArg Argument.integer hn
  have hsmall : n ≤ 15 := by omega
  have hends : ∀ d, Padding.Removes d n (.integer n)
      (Padding.removeFrom (.octets .buffer d) (ofEnvelope e).envelope.padding) := by
    intro d
    rw [hpadding, Padding.removeFrom_octets_integer]
    exact Padding.removes_remove d n
  have hok : ∀ d p, Padding.removeFrom (.octets .buffer d) (ofEnvelope e).envelope.padding =
      .ok p ↔ d = p ++ Bytes.zeros n := by
    intro d p
    rw [(hends d).eq_ok_iff, Int.toNat_natCast]
    exact and_iff_right hrange
  refine ⟨n, hsmall, hpadding, ?_, ?_⟩
  · intro suite credential v p w hrun
    have hattempt := attempt_unlock suite (ofEnvelope e) credential v
    rw [hrun] at hattempt
    obtain ⟨d, hd, hremoved⟩ := hattempt.exists_decrypted
    have hzeros := (hok d p).mp hremoved
    refine ⟨d, hd, hzeros, ?_⟩
    rw [eq_complement_iff hsmall, hzeros, List.length_append, Bytes.length_zeros]
  · intro suite credential v outcome w d hrun hd
    have hattempt := attempt_unlock suite (ofEnvelope e) credential v
    rw [hrun] at hattempt
    obtain rfl := hattempt.of_decrypted hd
    refine ⟨hok d, ?_⟩
    rw [(hends d).eq_error_iff, and_iff_right (Padding.lt_limit_of_range hrange)]
    exact forall_congr' fun p => not_congr (hok d p)

/-- With the standard suite, two octets are unlocked out of one block, and record the fourteen zeros
that they need. -/
theorem padding_of_unlock_standard :
    ∃ x w, (ofEnvelope (lockedFields [1] (.zeros 16) (.zeros 16) [104, 105]
        (Gcm.lock (.zeros 32) (.zeros 16) (Padding.add [104, 105]).1))) = x ∧
      x.unlock (.standard (.ofSeed [7])) (.key 0) .oneKey = (.ok [104, 105], w) ∧
      x.envelope.padding = .integer 14 ∧ 14 = (16 - ([104, 105] : Bytes).length % 16) % 16 := by
  let ciphertext := Gcm.lock (.zeros 32) (.zeros 16) (Padding.add [104, 105]).1
  let x := ofEnvelope (lockedFields [1] (.zeros 16) (.zeros 16) [104, 105] ciphertext)
  have hreadable := @readable_lockedFields [1] (.zeros 16) (.zeros 16) [104, 105] ciphertext
    (by decide) (by decide) rfl rfl (Gcm.lock_ne_nil _ _ _)
  have hopens : (Suite.standard (.ofSeed [7])).Opens (.zeros 32) (.zeros 16) ciphertext
      (Padding.add [104, 105]).1 := fun later => ⟨.constant, Suite.standard_decrypt _ later rfl rfl
        (Gcm.unlock?_lock (.zeros 32) (.zeros 16) (Padding.add [104, 105]).1)⟩
  obtain ⟨w, hrun, -⟩ := unlockUnder_run (.standard (.ofSeed [7])) x
    Vault.live_oneKey.holds.secret_eq
  rw [opened_lockedFields hopens] at hrun
  obtain ⟨n, -, hn, hunlocked, -⟩ :=
    padding_of_unlock ((decode_ofEnvelope hreadable).1 .constant)
  obtain rfl : 14 = n := Int.ofNat.inj (Argument.integer.inj hn)
  obtain ⟨d, -, rfl, hneeded⟩ := hunlocked _ (.key 0) _ _ w hrun
  exact ⟨x, w, rfl, hrun, hn, hneeded.mpr rfl⟩

/-- The fields of two octets that were encrypted without being padded. -/
def shortFields : Envelope Int Bytes :=
  { version := Envelope.currentVersion, padding := 0, salt := .zeros 16, vector := .zeros 16
    keyId := [1], ciphertext := Gcm.lock (.zeros 32) (.zeros 16) [104, 105] }

/-- With the standard suite, two octets that somebody encrypted without padding are decoded and
unlocked. They record no zeros and need fourteen. -/
theorem unlocked_short :
    ∃ x w, decode (.octets .constant (Envelope.layout shortFields)) = .ok x ∧
      x.unlock (.standard (.ofSeed [7])) (.key 0) .oneKey = (.ok [104, 105], w) ∧
      x.envelope.padding = .integer 0 ∧ 0 ≠ (16 - ([104, 105] : Bytes).length % 16) % 16 := by
  have hreadable : Envelope.Readable shortFields := by
    refine ⟨⟨rfl, rfl, by decide, Gcm.lock_ne_nil _ _ _, by decide, by decide⟩, rfl, ?_⟩
    show 2 ≤ 1 + (Gcm.lock (.zeros 32) (.zeros 16) [104, 105]).length
    rw [Gcm.length_lock]
    decide
  have hanswer := Suite.standard_decrypt (.ofSeed [7]) Vault.oneKey.calls (Bytes.length_zeros 32)
    (Bytes.length_zeros 16) (Gcm.unlock?_lock (.zeros 32) (.zeros 16) [104, 105])
  obtain ⟨w, hrun, -⟩ := unlockUnder_run (.standard (.ofSeed [7])) (ofEnvelope shortFields)
    Vault.live_oneKey.holds.secret_eq
  have hopened : (ofEnvelope shortFields).opened ((Suite.standard (.ofSeed [7])).answer
      Vault.oneKey.calls ((ofEnvelope shortFields).opening (.octets .buffer (.zeros 32)))) =
        .ok [104, 105] := by
    show (ofEnvelope shortFields).opened ((Suite.standard (.ofSeed [7])).answer
      Vault.oneKey.calls (.decrypt (.octets .buffer (.zeros 32)) (.zeros 16)
        (Gcm.lock (.zeros 32) (.zeros 16) [104, 105]))) = _
    rw [hanswer]
    exact opened_octets shortFields .constant [104, 105]
  rw [hopened] at hrun
  exact ⟨_, w, (decode_ofEnvelope hreadable).1 .constant, hrun, rfl, by decide⟩

end PasswordVault.StoredPassword
