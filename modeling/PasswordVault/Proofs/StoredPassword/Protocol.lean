import PasswordVault.Proofs.StoredPassword.Producing
import PasswordVault.Proofs.StoredPassword.RoundTrip

/-!
# What is stored is what was used

Whatever a suite answers, the salt and the vector that are stored are those that went into the calls
of the locking, and no draw goes into two lockings.

## Main definitions

- `StoredPassword.Request`, `StoredPassword.lockAll` — locking again and again, with fresh draws
- `StoredPassword.DrawnAt` — where the salt and the vector of a stored password were drawn

`StoredPassword.lockAll_draws` says that no draw is used twice, and `StoredPassword.suite_protocol`
how the operations deal with every suite.
-/

namespace PasswordVault.StoredPassword

open Suite (Call)

variable {suite : Suite} {v : Vault}

/-! ### Locking again and again -/

/-- What a locking with a fresh salt and a fresh vector is asked for. -/
structure Request where
  keyId : Argument
  passphrase : Argument
  clearText : Argument

/-- Locks one clear text after another, each with a fresh salt and a fresh vector. -/
def lockAll (suite : Suite) : List Request → Vault → List (Except Failure StoredPassword) × Vault
  | [], v => ([], v)
  | request :: rest, v =>
    let (outcome, w) :=
      lock suite request.keyId request.passphrase request.clearText .absent .absent v
    let (outcomes, u) := lockAll suite rest w
    (outcome :: outcomes, u)

/-- The salt and the vector of a stored password are what a suite answered to two draws, one right
after the other, and lie in their places among its octets. -/
structure DrawnAt (suite : Suite) (calls : List Call) (place : Nat) (x : StoredPassword) :
    Prop where
  saltDraw : calls[place]? = some (.randomBytes 16)
  salt : Supplied suite (calls.take place) x.envelope.salt .absent
  vectorDraw : calls[place + 1]? = some (.randomBytes 16)
  vector : Supplied suite (calls.take (place + 1)) x.envelope.vector .absent
  tiled : ∃ header count, x.Tiles x.representation header count

/-- What is locked with fresh octets has been drawn right then. -/
theorem drawnAt_of_lock {keyId passphrase clearText : Argument} {x : StoredPassword} {w : Vault}
    {calls : List Call} (h : lock suite keyId passphrase clearText .absent .absent v = (.ok x, w))
    (hcalls : w.calls <+: calls) :
    DrawnAt suite calls v.calls.length x ∧ v.calls.length + 2 ≤ w.calls.length := by
  obtain ⟨houtcome, hmade⟩ := lock_conducts suite v keyId passphrase clearText .absent .absent
  obtain ⟨d, hlocks⟩ :=
    locks_locking suite v.calls v.settings keyId passphrase clearText .absent .absent
  rw [h] at houtcome hmade
  obtain ⟨hall, hsalt, hvector, -, htiled, -⟩ := hlocks.stored x houtcome.symm
  obtain ⟨-, -, hdrawnSalt⟩ := hlocks.derived (by rw [hall]; simp [Dealing.calls, Dealing.uses])
  obtain ⟨-, -, -, hdrawnVector, -⟩ :=
    hlocks.encrypted (by rw [hall]; simp [Dealing.calls, Dealing.uses])
  rw [← hsalt] at hdrawnSalt
  rw [← hvector] at hdrawnVector
  obtain ⟨later, rfl⟩ := hcalls
  have hplaced : w.calls ++ later = v.calls ++ .randomBytes 16 :: .randomBytes 16 ::
      (d.uses (v.settings.iterations (.integer SecretKey.standardIterations)) ++ later) := by
    rw [hmade, hall, List.append_assoc]
    rfl
  have hnext : (w.calls ++ later).take (v.calls.length + 1) = v.calls ++ [.randomBytes 16] := by
    rw [hplaced, List.append_cons]
    exact List.take_left' (by rw [List.length_append]; rfl)
  refine ⟨⟨?_, ?_, ?_, ?_, htiled⟩, ?_⟩
  · rw [hplaced, List.getElem?_append_right (Nat.le_refl _), Nat.sub_self]
    rfl
  · rw [hplaced, List.take_left]
    exact hdrawnSalt
  · rw [hplaced, List.getElem?_append_right (Nat.le_add_right _ 1), Nat.add_sub_cancel_left]
    rfl
  · rw [hnext]
    exact hdrawnVector
  · rw [hmade, hall, List.length_append]
    exact Nat.add_le_add_left (by simp [Dealing.calls, Dealing.uses, draws]) _

/-- **No draw is used twice.** -/
theorem lockAll_draws (suite : Suite) (requests : List Request) (v : Vault) :
    v.calls <+: (lockAll suite requests v).2.calls ∧
    ∃ places, List.Forall₂ (DrawnAt suite (lockAll suite requests v).2.calls) places
        ((lockAll suite requests v).1.filterMap Except.toOption) ∧
      places.Pairwise (· + 2 ≤ ·) ∧ ∀ place ∈ places, v.calls.length ≤ place := by
  induction requests generalizing v with
  | nil => exact ⟨List.prefix_refl _, [], .nil, .nil, fun _ h => absurd h List.not_mem_nil⟩
  | cons request rest ih =>
    cases hlock :
      lock suite request.keyId request.passphrase request.clearText .absent .absent v with
    | mk outcome w =>
    have hrun : lockAll suite (request :: rest) v =
        (outcome :: (lockAll suite rest w).1, (lockAll suite rest w).2) := by
      rw [lockAll, hlock]
    obtain ⟨hbegins, places, hplaces, hspaced, hlater⟩ := ih w
    have hcalls : v.calls <+: w.calls := by
      have hmade := (lock_conducts suite v request.keyId request.passphrase request.clearText
        .absent .absent).calls
      rw [hlock] at hmade
      exact hmade ▸ List.prefix_append _ _
    rw [hrun]
    refine ⟨hcalls.trans hbegins, ?_⟩
    cases outcome with
    | error failure =>
      exact ⟨places, hplaces, hspaced,
        fun place hplace => hcalls.length_le.trans (hlater place hplace)⟩
    | ok x =>
      obtain ⟨hdrawn, hroom⟩ := drawnAt_of_lock hlock hbegins
      refine ⟨v.calls.length :: places, .cons hdrawn hplaces, ?_, ?_⟩
      · exact List.pairwise_cons.mpr
          ⟨fun place hplace => hroom.trans (hlater place hplace), hspaced⟩
      · intro place hplace
        rcases List.mem_cons.mp hplace with rfl | hin
        · exact Nat.le_refl _
        · exact hcalls.length_le.trans (hlater place hin)

/-! ### Keys from a caller, and the whole protocol -/

/-- With a key from a caller, locking makes one call at most: the clear text is encrypted under the
secret of the key, and what is stored is the salt of the key and the vector of the call, among its
octets too. -/
theorem lockWith_calls {key : KeyRef} {record : KeyRecord} {secret : Argument} (suite : Suite)
    (h : SecretKey.Holds v key record secret) (vector clearText : Argument) :
    ∃ iv padded made outcome after,
      lockWith suite (.key key) vector clearText v = (outcome, after) ∧
      after.calls = v.calls ++ made ∧ suite.Heeds v.calls made outcome ∧
      made <+: [.encrypt secret iv padded] ∧
      ∀ x, outcome = .ok x → made = [.encrypt secret iv padded] ∧
        x.envelope.salt = record.salt ∧ x.envelope.vector = iv ∧
        Padded clearText padded x.envelope.padding ∧
        ∃ header count, x.Tiles x.representation header count := by
  obtain ⟨houtcome, hcalls⟩ := lockUnder_conducts suite (.secret h) vector clearText
  have hheeds := Dialogue.heeds_run suite (encryption record (.ok secret) vector clearText) v.calls
  rcases encryption_asks suite v.calls record secret vector clearText with
    ⟨failure, hnone⟩ | ⟨clear, iv, hclear, -, -, hencrypted⟩
  · rw [hnone] at houtcome hcalls hheeds
    refine ⟨[], [], [], .error failure, _, Prod.ext houtcome rfl, hcalls, hheeds,
      List.nil_prefix, ?_⟩
    intro x hx
    cases hx
  · rw [hencrypted] at houtcome hcalls hheeds
    refine ⟨iv, (Padding.add clear).1, _, _, _, Prod.ext houtcome rfl, hcalls, hheeds,
      List.prefix_refl _, ?_⟩
    intro x hx
    obtain ⟨ciphertext, -, hwritten⟩ := bind_eq_ok hx
    obtain ⟨hsalt, hvector, hpadding, -, htiled⟩ := fields_of_written hwritten
    refine ⟨rfl, hsalt, hvector, ?_, htiled⟩
    rw [hpadding]
    exact padded_add hclear

/-- **What is stored is what was used.** Locking makes its calls in one order, as far as it gets: it
draws what was not given, derives a key and encrypts. It makes none without a key ID or a clear
text, and a call that fails is the last one and decides the outcome. A stored password holds the
salt and the vector of these calls, in its fields and in their places among its octets, which are
read as these fields again. Over any number of lockings every salt and vector that was drawn was
drawn for one of them alone, one right after the other. Unlocking derives a key from the stored salt
and decrypts under the stored vector; with a key from a caller there is one call at most. -/
theorem suite_protocol (suite : Suite) (v : Vault) :
    (∀ keyId passphrase clearText salt vector, ∃ made outcome after d,
      lock suite keyId passphrase clearText salt vector v = (outcome, after) ∧
      after.calls = v.calls ++ made ∧ suite.Heeds v.calls made outcome ∧
      Locks suite v.calls (v.settings.iterations (.integer SecretKey.standardIterations)) passphrase
        clearText salt vector d (outcome, made) ∧
      (∀ x, outcome = .ok x → x.Reread) ∧
      ((∀ id, KeyId.ofArgument keyId = .ok id → id = []) ∨ clearText = .text [] ∨
          (∃ form, clearText = .octets form []) →
        made = [] ∧ ∃ failure, outcome = .error failure)) ∧
    (∀ requests, ∃ outcomes after places, lockAll suite requests v = (outcomes, after) ∧
      List.Forall₂ (DrawnAt suite after.calls) places (outcomes.filterMap Except.toOption) ∧
      places.Pairwise (· + 2 ≤ ·)) ∧
    (∀ password passphrase, ∃ made outcome after secret key,
      unlock suite password (.value passphrase) v = (outcome, after) ∧
      after.calls = v.calls ++ made ∧ suite.Heeds v.calls made outcome ∧
      Unlocks suite v.calls (v.settings.iterations (.integer SecretKey.standardIterations))
        passphrase password secret key (outcome, made)) ∧
    ∀ key record secret, SecretKey.Holds v key record secret →
      (∀ vector clearText, ∃ iv padded made outcome after,
        lockWith suite (.key key) vector clearText v = (outcome, after) ∧
        after.calls = v.calls ++ made ∧ suite.Heeds v.calls made outcome ∧
        made <+: [.encrypt secret iv padded] ∧
        ∀ x, outcome = .ok x → made = [.encrypt secret iv padded] ∧
          x.envelope.salt = record.salt ∧ x.envelope.vector = iv ∧
          Padded clearText padded x.envelope.padding ∧
          ∃ header count, x.Tiles x.representation header count) ∧
      ∀ password, ∃ outcome after, unlock suite password (.key key) v = (outcome, after) ∧
        after.calls = v.calls ++ [password.opening secret] ∧
        suite.Heeds v.calls [password.opening secret] outcome := by
  refine ⟨?_, ?_, ?_, ?_⟩
  · intro keyId passphrase clearText salt vector
    obtain ⟨houtcome, hcalls⟩ := lock_conducts suite v keyId passphrase clearText salt vector
    obtain ⟨d, hlocks⟩ :=
      locks_locking suite v.calls v.settings keyId passphrase clearText salt vector
    refine ⟨_, _, _, d, Prod.ext houtcome rfl, hcalls, Dialogue.heeds_run suite _ v.calls, hlocks,
      ?_, ?_⟩
    · intro x hx
      have hlocked : lock suite keyId passphrase clearText salt vector v =
          (.ok x, (lock suite keyId passphrase clearText salt vector v).2) :=
        Prod.ext (houtcome.trans hx) rfl
      obtain ⟨record, iv, zeros, ciphertext, hne, hwritten⟩ := exists_written_of_lock hlocked
      obtain ⟨-, -, hreread, -⟩ := reread_of_written hwritten
      exact hreread (Or.inl hne)
    intro hrefused
    obtain ⟨failure, hnone⟩ := locking_refused suite v.calls v.settings passphrase salt vector
      (hrefused.imp_right fun hempty => show isEmptyClearText clearText by
        rcases hempty with rfl | ⟨form, rfl⟩ <;> rfl)
    rw [hnone]
    exact ⟨rfl, failure, rfl⟩
  · intro requests
    obtain ⟨-, places, hdrawn, hspaced, -⟩ := lockAll_draws suite requests v
    exact ⟨_, _, places, rfl, hdrawn, hspaced⟩
  · intro password passphrase
    obtain ⟨houtcome, hcalls⟩ := unlock_conducts suite v password passphrase
    obtain ⟨secret, key, hunlocks⟩ :=
      unlocks_unlocking suite v.calls v.settings password passphrase
    exact ⟨_, _, _, secret, key, Prod.ext houtcome rfl, hcalls,
      Dialogue.heeds_run suite _ v.calls, hunlocks⟩
  · intro key record secret hholds
    refine ⟨lockWith_calls suite hholds, ?_⟩
    intro password
    obtain ⟨houtcome, hcalls⟩ := unlockUnder_conducts suite password (.secret hholds)
    have hheeds := Dialogue.heeds_run suite (decryption password (.ok secret)) v.calls
    rw [snd_run_decryption] at hcalls hheeds
    exact ⟨_, _, Prod.ext houtcome rfl, hcalls, hheeds⟩

/-- With the standard suite, a locking with nothing given makes all four calls and stores what was
drawn, and a key from a caller unlocks with one call. -/
theorem suite_protocol_standard :
    (∃ (d : Dealing) (x : StoredPassword) (after : Vault),
      lock (.standard (.ofSeed [7])) (.text (Text.ofString "0aFF")) (.ofBytes [112])
        (.ofBytes [104, 105]) .absent .absent .oneKey = (.ok x, after) ∧
      after.calls = d.calls (.integer 32768) .absent .absent ∧
      x.envelope.salt = d.salt ∧ x.envelope.vector = d.vector ∧
      (∃ header count, x.Tiles x.representation header count) ∧ x.Reread) ∧
    ∀ password, (unlock (.standard (.ofSeed [7])) password (.key 0) .oneKey).2.calls =
      [password.opening (.octets .buffer (.zeros 32))] := by
  obtain ⟨hlock, -, -, hkeys⟩ := suite_protocol (.standard (.ofSeed [7])) .oneKey
  refine ⟨?_, ?_⟩
  · obtain ⟨made, outcome, after, d, hrun, hcalls, -, hlocks, hreread, -⟩ :=
      hlock (.text (Text.ofString "0aFF")) (.ofBytes [112]) (.ofBytes [104, 105]) .absent .absent
    have hsuite : (Suite.standard (.ofSeed [7])).Faithful (.integer 32768) :=
      Suite.standard_faithful (fun draw => Entropy.length_ofSeed [7] draw 16) (by decide)
        (by decide)
    obtain ⟨derive, hderive⟩ := hsuite.exists_derives
    obtain ⟨s, iv, ciphertext, locked, hlocked, -⟩ := @lock_eq_ok _ .oneKey derive
      (.text (Text.ofString "0aFF")) (.ofBytes [112]) (.ofBytes [104, 105]) .absent .absent
      [10, 255] [112] [104, 105] hsuite hderive (by rfl) (by decide) (.octets .constant [112])
      (.octets .constant [104, 105]) (by decide) (Or.inl rfl) (Or.inl rfl)
    obtain ⟨rfl, rfl⟩ := Prod.mk.inj (hrun.symm.trans hlocked)
    obtain ⟨hall, hsalt, hvector, -, htiled, -⟩ := hlocks.stored _ rfl
    exact ⟨d, _, after, hrun, hcalls.trans hall, hsalt, hvector, htiled, hreread _ rfl⟩
  · intro password
    obtain ⟨-, hunlock⟩ := hkeys 0 _ _ Vault.live_oneKey.holds
    obtain ⟨outcome, after, hrun, hcalls, -⟩ := hunlock password
    rw [hrun]
    exact hcalls

end PasswordVault.StoredPassword
