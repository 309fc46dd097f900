import PasswordVault.Proofs.Crypto.Gcm
import PasswordVault.SecretKey
import PasswordVault.Suite.Standard

/-!
# Faithful suites

What the library relies on when it asks a suite: salts and vectors have the length that was asked
for, deriving a key twice from the same passphrase and salt gives the same octets, and decryption
undoes encryption. The answers may be octet strings of any form, and what a suite draws or encrypts
may differ from call to call.

## Main definitions

- `Suite.Faithful` — these assumptions, for one number of iterations
- `Suite.Derives` — a suite derives keys as a function does
- `Suite.Opens` — a ciphertext is decrypted to a plaintext at any later time

`Suite.standard_faithful` says that the standard suite is faithful.
-/

namespace PasswordVault.Suite

/-- A suite whose answers can be relied on, for a number of iterations. -/
structure Faithful (suite : Suite) (iterations : Argument) : Prop where
  draws : ∀ history, ∃ form octets,
    suite.answer history (.randomBytes 16) = .ok (.octets form octets) ∧ octets.length = 16
  derives : ∃ derive : Bytes → Bytes → Bytes, ∀ history passphrase salt, ∃ form,
    suite.answer history (.deriveKey passphrase salt iterations 32) =
      .ok (.octets form (derive passphrase salt)) ∧ (derive passphrase salt).length = 32
  encrypts : ∀ history key vector plaintext, key.length = 32 → vector.length = 16 →
    ∃ form ciphertext, suite.answer history (.encrypt (.octets .buffer key) vector plaintext) =
      .ok (.octets form ciphertext) ∧ ciphertext ≠ [] ∧
        ∀ later, ∃ form, suite.answer later (.decrypt (.octets .buffer key) vector ciphertext) =
          .ok (.octets form plaintext)

/-- Whenever a suite is asked, it derives keys as a function does. -/
def Derives (suite : Suite) (iterations : Argument) (derive : Bytes → Bytes → Bytes) : Prop :=
  ∀ history passphrase salt, ∃ form,
    suite.answer history (.deriveKey passphrase salt iterations 32) =
      .ok (.octets form (derive passphrase salt)) ∧ (derive passphrase salt).length = 32

/-- Whenever a suite is asked, it decrypts a ciphertext to a plaintext. -/
def Opens (suite : Suite) (key vector ciphertext plaintext : Bytes) : Prop :=
  ∀ later, ∃ form, suite.answer later (.decrypt (.octets .buffer key) vector ciphertext) =
    .ok (.octets form plaintext)

theorem Faithful.exists_derives {suite : Suite} {iterations : Argument}
    (h : suite.Faithful iterations) : ∃ derive, suite.Derives iterations derive :=
  h.derives

theorem Faithful.exists_opens {suite : Suite} {iterations : Argument}
    (h : suite.Faithful iterations) (history : List Call) {key vector : Bytes} (plaintext : Bytes)
    (hk : key.length = 32) (hv : vector.length = 16) :
    ∃ form ciphertext, suite.answer history (.encrypt (.octets .buffer key) vector plaintext) =
      .ok (.octets form ciphertext) ∧ ciphertext ≠ [] ∧
        suite.Opens key vector ciphertext plaintext :=
  h.encrypts history key vector plaintext hk hv

/-! ### The standard suite -/

theorem standard_randomBytes (entropy : Entropy) (history : List Call) :
    (standard entropy).answer history (.randomBytes 16) =
      .ok (.ofBytes (entropy (countOf .randomBytes history) 16)) := rfl

/-- Iterations that fit in a machine word and are at least one are used for the derivation. -/
theorem standard_deriveKey (entropy : Entropy) (history : List Call) (passphrase salt : Bytes)
    {n : Int} (hlow : 1 ≤ n) (hhigh : n ≤ Argument.maxWord) :
    (standard entropy).answer history (.deriveKey passphrase salt (.integer n) 32) =
      .ok (.ofBytes (Pbkdf2.derive passphrase salt n.toNat 32)) := by
  have hword : (Argument.integer n).word64 = .ok n.toNat := by
    simp only [Argument.word64, Argument.asInteger?_integer]
    rw [if_neg (by omega), if_neg (by omega)]
  have hpositive : n.toNat ≠ 0 := by omega
  show Argument.ofBytes <$> Standard.deriveKey (.octets .buffer passphrase) (.ofBytes salt)
    (.integer n) (.integer (32 : Nat)) = _
  rw [Standard.deriveKey]
  -- The salt and the length convert; the iterations come next.
  show Argument.ofBytes <$> Standard.reportAs .derivation ((Argument.integer n).word64 >>=
    fun iterations => if iterations = 0 then _ else _) = _
  rw [hword]
  show Argument.ofBytes <$> Standard.reportAs .derivation (if n.toNat = 0 then _ else _) = _
  rw [if_neg hpositive]
  rfl

theorem cipherKey_eq {key : Bytes} (h : key.length = 32) :
    Standard.cipherKey (.octets .buffer key) = .ok key := by
  simp [Standard.cipherKey, Argument.buffer, h, Aes.isKeyLength, bind, Except.bind, pure,
    Except.pure]

theorem standard_encrypt (entropy : Entropy) (history : List Call) {key vector : Bytes}
    (plaintext : Bytes) (hk : key.length = 32) (hv : vector.length = 16) :
    (standard entropy).answer history (.encrypt (.octets .buffer key) vector plaintext) =
      .ok (.ofBytes (Gcm.lock key vector plaintext)) := by
  show Argument.ofBytes <$> Standard.encrypt (.octets .buffer key) (.ofBytes vector)
    (.octets .buffer plaintext) = _
  rw [Standard.encrypt_of_cipherKey (cipherKey_eq hk), hv]
  rfl

theorem standard_decrypt (entropy : Entropy) (history : List Call) {key vector plaintext : Bytes}
    {ciphertext : Bytes} (hk : key.length = 32) (hv : vector.length = 16)
    (hopen : Gcm.unlock? key vector ciphertext = some plaintext) :
    (standard entropy).answer history (.decrypt (.octets .buffer key) vector ciphertext) =
      .ok (.ofBytes plaintext) := by
  show Argument.ofBytes <$> Standard.decrypt (.octets .buffer key) (.ofBytes vector)
    (.ofBytes ciphertext) = _
  rw [Standard.decrypt_of_cipherKey (cipherKey_eq hk), hv, hopen]
  rfl

/-- **The standard suite is faithful** for every number of iterations that it accepts, if its
source gives as many octets as it is asked for. -/
theorem standard_faithful {entropy : Entropy} (hentropy : ∀ draw, (entropy draw 16).length = 16)
    {n : Int} (hlow : 1 ≤ n) (hhigh : n ≤ Argument.maxWord) :
    Faithful (standard entropy) (.integer n) := by
  refine ⟨?_, ⟨fun passphrase salt => Pbkdf2.derive passphrase salt n.toNat 32, ?_⟩, ?_⟩
  · intro history
    exact ⟨.constant, _, standard_randomBytes entropy history, hentropy _⟩
  · intro history passphrase salt
    exact ⟨.constant, standard_deriveKey entropy history passphrase salt hlow hhigh,
      Pbkdf2.length_derive ..⟩
  · intro history key vector plaintext hk hv
    refine ⟨.constant, Gcm.lock key vector plaintext,
      standard_encrypt entropy history plaintext hk hv, Gcm.lock_ne_nil key vector plaintext, ?_⟩
    intro later
    exact ⟨.constant,
      standard_decrypt entropy later hk hv (Gcm.unlock?_lock key vector plaintext)⟩

end PasswordVault.Suite
