import PasswordVault.Proofs.Suite.Sealing

/-!
# Suites made of primitives

A suite is made of primitives that derive a key, set a cipher up and lock or unlock with it. What
they answer is not known; what becomes of it is. An ordinary failure is reported as a failure of the
step it happened in, a tag that does not verify is told apart from all others, and an interruption
is not caught.

## Main definitions

- `Failure.isOrdinary`, `Failure.isInvalidTag` — the failures that are told apart
- `Primitives`, `Suite.over` — primitives, and the suite made of them
- `Primitives.Orderly` — what is assumed of primitives
- `Primitives.standard` — those of the standard suite

`Suite.standard_eq_over` says that the standard suite is made in this way, and
`Primitives.standard_orderly` that its primitives are orderly.
-/

namespace PasswordVault

open Suite (Call)

/-- A failure, and no interruption. -/
def Failure.isOrdinary (failure : Failure) : Bool :=
  failure.category.within .failure

/-- A failure by which a cipher says that a tag does not verify. -/
def Failure.isInvalidTag (failure : Failure) : Bool :=
  failure.category.within .invalidTag

variable {α β : Type}

/-- An outcome that, if it is a failure, is an ordinary one. -/
def Ordinary (outcome : Except Failure α) : Prop :=
  ∀ failure, outcome = .error failure → failure.isOrdinary = true

theorem ordinary_ok (value : α) : Ordinary (.ok value) := by
  intro failure h
  cases h

theorem ordinary_error {failure : Failure} (h : failure.isOrdinary = true) :
    Ordinary (.error failure : Except Failure α) := by
  intro other hother
  cases hother
  exact h

theorem Ordinary.bind {first : Except Failure α} {next : α → Except Failure β}
    (h : Ordinary first) (hnext : ∀ value, Ordinary (next value)) : Ordinary (first >>= next) := by
  cases first with
  | error failure => exact ordinary_error (h failure rfl)
  | ok value => exact hnext value

theorem Ordinary.map {outcome : Except Failure α} (f : α → β) (h : Ordinary outcome) :
    Ordinary (f <$> outcome) := by
  cases outcome with
  | error failure => exact ordinary_error (h failure rfl)
  | ok value => exact ordinary_ok (f value)

theorem ordinary_argument (error : ArgumentError) :
    Ordinary (.error (.argument error) : Except Failure α) := by
  refine ordinary_error ?_
  cases error <;> rfl

theorem ordinary_cipher (error : CipherError) :
    Ordinary (.error (.cipher error) : Except Failure α) := by
  refine ordinary_error ?_
  cases error <;> rfl

/-- What primitives answer, given the calls to the suite before. -/
structure Primitives where
  draw : List Call → Nat → Except Failure Bytes
  derive (history : List Call) (passphrase salt : Bytes) (iterations : Argument) (length : Nat) :
    Except Failure Bytes
  /-- Sets a cipher up with a key. -/
  accept : List Call → Argument → Except Failure Unit
  lock (history : List Call) (key : Argument) (vector plaintext : Bytes) : Except Failure Bytes
  /-- Decryption with a cipher that has been set up. -/
  unlock (history : List Call) (key : Argument) (vector ciphertext : Bytes) : Except Failure Bytes

/-- Reports an ordinary failure of a step as a failure of a wider one. -/
def reportOrdinary (wrap : Failure → Failure) : Except Failure α → Except Failure α
  | .ok value => .ok value
  | .error cause => .error (if cause.isOrdinary then wrap cause else cause)

/-- Reports what decryption fails with: a tag that does not verify is told apart. -/
def reportUnlocking : Except Failure α → Except Failure α
  | .ok value => .ok value
  | .error cause => .error (
      if cause.isInvalidTag then .authentication
      else if cause.isOrdinary then .decryption cause
      else cause)

/-- The suite made of primitives. -/
def Suite.over (primitives : Primitives) : Suite where
  answer history call :=
    Argument.ofBytes <$> match call with
    | .randomBytes length => primitives.draw history length
    | .deriveKey passphrase salt iterations length =>
      reportOrdinary .derivation (primitives.derive history passphrase salt iterations length)
    | .encrypt key vector plaintext =>
      reportOrdinary .encryption (primitives.lock history key vector plaintext)
    | .decrypt key vector ciphertext => do
      reportOrdinary .cipherKey (primitives.accept history key)
      reportUnlocking (primitives.unlock history key vector ciphertext)

namespace Primitives

/-- Two to the power 31. Primitives are not asked for so many iterations. -/
def iterationsBound : Int := 0x80000000

/-- Primitives give what they say or fail in an ordinary way: with fewer iterations than the bound
the derivation of a key gives 32 octets, and these set a cipher up. -/
structure Orderly (primitives : Primitives) : Prop where
  derives : ∀ {n : Int}, n < iterationsBound → ∀ history passphrase salt content,
    primitives.derive history passphrase salt (.integer n) SecretKey.keyLength = .ok content →
      content.length = SecretKey.keyLength
  derivation : ∀ {n : Int}, n < iterationsBound → ∀ history passphrase salt,
    Ordinary (primitives.derive history passphrase salt (.integer n) SecretKey.keyLength)
  accepts : ∀ history key, key.length = SecretKey.keyLength →
    primitives.accept history (.octets .buffer key) = .ok ()
  unlocking : ∀ history key vector ciphertext,
    Ordinary (primitives.unlock history key vector ciphertext)

/-- Where a key sets a cipher up, decryption is all that can fail. -/
theorem Orderly.answer_decrypt {primitives : Primitives} (h : primitives.Orderly)
    (history : List Call) {key : Bytes} (vector ciphertext : Bytes)
    (hkey : key.length = SecretKey.keyLength) :
    (Suite.over primitives).answer history (.decrypt (.octets .buffer key) vector ciphertext) =
      Argument.ofBytes <$>
        reportUnlocking (primitives.unlock history (.octets .buffer key) vector ciphertext) := by
  simp only [Suite.over, h.accepts history key hkey]
  rfl

/-- The primitives of the standard suite. -/
def standard (entropy : Entropy) : Primitives where
  draw history length :=
    Standard.randomBytes entropy (Suite.countOf .randomBytes history) (.integer length)
  derive _ passphrase salt iterations length := do
    let length ← (Argument.integer length).word64
    let iterations ← iterations.word64
    if iterations = 0 then throw (.cipher .tooFewIterations)
    let length ← Standard.derivedLength length
    return Pbkdf2.derive passphrase salt iterations length
  accept _ key := (fun _ => ()) <$> Standard.cipherKey key
  lock _ key vector plaintext := do
    let key ← Standard.cipherKey key
    Standard.checkNonceLength vector.length
    return Gcm.lock key vector plaintext
  unlock _ key vector ciphertext := do
    let key ← Standard.cipherKey key
    Standard.checkNonceLength vector.length
    match Gcm.unlock? key vector ciphertext with
    | some plaintext => return plaintext
    | none => throw (.reported .invalidTag "")

end Primitives

namespace Standard

theorem ordinary_word64 (value : Argument) : Ordinary value.word64 := by
  rw [Argument.word64]
  split
  · exact ordinary_argument _
  split
  · exact ordinary_cipher _
  split
  · exact ordinary_cipher _
  · exact ordinary_ok _

theorem ordinary_roomFor (container : Container) (count : Int) :
    Ordinary (Argument.roomFor container count) := by
  rw [Argument.roomFor]
  split
  · exact ordinary_argument _
  split
  · exact ordinary_argument _
  · exact ordinary_ok _

theorem ordinary_derivedLength (length : Nat) : Ordinary (derivedLength length) := by
  rw [derivedLength]
  split
  · exact ordinary_cipher _
  split
  · next failure hroom => exact ordinary_error (ordinary_roomFor _ _ failure hroom)
  split
  · exact ordinary_argument _
  · exact ordinary_ok _

theorem ordinary_cipherKey (key : Argument) : Ordinary (cipherKey key) := by
  refine Ordinary.bind ?_ fun octets => ?_
  · rw [Argument.buffer, Argument.contentOr]
    split
    · exact ordinary_ok _
    · exact ordinary_argument _
  · split
    · exact ordinary_cipher _
    · exact ordinary_ok _

theorem ordinary_checkNonceLength (length : Nat) : Ordinary (checkNonceLength length) := by
  rw [checkNonceLength]
  split
  · exact ordinary_cipher _
  · exact ordinary_ok _

/-- Where every failure is ordinary, all are reported. -/
theorem reportOrdinary_eq {wrap : Failure → Failure} {outcome : Except Failure α}
    (h : Ordinary outcome) : reportOrdinary wrap outcome = reportAs wrap outcome := by
  cases outcome with
  | ok value => rfl
  | error failure =>
    rw [reportOrdinary, if_pos (h failure rfl)]
    rfl

end Standard

namespace Primitives

open Standard (reportAs reportOrdinary_eq)

variable (entropy : Entropy) (history : List Call)

theorem ordinary_derive (passphrase salt : Bytes) (iterations : Argument) (length : Nat) :
    Ordinary ((standard entropy).derive history passphrase salt iterations length) := by
  refine (Standard.ordinary_word64 _).bind fun length => ?_
  refine (Standard.ordinary_word64 _).bind fun iterations => ?_
  dsimp only
  split
  · exact ordinary_cipher _
  · exact (Standard.ordinary_derivedLength _).bind fun length => ordinary_ok _

theorem ordinary_lock (key : Argument) (vector plaintext : Bytes) :
    Ordinary ((standard entropy).lock history key vector plaintext) := by
  refine (Standard.ordinary_cipherKey key).bind fun octets => ?_
  exact (Standard.ordinary_checkNonceLength _).bind fun _ => ordinary_ok _

theorem ordinary_unlock (key : Argument) (vector ciphertext : Bytes) :
    Ordinary ((standard entropy).unlock history key vector ciphertext) := by
  refine (Standard.ordinary_cipherKey key).bind fun octets => ?_
  refine (Standard.ordinary_checkNonceLength _).bind fun _ => ?_
  split
  · exact ordinary_ok _
  · exact ordinary_error rfl

/-- Once a cipher has been set up, only decryption can fail. -/
theorem decrypt_eq (key : Argument) (vector ciphertext : Bytes) :
    Standard.decrypt key (.ofBytes vector) (.ofBytes ciphertext) = (do
      reportOrdinary .cipherKey ((standard entropy).accept history key)
      reportUnlocking ((standard entropy).unlock history key vector ciphertext)) := by
  simp only [standard]
  rw [reportOrdinary_eq (Ordinary.map _ (Standard.ordinary_cipherKey key))]
  cases hkey : Standard.cipherKey key with
  | error failure =>
    rw [Standard.decrypt, hkey]
    rfl
  | ok octets =>
    rw [Standard.decrypt_of_cipherKey hkey]
    show _ = reportUnlocking (Standard.checkNonceLength vector.length >>= _)
    have hordinary := Standard.ordinary_checkNonceLength vector.length
    cases hchecked : Standard.checkNonceLength vector.length with
    | error failure =>
      have htag : failure.isInvalidTag = false := by
        rw [Standard.checkNonceLength] at hchecked
        split at hchecked <;> cases hchecked
        rfl
      show _ = Except.error (if failure.isInvalidTag then _ else _)
      rw [htag, hordinary failure hchecked]
      rfl
    | ok _ => cases hopened : Gcm.unlock? octets vector ciphertext <;> rfl

end Primitives

/-- **The standard suite** is made of its primitives. -/
theorem Suite.standard_eq_over (entropy : Entropy) :
    Suite.standard entropy = Suite.over (.standard entropy) := by
  refine congrArg Suite.mk (funext fun history => funext fun call => ?_)
  refine congrArg (Argument.ofBytes <$> ·) ?_
  cases call with
  | randomBytes length => rfl
  | deriveKey passphrase salt iterations length =>
    exact (Standard.reportOrdinary_eq (Primitives.ordinary_derive entropy history _ _ _ _)).symm
  | encrypt key vector plaintext =>
    exact (Standard.reportOrdinary_eq (Primitives.ordinary_lock entropy history _ _ _)).symm
  | decrypt key vector ciphertext => exact Primitives.decrypt_eq entropy history ..

theorem Primitives.standard_orderly (entropy : Entropy) : (standard entropy).Orderly where
  derives := by
    intro n _ history passphrase salt content h
    obtain ⟨length, hlength, hcounted⟩ := bind_eq_ok h
    obtain ⟨iterations, -, hguarded⟩ := bind_eq_ok hcounted
    dsimp only at hguarded
    obtain ⟨-, hsized⟩ := guard_eq_ok hguarded
    obtain rfl : SecretKey.keyLength = length := Except.ok.inj hlength
    obtain ⟨_, hroom, hderived⟩ := bind_eq_ok hsized
    cases hroom
    exact Except.ok.inj hderived ▸ Pbkdf2.length_derive ..
  derivation := fun _ history passphrase salt =>
    ordinary_derive entropy history passphrase salt _ _
  accepts := by
    intro history key hkey
    simp only [standard]
    rw [Suite.cipherKey_eq hkey]
    rfl
  unlocking := ordinary_unlock entropy

end PasswordVault
