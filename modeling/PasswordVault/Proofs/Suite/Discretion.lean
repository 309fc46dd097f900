import Mathlib.Data.List.Forall2
import PasswordVault.Proofs.Crypto.Gcm
import PasswordVault.Proofs.Suite.Dialogue
import PasswordVault.Suite.Standard

/-!
# Two runs that differ in their secrets

Two runs of an operation that agree in everything but the content of the secrets should not be told
apart by the texts of their failures. A suite does its part if it fails alike in both, and in words
that do not depend on secrets; only whether a ciphertext is authentic may depend on them, since that
is what a wrong passphrase is noticed by.

Text that cannot be encoded or decoded is left out throughout: its failure names the character or
the octet at fault.

## Main definitions

- `Argument.Alike` — values of one type and one length
- `Failure.Discreet`, `Discreet` — failures of one category have one text
- `Suite.Call.Alike`, `Suite.Discreet` — calls that agree but for secrets, and two suites that
  answer them alike
- `Dialogue.Discreet` — two dialogues that agree but for secrets

`Dialogue.Discreet.run` says that two such dialogues with two such suites end discreetly.
-/

namespace PasswordVault

open Suite (Call Operation)

/-- A value is neither text nor octets, and so no secret. -/
def Argument.IsOther : Argument → Prop
  | .text _ => False
  | .octets _ _ => False
  | _ => True

/-- Two values have one type and, if they have a length, one length. -/
inductive Argument.Alike : Argument → Argument → Prop
  | text {t t' : Text} (h : t.length = t'.length) : Alike (.text t) (.text t')
  | octets (form : Form) {content content' : Bytes} (h : content.length = content'.length) :
    Alike (.octets form content) (.octets form content')
  | other {a b : Argument} (ha : a.IsOther) (hb : b.IsOther) (htype : a.typeName = b.typeName)
    (hlength : a.length = b.length) : Alike a b

/-- Two answers are octets of one form and one length, or else the same. -/
inductive Argument.Resembles : Argument → Argument → Prop
  | same (value : Argument) : Resembles value value
  | octets (form : Form) {content other : Bytes} (h : content.length = other.length) :
    Resembles (.octets form content) (.octets form other)

namespace Failure

/-- Text could not be encoded, or octets could not be decoded. -/
def IsCoding (failure : Failure) : Prop :=
  failure.category.within .textCoding = true

/-- What a suite reports when it does not trust a ciphertext. -/
def IsDistrust (failure : Failure) : Prop :=
  failure.category = .security ∨ failure.category = .authentication

/-- Two failures of one category have one text, unless they are about a coding. -/
def Discreet (f g : Failure) : Prop :=
  f.category = g.category → ¬f.IsCoding → f.message = g.message

theorem discreet_self (failure : Failure) : failure.Discreet failure :=
  fun _ _ => rfl

theorem Discreet.symm {f g : Failure} (h : f.Discreet g) : g.Discreet f := by
  intro hcategory hcoding
  refine (h hcategory.symm ?_).symm
  rw [IsCoding, ← hcategory]
  exact hcoding

end Failure

/-- Two outcomes that are both failures are discreet. -/
def Discreet {α β : Type} (outcome : Except Failure α) (other : Except Failure β) : Prop :=
  ∀ f g, outcome = .error f → other = .error g → f.Discreet g

section Outcomes

variable {α β γ : Type}

theorem discreet_ok (value : α) (other : Except Failure β) : Discreet (.ok value) other := by
  intro f g hf
  cases hf

theorem discreet_error {f g : Failure} (h : f.Discreet g) :
    Discreet (.error f : Except Failure α) (.error g : Except Failure β) := by
  rintro _ _ ⟨⟩ ⟨⟩
  exact h

theorem discreet_same (outcome : Except Failure α) : Discreet outcome outcome := by
  intro f g hf hg
  obtain rfl : f = g := Except.error.inj (hf.symm.trans hg)
  exact Failure.discreet_self f

theorem Discreet.symm {outcome : Except Failure α} {other : Except Failure β}
    (h : Discreet outcome other) : Discreet other outcome :=
  fun f g hf hg => (h g f hg hf).symm

theorem discreet_coding {f : Failure} (h : f.IsCoding) (other : Except Failure β) :
    Discreet (.error f : Except Failure α) other := by
  rintro _ g ⟨⟩ - - hcoding
  exact absurd h hcoding

/-- What is made of a value that came out does not change the failures before it. -/
theorem Discreet.map {outcome : Except Failure α} {other : Except Failure β} {f : α → γ}
    {g : β → γ} (h : Discreet outcome other) : Discreet (outcome.map f) (other.map g) := by
  cases outcome with
  | ok value => exact discreet_ok _ _
  | error failure =>
    cases other with
    | ok value => exact (discreet_ok _ _).symm
    | error failure' => exact discreet_error (h failure failure' rfl rfl)

end Outcomes

namespace Suite

/-- Two calls agree but for secrets: the content of the passphrase, the key and the plaintext. -/
inductive Call.Alike : Call → Call → Prop
  | randomBytes (length : Nat) : Alike (.randomBytes length) (.randomBytes length)
  | deriveKey (passphrase passphrase' salt : Bytes) (iterations : Argument) (length : Nat) :
    Alike (.deriveKey passphrase salt iterations length)
      (.deriveKey passphrase' salt iterations length)
  | encrypt {key key' : Argument} (h : key.Alike key') (vector plaintext plaintext' : Bytes) :
    Alike (.encrypt key vector plaintext) (.encrypt key' vector plaintext')
  | decrypt {key key' : Argument} (h : key.Alike key') (vector ciphertext : Bytes) :
    Alike (.decrypt key vector ciphertext) (.decrypt key' vector ciphertext)

theorem Call.Alike.operation_eq {call other : Call} (h : call.Alike other) :
    call.operation = other.operation := by
  cases h <;> rfl

/-- What may differ between the answers to two such calls. A clear text with as many code points can
have another number of octets, and so a ciphertext another length. -/
def Operation.Resembling : Operation → Argument → Argument → Prop
  | .randomBytes, a, b => a = b
  | .deriveKey, a, b => a.Resembles b
  | .encrypt, a, b => a.typeName = b.typeName
  | .decrypt, a, b => a.Resembles b

/-- The operations of the cipher, after which nothing more is asked. -/
def Operation.IsCipher (operation : Operation) : Prop :=
  operation = .encrypt ∨ operation = .decrypt

/-- Two answers to calls of an operation. The cipher may succeed in one run and fail in the other,
and then because it does not trust what it was given. -/
inductive Operation.Answers (operation : Operation) :
    Except Failure Argument → Except Failure Argument → Prop
  | values {a b : Argument} (h : operation.Resembling a b) : Answers operation (.ok a) (.ok b)
  | failures {f g : Failure} (h : f.Discreet g) : Answers operation (.error f) (.error g)
  | trusted (a : Argument) {g : Failure} (h : g.IsDistrust) (hop : operation.IsCipher) :
    Answers operation (.ok a) (.error g)
  | distrusted {f : Failure} (b : Argument) (h : f.IsDistrust) (hop : operation.IsCipher) :
    Answers operation (.error f) (.ok b)

/-- Two suites, which may be one, answer calls that agree but for secrets alike, if the calls before
agree but for secrets. That is more than that their failures keep secrets: what they draw is the
same, and the keys they derive and the plaintexts they recover have one form and one length. -/
def Discreet (suite other : Suite) : Prop :=
  ∀ (history history' : List Call) (call call' : Call),
    List.Forall₂ Call.Alike history history' → call.Alike call' →
    call.operation.Answers (suite.answer history call) (other.answer history' call')

end Suite

/-- Two dialogues agree but for secrets. Once a coding has failed in one of them it does not matter
how the other goes on. -/
inductive Dialogue.Discreet {α : Type} : Dialogue α → Dialogue α → Prop
  | done {outcome other : Except Failure α} (h : PasswordVault.Discreet outcome other) :
    Discreet (.done outcome) (.done other)
  | codingLeft {f : Failure} (h : f.IsCoding) (other : Dialogue α) :
    Discreet (.done (.error f)) other
  | codingRight {f : Failure} (h : f.IsCoding) (d : Dialogue α) : Discreet d (.done (.error f))
  | ask {call call' : Call} {next next' : Argument → Dialogue α} (halike : call.Alike call')
    (hop : ¬call.operation.IsCipher)
    (h : ∀ a b, call.operation.Resembling a b → Discreet (next a) (next' b)) :
    Discreet (.ask call next) (.ask call' next')
  /-- The cipher is asked, and then nothing more. -/
  | cipher {call call' : Call} {ended ended' : Argument → Except Failure α}
    (halike : call.Alike call')
    (h : ∀ a b, call.operation.Resembling a b → PasswordVault.Discreet (ended a) (ended' b))
    (hleft : ∀ a g, g.IsDistrust → PasswordVault.Discreet (ended a) (.error g : Except Failure α))
    (hright : ∀ f b, f.IsDistrust →
      PasswordVault.Discreet (.error f : Except Failure α) (ended' b)) :
    Discreet (.ask call fun a => .done (ended a)) (.ask call' fun b => .done (ended' b))

/-- **Two dialogues end discreetly** with suites that are discreet. -/
theorem Dialogue.Discreet.run {α : Type} {d d' : Dialogue α} {suite suite' : Suite}
    {history history' : List Call} (h : d.Discreet d') (hsuite : suite.Discreet suite')
    (hhistory : List.Forall₂ Call.Alike history history') :
    PasswordVault.Discreet (d.run suite history).1 (d'.run suite' history').1 := by
  induction h generalizing history history' with
  | done h => exact h
  | codingLeft h other => exact discreet_coding h _
  | codingRight h d => exact (discreet_coding h _).symm
  | @ask call call' next next' halike hop h ih =>
    have hanswers := hsuite history history' call call' hhistory halike
    have hmore : List.Forall₂ Call.Alike (history ++ [call]) (history' ++ [call']) :=
      List.rel_append hhistory (.cons halike .nil)
    cases ha : suite.answer history call <;> cases hb : suite'.answer history' call' <;>
      rw [ha, hb] at hanswers <;> cases hanswers
    case error.error.failures hfailures =>
      rw [run_ask_of_error ha, run_ask_of_error hb]
      exact discreet_error hfailures
    case error.ok.distrusted hcipher _ => exact absurd hcipher hop
    case ok.error.trusted hcipher _ => exact absurd hcipher hop
    case ok.ok.values a b hvalues =>
      rw [run_ask_of_ok ha, run_ask_of_ok hb]
      exact ih a b hvalues hmore
  | @cipher call call' ended ended' halike h hleft hright =>
    have hanswers := hsuite history history' call call' hhistory halike
    cases ha : suite.answer history call <;> cases hb : suite'.answer history' call' <;>
      rw [ha, hb] at hanswers <;> cases hanswers
    case error.error.failures hfailures =>
      rw [run_ask_of_error ha, run_ask_of_error hb]
      exact discreet_error hfailures
    case error.ok.distrusted f b _ hdistrust =>
      rw [run_ask_of_error ha, run_ask_of_ok hb]
      exact hright f b hdistrust
    case ok.error.trusted a g _ hdistrust =>
      rw [run_ask_of_ok ha, run_ask_of_error hb]
      exact hleft a g hdistrust
    case ok.ok.values a b hvalues =>
      rw [run_ask_of_ok ha, run_ask_of_ok hb]
      exact h a b hvalues

/-! ### The standard suite -/

theorem Argument.contentOr_of_isOther {value : Argument} (h : value.IsOther)
    (refusal : String → ArgumentError) :
    value.contentOr refusal = .error (.argument (refusal value.typeName)) := by
  cases value with
  | text content => exact h.elim
  | octets form content => exact h.elim
  | _ => rfl

namespace Standard

/-- Whether a key is derived does not depend on the passphrase. -/
theorem deriveKey_eq (salt : Bytes) (iterations : Argument) (length : Nat) :
    ∃ checked : Except Failure (Nat × Nat), ∀ passphrase,
      deriveKey (.octets .buffer passphrase) (.ofBytes salt) iterations (.integer length) =
        reportAs .derivation (checked.map fun n => Pbkdf2.derive passphrase salt n.1 n.2) := by
  refine ⟨do
    let length ← (Argument.integer length).word64
    let iterations ← iterations.word64
    if iterations = 0 then throw (.cipher .tooFewIterations)
    let length ← derivedLength length
    return (iterations, length), ?_⟩
  intro passphrase
  refine congrArg (reportAs .derivation) ?_
  show (Argument.integer length).word64 >>= _ = _
  cases (Argument.integer length).word64 with
  | error failure => rfl
  | ok n =>
  show iterations.word64 >>= _ = Except.map _ (iterations.word64 >>= _)
  cases iterations.word64 with
  | error failure => rfl
  | ok count =>
  show (if count = 0 then _ else _) = Except.map _ (if count = 0 then _ else _)
  by_cases hcount : count = 0
  · rw [if_pos hcount, if_pos hcount]
    rfl
  · rw [if_neg hcount, if_neg hcount]
    show derivedLength n >>= _ = Except.map _ (derivedLength n >>= _)
    cases derivedLength n <;> rfl

/-- Whether a key suits the cipher depends on its type and its length. -/
theorem cipherKey_alike {key key' : Argument} (h : key.Alike key') :
    (∃ failure, cipherKey key = .error failure ∧ cipherKey key' = .error failure) ∨
      ∃ octets octets', cipherKey key = .ok octets ∧ cipherKey key' = .ok octets' := by
  cases h with
  | text h => exact Or.inl ⟨_, rfl, rfl⟩
  | @octets form content content' h =>
    show (∃ failure, (if !Aes.isKeyLength content.length then _ else _) = _ ∧
      (if !Aes.isKeyLength content'.length then _ else _) = _) ∨
      ∃ octets octets', (if !Aes.isKeyLength content.length then _ else _) = _ ∧
        (if !Aes.isKeyLength content'.length then _ else _) = _
    rw [h]
    cases Aes.isKeyLength content'.length with
    | false => exact Or.inl ⟨_, rfl, rfl⟩
    | true => exact Or.inr ⟨_, _, rfl, rfl⟩
  | other ha hb htype hlength =>
    rw [cipherKey, cipherKey, Argument.buffer, Argument.buffer, Argument.contentOr_of_isOther ha,
      Argument.contentOr_of_isOther hb, htype]
    exact Or.inl ⟨_, rfl, rfl⟩

theorem encrypt_alike {key key' : Argument} (h : key.Alike key')
    (vector plaintext plaintext' : Bytes) :
    (∃ failure, encrypt key (.ofBytes vector) (.octets .buffer plaintext) = .error failure ∧
        encrypt key' (.ofBytes vector) (.octets .buffer plaintext') = .error failure) ∨
      ∃ octets octets', encrypt key (.ofBytes vector) (.octets .buffer plaintext) = .ok octets ∧
        encrypt key' (.ofBytes vector) (.octets .buffer plaintext') = .ok octets' := by
  rcases cipherKey_alike h with ⟨failure, hkey, hkey'⟩ | ⟨octets, octets', hkey, hkey'⟩
  · rw [encrypt, encrypt, hkey, hkey']
    exact Or.inl ⟨_, rfl, rfl⟩
  · rw [encrypt_of_cipherKey hkey, encrypt_of_cipherKey hkey']
    cases checkNonceLength vector.length with
    | error failure => exact Or.inl ⟨_, rfl, rfl⟩
    | ok _ => exact Or.inr ⟨_, _, rfl, rfl⟩

/-- Decryption fails in the same way under two keys, or it tries their octets on the ciphertext. -/
theorem decrypt_alike {key key' : Argument} (h : key.Alike key') (vector ciphertext : Bytes) :
    (∃ failure, decrypt key (.ofBytes vector) (.ofBytes ciphertext) = .error failure ∧
        decrypt key' (.ofBytes vector) (.ofBytes ciphertext) = .error failure) ∨
      ∃ octets octets', decrypt key (.ofBytes vector) (.ofBytes ciphertext) =
          (match Gcm.unlock? octets vector ciphertext with
            | some plaintext => .ok plaintext
            | none => .error .authentication) ∧
        decrypt key' (.ofBytes vector) (.ofBytes ciphertext) =
          (match Gcm.unlock? octets' vector ciphertext with
            | some plaintext => .ok plaintext
            | none => .error .authentication) := by
  rcases cipherKey_alike h with ⟨failure, hkey, hkey'⟩ | ⟨octets, octets', hkey, hkey'⟩
  · rw [decrypt, decrypt, hkey, hkey']
    exact Or.inl ⟨_, rfl, rfl⟩
  · rw [decrypt_of_cipherKey hkey, decrypt_of_cipherKey hkey']
    cases checkNonceLength vector.length with
    | error failure => exact Or.inl ⟨_, rfl, rfl⟩
    | ok _ => exact Or.inr ⟨octets, octets', rfl, rfl⟩

end Standard

namespace Suite

theorem countOf_alike {operation : Operation} {history history' : List Call}
    (h : List.Forall₂ Call.Alike history history') :
    countOf operation history = countOf operation history' := by
  induction h with
  | nil => rfl
  | cons hcall _ ih =>
    rw [countOf, countOf, List.countP_cons, List.countP_cons, hcall.operation_eq]
    exact congrArg (· + _) ih

/-- **The standard suite is discreet.** -/
theorem standard_discreet (entropy : Entropy) : (standard entropy).Discreet (standard entropy) := by
  intro history history' call call' hhistory halike
  cases halike with
  | randomBytes length =>
    show Operation.Answers _
      (Argument.ofBytes <$> Standard.randomBytes entropy (countOf .randomBytes history) _)
      (Argument.ofBytes <$> Standard.randomBytes entropy (countOf .randomBytes history') _)
    rw [countOf_alike hhistory]
    cases Standard.randomBytes entropy (countOf .randomBytes history') (.integer length) with
    | error failure => exact .failures (Failure.discreet_self failure)
    | ok octets => exact .values rfl
  | deriveKey passphrase passphrase' salt iterations length =>
    obtain ⟨checked, hderive⟩ := Standard.deriveKey_eq salt iterations length
    show Operation.Answers _ (Argument.ofBytes <$> Standard.deriveKey _ _ _ _)
      (Argument.ofBytes <$> Standard.deriveKey _ _ _ _)
    rw [hderive, hderive]
    cases checked with
    | error failure => exact .failures (Failure.discreet_self _)
    | ok n =>
      refine .values (.octets .constant ?_)
      rw [Pbkdf2.length_derive, Pbkdf2.length_derive]
  | encrypt hkey vector plaintext plaintext' =>
    show Operation.Answers _ (Argument.ofBytes <$> Standard.encrypt _ _ _)
      (Argument.ofBytes <$> Standard.encrypt _ _ _)
    rcases Standard.encrypt_alike hkey vector plaintext plaintext' with
      ⟨failure, hleft, hright⟩ | ⟨octets, octets', hleft, hright⟩
    · rw [hleft, hright]
      exact .failures (Failure.discreet_self failure)
    · rw [hleft, hright]
      exact .values rfl
  | decrypt hkey vector ciphertext =>
    show Operation.Answers _ (Argument.ofBytes <$> Standard.decrypt _ _ _)
      (Argument.ofBytes <$> Standard.decrypt _ _ _)
    rcases Standard.decrypt_alike hkey vector ciphertext with
      ⟨failure, hleft, hright⟩ | ⟨octets, octets', hleft, hright⟩
    · rw [hleft, hright]
      exact .failures (Failure.discreet_self failure)
    · rw [hleft, hright]
      cases hopen : Gcm.unlock? octets vector ciphertext with
      | none =>
        cases Gcm.unlock? octets' vector ciphertext with
        | none => exact .failures (Failure.discreet_self _)
        | some plaintext' => exact .distrusted _ (Or.inr rfl) (Or.inr rfl)
      | some plaintext =>
        cases hopen' : Gcm.unlock? octets' vector ciphertext with
        | none => exact .trusted _ (Or.inr rfl) (Or.inr rfl)
        | some plaintext' =>
          -- Both plaintexts are as long as the ciphertext without its tag.
          have hlength := congrArg List.length (Gcm.lock_of_unlock? hopen)
          have hlength' := congrArg List.length (Gcm.lock_of_unlock? hopen')
          rw [Gcm.length_lock] at hlength hlength'
          exact .values (.octets .constant (Nat.add_right_cancel (hlength.trans hlength'.symm)))

end Suite

end PasswordVault
