import PasswordVault.Proofs.SecretKey.Ending
import PasswordVault.Proofs.SecretKey.Generation
import PasswordVault.Proofs.Vault.Keeping

/-!
# Resolving the iterations

An operation that is not given the iterations resolves the standard number of them, which the
settings may replace. The first replacement is reported, if the standard can be shown, and no later
one is. Everything else that operations do neither reports a replacement nor forgets that one was
reported.

## Main definitions

- `Settings.replaces`, `Settings.notice` — whether a standard is replaced, and the warning that
  this calls for
- `Vault.Resolves` — what resolving a standard, or none, leaves in the vault
- `Action.Unresolving` — an action that resolves none
- `SecretKey.standard?` — the standard that generating a key resolves

`SecretKey.resolves_generate` says what generating a key leaves, however it ends.
-/

namespace PasswordVault

/-- A warning that the standard number of iterations was replaced. -/
def Warning.isReplacement : Warning → Bool
  | .iterationsReplaced _ _ => true
  | .keyAbandoned _ => false

/-- The iterations for which a key is to be derived. -/
def Suite.Call.iterations? : Suite.Call → Option Argument
  | .deriveKey _ _ iterations _ => some iterations
  | _ => none

namespace Settings

/-- Whether a standard is resolved that the settings replace. -/
def replaces (settings : Settings) (standard? : Option Argument) : Bool :=
  (standard?.bind settings.replacement?).isSome

/-- The warning that resolving a standard calls for: one is resolved that the settings replace, and
it can be shown. -/
def notice (settings : Settings) (standard? : Option Argument) : List Warning :=
  match standard? with
  | some standard =>
    match settings.replacement? standard, standard.shown with
    | some override, .ok shown => [.iterationsReplaced override shown]
    | _, _ => []
  | none => []

@[simp] theorem replaces_none (settings : Settings) : settings.replaces none = false := rfl

@[simp] theorem notice_none (settings : Settings) : settings.notice none = [] := rfl

variable {settings : Settings} {standard? : Option Argument}

theorem replacement?_eq_some_iff {standard : Argument} {override : Int} :
    settings.replacement? standard = some override ↔
      settings.override? = some override ∧ standard.equalsInt override = false := by
  simp only [replacement?, Option.filter_eq_some_iff, Bool.not_eq_true']

/-- A standard is replaced where a number is set that differs from it. -/
theorem replaces_iff :
    settings.replaces standard? = true ↔
      ∃ standard override, standard? = some standard ∧ settings.override? = some override ∧
        standard.equalsInt override = false := by
  cases standard? with
  | none => simp
  | some standard =>
    rw [replaces, Option.bind_some, Option.isSome_iff_exists]
    simp [replacement?_eq_some_iff]

/-- A warning is called for where the standard that is replaced can be shown. -/
theorem mem_notice_iff {warning : Warning} :
    warning ∈ settings.notice standard? ↔
      ∃ standard override shown, standard? = some standard ∧
        settings.override? = some override ∧ standard.equalsInt override = false ∧
        standard.shown = .ok shown ∧ warning = .iterationsReplaced override shown := by
  cases standard? with
  | none => simp
  | some standard =>
    rw [notice]
    split
    · next override shown hreplaced hshown =>
      obtain ⟨hset, hdiffers⟩ := replacement?_eq_some_iff.mp hreplaced
      constructor
      · intro hmem
        exact ⟨standard, override, shown, rfl, hset, hdiffers, hshown, List.mem_singleton.mp hmem⟩
      · rintro ⟨_, other, text, ⟨⟩, hother, -, htext, rfl⟩
        obtain rfl := Option.some.inj (hset.symm.trans hother)
        obtain rfl := Except.ok.inj (hshown.symm.trans htext)
        exact List.mem_singleton_self _
    · next hnone =>
      refine iff_of_false List.not_mem_nil ?_
      rintro ⟨_, override, shown, ⟨⟩, hset, hdiffers, hshown, -⟩
      exact hnone override shown (replacement?_eq_some_iff.mpr ⟨hset, hdiffers⟩) hshown

theorem notice_eq_nil (h : settings.replaces standard? = false) :
    settings.notice standard? = [] := by
  refine List.eq_nil_iff_forall_not_mem.mpr fun warning hmem => ?_
  obtain ⟨standard, override, -, hresolved, hset, hdiffers, -⟩ := mem_notice_iff.mp hmem
  cases h.symm.trans (replaces_iff.mpr ⟨standard, override, hresolved, hset, hdiffers⟩)

theorem length_notice_le (settings : Settings) (standard? : Option Argument) :
    (settings.notice standard?).length ≤ 1 := by
  cases standard? with
  | none => exact Nat.zero_le 1
  | some standard =>
    rw [notice]
    split
    · exact Nat.le_refl 1
    · exact Nat.zero_le 1

/-- One warning is called for by a standard that is replaced and can be shown. -/
theorem exists_notice_eq {standard : Argument} {shown : String}
    (hshown : standard.shown = .ok shown) (h : settings.replaces (some standard) = true) :
    ∃ warning, settings.notice (some standard) = [warning] := by
  obtain ⟨override, hreplaced⟩ := Option.isSome_iff_exists.mp h
  have hone : settings.replacement? standard = some override := hreplaced
  exact ⟨.iterationsReplaced override shown, by rw [notice, hone, hshown]⟩

end Settings

namespace Vault

/-- The warnings that a standard number was replaced, oldest first. -/
def replacements (v : Vault) : List Warning :=
  v.warnings.filter (·.isReplacement)

/-- A standard has been resolved, or none, and keys have been derived with the given iterations. A
warning that this calls for was given if none had been reported before. -/
structure Resolves (standard? : Option Argument) (iterations : Argument) (v w : Vault) : Prop where
  settings : w.settings = v.settings
  reported : w.reported = (v.reported || v.settings.replaces standard?)
  replacements : w.replacements =
    v.replacements ++ if v.reported then [] else v.settings.notice standard?
  derived : ∃ made, w.calls = v.calls ++ made ∧
    ∀ call ∈ made, ∀ n ∈ call.iterations?, n = iterations

variable {standard? : Option Argument} {iterations : Argument} {v w u : Vault}

/-- Where nothing was resolved, reported or derived. -/
theorem resolves_of_eq (hsettings : w.settings = v.settings) (hreported : w.reported = v.reported)
    (hwarned : w.replacements = v.replacements) (hcalls : w.calls = v.calls) :
    Resolves none iterations v w where
  settings := hsettings
  reported := by simp [hreported]
  replacements := by simp [hwarned]
  derived := ⟨[], by simp [hcalls], by simp⟩

theorem exists_derived_append
    (h : ∃ made, u.calls = v.calls ++ made ∧ ∀ call ∈ made, ∀ n ∈ call.iterations?, n = iterations)
    (hn : ∃ made, w.calls = u.calls ++ made ∧
      ∀ call ∈ made, ∀ n ∈ call.iterations?, n = iterations) :
    ∃ made, w.calls = v.calls ++ made ∧ ∀ call ∈ made, ∀ n ∈ call.iterations?, n = iterations := by
  obtain ⟨first, hfirst, hderived⟩ := h
  obtain ⟨rest, hrest, hderived'⟩ := hn
  refine ⟨first ++ rest, by rw [hrest, hfirst, List.append_assoc], fun call hcall => ?_⟩
  rcases List.mem_append.mp hcall with hin | hin
  · exact hderived call hin
  · exact hderived' call hin

/-- What is done before a standard is resolved makes no difference. -/
theorem Resolves.after (h : Resolves none iterations v u)
    (hn : Resolves standard? iterations u w) : Resolves standard? iterations v w where
  settings := hn.settings.trans h.settings
  reported := by simp [hn.reported, h.reported, h.settings]
  replacements := by simp [hn.replacements, h.replacements, h.reported, h.settings]
  derived := exists_derived_append h.derived hn.derived

/-- Neither does what is done afterwards. -/
theorem Resolves.before (h : Resolves standard? iterations v u)
    (hn : Resolves none iterations u w) : Resolves standard? iterations v w where
  settings := hn.settings.trans h.settings
  reported := by simp [hn.reported, h.reported]
  replacements := by simp [hn.replacements, h.replacements]
  derived := exists_derived_append h.derived hn.derived

instance : Std.Refl (Resolves none iterations) :=
  ⟨fun _ => resolves_of_eq rfl rfl rfl rfl⟩

instance : Trans (Resolves none iterations) (Resolves none iterations) (Resolves none iterations) :=
  ⟨Resolves.after⟩

end Vault

namespace Action

variable {α β : Type} {iterations : Argument} {standard? : Option Argument} {v : Vault}

/-- An action resolves no standard, and derives keys with the given iterations. -/
abbrev Unresolving (iterations : Argument) (action : Action α) : Prop :=
  action.Keeps (Vault.Resolves none iterations)

/-- Where an action changes nothing but buffers, lists and keys. -/
theorem unresolving_of_eq {action : Action α}
    (h : ∀ v, ∃ cells lists keys, (action v).2 = { v with cells, lists, keys }) :
    action.Unresolving iterations := by
  intro v
  obtain ⟨cells, lists, keys, hv⟩ := h v
  rw [hv]
  exact Vault.resolves_of_eq rfl rfl rfl rfl

theorem unresolving_allocate (content : Bytes) : (allocate content).Unresolving iterations :=
  unresolving_of_eq fun v => ⟨_, v.lists, v.keys, rfl⟩

theorem unresolving_wipe (cell : Cell) : (wipe cell).Unresolving iterations :=
  unresolving_of_eq fun v => ⟨_, v.lists, v.keys, rfl⟩

/-- A key is derived with the given iterations, or something else is asked. -/
theorem unresolving_ask (suite : Suite) {call : Suite.Call}
    (h : ∀ n ∈ call.iterations?, n = iterations) : (ask suite call).Unresolving iterations := by
  intro v
  exact ⟨rfl, by simp, by simp [Vault.replacements], [call], rfl, by simpa using h⟩

theorem resolves_resolveIterations (standard iterations : Argument) (v : Vault) :
    Vault.Resolves (some standard) iterations v (resolveIterations standard v).2 := by
  rw [resolveIterations]
  cases hreplaced : v.settings.replacement? standard with
  | none =>
    refine ⟨rfl, ?_, ?_, [], ?_, ?_⟩ <;> simp [Settings.replaces, Settings.notice, hreplaced]
  | some override =>
    cases hreported : v.reported with
    | true => refine ⟨rfl, ?_, ?_, [], ?_, ?_⟩ <;> simp [hreported]
    | false =>
      cases hshown : standard.shown <;> refine ⟨rfl, ?_, ?_, [], ?_, ?_⟩ <;>
        simp [Settings.replaces, Settings.notice, hreplaced, hreported, hshown,
          Vault.replacements, Warning.isReplacement]

/-- Resolving gives what the settings give, unless the standard cannot be shown where its
replacement is to be reported. -/
theorem fst_resolveIterations (standard : Argument) (v : Vault) :
    (resolveIterations standard v).1 =
      if v.reported || !v.settings.replaces (some standard) then
        .ok (v.settings.iterations standard)
      else standard.shown.map fun _ => v.settings.iterations standard := by
  rw [resolveIterations, Settings.replaces, Option.bind_some]
  cases v.settings.replacement? standard with
  | none => simp
  | some override =>
    cases v.reported with
    | true => rfl
    | false => cases standard.shown <;> rfl

end Action

namespace SecretKey

variable {iterations : Argument} {v : Vault}

theorem unresolving_record (key : KeyRef) : (record key).Unresolving iterations :=
  Action.keeps_of_silent (record_snd key)

theorem unresolving_secret (key : KeyRef) : (secret key).Unresolving iterations :=
  Action.keeps_of_silent (secret_snd key)

theorem unresolving_present (material : Material) : (present material).Unresolving iterations := by
  refine Action.keeps_of_silent fun v => ?_
  obtain ⟨value, hpresent⟩ := exists_present material v
  rw [hpresent]

theorem unresolving_materialOf (value : Argument) : (materialOf value).Unresolving iterations := by
  refine Action.unresolving_of_eq fun v => ?_
  cases value with
  | octets form content => cases form <;> exact ⟨_, _, v.keys, rfl⟩
  | _ => exact ⟨v.cells, _, v.keys, rfl⟩

theorem unresolving_create (keyId salt : Argument) (material : Material) :
    (create keyId salt material).Unresolving iterations := by
  refine Action.unresolving_of_eq fun v => ?_
  rcases create_cases keyId salt material v with ⟨failure, hrefused⟩ | ⟨key, w, hmade⟩
  · exact ⟨v.cells, v.lists, v.keys, by rw [hrefused]⟩
  · obtain ⟨id, s, secret, -, -, -, -, -, -, rfl⟩ := create_eq_ok hmade
    exact ⟨v.cells, v.lists, _, by rw [hmade]⟩

theorem unresolving_wipeMaterial (material : Material) :
    (wipeMaterial material).Unresolving iterations := by
  cases material with
  | buffer cell => exact Action.unresolving_wipe cell
  | _ => exact (unresolving_present _).bind fun _ => Action.keeps_fail _

theorem unresolving_destroy (key : KeyRef) : (destroy key).Unresolving iterations := by
  refine (unresolving_record key).bind fun record => ?_
  refine (unresolving_wipeMaterial record.material).bind fun _ => ?_
  exact Action.unresolving_of_eq fun v => ⟨v.cells, v.lists, _, rfl⟩

theorem unresolving_within {α : Type} {key : KeyRef} {body : Action α}
    (h : body.Unresolving iterations) : (within key body).Unresolving iterations :=
  h.ensuring (unresolving_destroy key)

/-- A key that is given up is reported, which is no replacement. -/
theorem unresolving_abandon (key : KeyRef) : (abandon key).Unresolving iterations := by
  intro v
  rw [abandon]
  rcases record key v with ⟨failure | record, w⟩
  · exact Vault.resolves_of_eq rfl rfl rfl rfl
  dsimp only
  split
  · exact Vault.resolves_of_eq rfl rfl rfl rfl
  have hdestroyed : Vault.Resolves none iterations v (destroy key v).2 := unresolving_destroy key v
  split
  · next w hrun =>
    rw [hrun] at hdestroyed
    refine hdestroyed.before (Vault.resolves_of_eq rfl rfl ?_ rfl)
    simp [Action.warn, Action.update, Vault.replacements, Warning.isReplacement]
  · next w hrun =>
    rw [hrun] at hdestroyed
    exact hdestroyed

/-- The standard of all keys, where the iterations are not given. -/
def defaulted : Argument → Option Argument
  | .absent => some (.integer standardIterations)
  | _ => none

/-- The standard that generating a key resolves, if the key ID and the salt are accepted. -/
def standard? (keyId salt iterations : Argument) : Option Argument :=
  match KeyId.ofArgument keyId,
    salt.toBytesOf .constant Envelope.saltLength
      (fun length => .field (.keySaltLength length)) with
  | .ok _, .ok _ => defaulted iterations
  | _, _ => none

/-- Generating a key resolves no standard but the one of all keys. -/
theorem eq_of_standard? {keyId salt standard : Argument}
    (h : standard? keyId salt iterations = some standard) :
    standard = .integer standardIterations := by
  rw [standard?] at h
  split at h
  · cases iterations with
    | absent => exact (Option.some.inj h).symm
    | _ => cases h
  · cases h

theorem resolves_chooseIterations (given iterations : Argument) (v : Vault) :
    Vault.Resolves (defaulted given) iterations v (chooseIterations given v).2 := by
  cases given with
  | absent => exact Action.resolves_resolveIterations _ _ v
  | _ => exact Vault.resolves_of_eq rfl rfl rfl rfl

/-- **Generating a key** resolves the standard of all keys, if it comes so far and is not given the
iterations, and derives the key with the iterations that this gives. -/
theorem resolves_generate (suite : Suite) (keyId passphrase salt iterations : Argument)
    (v : Vault) :
    Vault.Resolves (standard? keyId salt iterations) (usedIterations v.settings iterations) v
      (generate suite keyId passphrase salt iterations v).2 := by
  rw [generate, standard?]
  cases KeyId.ofArgument keyId with
  | error failure => exact Vault.resolves_of_eq rfl rfl rfl rfl
  | ok id =>
  rw [Action.bind_of_ok (Action.lift_apply _ v)]
  cases salt.toBytesOf .constant Envelope.saltLength
      (fun length => .field (.keySaltLength length)) with
  | error failure => exact Vault.resolves_of_eq rfl rfl rfl rfl
  | ok s =>
  obtain ⟨reported, warnings, hchosen⟩ := chooseIterations_eq iterations v
  have hresolved := resolves_chooseIterations iterations (usedIterations v.settings iterations) v
  rw [hchosen] at hresolved
  rw [Action.bind_of_ok (Action.lift_apply _ v), Action.bind_of_ok hchosen]
  have hrest : Action.Unresolving (usedIterations v.settings iterations) (do
      let secret ← Action.lift (passphrase.secretOctets .passphrase)
      let cell ← Action.allocate secret
      let derived ← Action.ensuring
        (do Action.ask suite (.deriveKey (← Action.content cell) s
          (usedIterations v.settings iterations) keyLength))
        (Action.wipe cell)
      let content ← Action.lift (derivedOctets derived)
      create (.ofBytes id) (.ofBytes s) (.buffer (← Action.allocate content))) := by
    refine (Action.keeps_lift _).bind fun secret => ?_
    refine (Action.unresolving_allocate secret).bind fun cell => ?_
    refine Action.Keeps.bind ?_ fun derived => ?_
    · refine Action.Keeps.ensuring ?_ (Action.unresolving_wipe cell)
      refine (Action.keeps_content cell).bind fun secret => ?_
      exact Action.unresolving_ask suite (by simp [Suite.Call.iterations?])
    refine (Action.keeps_lift _).bind fun content => ?_
    exact (Action.unresolving_allocate content).bind fun _ => unresolving_create _ _ _
  exact hresolved.before (hrest _)

end SecretKey

end PasswordVault
