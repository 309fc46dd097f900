import PasswordVault.Proofs.SecretKey.Live
import PasswordVault.Proofs.Vault.Tidy

/-!
# What a key holds

A key that has not been destroyed gives its secret, whatever it was made from: the content of its
buffer, the items of its list, or a value that cannot change. An operation that leaves the vault
tidy does not touch it.

## Main definitions

- `Material.Shows` — the value that a secret gives
- `SecretKey.Holds` — a key that has not been destroyed, with its record and its secret
- `KeyRecord.Bounded` — the lengths of the salt and the key ID
- `Vault.oneKey` — a vault with one key

`SecretKey.create_eq_ok` inverts the creation of a key around any secret.
-/

namespace PasswordVault

/-- A secret gives a value: what its buffer or its list holds, or what it has always been. -/
inductive Material.Shows (v : Vault) : Material → Argument → Prop
  | buffer {cell : Cell} {content : Bytes} (h : v.cells[cell]? = some content) :
    Shows v (.buffer cell) (.octets .buffer content)
  | list {place : ListRef} {items : List Argument} (h : v.lists[place]? = some items) :
    Shows v (.list place) (.list items)
  | fixed (value : Argument) : Shows v (.fixed value) value

theorem Material.Shows.mono {v w : Vault} {material : Material} {value : Argument}
    (h : material.Shows v value) (hc : v.cells <+: w.cells) (hl : v.lists <+: w.lists) :
    material.Shows w value := by
  cases h with
  | buffer hcell => exact .buffer (Vault.getElem?_of_prefix hc hcell)
  | list hlist => exact .list (Vault.getElem?_of_prefix hl hlist)
  | fixed value => exact .fixed value

namespace Argument

theorem length_of_items {container : Container} {values : List Argument} {octets : Bytes}
    (h : items container values = .ok octets) : octets.length = values.length := by
  induction values generalizing octets with
  | nil =>
    cases h
    rfl
  | cons value rest ih =>
    rw [items] at h
    split at h
    · cases h
    split at h
    · cases h
    · next others hothers =>
      cases h
      exact congrArg Nat.succ (ih hothers)

/-- What has a length is converted to as many octets. -/
theorem length_of_toBytes {container : Container} {value : Argument} {octets : Bytes} {n : Nat}
    (hlength : value.length = .ok n) (h : value.toBytes container = .ok octets) :
    octets.length = n := by
  cases value with
  | octets form content =>
    cases h
    exact Except.ok.inj hlength
  | list values => exact (length_of_items h).trans (Except.ok.inj hlength)
  | text content => cases h
  | _ => cases hlength

end Argument

/-- The lengths of the salt and the key ID of a key. -/
structure KeyRecord.Bounded (record : KeyRecord) : Prop where
  salt : record.salt.length = Envelope.saltLength
  keyId : record.keyId.length ≤ Envelope.maxKeyIdLength

namespace SecretKey

variable {v w : Vault} {key : KeyRef} {record : KeyRecord} {secret : Argument}

/-- A key has not been destroyed, and gives its secret. -/
structure Holds (v : Vault) (key : KeyRef) (record : KeyRecord) (secret : Argument) : Prop where
  stored : v.keys[key]? = some record
  live : record.destroyed = false
  shows : record.material.Shows v secret

theorem present_of_shows {material : Material} (h : material.Shows v secret) :
    present material v = (.ok secret, v) := by
  cases h with
  | buffer hcell => exact present_buffer hcell
  | @list place items hlist =>
    have hitems : Action.itemsAt place v = (.ok items, v) := by
      rw [Action.itemsAt, List.getD_eq_getElem?_getD, hlist]
      rfl
    rw [present, Action.bind_of_ok hitems]
    rfl
  | fixed => rfl

theorem Holds.secret_eq (h : Holds v key record secret) :
    SecretKey.secret key v = (.ok secret, v) := by
  rw [SecretKey.secret, Action.bind_of_ok (record_eq h.stored), h.live]
  exact present_of_shows h.shows

theorem Holds.inj {record' : KeyRecord} {secret' : Argument} (h : Holds v key record secret)
    (h' : Holds v key record' secret') : record = record' ∧ secret = secret' := by
  refine ⟨Option.some.inj (h.stored.symm.trans h'.stored), ?_⟩
  exact Except.ok.inj (congrArg Prod.fst (h.secret_eq.symm.trans h'.secret_eq))

/-- A secret of positive length is there to be shown. -/
theorem shows_of_present {material : Material} {n : Nat} (h : present material v = (.ok secret, w))
    (hlength : secret.length = .ok n) (hn : n ≠ 0) : w = v ∧ material.Shows v secret := by
  cases material with
  | buffer cell =>
    cases h
    refine ⟨rfl, ?_⟩
    cases hcell : v.cells[cell]? with
    | some content =>
      rw [List.getD_eq_getElem?_getD, hcell]
      exact .buffer hcell
    | none =>
      rw [List.getD_eq_getElem?_getD, hcell] at hlength
      exact absurd (Except.ok.inj hlength).symm hn
  | list place =>
    cases h
    refine ⟨rfl, ?_⟩
    cases hplace : v.lists[place]? with
    | some items =>
      rw [List.getD_eq_getElem?_getD, hplace]
      exact .list hplace
    | none =>
      rw [List.getD_eq_getElem?_getD, hplace] at hlength
      exact absurd (Except.ok.inj hlength).symm hn
  | fixed value =>
    cases h
    exact ⟨rfl, .fixed secret⟩

/-- A key that is created is added to the others and nothing else changes. Its secret is there and
has its length, and so has its salt. -/
theorem create_eq_ok {keyId salt : Argument} {material : Material}
    (h : create keyId salt material v = (.ok key, w)) :
    ∃ id s secret, KeyId.ofArgument keyId = .ok id ∧ salt.toBytes .constant = .ok s ∧
      s.length = Envelope.saltLength ∧ material.Shows v secret ∧ secret.length = .ok keyLength ∧
      key = v.keys.length ∧
      w = { v with
        keys := v.keys ++ [{ keyId := id, salt := s, material, destroyed := false }] } := by
  obtain ⟨saltLength, hlength, hsized⟩ := Action.lift_bind_eq_ok h
  obtain ⟨hsalt, hfilled⟩ := Action.guard_eq_ok hsized
  obtain ⟨secret, shown, hpresent, hmeasured⟩ := Action.bind_eq_ok hfilled
  obtain ⟨length, hsecret, hfull⟩ := Action.lift_bind_eq_ok hmeasured
  obtain ⟨hkeyLength, hnamed⟩ := Action.guard_eq_ok hfull
  obtain ⟨id, hid, hcopied⟩ := Action.lift_bind_eq_ok hnamed
  obtain ⟨s, hs, hstored⟩ := Action.lift_bind_eq_ok hcopied
  obtain rfl : length = keyLength := Decidable.of_not_not hkeyLength
  obtain ⟨rfl, hshows⟩ := shows_of_present hpresent hsecret (by decide)
  have hsLength := (Argument.length_of_toBytes hlength hs).trans (Decidable.of_not_not hsalt)
  cases hstored
  exact ⟨id, s, secret, hid, hs, hsLength, hshows, hsecret, rfl, rfl⟩

/-- A key holds what it held while keys, buffers and lists are only added. -/
theorem Holds.mono (h : Holds v key record secret) (hk : v.keys <+: w.keys)
    (hc : v.cells <+: w.cells) (hl : v.lists <+: w.lists) : Holds w key record secret :=
  ⟨Vault.getElem?_of_prefix hk h.stored, h.live, h.shows.mono hc hl⟩

theorem Holds.of_tidy {calls : List Suite.Call} (h : Holds v key record secret)
    (ht : v.Tidy calls w) : Holds w key record secret :=
  h.mono (ht.keys ▸ List.prefix_refl _) ht.cells_prefix (ht.lists ▸ List.prefix_refl _)

theorem Live.of_tidy {cell : Cell} {keyId salt content : Bytes} {calls : List Suite.Call}
    (h : Live v key cell keyId salt content) (ht : v.Tidy calls w) :
    Live w key cell keyId salt content :=
  h.mono (ht.keys ▸ List.prefix_refl _) ht.cells_prefix

theorem Live.holds {cell : Cell} {keyId salt content : Bytes}
    (h : Live v key cell keyId salt content) :
    Holds v key { keyId, salt, material := .buffer cell, destroyed := false }
      (.octets .buffer content) :=
  ⟨h.record, rfl, .buffer h.content⟩

end SecretKey

/-- A vault with one key, whose salt and secret are zeros. -/
def Vault.oneKey : Vault :=
  { Vault.ofSettings (.ofEnvironment []) with
    cells := [.zeros 32]
    keys := [{ keyId := [1], salt := .zeros 16, material := .buffer 0, destroyed := false }] }

theorem Vault.live_oneKey : SecretKey.Live .oneKey 0 0 [1] (.zeros 16) (.zeros 32) :=
  ⟨rfl, rfl⟩

end PasswordVault
