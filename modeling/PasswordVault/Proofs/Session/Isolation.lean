import PasswordVault.Proofs.Session.Routes
import PasswordVault.Proofs.StoredPassword.Protocol

/-!
# Keys beside each other

The end of one key leaves every other key as it is, and the secret of every other key too unless the
two have one buffer. In that case the other key stays live and holds zeros from then on. Two keys
have one buffer only if one of them was made around what a name holds.

## Main definitions

- `Session.Ending` — the three ways in which a key comes to its end
- `Vault.Shares` — two keys have one buffer
- `SecretKey.OnlyUses` — suites are given one secret, and no other, for a key

`Session.isolation` says when keys are isolated from each other.
-/

namespace PasswordVault

/-- Two keys have one buffer. -/
def Vault.Shares (v : Vault) (key other : KeyRef) : Prop :=
  ∃ (record found : KeyRecord) (cell : Cell), v.keys[key]? = some record ∧
    v.keys[other]? = some found ∧ record.material = .buffer cell ∧ found.material = .buffer cell

/-- Whatever is locked or unlocked with a key, suites are given one secret for it and no other. -/
structure SecretKey.OnlyUses (v : Vault) (key : KeyRef) (secret : Argument) : Prop where
  locking : ∀ suite vector clearText, ∃ iv padded,
    (StoredPassword.lockWith suite (.key key) vector clearText v).2.calls <+:
      v.calls ++ [.encrypt secret iv padded]
  unlocking : ∀ suite (password : StoredPassword),
    (password.unlock suite (.key key) v).2.calls = v.calls ++ [password.opening secret]

theorem SecretKey.Holds.onlyUses {v : Vault} {key : KeyRef} {record : KeyRecord}
    {secret : Argument} (h : SecretKey.Holds v key record secret) :
    SecretKey.OnlyUses v key secret where
  locking suite vector clearText := by
    obtain ⟨iv, padded, made, outcome, after, hrun, hcalls, -, hmade, -⟩ :=
      StoredPassword.lockWith_calls suite h vector clearText
    refine ⟨iv, padded, ?_⟩
    rw [hrun]
    show after.calls <+: _
    rw [hcalls]
    exact (List.prefix_append_right_inj _).mpr hmade
  unlocking suite password := by
    obtain ⟨w, hrun, htidy⟩ := StoredPassword.unlockUnder_run suite password h.secret_eq
    rw [StoredPassword.unlock, hrun]
    exact htidy.calls_eq

namespace Session

variable {s t : Session} {key other : KeyRef} {record found : KeyRecord} {cell : Cell}

/-- The ways in which a key comes to its end: it is destroyed by name, the innermost block on it is
closed, or it loses its last reference while it is live. -/
inductive Ending (s : Session) (key : KeyRef) : Session → Prop
  | destroyed {name : String} {report : Report} {t : Session} (hname : find s.keys name = .ok key)
    (h : run (.command (.destroy name)) s = (report, t)) : Ending s key t
  | left {rest : List KeyRef} {failing? : Option String} {outcome : Except Failure Reply}
    {t : Session} (hopen : s.entered = key :: rest)
    (h : s.quiet.leave key failing? = (outcome, t)) : Ending s key t
  | lost {command : Command} {report : Report} {t : Session}
    (h : run (.command command) s = (report, t)) (hlost : key ∈ s.losing t) : Ending s key t

/-- A vault in which one key is destroyed keeps everything else. -/
theorem keepsBut_of_destroyed (hs : s.Sound)
    (hvault : t.vault = (SecretKey.destroy key s.quiet.vault).2) :
    s.vault.KeepsBut [key] t.vault ∧
      ∀ {record cell}, s.vault.keys[key]? = some record → record.material = .buffer cell →
        t.vault.Wiped key record cell := by
  rw [hvault]
  have hkeeps := SecretKey.keepsBut_destroy key s.quiet.vault
  refine ⟨⟨hkeeps.keys, hkeeps.cells, hkeeps.lists⟩, fun hrecord hmaterial => ?_⟩
  obtain ⟨cells, keys, hdone, hwiped⟩ :=
    @SecretKey.destroy_of_sized s.quiet.vault _ _ _ hs.sized hrecord hmaterial
  rw [hdone]
  exact ⟨hwiped.key, hwiped.cell⟩

/-- The end of a key is that it is destroyed, and nothing else is done to the vault but to add to
it. -/
theorem Ending.vault (h : s.Ending key t) (hs : s.Sound) :
    s.vault.KeepsBut [key] t.vault ∧
      ∀ {record cell}, s.vault.keys[key]? = some record → record.material = .buffer cell →
        t.vault.Wiped key record cell := by
  cases h with
  | @destroyed name report t hname h =>
    rcases hperform : s.quiet.perform (.destroy name) with ⟨outcome, u⟩
    obtain ⟨-, rfl⟩ := Prod.mk.inj ((run_command hperform).symm.trans h)
    have hvault := @vault_perform_destroy s.quiet key name hname
    rw [hperform] at hvault
    exact keepsBut_of_destroyed hs hvault
  | @left rest failing? outcome t hopen h =>
    have hvault := vault_leave s.quiet key failing?
    rw [h] at hvault
    exact keepsBut_of_destroyed hs hvault
  | @lost command report t h hlost =>
    rcases hperform : s.quiet.perform command with ⟨outcome, u⟩
    obtain ⟨-, rfl⟩ := Prod.mk.inj ((run_command hperform).symm.trans h)
    have hsettles := settles_perform command (sound_quiet hs)
    rw [hperform] at hsettles
    -- A command gives up one key at most, so what it leaves alone is all but this one.
    have hone := losing_eq_singleton hlost fun other hother => hsettles.alone hother hlost
    refine ⟨?_, fun hrecord hmaterial => hsettles.wiped hlost hrecord hmaterial⟩
    have hlosing : key ∈ s.quiet.losing (s.quiet.perform command).2 := hperform ▸ hlost
    obtain ⟨name, htarget, -⟩ := @exists_name_of_mem_losing s.quiet key command hs.distinct hlosing
    have hkeeps :=
      (@outgrows_perform s.quiet command (Command.disturbs_of_target? htarget)).keepsBut
    rw [hperform, show s.quiet.losing u = [key] from hone] at hkeeps
    exact ⟨hkeeps.keys, hkeeps.cells, hkeeps.lists⟩

/-- What the end of a key does to another one. -/
theorem Ending.beside {value : Argument} (h : s.Ending key t) (hs : s.Sound) (hne : other ≠ key)
    (hfound : s.vault.keys[other]? = some found) (hshows : found.material.Shows s.vault value) :
    t.vault.keys[other]? = some found ∧
      (¬s.vault.Shares key other → found.material.Shows t.vault value) ∧
      (s.vault.Shares key other →
        found.material.Shows t.vault (.octets .buffer (Bytes.zeros SecretKey.keyLength))) := by
  obtain ⟨hkeeps, hwiped⟩ := h.vault hs
  refine ⟨hkeeps.keys (fun hin => hne (List.mem_singleton.mp hin)) hfound, fun hapart => ?_, ?_⟩
  · refine hkeeps.shows (fun ended hin record cell hrecord hmaterial hshared => ?_) hshows
    obtain rfl := List.mem_singleton.mp hin
    exact hapart ⟨record, found, cell, hrecord, hfound, hmaterial, hshared⟩
  · rintro ⟨record, same, cell, hrecord, hsame, hmaterial, hshared⟩
    obtain rfl := Option.some.inj (hfound.symm.trans hsame)
    rw [hshared]
    exact .buffer (hwiped hrecord hmaterial).cell

/-- **A live key is used with the secret that it was made with** as long as no caller writes into
what it holds, and no other key with the same buffer is destroyed. -/
theorem Route.onlyUses {allowed : Command → Prop} {secret : Argument} (h : s.Route allowed t)
    (hnone : ∀ command, allowed command → command.isWrite = false) (hs : s.Sound)
    (hholds : SecretKey.Holds s.vault key record secret)
    (hlive : t.vault.keys[key]? = some record) :
    SecretKey.OnlyUses t.vault key secret ∨
      ∃ other found, t.vault.Shares other key ∧ other ≠ key ∧
        t.vault.keys[other]? = some found ∧ found.destroyed = true := by
  rcases h.shows hnone hs hholds.shows with
    hshows | ⟨other, found, cell, hfound, hdestroyed, hmaterial, hshared⟩
  · exact Or.inl (SecretKey.Holds.onlyUses ⟨hlive, hholds.live, hshows⟩)
  · refine Or.inr ⟨other, found, ⟨found, record, cell, hfound, hlive, hmaterial, hshared⟩, ?_,
      hfound, hdestroyed⟩
    -- It is another key, since this one has not been destroyed.
    rintro rfl
    obtain rfl := Option.some.inj (hfound.symm.trans hlive)
    cases hholds.live.symm.trans hdestroyed

/-- No caller writes into what it holds. -/
def Undisturbed (command : Command) : Prop :=
  command.isWrite = false

/-- Nor is a key made around what a name holds. -/
def Apart (command : Command) : Prop :=
  command.isWrite = false ∧ command.isShare = false

theorem not_shares_of_apart {environment : Environment}
    (h : (ofEnvironment environment).Route Apart s) (hne : key ≠ other) :
    ¬s.vault.Shares key other := by
  have hunshared : s.vault.Unshared := h.unshared (fun _ happart => happart.2)
    (sound_ofEnvironment environment) fun _ hrecord => by cases hrecord
  rintro ⟨record, found, cell, hrecord, hfound, hmaterial, hshared⟩
  exact hunshared hne hrecord hfound hmaterial hshared

/-- **When keys are isolated from each other.** In every session that is reached, the end of one key
leaves every other key as it is, and its secret unless the two have one buffer, which holds zeros
then. While no caller writes into what it holds, a live key is used with the secret that it was made
with, until another key with its buffer is destroyed. Where moreover no key is made around what a
name holds, no two keys have one buffer, and every live key is used with that secret. -/
theorem isolation (environment : Environment) :
    (∀ j s, (ofEnvironment environment).Path j s → ∀ key t, s.Ending key t →
      ∀ other found value, other ≠ key → s.vault.keys[other]? = some found →
        found.material.Shows s.vault value →
          t.vault.keys[other]? = some found ∧
          (¬s.vault.Shares key other → found.material.Shows t.vault value) ∧
          (s.vault.Shares key other →
            found.material.Shows t.vault (.octets .buffer (Bytes.zeros SecretKey.keyLength)))) ∧
    (∀ j s, (ofEnvironment environment).Path j s → ∀ t, s.Route Undisturbed t →
      ∀ key record secret, SecretKey.Holds s.vault key record secret →
        t.vault.keys[key]? = some record →
          SecretKey.OnlyUses t.vault key secret ∨
            ∃ other found, t.vault.Shares other key ∧ other ≠ key ∧
              t.vault.keys[other]? = some found ∧ found.destroyed = true) ∧
    ∀ s, (ofEnvironment environment).Route Apart s →
      (∀ key other, key ≠ other → ¬s.vault.Shares key other) ∧
      ∀ t, s.Route Apart t → ∀ key record secret, SecretKey.Holds s.vault key record secret →
        t.vault.keys[key]? = some record → SecretKey.OnlyUses t.vault key secret := by
  have hstart := sound_ofEnvironment environment
  refine ⟨fun j s hpath key t hending other found value hne hfound hshows =>
    hending.beside ((hpath.passes hstart).sound hstart) hne hfound hshows,
    fun j s hpath t hroute key record secret hholds hlive =>
      hroute.onlyUses (fun _ h => h) ((hpath.passes hstart).sound hstart) hholds hlive,
    fun s hreached => ⟨fun key other => not_shares_of_apart hreached, ?_⟩⟩
  intro t hroute key record secret hholds hlive
  rcases hroute.onlyUses (fun _ h => h.1) (Route.sound hreached hstart) hholds hlive with
    huses | ⟨other, found, hshares, hne, -, -⟩
  · exact huses
  · exact absurd hshares (not_shares_of_apart (Relation.ReflTransGen.trans hreached hroute) hne)

/-- The steps that make two keys, each around a buffer of its own. -/
def makeTwoKeys : List Step :=
  makeKey ++ [.command (.create "c" (.ofBytes [2]) (.ofBytes (.zeros 16))
    (.value (.octets .buffer (List.replicate 32 7))))]

/-- The steps that make two keys, the second one around what the first one holds. -/
def shareKey : List Step :=
  makeKey ++ [.command (.hold "k" "b"),
    .command (.create "c" (.ofBytes [2]) (.ofBytes (.zeros 16)) (.held "b"))]

/-- Of two keys around equal octets, the second one is used with these after the first one was
destroyed, if they are in buffers of their own. -/
theorem isolation_makeTwoKeys :
    SecretKey.OnlyUses (runAll (makeTwoKeys ++ [.command (.destroy "k")])
      (ofEnvironment [])).2.vault 1 (.octets .buffer (List.replicate 32 7)) := by
  obtain ⟨-, -, hapart⟩ := isolation []
  have hmade : (ofEnvironment []).Route Apart (runAll makeTwoKeys (ofEnvironment [])).2 :=
    route_runAll makeTwoKeys _ fun command hin => by
      rcases List.mem_cons.mp hin with rfl | hin
      · exact ⟨rfl, rfl⟩
      · obtain rfl := List.mem_singleton.mp hin
        exact ⟨rfl, rfl⟩
  have hdestroyed : (runAll makeTwoKeys (ofEnvironment [])).2.Route Apart
      (runAll [.command (.destroy "k")] (runAll makeTwoKeys (ofEnvironment [])).2).2 :=
    route_runAll [.command (.destroy "k")] _ fun command hin => by
      obtain rfl := List.mem_singleton.mp hin
      exact ⟨rfl, rfl⟩
  exact (hapart _ hmade).2 _ hdestroyed 1 ⟨[2], .zeros 16, .buffer 1, false⟩ _
    ⟨by rfl, rfl, .buffer (by rfl)⟩ (by rfl)

/-- A key that was made around what another one holds is live and holds zeros after that one was
destroyed. -/
theorem shared_key_cleared :
    (run (.command (.reveal "c")) (runAll shareKey (ofEnvironment [])).2).1.outcome =
      .ok (.value (.octets .buffer (List.replicate 32 7))) ∧
    ∃ t, run (.command (.destroy "k")) (runAll shareKey (ofEnvironment [])).2 =
        (⟨.ok .nothing, [], [], none⟩, t) ∧
      t.vault.keys[1]? = some ⟨[2], .zeros 16, .buffer 0, false⟩ ∧
      (run (.command (.reveal "c")) t).1.outcome =
        .ok (.value (.octets .buffer (.zeros 32))) :=
  ⟨by rfl, _, by rfl, by rfl, by rfl⟩

end Session

end PasswordVault
