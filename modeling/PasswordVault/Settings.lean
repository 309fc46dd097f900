import PasswordVault.Argument
import PasswordVault.Text.Numeral

/-!
# Settings

Two environment variables adjust the library: one replaces the standard number of key derivation
iterations, for test suites only, and one decides whether the text form carries the scheme marker
unless the caller says otherwise.

## Main definitions

- `Settings` — the values read from an environment
- `Settings.ofEnvironment` — reading them
- `Settings.iterations` — the iterations to use where the caller gave none
- `Settings.replacement?` — the number that replaces a standard one
-/

namespace PasswordVault

abbrev Environment := List (String × String)

/-- The values that adjust the library. -/
structure Settings where
  /-- The number of iterations that replaces the standard one. -/
  override? : Option Int
  /-- Whether the text form carries the scheme marker by default. -/
  includeScheme : Bool
  /-- The number was read from a text, so it has few enough digits to be written out again. -/
  override_lt : ∀ n, override? = some n → n.natAbs < Numeral.limit
  deriving DecidableEq, Repr

namespace Settings

/-- The variable that replaces the standard number of iterations. -/
def iterationsVariable : String := "AES256PW_TEST_KDF_ITERS"

/-- The variable that decides about the scheme marker. -/
def schemeVariable : String := "AES256PW_INCLUDE_SCHEME"

/-- The positive whole number that a variable denotes. -/
def positive? (value : Text) : Option Int :=
  match Numeral.read? value with
  | some n => if 0 < n then some n else none
  | none => none

theorem lt_limit_of_positive? {value : Text} {n : Int} (h : positive? value = some n) :
    n.natAbs < Numeral.limit := by
  rw [positive?] at h
  split at h
  · next hread =>
    obtain ⟨-, hn⟩ := Option.ite_none_right_eq_some.mp h
    exact Numeral.natAbs_lt_limit_of_read? (hread.trans hn)
  · cases h

/-- Whether a variable is set to one, white space around it aside. -/
def isOne (value : Text) : Bool :=
  value.strip == Text.ofString "1"

/-- The settings that an environment holds. A variable that is not set leaves the iterations
alone and includes the marker. -/
def ofEnvironment (environment : Environment) : Settings where
  override? :=
    (environment.lookup iterationsVariable).bind fun value => positive? (Text.ofString value)
  includeScheme :=
    match environment.lookup schemeVariable with
    | some value => isOne (Text.ofString value)
    | none => true
  override_lt n h := by
    obtain ⟨value, -, hvalue⟩ := Option.bind_eq_some_iff.mp h
    exact lt_limit_of_positive? hvalue

/-- The number that replaces a standard one, unless the two are equal. -/
def replacement? (settings : Settings) (standard : Argument) : Option Int :=
  settings.override?.filter fun override => !standard.equalsInt override

/-- The iterations to use where `standard` is the standard number. One that is not replaced stays
as it was handed in, whatever it is. -/
def iterations (settings : Settings) (standard : Argument) : Argument :=
  match settings.replacement? standard with
  | some override => .integer override
  | none => standard

/-- The replacement is used wherever there is one, since a standard number that is not replaced
equals it. -/
theorem iterations_integer (settings : Settings) (standard : Int) :
    settings.iterations (.integer standard) = .integer (settings.override?.getD standard) := by
  rcases h : settings.override? with _ | override
  · simp [iterations, replacement?, h]
  · by_cases equal : standard = override <;>
      simp [iterations, replacement?, Option.filter, h, equal]

end Settings

end PasswordVault
