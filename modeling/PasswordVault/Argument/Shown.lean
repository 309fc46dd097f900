import PasswordVault.Argument
import PasswordVault.Failure
import PasswordVault.Fractional.Decimal
import PasswordVault.Text.Numeral

/-!
# How messages show a value

A message shows a text as it is and any other value in its own notation. Inside a list, texts are
quoted. A number with too many digits cannot be written out, and neither can a list that holds one.

## Main definitions

- `Argument.spelled` — a value in its own notation
- `Argument.shown` — a value as a message shows it
- `Argument.showing` — a failure that shows a value

## Design notes

What a failure shows is written out when the failure is made. If that fails, the failure is that of
writing it out, and no other.
-/

namespace PasswordVault.Argument

mutual

/-- A value in its own notation, in which texts and octets are quoted. The place of a view in
memory is left out. -/
def spelled : Argument → Except Failure String
  | .absent => .ok "None"
  | .flag value => .ok (if value then "True" else "False")
  | .integer value =>
    if value.natAbs < Numeral.limit then .ok (toString value) else .error (.field .numberTooLong)
  | .fractional value => .ok value.toText
  | .text content => .ok (Quoted.text content)
  | .octets .constant content => .ok (Quoted.octets false content)
  | .octets .buffer content => .ok ("bytearray(" ++ Quoted.octets true content ++ ")")
  | .octets .view _ => .ok "<memory>"
  | .list items => return "[" ++ ", ".intercalate (← spelledAll items) ++ "]"

def spelledAll : List Argument → Except Failure (List String)
  | [] => .ok []
  | value :: rest => return (← value.spelled) :: (← spelledAll rest)

end

/-- A value as a message shows it. -/
def shown : Argument → Except Failure String
  | .text content => .ok content.toString
  | value => value.spelled

/-- The failure that `wording` makes of a value as a message shows it. -/
def showing (value : Argument) (wording : String → Failure) : Failure :=
  match value.shown with
  | .ok shown => wording shown
  | .error failure => failure

mutual

/-- A value is spelled, unless a number has too many digits. -/
theorem spelled_cases (value : Argument) :
    (∃ spelling, value.spelled = .ok spelling) ∨
      value.spelled = .error (.field .numberTooLong) := by
  match value with
  | .absent | .flag _ | .fractional _ | .text _ => exact Or.inl ⟨_, by rw [spelled]⟩
  | .octets .constant _ | .octets .buffer _ | .octets .view _ =>
    exact Or.inl ⟨_, by rw [spelled]⟩
  | .integer n =>
    rw [spelled]
    split
    · exact Or.inl ⟨_, rfl⟩
    · exact Or.inr rfl
  | .list items =>
    rw [spelled]
    rcases spelledAll_cases items with ⟨spellings, h⟩ | h <;> rw [h]
    · exact Or.inl ⟨_, rfl⟩
    · exact Or.inr rfl

theorem spelledAll_cases (values : List Argument) :
    (∃ spellings, spelledAll values = .ok spellings) ∨
      spelledAll values = .error (.field .numberTooLong) := by
  match values with
  | [] => exact Or.inl ⟨_, by rw [spelledAll]⟩
  | value :: rest =>
    rw [spelledAll]
    rcases spelled_cases value with ⟨spelling, h⟩ | h <;> rw [h]
    · rcases spelledAll_cases rest with ⟨spellings, hrest⟩ | hrest <;> rw [hrest]
      · exact Or.inl ⟨_, rfl⟩
      · exact Or.inr rfl
    · exact Or.inr rfl

end

/-- A value is shown, unless a number has too many digits. -/
theorem shown_cases (value : Argument) :
    (∃ shown, value.shown = .ok shown) ∨ value.shown = .error (.field .numberTooLong) := by
  cases value with
  | text content => exact Or.inl ⟨_, rfl⟩
  | _ => exact spelled_cases _

@[simp] theorem shown_integer {value : Int} (h : value.natAbs < Numeral.limit) :
    (integer value).shown = .ok (toString value) := by
  show (integer value).spelled = _
  rw [spelled, if_pos h]

/-- Whatever counts as a whole number is shown if it has few enough digits. -/
theorem exists_shown_of_lt {value : Argument} {n : Int} (h : value.asInteger? = some n)
    (hshort : n.natAbs < Numeral.limit) : ∃ shown, value.shown = .ok shown := by
  cases value with
  | flag value =>
    show ∃ shown, (flag value).spelled = .ok shown
    exact ⟨_, by rw [spelled]⟩
  | integer m =>
    obtain rfl : m = n := Option.some.inj h
    exact ⟨_, shown_integer hshort⟩
  | _ => cases h

theorem shown_of_limit_le {value : Argument} {n : Int} (h : value.asInteger? = some n)
    (hlong : Numeral.limit ≤ n.natAbs) : value.shown = .error (.field .numberTooLong) := by
  cases value with
  | integer m =>
    obtain rfl : m = n := Option.some.inj h
    show (integer m).spelled = _
    rw [spelled, if_neg (Nat.not_lt.mpr hlong)]
  | flag value =>
    have hshort : n.natAbs < Numeral.limit := by
      refine Numeral.lt_limit 1 ?_ (by decide)
      cases value <;> cases h <;> decide
    omega
  | _ => cases h

@[simp] theorem showing_of_ok {value : Argument} {shown : String} (h : value.shown = .ok shown)
    (wording : String → Failure) : value.showing wording = wording shown := by
  rw [showing, h]

/-- The failure is the one that was worded, or a number has too many digits. -/
theorem showing_cases (value : Argument) (wording : String → Failure) :
    (∃ shown, value.shown = .ok shown ∧ value.showing wording = wording shown) ∨
      value.showing wording = .field .numberTooLong := by
  rw [showing]
  rcases value.shown_cases with ⟨shown, h⟩ | h <;> rw [h]
  · exact Or.inl ⟨shown, rfl, rfl⟩
  · exact Or.inr rfl

end PasswordVault.Argument
