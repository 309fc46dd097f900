import PasswordVault.Text.Coding

/-!
# Templates

Where a number is wanted and a text is handed in, the text is taken for a template with a place for
the number. This module decides whether a template takes exactly one number, and what is wrong with
it if it does not.

A conversion begins with a percent sign. Then come flags, a least width, a precision and a size, in
this order and each of them optional, and last a letter that tells how the number is written. A star
in place of a width or a precision takes a number of its own. Two percent signs stand for one.

## Main definitions

- `Template.Kind` — templates of code points and of octets
- `Template.Error`, `Template.Error.message` — what is wrong with a template
- `Template.Stage`, `Template.Progress`, `Template.step` — one step for each character
- `Template.check` — whether a template takes exactly one number

## Design notes

No operation uses a template with its number filled in, so it is never made. What would need more
memory than there is fails nevertheless.
-/

namespace PasswordVault.Template

/-- What a template consists of. -/
inductive Kind
  | text
  | octets
  deriving DecidableEq, Repr

def Kind.name : Kind → String
  | .text => "string"
  | .octets => "bytes"

/-- The flags of a conversion. Only among octets can a negative zero be ruled out by a flag. -/
def Kind.flags : Kind → String
  | .text => "-+ #0"
  | .octets => "-+ #0z"

/-- Why one number cannot be filled into a template. -/
inductive Error
  /-- A conversion asks for a value by its name. -/
  | valueByName
  | widthTooBig
  /-- No machine can count to a precision. -/
  | precisionTooBig (kind : Kind)
  | tooManyDigits
  /-- The template ends inside a conversion. -/
  | incomplete
  /-- A second number is asked for. -/
  | noNumberLeft
  /-- A character at a position is no letter of a conversion. `shown?` stands for it in the wording;
  if nothing does, there is no wording. -/
  | unknownLetter (shown? : Option Char) (character position : Nat)
  | octetsWanted
  | notEnoughMemory
  | numberUnused (kind : Kind)
  deriving DecidableEq, Repr

def Error.message : Error → String
  | .valueByName => "format requires a mapping"
  | .widthTooBig => "width too big"
  | .precisionTooBig .text => "precision too big"
  | .precisionTooBig .octets => "prec too big"
  | .tooManyDigits => "precision too large"
  | .incomplete => "incomplete format"
  | .noNumberLeft => "not enough arguments for format string"
  | .unknownLetter (some shown) character position =>
    "unsupported format character '" ++ shown.toString ++ "' (0x" ++ lowerHex 1 character ++
      s!") at index {position}"
  | .unknownLetter none _ _ => ""
  | .octetsWanted =>
    "%b requires a bytes-like object, or an object that implements __bytes__, not 'int'"
  | .notEnoughMemory => ""
  | .numberUnused kind => "not all arguments converted during " ++ kind.name ++ " formatting"

/-- Where in a template the next character stands. -/
inductive Stage
  /-- Outside of every conversion. -/
  | literal
  | opened
  | flags
  | width
  /-- After a star for the width. -/
  | widthTaken
  | point
  /-- Among the digits of the precision. -/
  | precision
  /-- After a star for the precision. -/
  | precisionTaken
  /-- After the size. -/
  | sized
  deriving DecidableEq, Repr

/-- What is known between two characters. -/
structure Progress where
  stage : Stage := .literal
  taken : Bool := false
  /-- The least width in the current conversion. -/
  width : Nat := 0
  precision : Nat := 0
  deriving DecidableEq, Repr

def maxWidth : Nat := 0x7FFFFFFFFFFFFFFF

def maxPrecision : Nat := 0x7FFFFFFF

/-- The most digits of a whole number. -/
def maxDigits : Nat := maxPrecision - 3

def isAmong (c : Nat) (characters : String) : Bool :=
  characters.toList.any (·.toNat == c)

def digit? (c : Nat) : Option Nat :=
  if '0'.toNat ≤ c ∧ c ≤ '9'.toNat then some (c - '0'.toNat) else none

/-- What stands for a character in the wording that it is no letter. In text it is the character
itself, but a question mark for one below 31 or above 126; in octets it is the character with that
number, if that is ASCII or follows a digit. -/
def shownLetter? (kind : Kind) (stage : Stage) (c : Nat) : Option Char :=
  match kind with
  | .text => some (if 31 ≤ c ∧ c < 127 then Char.ofNat c else '?')
  | .octets =>
    if c < 128 ∨ stage = .width ∨ stage = .precision then some (Char.ofNat c) else none

/-- A number with one more digit, if it is not too large. -/
def extend (limit : Nat) (refusal : Error) (n digit : Nat) : Except Error Nat :=
  if limit < n * 10 + digit then .error refusal else .ok (n * 10 + digit)

namespace Progress

def take (progress : Progress) : Except Error Progress :=
  if progress.taken then .error .noNumberLeft else .ok { progress with taken := true }

/-- Ends a conversion that writes at least `length` characters. -/
def close (progress : Progress) (length : Nat) : Except Error Progress :=
  if Bytes.maxLength < length then .error .notEnoughMemory
  else .ok { stage := .literal, taken := progress.taken }

/-- Reads the letter of a conversion. The number is taken before it matters which letter it is. -/
def letter (kind : Kind) (position : Nat) (progress : Progress) (c : Nat) :
    Except Error Progress :=
  match progress.take with
  | .error error => .error error
  | .ok progress =>
    if isAmong c "diuoxX" then
      if maxDigits < progress.precision then .error .tooManyDigits
      else progress.close (max progress.width progress.precision)
    else if isAmong c "eEfF" then progress.close (max progress.width progress.precision)
    else if isAmong c "gGrac" then progress.close progress.width
    else if kind = .text ∧ isAmong c "s" then progress.close progress.width
    else if kind = .octets ∧ isAmong c "sb" then .error .octetsWanted
    else .error (.unknownLetter (shownLetter? kind progress.stage c) c position)

def beyondPrecision (kind : Kind) (position : Nat) (progress : Progress) (c : Nat) :
    Except Error Progress :=
  if isAmong c "hlL" then .ok { progress with stage := .sized }
  else progress.letter kind position c

def beyondWidth (kind : Kind) (position : Nat) (progress : Progress) (c : Nat) :
    Except Error Progress :=
  if isAmong c "." then .ok { progress with stage := .point }
  else progress.beyondPrecision kind position c

def beyondFlags (kind : Kind) (position : Nat) (progress : Progress) (c : Nat) :
    Except Error Progress :=
  if isAmong c kind.flags then .ok { progress with stage := .flags }
  else if isAmong c "*" then
    match progress.take with
    | .error error => .error error
    | .ok progress => .ok { progress with stage := .widthTaken }
  else match digit? c with
    | some digit => .ok { progress with stage := .width, width := digit }
    | none => progress.beyondWidth kind position c

def beyondPoint (kind : Kind) (position : Nat) (progress : Progress) (c : Nat) :
    Except Error Progress :=
  if isAmong c "*" then
    match progress.take with
    | .error error => .error error
    | .ok progress => .ok { progress with stage := .precisionTaken }
  else match digit? c with
    | some digit => .ok { progress with stage := .precision, precision := digit }
    | none => progress.beyondPrecision kind position c

end Progress

/-- Reads one character, which stands at a position. -/
def step (kind : Kind) (position : Nat) (progress : Progress) (c : Nat) : Except Error Progress :=
  match progress.stage with
  | .literal => .ok (if isAmong c "%" then { progress with stage := .opened } else progress)
  | .opened =>
    if isAmong c "%" then .ok { progress with stage := .literal }
    else if isAmong c "(" then .error .valueByName
    else progress.beyondFlags kind position c
  | .flags => progress.beyondFlags kind position c
  | .width =>
    match digit? c with
    | none => progress.beyondWidth kind position c
    | some digit =>
      match extend maxWidth .widthTooBig progress.width digit with
      | .error error => .error error
      | .ok width => .ok { progress with width }
  | .widthTaken => progress.beyondWidth kind position c
  | .point => progress.beyondPoint kind position c
  | .precision =>
    match digit? c with
    | none => progress.beyondPrecision kind position c
    | some digit =>
      match extend maxPrecision (.precisionTooBig kind) progress.precision digit with
      | .error error => .error error
      | .ok precision => .ok { progress with precision }
  | .precisionTaken => progress.beyondPrecision kind position c
  | .sized => progress.letter kind position c

def scan (kind : Kind) (position : Nat) (progress : Progress) :
    List Nat → Except Error Progress
  | [] => .ok progress
  | c :: rest =>
    match step kind position progress c with
    | .error error => .error error
    | .ok progress => scan kind (position + 1) progress rest

/-- Whether a template, given by the numbers of its characters, takes exactly one number. -/
def check (kind : Kind) (template : List Nat) : Except Error Unit :=
  match scan kind 0 {} template with
  | .error error => .error error
  | .ok progress =>
    if progress.stage ≠ .literal then .error .incomplete
    else if progress.taken then .ok ()
    else .error (.numberUnused kind)

end PasswordVault.Template
