import PasswordVault.Text.Coding
import PasswordVault.Text.Printable

/-!
# Quoted text and octets

Messages quote a text, or a string of octets, so that its ends are seen and every character in it
can be told from the others.

## Main definitions

- `Quoted.text` — a quoted text
- `Quoted.octets` — quoted octets

## Design notes

The quotation mark is the single one, unless a single one but no double one stands inside. A
character that cannot be seen is written as an escape with its number.
-/

namespace PasswordVault.Quoted

/-- The quotation mark to put around characters with the given numbers. -/
def mark (numbers : List Nat) : Char :=
  if numbers.contains '\''.toNat && !numbers.contains '"'.toNat then '"' else '\''

/-- The escape of a character that has a letter of its own. -/
def letterEscape? (number : Nat) : Option String :=
  if number = '\t'.toNat then some "\\t"
  else if number = '\n'.toNat then some "\\n"
  else if number = '\r'.toNat then some "\\r"
  else none

def codePoint (mark : Char) (c : CodePoint) : String :=
  if c.val = mark.toNat ∨ c.val = '\\'.toNat then "\\" ++ c.toChar.toString
  else (letterEscape? c.val).getD (if c.isPrintable then c.toChar.toString else c.escape)

def text (t : Text) : String :=
  let mark := mark (t.map (·.val))
  mark.toString ++ String.join (t.map (codePoint mark)) ++ mark.toString

/-- An octet between quotation marks. Octets outside ASCII have no character. -/
def octet (escaped : List Char) (value : UInt8) : String :=
  let c := CodePoint.ofOctet value
  if escaped.any (·.toNat = c.val) then "\\" ++ c.toChar.toString
  else (letterEscape? c.val).getD
    (if c.isAscii && c.isPrintable then c.toChar.toString else c.escape)

/-- Quoted octets. In a changeable string of octets the single quotation mark is always escaped. -/
def octets (changeable : Bool) (content : Bytes) : String :=
  let mark := mark (content.map (·.toNat))
  let escaped := ['\\', if changeable then '\'' else mark]
  "b" ++ mark.toString ++ String.join (content.map (octet escaped)) ++ mark.toString

end PasswordVault.Quoted
