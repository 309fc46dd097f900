import PasswordVault.Text

/-!
# Hexadecimal text

Two digits an octet, the high one first. Writing uses one letter case throughout; reading takes
either case and lets ASCII blanks stand between octets, never inside one.

## Main definitions

- `Hexadecimal.write` — the digits of an octet string, in lower or upper case
- `Hexadecimal.read` — the octet string, or the position of the first character at fault
-/

namespace PasswordVault.Hexadecimal

/-- The letter case in which digits above nine are written. -/
inductive Case
  | lower
  | upper
  deriving DecidableEq, Repr

def digit (case : Case) (half : UInt8) : UInt8 :=
  if half < 10 then 48 + half
  else match case with
    | .lower => 87 + half
    | .upper => 55 + half

def digits (case : Case) : Bytes → Bytes
  | [] => []
  | octet :: rest => digit case (octet >>> 4) :: digit case (octet &&& 15) :: digits case rest

def write (case : Case) (octets : Bytes) : String :=
  Text.toString (Text.ofAscii (digits case octets))

def value? (c : CodePoint) : Option UInt8 :=
  if 48 ≤ c.val ∧ c.val ≤ 57 then some (UInt8.ofNat (c.val - 48))
  else if 65 ≤ c.val ∧ c.val ≤ 70 then some (UInt8.ofNat (c.val - 55))
  else if 97 ≤ c.val ∧ c.val ≤ 102 then some (UInt8.ofNat (c.val - 87))
  else none

/-- The blanks that may stand between octets: space, tab, line feed, vertical tab, form feed and
carriage return. -/
def isBlank (c : CodePoint) : Bool :=
  c.val == 32 || (9 ≤ c.val && c.val ≤ 13)

/-- Reads octets from a text whose first character has the given position. A blank is skipped
before an octet; a second digit that is missing is at fault where it should stand. -/
def readFrom (position : Nat) : Text → Except Nat Bytes
  | [] => .ok []
  | c :: rest =>
    if isBlank c then readFrom (position + 1) rest
    else match value? c, rest with
      | none, _ => .error position
      | some _, [] => .error (position + 1)
      | some high, d :: rest =>
        match value? d with
        | none => .error (position + 1)
        | some low =>
          match readFrom (position + 2) rest with
          | .ok octets => .ok ((high <<< 4 ||| low) :: octets)
          | .error fault => .error fault

/-- The octets that a hexadecimal text denotes, or the position of the first character at fault.
A text with a non-ASCII character is at fault at the first such character, whatever precedes it. -/
def read (t : Text) : Except Nat Bytes :=
  match t.findIdx? (fun c => !c.isAscii) with
  | some position => .error position
  | none => readFrom 0 t

end PasswordVault.Hexadecimal
