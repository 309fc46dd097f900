import PasswordVault.Text.Utf8
import PasswordVault.Text.Utf16

/-!
# Character encodings by name

A recovered password is text in an encoding that the caller names. Names are compared without
regard to letter case, and every run of characters other than ASCII letters, digits and full stops
separates words. This module has the six encodings of Unicode and of its first blocks; a platform
may know others, whose names denote none of these.

## Main definitions

- `Charset` — the encodings
- `Charset.ofName?` — the encoding that a name denotes
- `Charset.decode` — the text of octets
-/

namespace PasswordVault

/-- An encoding in which recovered octets may be read. -/
inductive Charset
  | ascii
  | latin1
  | utf8
  /-- UTF-8 after an optional byte order mark. -/
  | utf8Marked
  | utf16 (bigEndian : Bool)
  deriving DecidableEq, Repr

namespace Charset

/-- The words of a name in lower case, joined by underscores. `gap` tells whether a separator has
been passed since the last word character, `inWord` whether there was one. -/
def canonicalFrom (inWord gap : Bool) : List Char → List Char
  | [] => []
  | c :: rest =>
    if c.isAlphanum || c == '.' then
      if inWord && gap then '_' :: c.toLower :: canonicalFrom true false rest
      else c.toLower :: canonicalFrom true false rest
    else canonicalFrom inWord true rest

def canonical (name : String) : String :=
  String.ofList (canonicalFrom false false name.toList)

/-- The name of each encoding in canonical form. -/
def names : List (String × Charset) :=
  [("utf_8", .utf8), ("utf_8_sig", .utf8Marked), ("ascii", .ascii), ("latin_1", .latin1),
   ("utf_16_le", .utf16 false), ("utf_16_be", .utf16 true)]

/-- The other names under which each encoding is known, in canonical form. -/
def aliases : List (Charset × List String) :=
  [(.utf8, ["utf8", "u8", "utf", "utf8_ucs2", "utf8_ucs4", "cp65001"]),
   (.ascii, ["us_ascii", "646", "ansi_x3.4_1968", "ansi_x3_4_1968", "ansi_x3.4_1986", "cp367",
      "csascii", "ibm367", "iso646_us", "iso_646.irv_1991", "iso_ir_6", "us"]),
   (.latin1, ["latin1", "iso_8859_1", "iso8859_1", "8859", "cp819", "csisolatin1", "ibm819",
      "iso8859", "iso_8859_1_1987", "iso_ir_100", "l1", "latin"]),
   (.utf16 false, ["utf_16le", "unicodelittleunmarked"]),
   (.utf16 true, ["utf_16be", "unicodebigunmarked"])]

def ofAlias? (word : String) : Option Charset :=
  (aliases.find? fun entry => entry.2.contains word).map Prod.fst

def undotted (word : String) : String :=
  String.ofList (word.toList.map fun c => if c == '.' then '_' else c)

/-- The encoding of this module that a name denotes, if it denotes one of them. Full stops may stand
for underscores in the other names of an encoding, but not in its own. -/
def ofName? (name : String) : Option Charset :=
  let word := canonical name
  (ofAlias? word).or ((ofAlias? (undotted word)).or (names.lookup word))

def decode : Charset → Bytes → Except DecodingError Text
  | .ascii, octets => Ascii.decode octets
  | .latin1, octets => .ok (Latin1.decode octets)
  | .utf8, octets => Utf8.decode octets
  | .utf8Marked, octets => Utf8.decodeMarked octets
  | .utf16 bigEndian, octets => Utf16.decode bigEndian octets

end Charset

end PasswordVault
