import PasswordVault.Octets

/-!
# The AES block cipher

Encryption of single blocks with keys of 16, 24 or 32 octets, on four columns of 32 bits. The
substitution box is computed from its definition: inversion in the field of 256 elements, followed
by an affine map.

## Main definitions

- `Aes.Block` — four columns
- `Aes.substitute` — the substitution box
- `Aes.Schedule`, `Aes.Schedule.ofKey` — the round keys
- `Aes.encrypt` — one block
-/

namespace PasswordVault.Aes

/-- A block of four columns; the first octet of a column is its most significant one. -/
structure Block where
  c0 : UInt32
  c1 : UInt32
  c2 : UInt32
  c3 : UInt32
  deriving DecidableEq, Repr

namespace Block

def zero : Block := ⟨0, 0, 0, 0⟩

/-- The column of four octets; missing ones are zero. -/
def columnOf (octets : Bytes) : UInt32 :=
  (List.range 4).foldl (fun column place => column <<< 8 ||| (octets.getD place 0).toUInt32) 0

/-- The block at the start of an octet string; missing octets are zero. -/
def ofBytes (octets : Bytes) : Block :=
  ⟨columnOf octets, columnOf (octets.drop 4), columnOf (octets.drop 8), columnOf (octets.drop 12)⟩

def columnBytes (column : UInt32) : Bytes :=
  [(column >>> 24).toUInt8, (column >>> 16).toUInt8, (column >>> 8).toUInt8, column.toUInt8]

def toBytes (x : Block) : Bytes :=
  columnBytes x.c0 ++ columnBytes x.c1 ++ columnBytes x.c2 ++ columnBytes x.c3

@[simp] theorem length_toBytes (x : Block) : x.toBytes.length = 16 := rfl

def xor (x y : Block) : Block :=
  ⟨x.c0 ^^^ y.c0, x.c1 ^^^ y.c1, x.c2 ^^^ y.c2, x.c3 ^^^ y.c3⟩

end Block

/-- Multiplication by the indeterminate in the field of 256 elements. -/
def double (x : UInt8) : UInt8 :=
  if x &&& 0x80 = 0 then x <<< 1 else x <<< 1 ^^^ 0x1B

/-- Multiplication in the field of 256 elements, by the bits of the second factor that are still
to be taken. -/
def timesFrom : Nat → UInt8 → UInt8 → UInt8
  | 0, _, _ => 0
  | bits + 1, x, y =>
    (if y &&& 1 = 0 then 0 else x) ^^^ timesFrom bits (double x) (y >>> 1)

def times (x y : UInt8) : UInt8 :=
  timesFrom 8 x y

/-- The inverse in the field of 256 elements, which is the power 254; zero gives zero. -/
def inverse (x : UInt8) : UInt8 :=
  let p2 := times x x
  let p4 := times p2 p2
  let p8 := times p4 p4
  let p16 := times p8 p8
  let p32 := times p16 p16
  let p64 := times p32 p32
  let p128 := times p64 p64
  times p128 (times p64 (times p32 (times p16 (times p8 (times p4 p2)))))

def affine (x : UInt8) : UInt8 :=
  let turn (n : UInt8) : UInt8 := x <<< n ||| x >>> (8 - n)
  x ^^^ turn 1 ^^^ turn 2 ^^^ turn 3 ^^^ turn 4 ^^^ 0x63

def box : Array UInt8 :=
  (Array.range 256).map fun x => affine (inverse (UInt8.ofNat x))

def substitute (x : UInt8) : UInt8 :=
  box.getD x.toNat 0

/-- The octet of a column `shift` bits from its end, substituted and put back. -/
def substituteAt (column shift : UInt32) : UInt32 :=
  (substitute (column >>> shift).toUInt8).toUInt32 <<< shift

def substituteColumn (column : UInt32) : UInt32 :=
  substituteAt column 24 ||| substituteAt column 16 ||| substituteAt column 8 |||
    substituteAt column 0

/-- Rotates a column to the left by `n` bits, for `0 < n < 32`. -/
def rotateLeft (column n : UInt32) : UInt32 :=
  column <<< n ||| column >>> (32 - n)

def doubleColumn (column : UInt32) : UInt32 :=
  ((column &&& 0x7F7F7F7F) <<< 1) ^^^ (((column >>> 7) &&& 0x01010101) * 0x1B)

/-- Multiplies a column by the circulant matrix with first row 2, 3, 1, 1. -/
def mixColumn (column : UInt32) : UInt32 :=
  let next := rotateLeft column 8
  doubleColumn (column ^^^ next) ^^^ next ^^^ rotateLeft column 16 ^^^ rotateLeft column 24

/-- One column after substitution and the row shift: its octets come from four columns. -/
def shiftedColumn (a b c d : UInt32) : UInt32 :=
  substituteAt a 24 ||| substituteAt b 16 ||| substituteAt c 8 ||| substituteAt d 0

def substituteAndShift (x : Block) : Block :=
  ⟨shiftedColumn x.c0 x.c1 x.c2 x.c3, shiftedColumn x.c1 x.c2 x.c3 x.c0,
   shiftedColumn x.c2 x.c3 x.c0 x.c1, shiftedColumn x.c3 x.c0 x.c1 x.c2⟩

def mixColumns (x : Block) : Block :=
  ⟨mixColumn x.c0, mixColumn x.c1, mixColumn x.c2, mixColumn x.c3⟩

/-- The round keys: the one added before the first round, those of the full rounds, and that of
the last round. -/
structure Schedule where
  first : Block
  middle : List Block
  last : Block
  deriving DecidableEq, Repr

/-- Appends `count` columns to a key expansion that began with `width` columns. `factor` is the
round constant due next. -/
def expand (width : Nat) : Nat → UInt8 → Array UInt32 → Array UInt32
  | 0, _, columns => columns
  | count + 1, factor, columns =>
    let place := columns.size
    let previous := columns.getD (place - 1) 0
    let earlier := columns.getD (place - width) 0
    if place % width = 0 then
      let turned := substituteColumn (rotateLeft previous 8) ^^^ factor.toUInt32 <<< 24
      expand width count (double factor) (columns.push (earlier ^^^ turned))
    else if 6 < width ∧ place % width = 4 then
      expand width count factor (columns.push (earlier ^^^ substituteColumn previous))
    else
      expand width count factor (columns.push (earlier ^^^ previous))

def isKeyLength (length : Nat) : Bool :=
  length == 16 || length == 24 || length == 32

def Schedule.ofKey (key : Bytes) : Schedule :=
  let width := key.length / 4
  let roundCount := width + 6
  let start := (Array.range width).map fun place => Block.columnOf (key.drop (4 * place))
  let columns := expand width (4 * (roundCount + 1) - width) 1 start
  let roundKey (round : Nat) : Block :=
    ⟨columns.getD (4 * round) 0, columns.getD (4 * round + 1) 0,
     columns.getD (4 * round + 2) 0, columns.getD (4 * round + 3) 0⟩
  ⟨roundKey 0, (List.range (roundCount - 1)).map fun round => roundKey (round + 1),
   roundKey roundCount⟩

def encrypt (schedule : Schedule) (x : Block) : Block :=
  let mixed := schedule.middle.foldl
    (fun state roundKey => (mixColumns (substituteAndShift state)).xor roundKey)
    (x.xor schedule.first)
  (substituteAndShift mixed).xor schedule.last

end PasswordVault.Aes
