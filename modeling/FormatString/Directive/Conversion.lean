import FormatString.Number.IntText

/-!
# Conversions and length modifiers

The conversion is the letter that ends a directive and says what is written or read; the length
modifier in front of it says how wide. `LengthModifier.accepts` is the table of the combinations
that make sense, and `LengthModifier.intType` the type an integer argument is taken as.
-/

namespace FormatString

/-- What a directive writes or reads. -/
inductive Conversion where
  /-- `d` -/
  | signedInt
  /-- `i`, which writes like `d` and takes the radix from the mark when reading -/
  | autoInt
  /-- `u` -/
  | unsignedInt
  /-- `o` -/
  | octal
  /-- `x` -/
  | hexLower
  /-- `X` -/
  | hexUpper
  /-- `b` and `B` -/
  | binary
  /-- `e` and `E` -/
  | floatSci
  /-- `f` and `F` -/
  | floatFixed
  /-- `g` and `G` -/
  | floatShortest
  /-- `c` -/
  | char
  /-- `s` -/
  | string
  /-- `[`, for reading only -/
  | charSet
  /-- `p` -/
  | pointer
  /-- `n` -/
  | countWritten
  /-- `%` -/
  | percent
  deriving DecidableEq

namespace Conversion

/-- The conversion of a letter. -/
def ofLetter? : Char → Option Conversion
  | 'd' => some signedInt
  | 'i' => some autoInt
  | 'u' => some unsignedInt
  | 'o' => some octal
  | 'x' => some hexLower
  | 'X' => some hexUpper
  | 'b' | 'B' => some binary
  | 'e' | 'E' => some floatSci
  | 'f' | 'F' => some floatFixed
  | 'g' | 'G' => some floatShortest
  | 'c' => some char
  | 's' => some string
  | '[' => some charSet
  | 'p' => some pointer
  | 'n' => some countWritten
  | '%' => some percent
  | _ => none

/-- The name of the conversion in messages. -/
def name : Conversion → String
  | signedInt => "SignedInt"
  | autoInt => "AutoInt"
  | unsignedInt => "UnsignedInt"
  | octal => "Octal"
  | hexLower => "HexLower"
  | hexUpper => "HexUpper"
  | binary => "Binary"
  | floatSci => "FloatSci"
  | floatFixed => "FloatFixed"
  | floatShortest => "FloatShortest"
  | char => "Char"
  | string => "String"
  | charSet => "CharSet"
  | pointer => "Pointer"
  | countWritten => "CountWritten"
  | percent => "Percent"

def isInteger : Conversion → Bool
  | signedInt | autoInt | unsignedInt | octal | hexLower | hexUpper | binary => true
  | _ => false

def isFloat : Conversion → Bool
  | floatSci | floatFixed | floatShortest => true
  | _ => false

def isText : Conversion → Bool
  | char | string | charSet => true
  | _ => false

/-- Reading it counts as an assignment. -/
def assigns : Conversion → Bool
  | countWritten | percent => false
  | _ => true

/-- The integer is signed. -/
def isSigned : Conversion → Bool
  | signedInt | autoInt => true
  | _ => false

/-- The radix digits are written in. -/
def radix : Conversion → Radix
  | octal => .octal
  | hexLower | hexUpper | pointer => .hexadecimal
  | binary => .binary
  | _ => .decimal

/-- The base a number is read in. -/
def base (k : Conversion) : Base := if k = autoInt then .fromMark else .fixed k.radix

end Conversion

/-- The length modifier of a directive. -/
inductive LengthModifier where
  | none
  /-- `l` -/
  | long
  /-- `ll` and `q` -/
  | longer
  /-- `j` -/
  | longest
  /-- `h` -/
  | short
  /-- `hh` -/
  | shorter
  /-- `L` -/
  | longDouble
  /-- `z`, `Z` and a bare `I` -/
  | size
  /-- `t` -/
  | ptrDiff
  /-- `w`, for wide characters and strings -/
  | wide
  /-- `I8`, `I16`, `I32` and `I64` -/
  | bits (count : Nat)
  deriving DecidableEq

namespace LengthModifier

/-- The name of the modifier in messages. -/
def name : LengthModifier → String
  | none => "None"
  | long => "Long"
  | longer => "Longer"
  | longest => "Longest"
  | short => "Short"
  | shorter => "Shorter"
  | longDouble => "LongDouble"
  | size => "Size"
  | ptrDiff => "PtrDiff"
  | wide => "Wide"
  | bits count => s!"Bits({count})"

/-- The modifier may stand before the conversion. Pointers take `h` and `l` and ignore them. -/
def accepts (l : LengthModifier) (k : Conversion) : Bool :=
  if l = none || k = .percent then true
  else if k.isInteger || k = .countWritten then l ≠ wide && l ≠ longDouble
  else if k.isFloat then l = long || l = longDouble
  else if k.isText then l = short || l = long || l = wide
  else l = short || l = long

/-- The width of the integer type it names, the argument being of width `natural`. Without a
modifier arguments are promoted to 32 bits. -/
def intWidth (l : LengthModifier) (natural : IntWidth) : IntWidth :=
  match l with
  | shorter => .w8
  | short => .w16
  | long | longer | longest => .w64
  | size | ptrDiff => IntType.address.width
  | bits count => (IntWidth.ofBits? count).getD .w64
  | none | wide | longDouble => if natural.bits < 32 then .w32 else natural

/-- The integer type an argument of type `natural` is taken as. -/
def intType (l : LengthModifier) (natural : IntType) (signed : Bool) : IntType :=
  ⟨l.intWidth natural.width, signed⟩

end LengthModifier

end FormatString
