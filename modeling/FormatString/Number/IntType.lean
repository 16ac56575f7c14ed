/-!
# Fixed-width integer types

An integer type is a width of 8, 16, 32 or 64 bits together with a signedness. `reinterpret` is
truncation to the width followed by reading the bits back: the one value of the type congruent to
the given one modulo `2 ^ bits`.
-/

namespace FormatString

/-- The width of an integer type. -/
inductive IntWidth where
  | w8
  | w16
  | w32
  | w64
  deriving DecidableEq

namespace IntWidth

/-- The number of bits. -/
def bits : IntWidth → Nat
  | w8 => 8
  | w16 => 16
  | w32 => 32
  | w64 => 64

/-- The width of so many bits, if there is one. -/
def ofBits? : Nat → Option IntWidth
  | 8 => some w8
  | 16 => some w16
  | 32 => some w32
  | 64 => some w64
  | _ => none

theorem ofBits?_bits (w : IntWidth) : ofBits? w.bits = some w := by cases w <;> rfl

end IntWidth

/-- Width and signedness of an integer. -/
structure IntType where
  width : IntWidth
  signed : Bool
  deriving DecidableEq

namespace IntType

/-- The number of bits of a value. -/
def bits (t : IntType) : Nat := t.width.bits

/-- The signed 32-bit type, which `*` widths and precisions are read as. -/
def int32 : IntType := ⟨.w32, true⟩

/-- The signed 64-bit type. -/
def int64 : IntType := ⟨.w64, true⟩

/-- The unsigned type as wide as a pointer, which is 64 bits. -/
def address : IntType := ⟨.w64, false⟩

/-- The number of values. -/
def modulus (t : IntType) : Int := Nat.pow 2 t.bits

/-- Half the number of values, which is the weight of a sign bit. -/
def half (t : IntType) : Int := Nat.pow 2 (t.bits - 1)

/-- The smallest value. -/
def min (t : IntType) : Int := if t.signed then -t.half else 0

/-- The largest value. -/
def max (t : IntType) : Int := if t.signed then t.half - 1 else t.modulus - 1

/-- The largest value of the unsigned type of the same width. -/
def unsignedMax (t : IntType) : Int := t.modulus - 1

/-- The value whose two's-complement bits are the low bits of `v`. -/
def reinterpret (t : IntType) (v : Int) : Int :=
  if t.signed then Int.bmod v (Nat.pow 2 t.bits) else v % t.modulus

end IntType

end FormatString
