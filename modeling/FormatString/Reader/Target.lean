import FormatString.Text.Transcode
import FormatString.Number.IntType
import FormatString.Number.Binary

/-!
# Targets

The places a reading call stores values in. A target keeps its type whatever is stored in it; what
does not suit it is not stored.
-/

namespace FormatString

/-- A place for a value of a fixed type, with what is stored there. -/
inductive Target where
  | integer (type : IntType) (value : Int)
  /-- An unsigned integer as wide as a pointer, the only place for addresses. -/
  | address (value : Int)
  | float32 (value : Binary .binary32)
  | float64 (value : Binary .binary64)
  | char (value : Char)
  | text (value : AnyText)

namespace Target

/-- The type of the integers that can be stored. -/
def intType? : Target → Option IntType
  | integer type _ => some type
  | address _ => some .address
  | _ => none

/-- The type of the addresses that can be stored. -/
def addressType? : Target → Option IntType
  | address _ => some .address
  | _ => none

/-- Stores an integer, cut down to the bits of the target. -/
def storeInt (t : Target) (v : Int) : Target :=
  match t with
  | integer type _ => integer type (type.reinterpret v)
  | address _ => address (IntType.address.reinterpret v)
  | other => other

/-- A float can be stored. -/
def isFloat : Target → Bool
  | float32 _ | float64 _ => true
  | _ => false

/-- Stores a float, rounded to the precision of the target. -/
def storeFloat (t : Target) (v : Binary .binary64) : Target :=
  match t with
  | float32 _ => float32 (v.convert .binary32)
  | float64 _ => float64 v
  | other => other

/-- A finite value that is infinite once it is stored. -/
def narrowsToInfinity (t : Target) (v : Binary .binary64) : Bool :=
  match t with
  | float32 _ => v.isFinite && (v.convert .binary32).isInfinite
  | _ => false

/-- Stores text in the width of the target. -/
def storeText? {w : Width} (t : Target) (units : Text w) : Option Target :=
  match t with
  | text old => some (text ⟨old.width, transcode old.width units⟩)
  | _ => none

/-- Stores text, or the character that a text consists of. -/
def storeChar? {w : Width} (t : Target) (units : Text w) : Option Target :=
  match t with
  | char _ =>
    match decode? units with
    | some (c, used) => if used = units.length then some (char c) else none
    | none => none
  | other => other.storeText? units

end Target

end FormatString
