import FormatString.Number.Binary
import FormatString.Number.Radix

/-!
# Decimal digits of a binary value

A `Decimal` is a sign, a digit list and the power of ten of its first digit; positions past the end
of the list are zeros.

The decimal expansion of a binary value ends: a multiple of `2 ^ -s` is one of `10 ^ -s`, namely
`5 ^ s` times as many. `Binary.expansion` is that whole number, and `Decimal.ofBinary` rounds it
once, at a digit position counted from the first digit or from the decimal point. So the fixed and
the scientific form always show digits of the value itself.
-/

namespace FormatString

/-- The magnitude of a finite value in multiples of `10 ^ -scale`. -/
def Binary.expansion {F : BinaryFormat} (x : Binary F) : Nat := F.units x.rank * Nat.pow 5 F.scale

/-- Whether there is a number to show digits of. -/
inductive FloatKind where
  | finite
  | infinite
  | nan
  deriving DecidableEq

/-- How many digits a value is rounded to. -/
inductive DigitMode where
  /-- So many significant digits, and at least one. -/
  | significant (count : Nat)
  /-- So many digits behind the decimal point. -/
  | fractional (count : Nat)

/-- The number `± d₀.d₁d₂… · 10 ^ exponent`, or an infinity or NaN with a sign. -/
structure Decimal where
  negative : Bool
  kind : FloatKind
  digits : List Nat
  exponent : Int

namespace Decimal

/-- The number is zero. -/
def isZero (x : Decimal) : Bool := x.kind == .finite && x.digits.all (· == 0)

/-! ## Rounding -/

/-- `n · 10 ^ e` rounded to a natural number. -/
def roundAt (n : Nat) (e : Int) : Nat :=
  roundHalfEven (n * Nat.pow 10 e.toNat) (Nat.pow 10 (-e).toNat)

/-- The digits and the exponent of `n · 10 ^ -scale` rounded to `count` significant digits. Rounding
up to a power of ten yields one digit more, a zero at the end, which is dropped. -/
def significantDigits (n scale count : Nat) : List Nat × Int :=
  if n = 0 then (List.replicate count 0, 0)
  else
    let length := (digitsOf .decimal n).length
    let digits := digitsOf .decimal (roundAt n (count - length))
    (digits.take count, length + (digits.length - count) - 1 - scale)

/-- The digits and the exponent of `n · 10 ^ -scale` rounded to `count` digits behind the point. -/
def fractionalDigits (n scale count : Nat) : List Nat × Int :=
  let rounded := roundAt n (count - scale)
  if rounded = 0 then ([0], 0)
  else
    let digits := digitsOf .decimal rounded
    (digits, digits.length - 1 - count)

/-- The digits of a binary value, correctly rounded. -/
def ofBinary {F : BinaryFormat} (x : Binary F) (mode : DigitMode) : Decimal :=
  if x.isNaN then ⟨x.negative, .nan, [], 0⟩
  else if x.isInfinite then ⟨x.negative, .infinite, [], 0⟩
  else
    let (digits, exponent) :=
      match mode with
      | .significant count => significantDigits x.expansion F.scale (max count 1)
      | .fractional count => fractionalDigits x.expansion F.scale count
    ⟨x.negative, .finite, digits, exponent⟩

/-! ## Rendering -/

/-- The first `count` digits, continued by zeros. -/
def firstDigits (count : Nat) (digits : List Nat) : List Nat :=
  digits.take count ++ List.replicate (count - digits.length) 0

/-- The digits before the point: one zero for a number below one. -/
def integerDigits (x : Decimal) : List Nat :=
  if x.exponent < 0 then [0] else firstDigits (x.exponent.toNat + 1) x.digits

/-- The first `count` digits behind the point. -/
def fractionDigits (x : Decimal) (count : Nat) : List Nat :=
  if x.exponent < 0 then
    let zeros := min ((-x.exponent).toNat - 1) count
    List.replicate zeros 0 ++ firstDigits (count - zeros) x.digits
  else firstDigits count (x.digits.drop (x.exponent.toNat + 1))

private def writeDigits (digits : List Nat) : List Char := digits.map (digitChar false)

/-- The point and the digits behind it; without digits the point is written only when `alt` asks for
it. -/
def pointed (digits : List Nat) (alt : Bool) : List Char :=
  (if digits.isEmpty && !alt then [] else ['.']) ++ writeDigits digits

/-- The number without its sign in fixed form, with `precision` digits behind the point. -/
def renderFixed (x : Decimal) (precision : Nat) (alt : Bool) : List Char :=
  writeDigits x.integerDigits ++ pointed (x.fractionDigits precision) alt

/-- The exponent of the scientific form: a sign and at least two digits. -/
def renderExponent (e : Int) : List Char :=
  let digits := writeDigits (digitsOf .decimal e.natAbs)
  (if e < 0 then '-' else '+') :: (if e.natAbs < 10 then '0' :: digits else digits)

/-- The number without its sign in scientific form, with `precision` digits behind the point. -/
def renderScientific (x : Decimal) (precision : Nat) (upper alt : Bool) : List Char :=
  writeDigits (firstDigits 1 x.digits) ++ pointed (firstDigits precision (x.digits.drop 1)) alt ++
    (if upper then 'E' else 'e') :: renderExponent x.exponent

end Decimal

/-! ## Shortening -/

/-- A list without the elements at its end that satisfy `p`. -/
def dropTrailing {α : Type} (p : α → Bool) (xs : List α) : List α :=
  (xs.reverse.dropWhile p).reverse

/-- Number text without the zeros at the end of its fraction, and without the point when nothing is
left behind it. What follows the first `e` is kept as it is. The elements of the text are told apart
by the character `view` finds in them. -/
def dropFractionZeros {α : Type} (view : α → Option Char) (text : List α) : List α :=
  let isMark (u : α) : Bool := view u == some 'e' || view u == some 'E'
  let mantissa := text.takeWhile (!isMark ·)
  let shortened :=
    if mantissa.any (view · == some '.') then
      let kept := dropTrailing (view · == some '0') mantissa
      match kept.getLast? with
      | some u => if view u == some '.' then kept.dropLast else kept
      | none => kept
    else mantissa
  shortened ++ text.dropWhile (!isMark ·)

end FormatString
