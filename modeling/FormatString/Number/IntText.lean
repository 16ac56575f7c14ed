import FormatString.Text.CodeUnit
import FormatString.Number.IntType
import FormatString.Number.Radix

/-!
# Integers as text

Writing an integer gives a `-` for negative values and the digits of its magnitude. Reading takes
blanks, a sign, a radix mark and a run of digits, and fits the number into an integer type: numbers
out of range are clamped to the nearest bound, except that a nondecimal literal that fits the
unsigned type of the same width stands for its bit pattern. The digits are not added up beyond what
is out of range for every type.
-/

namespace FormatString

/-- A base that is no radix from 2 to 36. -/
inductive NumberError where
  | invalidBase (base : Nat)
  deriving DecidableEq

def NumberError.message : NumberError → String
  | invalidBase base => s!"base {base} is outside 2..=36"

/-! ## Writing -/

/-- The text of a natural number in radix `r`. -/
def Radix.writeNat (r : Radix) (upper : Bool) (n : Nat) : List Char :=
  (digitsOf r n).map (digitChar upper)

/-- The text of an integer in radix `r`. -/
def Radix.write (r : Radix) (upper : Bool) (v : Int) : List Char :=
  (if v < 0 then ['-'] else []) ++ r.writeNat upper v.natAbs

/-- The text of an integer in the given base. -/
def writeInt (v : Int) (base : Nat) (upper : Bool) : Except NumberError (List Char) :=
  match Radix.ofNat? base with
  | some r => .ok (r.write upper v)
  | none => .error (.invalidBase base)

/-- The text of a number as it is shown when values are inspected. -/
def inspectDigits (text : List Char) : String := "DigitBuf(\"" ++ String.ofList text ++ "\")"

/-! ## Reading -/

/-- What was read from the front of a text: the value, the number of units it took, zero when there
was no number, and whether the number did not fit. -/
structure Parsed (α : Type) where
  value : α
  consumed : Nat
  overflow : Bool

/-- How the radix of a literal is found: from its mark, or fixed beforehand. -/
inductive Base where
  | fromMark
  | fixed (radix : Radix)
  deriving DecidableEq

/-- The base `0` reads the radix from the mark; other bases are radices. -/
def Base.ofNat? (base : Nat) : Option Base :=
  if base = 0 then some .fromMark else (Radix.ofNat? base).map .fixed

/-- The number of the base. -/
def Base.value : Base → Nat
  | fromMark => 0
  | fixed r => r.value

/-- The base admits literals of radix `r` behind the mark of `r`. -/
def Base.allows (base : Base) (r : Radix) : Bool := base == .fromMark || base == .fixed r

/-- Splits off a sign; `true` is negative. -/
def readSign : List Char → Bool × List Char
  | '-' :: rest => (true, rest)
  | '+' :: rest => (false, rest)
  | cs => (false, cs)

/-- A digit of radix `r` comes next. -/
def startsWithDigit (r : Radix) (cs : List Char) : Bool := (cs.head?.bind r.digit?).isSome

/-- The radix of the literal and the text behind its mark. A mark counts only where a digit follows
it; a single leading zero is the mark of octal literals and a digit of them too. -/
def readMark (base : Base) : List Char → Radix × List Char
  | '0' :: m :: rest =>
    if base.allows .hexadecimal && m.toLower == 'x' && startsWithDigit .hexadecimal rest then
      (.hexadecimal, rest)
    else if base.allows .binary && m.toLower == 'b' && startsWithDigit .binary rest then
      (.binary, rest)
    else (unmarked ('0' :: m :: rest), '0' :: m :: rest)
  | cs => (unmarked cs, cs)
where
  /-- The radix of a literal without a two-character mark. -/
  unmarked (cs : List Char) : Radix :=
    match base with
    | .fixed r => r
    | .fromMark => if cs.head? = some '0' then .octal else .decimal

/-- Magnitudes are not counted beyond this, which no type holds. -/
def magnitudeCap : Nat := Nat.pow 2 64

/-- The number a digit list stands for, or the cap. Once the cap is reached the digits to come are
passed over. -/
def cappedValueOf (r : Radix) (digits : List Nat) : Nat :=
  digits.foldl
    (fun n d ↦ if n < magnitudeCap then min (n * r.value + d) magnitudeCap else n) 0

/-- An integer literal at the front of a text, after blanks. -/
structure IntLiteral where
  negative : Bool
  radix : Radix
  digits : List Nat
  consumed : Nat

namespace IntLiteral

/-- The literal a text starts with. -/
def read? (base : Base) (cs : List Char) : Option IntLiteral :=
  let (negative, unsigned) := readSign (cs.dropWhile isBlank)
  let (radix, body) := readMark base unsigned
  match digitRun radix body with
  | [] => none
  | d :: ds => some ⟨negative, radix, d :: ds, cs.length - body.length + (d :: ds).length⟩

/-- The number the literal stands for, with its magnitude capped. -/
def value (l : IntLiteral) : Int :=
  let magnitude : Int := cappedValueOf l.radix l.digits
  if l.negative then -magnitude else magnitude

end IntLiteral

/-- Fits a number written in radix `r` into a type; the flag tells that it was out of range. -/
def IntType.clamp (t : IntType) (r : Radix) (v : Int) : Int × Bool :=
  if v < t.min then (t.min, true)
  else if v ≤ t.max then (v, false)
  else if t.signed ∧ r ≠ .decimal ∧ v ≤ t.unsignedMax then (v - t.modulus, true)
  else (t.max, true)

/-- Reads an integer into a type. -/
def IntType.read (t : IntType) (base : Base) (cs : List Char) : Parsed Int :=
  match IntLiteral.read? base cs with
  | none => ⟨0, 0, false⟩
  | some l =>
    let (v, overflow) := t.clamp l.radix l.value
    ⟨v, l.consumed, overflow⟩

/-- Reads an integer in the given base into a type. -/
def readInt (base : Nat) (t : IntType) (cs : List Char) : Except NumberError (Parsed Int) :=
  match Base.ofNat? base with
  | some b => .ok (t.read b cs)
  | none => .error (.invalidBase base)

end FormatString
