import FormatString.Number.Binary
import FormatString.Number.IntText

/-!
# Reading floating point text

The grammar is that of decimal floating literals: blanks, a sign, digits with an optional fraction
and an optional exponent, or one of the words `inf`, `infinity` and `nan` in any case. The decimal
is rounded once, from its exact value.
-/

namespace FormatString

/-- The part of a literal behind its sign. -/
inductive FloatBody where
  | infinity
  | nan
  /-- `whole.fraction · 10 ^ exponent`, the digits most significant first. -/
  | decimal (whole fraction : List Nat) (exponent : Int)

/-- Takes the word `word`, given in lower case, off a text of any case. -/
def readWord? : List Char → List Char → Option (List Char)
  | [], cs => some cs
  | w :: ws, c :: cs => if c.toLower == w then readWord? ws cs else none
  | _ :: _, [] => none

/-- Takes the parenthesised tag off that may follow `nan`. -/
def readNanTag (cs : List Char) : List Char :=
  match cs with
  | '(' :: tag =>
    match tag.dropWhile (fun c ↦ c.isAlphanum || c == '_') with
    | ')' :: rest => rest
    | _ => cs
  | _ => cs

/-- The exponent at the front of a text, zero if there is none, and the text behind it. -/
def readExponent (cs : List Char) : Int × List Char :=
  match cs with
  | mark :: signed =>
    let (negative, body) := readSign signed
    let digits := digitRun .decimal body
    if mark.toLower == 'e' && !digits.isEmpty then
      let magnitude : Int := valueOf .decimal digits
      (if negative then -magnitude else magnitude, body.drop digits.length)
    else (0, cs)
  | [] => (0, cs)

/-- The digits behind a point, and the text behind them; without a point there are none. -/
def readFraction (cs : List Char) : List Nat × List Char :=
  match cs with
  | '.' :: rest =>
    let digits := digitRun .decimal rest
    (digits, rest.drop digits.length)
  | _ => ([], cs)

/-- A decimal number: digits before the point, behind it, or both. -/
def readDecimal? (cs : List Char) : Option (FloatBody × List Char) :=
  let whole := digitRun .decimal cs
  let (fraction, rest) := readFraction (cs.drop whole.length)
  if whole.isEmpty && fraction.isEmpty then none
  else
    let (exponent, rest) := readExponent rest
    some (.decimal whole fraction exponent, rest)

/-- The body of a literal and the text behind it. -/
def FloatBody.read? (cs : List Char) : Option (FloatBody × List Char) :=
  match readWord? "infinity".toList cs with
  | some rest => some (.infinity, rest)
  | none =>
    match readWord? "inf".toList cs with
    | some rest => some (.infinity, rest)
    | none =>
      match readWord? "nan".toList cs with
      | some rest => some (.nan, readNanTag rest)
      | none => readDecimal? cs

/-- The value nearest to `± n · 10 ^ e`. Exponents so large that the value is certainly infinite, or
so small that it is certainly zero, are settled by the number of digits alone. -/
def Binary.ofDecimal (F : BinaryFormat) (negative : Bool) (n : Nat) (e : Int) : Binary F :=
  let top := (digitsOf .decimal n).length + e
  if n = 0 ∨ top < -(F.scale : Int) then zero negative
  else if top > Nat.pow 2 F.exponentBits then infinity negative
  else nearest negative (n * Nat.pow 10 e.toNat) (Nat.pow 10 (-e).toNat)

/-- The value of a literal. -/
def FloatBody.value (F : BinaryFormat) (negative : Bool) : FloatBody → Binary F
  | infinity => .infinity negative
  | nan => .nan negative
  | decimal whole fraction exponent =>
    .ofDecimal F negative (valueOf .decimal (whole ++ fraction)) (exponent - fraction.length)

/-- The body spells out a number. -/
def FloatBody.isDecimal : FloatBody → Bool
  | decimal .. => true
  | _ => false

/-- Reads a float; the flag tells that a number was too large for the format. -/
def readFloat (F : BinaryFormat) (cs : List Char) : Parsed (Binary F) :=
  let (negative, unsigned) := readSign (cs.dropWhile isBlank)
  match FloatBody.read? unsigned with
  | none => ⟨.zero false, 0, false⟩
  | some (body, rest) =>
    let value := body.value F negative
    ⟨value, cs.length - rest.length, body.isDecimal && value.isInfinite⟩

end FormatString
