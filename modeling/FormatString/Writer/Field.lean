import FormatString.Argument
import FormatString.Config
import FormatString.Directive.Basic
import FormatString.Number.Decimal
import FormatString.Number.IntText
import FormatString.Writer.Output

/-!
# The text of one value

A converted value is a `Field`: a sign and radix mark, the text behind them, and whether zeros may
be put between the two. It depends on the directive and the precision but not on the width, which
only adds padding (`Field.chunks`).
-/

namespace FormatString

variable {w : Width}

/-- Width and precision of a directive after its arguments are read. -/
structure Layout where
  width : Nat
  /-- Pad on the right. -/
  left : Bool
  precision : Option Nat

/-- A negative width pads on the right, and a negative precision is none. -/
def Layout.of (d : Directive) (width precision : Option Int) : Layout where
  width := (width.getD 0).natAbs
  left := d.flags.left || width.getD 0 < 0
  precision := precision.bind fun p ↦ if 0 ≤ p then some p.toNat else none

/-- A converted value. -/
structure Field (w : Width) where
  /-- Sign and radix mark, ASCII. -/
  head : List Char
  body : Text w
  /-- Padding may consist of zeros between head and body. -/
  zeros : Bool

/-- The field padded to the width of the layout. -/
def Field.chunks (f : Field w) (layout : Layout) : List (Chunk w) :=
  let zeros := f.zeros && !layout.left
  let fill (c : Char) : Chunk w :=
    .fill (.ofAscii w c) (layout.width - (f.head.length + f.body.length))
  let left := if layout.left || zeros then [] else [fill ' ']
  let middle := if zeros then [fill '0'] else []
  let right := if layout.left then [fill ' '] else []
  let head : List (Chunk w) := f.head.map fun c ↦ .units [.ofAscii w c]
  let chunks : List (Chunk w) := left ++ head ++ middle ++ [.units f.body] ++ right
  chunks.filter fun c ↦ c.length ≠ 0

/-! ## Parts of numbers -/

/-- The sign of a number. -/
def signOf (flags : Flags) (negative : Bool) : List Char :=
  if negative then ['-'] else if flags.sign then ['+'] else if flags.space then [' '] else []

/-- Puts `separator` in front of every third element counted from the end, except at the front. -/
def groupThousands {α : Type} (separator : List α) (digits : List α) : List α :=
  (digits.foldr
    (fun d (n, grouped) ↦
      (n + 1, if n ≠ 0 ∧ n % 3 = 0 then d :: (separator ++ grouped) else d :: grouped))
    (0, [])).2

/-- Number text as units, the digits before the point in groups if there is a separator. -/
def numberBody (separator : Option Char) (text : List Char) : Text w :=
  match separator with
  | none => Text.ofAscii w text
  | some c =>
    groupThousands (encodeChar w c) (Text.ofAscii w (text.takeWhile Char.isDigit)) ++
      Text.ofAscii w (text.dropWhile Char.isDigit)

/-- The group separator, if the directive asks for groups. -/
def separatorFor (config : Config) (d : Directive) : Option Char :=
  if d.flags.group then some config.separator else none

/-! ## Integers -/

/-- The type an integer argument of type `natural` is taken as. -/
def Directive.intType (d : Directive) (natural : IntType) : IntType :=
  if d.conversion = .pointer then .address
  else d.length.intType natural d.conversion.isSigned

/-- The digits of a magnitude with at least as many as the precision asks for; precision zero leaves
none of the number zero. -/
def integerDigits (d : Directive) (precision : Option Nat) (n : Nat) : List Char :=
  let shown := if precision = some 0 ∧ n = 0 then [] else d.conversion.radix.writeNat d.upper n
  let padded := List.replicate (precision.getD 0 - shown.length) '0' ++ shown
  if d.flags.alt ∧ d.conversion = .octal ∧ padded.head? ≠ some '0' then '0' :: padded else padded

/-- The radix mark of the alternate form. -/
def radixMark (d : Directive) (n : Nat) : List Char :=
  if d.flags.alt then
    match d.conversion with
    | .hexLower => if n = 0 then [] else ['0', 'x']
    | .hexUpper => if n = 0 then [] else ['0', 'X']
    | .binary => if n = 0 then [] else ['0', if d.upper then 'B' else 'b']
    | .pointer => ['0', 'x']
    | _ => []
  else []

/-- An integer argument under an integer or pointer conversion. -/
def integerField (config : Config) (d : Directive) (precision : Option Nat) (value : Int)
    (natural : IntType) : Field w :=
  let v := (d.intType natural).reinterpret value
  let sign := if d.conversion.isSigned then signOf d.flags (v < 0) else []
  let separator := if d.conversion.radix = .decimal then separatorFor config d else none
  { head := sign ++ radixMark d v.natAbs
    body := numberBody separator (integerDigits d precision v.natAbs)
    zeros := d.flags.zero && precision.isNone }

/-! ## Floats -/

/-- Number text, and whether it is in fixed form. -/
structure FloatText where
  text : List Char
  fixed : Bool

/-- Shows `p` significant digits, in fixed form if the exponent is at least `-4` and less than `p`,
without the zeros at the end unless the alternate form keeps them. -/
def shortestText (d : Directive) (x : Decimal) (p : Nat) : FloatText :=
  let fixed := -4 ≤ x.exponent ∧ x.exponent < p
  let text :=
    if fixed then x.renderFixed (p - 1 - x.exponent).toNat d.flags.alt
    else x.renderScientific (p - 1) d.upper d.flags.alt
  ⟨if d.flags.alt then text else dropFractionZeros some text, fixed⟩

/-- The digits a float conversion shows. -/
def floatDecimal (d : Directive) (precision : Nat) (x : Binary .binary64) : Decimal :=
  .ofBinary x <| match d.conversion with
    | .floatSci => .significant (precision + 1)
    | .floatFixed => .fractional precision
    | _ => .significant (max precision 1)

/-- The text of a number under a float conversion, without its sign. -/
def floatText (d : Directive) (precision : Nat) (x : Decimal) : FloatText :=
  match d.conversion with
  | .floatSci => ⟨x.renderScientific precision d.upper d.flags.alt, false⟩
  | .floatFixed => ⟨x.renderFixed precision d.flags.alt, true⟩
  | _ => shortestText d x (max precision 1)

/-- A float argument under a float conversion. Infinities and NaNs are words in lower case and are
never padded with zeros. -/
def floatField (config : Config) (d : Directive) (precision : Option Nat) (x : Binary .binary64) :
    Field w :=
  let p := precision.getD 6
  let dec := floatDecimal d p x
  let shown := match dec.kind with
    | .finite => floatText d p dec
    | .infinite => ⟨['i', 'n', 'f'], false⟩
    | .nan => ⟨['n', 'a', 'n'], false⟩
  { head := signOf d.flags dec.negative
    body := numberBody (if shown.fixed then separatorFor config d else none) shown.text
    zeros := d.flags.zero && dec.kind == .finite }

/-! ## Text -/

/-- The text of the code point `n`, U+FFFD if it is none. -/
def codePointText (n : Int) : Text .utf32 :=
  if 0 ≤ n ∧ n < 0x100000000 then [.ofNat .utf32 n.toNat] else encodeChar .utf32 replacementChar

/-- The text of a character argument. -/
def charText? (w : Width) : Arg → Option (Text w)
  | .char _ unit => some (transcode w [unit])
  | arg => arg.integer?.map fun (n, _) ↦ transcode w (codePointText n)

/-- The text of a string argument, cut after so many characters. -/
def stringText? (w : Width) (precision : Option Nat) (arg : Arg) : Option (Text w) :=
  let cut (s : AnyText) : Text w :=
    transcode w (match precision with
      | some k => charPrefix s.units k
      | none => s.units)
  match arg with
  | .text s => some (cut s)
  | .nullText => some (cut (.ofChars "(null)".toList))
  | _ => none

/-! ## All conversions -/

/-- The field of a directive that writes a value; nothing if the argument does not suit it. -/
def Directive.field? (d : Directive) (config : Config) (precision : Option Nat) (arg : Arg) :
    Option (Field w) :=
  match d.conversion with
  | .floatSci | .floatFixed | .floatShortest => arg.float?.map (floatField config d precision)
  | .char => (charText? w arg).map (⟨[], ·, false⟩)
  | .string => (stringText? w precision arg).map (⟨[], ·, false⟩)
  | .countWritten | .charSet | .percent => none
  | _ => arg.integer?.map fun (v, natural) ↦ integerField config d precision v natural

end FormatString
