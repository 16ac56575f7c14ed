import FormatString.Directive.Conversion
import FormatString.Number.Radix

/-!
# Directives

A directive is what follows a `%` in a format string: flags, a width, a precision, a length modifier
and a conversion. The three dialects differ in what else they admit: directives that name the slot
of their argument, and for reading, suppression and scan sets.
-/

namespace FormatString

/-- The dialect of a format string. -/
inductive Dialect where
  /-- For writing, arguments being taken from left to right. -/
  | print
  /-- For writing, every directive naming the slot of its argument. -/
  | ordered
  /-- For reading. -/
  | scan
  deriving DecidableEq

/-- The flags of a directive. -/
structure Flags where
  /-- `#`: the alternate form. -/
  alt : Bool := false
  /-- `0`: pad with zeros. -/
  zero : Bool := false
  /-- `-`: pad on the right. -/
  left : Bool := false
  /-- ` `: a space in place of a plus sign. -/
  space : Bool := false
  /-- `+`: a sign on every number. -/
  sign : Bool := false
  /-- `'`: group the digits before the point. -/
  group : Bool := false
  /-- `*` when reading: match without storing. -/
  suppress : Bool := false
  deriving DecidableEq

/-- A width or a precision. -/
inductive Amount where
  | literal (count : Nat)
  /-- `*`: the next argument, or the one of a slot counted from one. -/
  | argument (slot : Option Nat)
  deriving DecidableEq

/-- The characters a `[…]` directive reads, as inclusive ranges of code points. -/
structure ScanSet where
  negated : Bool
  ranges : List (Nat × Nat)
  deriving DecidableEq

/-- The code point belongs to the set. -/
def ScanSet.admits (set : ScanSet) (n : Nat) : Bool :=
  set.ranges.any (fun (lo, hi) ↦ lo ≤ n && n ≤ hi) != set.negated

/-- A conversion directive. -/
structure Directive where
  conversion : Conversion
  /-- The conversion was spelled with a capital letter. -/
  upper : Bool
  flags : Flags
  length : LengthModifier
  width : Option Amount
  precision : Option Amount
  /-- The slot of the argument, counted from one, in the ordered dialect. -/
  index : Option Nat
  /-- The set of a `[…]` directive. -/
  set : Option ScanSet
  deriving DecidableEq

/-- The slot a `*` names. -/
def Amount.slot? : Amount → Option Nat
  | literal _ => none
  | argument slot => slot

/-- The slots a directive takes arguments from, in the order it takes them. -/
def Directive.slots (d : Directive) : List Nat :=
  (d.width.bind Amount.slot?).toList ++ (d.precision.bind Amount.slot?).toList ++
    (if d.conversion = .percent then [] else d.index.toList)

/-- The ways a directive can be malformed. -/
inductive DirectiveError where
  /-- The format string ends before the conversion. -/
  | missingConversion
  /-- No conversion has this letter; the value is that of the unit found in its place. -/
  | unknownConversion (unit : Nat)
  | incompatibleLength (length : LengthModifier) (conversion : Conversion)
  /-- A scan set without its closing bracket. -/
  | unterminatedScanSet
  /-- A directive of the ordered dialect without a slot. -/
  | missingIndex
  | badIndex
  /-- A width, precision or slot above `2 ^ 31 - 1`. -/
  | numberTooLarge
  deriving DecidableEq

/-- The text reported for the error. -/
def DirectiveError.message : DirectiveError → String
  | missingConversion => "directive has no conversion specifier"
  | unknownConversion unit =>
    "unknown conversion specifier 0x" ++
      String.ofList ((digitsOf .hexadecimal unit).map (digitChar false))
  | incompatibleLength length conversion =>
    s!"length modifier {length.name} cannot be used with {conversion.name}"
  | unterminatedScanSet => "scan set is not terminated"
  | missingIndex => "directive has no argument index"
  | badIndex => "argument index is malformed"
  | numberTooLarge => "numeric field is too large"

end FormatString
