import FormatString.Text.Transcode
import FormatString.Directive.ScanSet

/-!
# Parsing a directive

The fields in front of the conversion are ASCII and are read off the ASCII run of the text; the
conversion is the unit that follows them, and the members of a scan set are characters. What is
parsed is returned together with the number of units it spans, so nothing after a complete directive
can matter to it.
-/

namespace FormatString

/-! ## Fields -/

/-- The largest width, precision or slot that may be written. -/
def numberLimit : Nat := 0x7FFFFFFF

/-- A run of decimal digits, its value if it is not empty, and the text behind it. -/
def readNumber (cs : List Char) : Except DirectiveError (Option Nat × List Char) :=
  let digits := digitRun .decimal cs
  if digits.isEmpty then .ok (none, cs)
  else if valueOf .decimal digits ≤ numberLimit then
    .ok (some (valueOf .decimal digits), cs.drop digits.length)
  else .error .numberTooLarge

/-- A slot with its colon, and the text behind it. -/
def readSlot (cs : List Char) : Except DirectiveError (Nat × List Char) := do
  match ← readNumber cs with
  | (none, _) => .error .missingIndex
  | (some slot, ':' :: rest) => if slot = 0 then .error .badIndex else .ok (slot, rest)
  | (some _, _) => .error .badIndex

/-- A `*`, with its slot in the ordered dialect. -/
def readStar (dialect : Dialect) (cs : List Char) :
    Except DirectiveError (Option Amount × List Char) :=
  match cs with
  | '*' :: rest =>
    if dialect = .ordered then do
      let (slot, rest) ← readSlot rest
      .ok (some (.argument (some slot)), rest)
    else .ok (some (.argument none), rest)
  | _ => .ok (none, cs)

/-- A `*` or a number. -/
def readAmount (dialect : Dialect) (cs : List Char) :
    Except DirectiveError (Option Amount × List Char) := do
  match ← readStar dialect cs with
  | (some star, rest) => .ok (some star, rest)
  | (none, rest) =>
    let (number, rest) ← readNumber rest
    .ok (number.map .literal, rest)

/-- The slot in front of a directive of the ordered dialect. -/
def readIndex (dialect : Dialect) (cs : List Char) :
    Except DirectiveError (Option Nat × List Char) :=
  if dialect = .ordered then do
    let (slot, rest) ← readSlot cs
    .ok (some slot, rest)
  else .ok (none, cs)

/-- Sets the flag a character stands for. -/
def Flags.set? (flags : Flags) : Char → Option Flags
  | '#' => some { flags with alt := true }
  | '0' => some { flags with zero := true }
  | '-' => some { flags with left := true }
  | ' ' => some { flags with space := true }
  | '+' => some { flags with sign := true }
  | '\'' => some { flags with group := true }
  | _ => none

/-- A run of flag characters. -/
def readWriterFlags (flags : Flags) : List Char → Flags × List Char
  | [] => (flags, [])
  | c :: rest =>
    match flags.set? c with
    | some flags => readWriterFlags flags rest
    | none => (flags, c :: rest)

/-- The flags of a dialect: for reading there is only the suppressing `*`. -/
def readFlags (dialect : Dialect) (cs : List Char) : Flags × List Char :=
  if dialect = .scan then
    match cs with
    | '*' :: rest => ({ suppress := true }, rest)
    | _ => ({}, cs)
  else readWriterFlags {} cs

/-- The width: in the reading dialect a number only. -/
def readWidth (dialect : Dialect) (cs : List Char) :
    Except DirectiveError (Option Amount × List Char) :=
  if dialect = .scan then do
    let (number, rest) ← readNumber cs
    .ok (number.map .literal, rest)
  else readAmount dialect cs

/-- The precision with its point, which alone stands for zero. -/
def readPrecision (dialect : Dialect) (cs : List Char) :
    Except DirectiveError (Option Amount × List Char) :=
  match cs with
  | '.' :: rest =>
    if dialect = .scan then .ok (none, cs)
    else do
      let (amount, rest) ← readAmount dialect rest
      .ok (some (amount.getD (.literal 0)), rest)
  | _ => .ok (none, cs)

/-- The length modifier. -/
def readLength : List Char → LengthModifier × List Char
  | 'h' :: 'h' :: rest => (.shorter, rest)
  | 'h' :: rest => (.short, rest)
  | 'l' :: 'l' :: rest => (.longer, rest)
  | 'l' :: rest => (.long, rest)
  | 'q' :: rest => (.longer, rest)
  | 'L' :: rest => (.longDouble, rest)
  | 'j' :: rest => (.longest, rest)
  | 'z' :: rest => (.size, rest)
  | 'Z' :: rest => (.size, rest)
  | 't' :: rest => (.ptrDiff, rest)
  | 'w' :: rest => (.wide, rest)
  | 'I' :: '8' :: rest => (.bits 8, rest)
  | 'I' :: '1' :: '6' :: rest => (.bits 16, rest)
  | 'I' :: '3' :: '2' :: rest => (.bits 32, rest)
  | 'I' :: '6' :: '4' :: rest => (.bits 64, rest)
  | 'I' :: rest => (.size, rest)
  | cs => (.none, cs)

/-- The fields in front of the conversion. -/
structure Header where
  index : Option Nat
  flags : Flags
  width : Option Amount
  precision : Option Amount
  length : LengthModifier

/-- The header of a directive and the text behind it. -/
def Header.read (dialect : Dialect) (cs : List Char) : Except DirectiveError (Header × List Char) :=
  do
  let (index, cs) ← readIndex dialect cs
  let (flags, cs) := readFlags dialect cs
  let (width, cs) ← readWidth dialect cs
  let (precision, cs) ← readPrecision dialect cs
  let (length, cs) := readLength cs
  .ok (⟨index, flags, width, precision, length⟩, cs)

/-! ## The whole directive -/

variable {w : Width}

/-- The conversion a unit spells in a dialect, and whether it is a capital letter. -/
def readConversion? (dialect : Dialect) (u : CodeUnit w) : Option (Conversion × Bool) := do
  let letter ← u.ascii?
  let conversion ← Conversion.ofLetter? letter
  if conversion = .charSet ∧ dialect ≠ .scan then none else some (conversion, letter.isUpper)

/-- The scan set at the front of a text, without its opening bracket, and the number of units it
spans. -/
def readScanSet (s : Text w) : Except DirectiveError (ScanSet × Nat) :=
  let members := characters s
  match ScanSet.read? (members.map Spelled.char) with
  | some (set, rest) => .ok (set, (unitsOf (members.take (members.length - rest.length))).length)
  | none => .error .unterminatedScanSet

/-- The scan set of a conversion that has one. -/
def readSetOf (conversion : Conversion) (s : Text w) :
    Except DirectiveError (Option ScanSet × Nat) :=
  if conversion = .charSet then do
    let (set, used) ← readScanSet s
    .ok (some set, used)
  else .ok (none, 0)

/-- Parses the directive at the front of a text that starts behind the `%`, and tells how many units
it spans. -/
def Directive.parse (dialect : Dialect) (s : Text w) : Except DirectiveError (Directive × Nat) := do
  let run := Text.asciiRun s
  let (header, rest) ← Header.read dialect run
  let used := run.length - rest.length
  match s.drop used with
  | [] => .error .missingConversion
  | u :: body =>
    match readConversion? dialect u with
    | none => .error (.unknownConversion u.value)
    | some (conversion, upper) =>
      if header.length.accepts conversion then
        let (set, spanned) ← readSetOf conversion body
        .ok (⟨conversion, upper, header.flags, header.length, header.width, header.precision,
          header.index, set⟩, used + 1 + spanned)
      else .error (.incompatibleLength header.length conversion)

end FormatString
