import FormatString.Template.Piece
import FormatString.Reader.Target
import FormatString.Number.FloatText

/-!
# Matching one piece

A reading call matches the pieces of a format string against its input. `ReadState` is what it
remembers between two pieces. Matching a piece either succeeds with a new state or halts, and what
the call has stored is then what it had stored before the piece.
-/

namespace FormatString

variable {w : Width}

/-- What a reading call remembers. -/
structure ReadState (w : Width) where
  /-- The input that is left. -/
  rest : Text w
  /-- The number of units consumed. -/
  position : Nat := 0
  /-- The targets something was stored in, in order. -/
  stored : List Target := []
  /-- The other targets. -/
  pending : List Target
  /-- The number of assignments made. -/
  assigned : Nat := 0
  /-- Something has been matched. -/
  matched : Bool := false
  /-- The offsets of the directives whose number was clamped. -/
  clamped : List Nat := []

/-- Why a reading call halts. -/
inductive Halt where
  /-- The input does not match. -/
  | mismatch
  /-- The input is used up. -/
  | exhausted
  | malformed (error : DirectiveError)
  | missingTarget
  | badType
  deriving DecidableEq

namespace ReadState

variable (s : ReadState w)

/-- All targets as they are now. -/
def targets : List Target := s.stored ++ s.pending

/-- Consumes `n` units. -/
def consume (n : Nat) : ReadState w :=
  { s with rest := s.rest.drop n, position := s.position + n }

/-- Consumes blanks. -/
def skipBlanks : ReadState w := s.consume (s.rest.takeWhile (·.isBlank)).length

/-- Consumes what a directive matched, and counts the assignment. -/
def finish (d : Directive) (used : Nat) : ReadState w :=
  { s.consume used with
    matched := true
    assigned := s.assigned + if !d.flags.suppress && d.conversion.assigns then 1 else 0 }

/-- Records that the next target has become `t`. -/
def keep (t : Target) : ReadState w :=
  { s with stored := s.stored ++ [t], pending := s.pending.drop 1 }

/-- Records that a number was clamped. -/
def noteClamped (offset : Nat) (clamped : Bool) : ReadState w :=
  if clamped then { s with clamped := s.clamped ++ [offset] } else s

/-! ## Literals -/

/-- Matches one unit. -/
def matchUnit (u : CodeUnit w) : Except Halt (ReadState w) :=
  match s.rest with
  | [] => .error .exhausted
  | v :: _ => if v = u then .ok { s.consume 1 with matched := true } else .error .mismatch

/-- Matches a unit of a literal run; a blank matches any blanks. -/
def matchLiteral (u : CodeUnit w) : Except Halt (ReadState w) :=
  if u.isBlank then .ok s.skipBlanks else s.matchUnit u

/-- Matches a percent sign after blanks. -/
def matchPercent : Except Halt (ReadState w) := s.skipBlanks.matchUnit (.ofAscii w '%')

end ReadState

/-! ## Values -/

/-- The largest number of units a directive may take; no width and the width zero set no limit. -/
def Directive.fieldWidth? (d : Directive) : Option Nat :=
  match d.width with
  | some (.literal n) => if n = 0 then none else some n
  | _ => none

namespace ReadState

variable (s : ReadState w) (d : Directive) (offset : Nat)

/-- The units a directive may look at. -/
def field : Text w :=
  match d.fieldWidth? with
  | some n => s.rest.take n
  | none => s.rest

/-- The target a directive stores in: none if it only matches. -/
def nextTarget : Except Halt (Option Target) :=
  if d.flags.suppress then .ok none
  else
    match s.pending with
    | [] => .error .missingTarget
    | t :: _ => .ok (some t)

/-- Records what the next target has become; without one nothing changes. -/
def settle (t : Option Target) : ReadState w :=
  match t with
  | some t => s.keep t
  | none => s

/-- Reads an integer. The range is that of the target, and of the signed 64-bit type if there is
none. -/
def readInteger : Except Halt (ReadState w) := do
  let target ← s.nextTarget d
  let type? : Option IntType := match target with
    | none => some .int64
    | some t => if d.conversion = .pointer then t.addressType? else t.intType?
  match type? with
  | none => .error .badType
  | some type =>
    let parsed := type.read d.conversion.base (Text.asciiRun (s.field d))
    if parsed.consumed = 0 then .error .mismatch
    else
      .ok (((s.settle (target.map (·.storeInt parsed.value))).noteClamped offset
        (target.isSome && parsed.overflow)).finish d parsed.consumed)

/-- Reads a float. -/
def readFloat : Except Halt (ReadState w) := do
  let target ← s.nextTarget d
  if target.any (!·.isFloat) then .error .badType
  else
    let parsed := FormatString.readFloat .binary64 (Text.asciiRun (s.field d))
    if parsed.consumed = 0 then .error .mismatch
    else
      .ok (((s.settle (target.map (·.storeFloat parsed.value))).noteClamped offset
        (target.any fun t ↦ parsed.overflow || t.narrowsToInfinity parsed.value)).finish d
          parsed.consumed)

/-- Stores the next `n` units as text. -/
def storeUnits (n : Nat) : Except Halt (ReadState w) := do
  match ← s.nextTarget d with
  | none => .ok (s.finish d n)
  | some t =>
    let units := s.rest.take n
    let stored := if d.conversion = .char then t.storeChar? units else t.storeText? units
    match stored with
    | some t => .ok ((s.keep t).finish d n)
    | none => .error .badType

/-- Reads characters: one, or as many units as the width says. -/
def readChars : Except Halt (ReadState w) :=
  match d.fieldWidth? with
  | none =>
    match decode? s.rest with
    | some (_, used) => s.storeUnits d used
    | none => .error .exhausted
  | some n => if s.rest.length < n then .error .exhausted else s.storeUnits d n

/-- Reads units up to the next blank. -/
def readWord : Except Halt (ReadState w) :=
  s.storeUnits d ((s.field d).takeWhile (!·.isBlank)).length

/-- Reads characters of a set, at least one. -/
def readSet : Except Halt (ReadState w) :=
  match d.set with
  | none => .error .badType
  | some set =>
    let run := (characters (s.field d)).takeWhile fun c ↦ set.admits c.char.toNat
    if run.isEmpty then .error .mismatch else s.storeUnits d (unitsOf run).length

/-- Stores the number of units consumed so far, or the largest number the target can hold. -/
def readCount : Except Halt (ReadState w) := do
  match ← s.nextTarget d with
  | none => .ok (s.finish d 0)
  | some t =>
    match t.intType? with
    | some type => .ok ((s.keep (t.storeInt (min (s.position : Int) type.max))).finish d 0)
    | none => .error .badType

/-- Matches a directive that reads input, which has to be left for it. -/
def readValue : Except Halt (ReadState w) :=
  if s.rest.isEmpty then .error .exhausted
  else
    match d.conversion with
    | .floatSci | .floatFixed | .floatShortest => s.readFloat d offset
    | .string => s.readWord d
    | .char => s.readChars d
    | .charSet => s.readSet d
    | _ => s.readInteger d offset

/-- Matches a directive. Blanks are skipped in front of all but characters, sets and counts. -/
def matchDirective : Except Halt (ReadState w) :=
  match d.conversion with
  | .percent => s.matchPercent
  | .countWritten => s.readCount d
  | .char | .charSet => s.readValue d offset
  | _ => s.skipBlanks.readValue d offset

/-- Matches a piece. -/
def matchPiece (p : Located w) : Except Halt (ReadState w) :=
  match p.piece with
  | .literal units => units.foldlM matchLiteral s
  | .percent => s.matchPercent
  | .directive d => s.matchDirective d p.offset
  | .malformed e => .error (.malformed e)

end ReadState

end FormatString
