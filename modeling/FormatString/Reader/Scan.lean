import FormatString.Diagnostic
import FormatString.Reader.State

/-!
# Reading calls

`scan` matches a format string against an input and stores what it reads in the targets, in
order. It halts at the first piece that does not match, which is no error; the end of the input is
one only if the input was empty and nothing has been matched.
-/

namespace FormatString

variable {w : Width}

/-- Why a reading call failed, with the number of assignments made before. -/
inductive ScanError where
  /-- The input was empty, and some was needed. -/
  | eof
  | malformed (offset : Nat) (error : DirectiveError) (assigned : Nat)
  | missingTarget (offset assigned : Nat)
  | badType (offset assigned : Nat)
  deriving DecidableEq

namespace ScanError

/-- The text reported for the error. -/
def message : ScanError → String
  | eof => "input is empty"
  | malformed offset error _ => s!"malformed directive at offset {offset}: {error.message}"
  | missingTarget offset _ => s!"no out-argument left for directive at offset {offset}"
  | badType offset _ => s!"out-argument of directive at offset {offset} has the wrong type"

/-- The number of assignments made before the error. -/
def assigned : ScanError → Nat
  | eof => 0
  | malformed _ _ n => n
  | missingTarget _ n => n
  | badType _ n => n

/-- The diagnostic of the error; the end of the input is not worth one. -/
def diagnostic? : ScanError → Option Diagnostic
  | eof => none
  | malformed offset error _ => some ⟨offset, .malformed error⟩
  | missingTarget offset _ => some ⟨offset, .missingTarget⟩
  | badType offset _ => some ⟨offset, .badType⟩

end ScanError

/-- Matches pieces until one halts; the state is the one before that piece. -/
def matchPieces (s : ReadState w) : List (Located w) → ReadState w × Option (Nat × Halt)
  | [] => (s, none)
  | p :: rest =>
    match s.matchPiece p with
    | .ok s => matchPieces s rest
    | .error h => (s, some (p.offset, h))

/-- The outcome of a reading call. -/
structure Reading where
  /-- The number of assignments, or the error. -/
  result : Except ScanError Nat
  targets : List Target
  diagnostics : List Diagnostic

/-- What a halt means for the call. -/
def Halt.result (inputEmpty : Bool) (s : ReadState w) (offset : Nat) : Halt → Except ScanError Nat
  | mismatch => .ok s.assigned
  | exhausted => if inputEmpty && !s.matched then .error .eof else .ok s.assigned
  | malformed e => .error (.malformed offset e s.assigned)
  | missingTarget => .error (.missingTarget offset s.assigned)
  | badType => .error (.badType offset s.assigned)

/-- The outcome of matching the pieces of a format string. -/
def readingOf (inputEmpty : Bool) (s : ReadState w) (halt : Option (Nat × Halt)) : Reading :=
  let result := match halt with
    | none => .ok s.assigned
    | some (offset, h) => h.result inputEmpty s offset
  let last := match result with
    | .ok _ => none
    | .error e => e.diagnostic?
  { result := result
    targets := s.targets
    diagnostics := s.clamped.map (⟨·, .rangeOverflow⟩) ++ last.toList }

/-- Matches `template` against `input` and stores what is read in the targets. -/
def scan (input template : Text w) (targets : List Target) : Reading :=
  let (s, halt) := matchPieces { rest := input, pending := targets } (pieces .scan template)
  readingOf input.isEmpty s halt

end FormatString
