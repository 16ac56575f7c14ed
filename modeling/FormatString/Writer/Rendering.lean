import FormatString.Template.Piece
import FormatString.Writer.Field

/-!
# Rendering a format string

`renderPieces` folds over the pieces of a format string and yields one `Step` per piece: what the
piece put out, and where the arguments stood after it. A piece either fails or yields all its
output; a directive takes the arguments of its width, of its precision and of its value in this
order before anything is put out.
-/

namespace FormatString

variable {w : Width}

/-- Why a writing call failed. -/
inductive FormatError where
  /-- The sink refused output. -/
  | sink
  | malformed (offset : Nat) (error : DirectiveError)
  | notEnoughArguments (offset : Nat)
  | badType (offset : Nat)
  /-- More slots are named than the settings allow. -/
  | tooManySlots (limit : Nat)
  /-- A slot past the end of the argument list is named. -/
  | missingSlot (index : Nat)
  deriving DecidableEq

namespace FormatError

/-- The text reported for the error. -/
def message : FormatError → String
  | sink => "sink rejected output"
  | malformed offset error => s!"malformed directive at offset {offset}: {error.message}"
  | notEnoughArguments offset => s!"no argument left for directive at offset {offset}"
  | badType offset => s!"argument of directive at offset {offset} has the wrong type"
  | tooManySlots limit => s!"format string references more than {limit} argument slots"
  | missingSlot index => s!"argument slot {index} is out of range"

/-- The diagnostic of the error; a refusal is the sink's own affair. -/
def diagnostic? : FormatError → Option Diagnostic
  | sink => none
  | malformed offset error => some ⟨offset, .malformed error⟩
  | notEnoughArguments offset => some ⟨offset, .notEnoughArguments⟩
  | badType offset => some ⟨offset, .badType⟩
  | tooManySlots limit => some ⟨0, .tooManySlots limit⟩
  | missingSlot index => some ⟨0, .missingSlot index⟩

end FormatError

/-! ## Taking arguments -/

/-- What an argument can be at fault for. -/
inductive ArgFault where
  | notEnoughArguments
  | badType
  deriving DecidableEq

/-- The error of a directive at an offset. -/
def ArgFault.at (offset : Nat) : ArgFault → FormatError
  | notEnoughArguments => .notEnoughArguments offset
  | badType => .badType offset

/-- A result that took arguments to compute, and what is left of them. -/
structure Taken (α : Type) where
  result : Except ArgFault α
  source : ArgSource

/-- Goes on with the result and the arguments that are left. -/
def Taken.andThen {α β : Type} (t : Taken α) (f : α → ArgSource → Taken β) : Taken β :=
  match t.result with
  | .ok a => f a t.source
  | .error e => ⟨.error e, t.source⟩

/-- Takes an argument. -/
def ArgSource.take (source : ArgSource) (slot : Option Nat) : Taken Arg :=
  match source.next slot with
  | (some arg, rest) => ⟨.ok arg, rest⟩
  | (none, rest) => ⟨.error .notEnoughArguments, rest⟩

/-- Takes the argument of a width or a precision, if it has one, as a signed 32-bit integer. -/
def ArgSource.takeAmount (source : ArgSource) : Option Amount → Taken (Option Int)
  | none => ⟨.ok none, source⟩
  | some (.literal n) => ⟨.ok (some n), source⟩
  | some (.argument slot) =>
    (source.take slot).andThen fun arg rest ↦
      match arg.integer? with
      | some (v, _) => ⟨.ok (some (IntType.int32.reinterpret v)), rest⟩
      | none => ⟨.error .badType, rest⟩

/-! ## One piece -/

/-- What a directive puts out for an argument when `written` units were put out before. -/
def Directive.output? (d : Directive) (config : Config) (layout : Layout) (written : Nat)
    (arg : Arg) : Option (List (Action w)) :=
  match d.conversion, arg with
  | .countWritten, .count cell => some [.count cell written]
  | _, _ => (d.field? config layout.precision arg).map fun f ↦ (f.chunks layout).map .put

/-- Renders a directive. -/
def Directive.render (d : Directive) (config : Config) (written : Nat) (source : ArgSource) :
    Taken (List (Action w)) :=
  (source.takeAmount d.width).andThen fun width source ↦
  (source.takeAmount d.precision).andThen fun precision source ↦
    if d.conversion = .percent then ⟨.ok [.put (.units [.ofAscii w '%'])], source⟩
    else
      (source.take d.index).andThen fun arg source ↦
        match d.output? config (.of d width precision) written arg with
        | some actions => ⟨.ok actions, source⟩
        | none => ⟨.error .badType, source⟩

/-- What a piece did: its output, and the arguments that were left after it. -/
structure Step (w : Width) where
  actions : List (Action w)
  source : ArgSource

/-- The outcome of rendering a format string. -/
structure Rendering (w : Width) where
  steps : List (Step w)
  /-- Why rendering stopped before the end. -/
  fault : Option FormatError
  /-- The arguments left in the end. -/
  source : ArgSource

/-- Renders a piece. -/
def Located.render (p : Located w) (config : Config) (written : Nat) (source : ArgSource) :
    Except FormatError (Step w) × ArgSource :=
  match p.piece with
  | .literal units => (.ok ⟨[.put (.units units)], source⟩, source)
  | .percent => (.ok ⟨[.put (.units [.ofAscii w '%'])], source⟩, source)
  | .directive d =>
    let taken := d.render config written source
    (match taken.result with
      | .ok actions => .ok ⟨actions, taken.source⟩
      | .error e => .error (e.at p.offset), taken.source)
  | .malformed e => (.error (.malformed p.offset e), source)

/-- Renders pieces after `written` units were put out. -/
def renderPieces (config : Config) (written : Nat) (source : ArgSource) :
    List (Located w) → Rendering w
  | [] => ⟨[], none, source⟩
  | p :: rest =>
    match p.render config written source with
    | (.ok step, source) =>
      let after := renderPieces config (written + outputLength step.actions) source rest
      { after with steps := step :: after.steps }
    | (.error e, source) => ⟨[], some e, source⟩

namespace Rendering

/-- All actions in order. -/
def actions (r : Rendering w) : List (Action w) := r.steps.flatMap Step.actions

/-- The text put out. -/
def text (r : Rendering w) : Text w := outputText r.actions

/-- The counts stored, each with its cell, in order. -/
def counts (r : Rendering w) : List (Nat × Nat) := r.actions.filterMap Action.stored?

/-- The length of the output, or the error rendering stopped at. -/
def result (r : Rendering w) : Except FormatError Nat :=
  match r.fault with
  | some e => .error e
  | none => .ok (outputLength r.actions)

end Rendering

/-- Renders a format string of the print dialect. -/
def Config.render (config : Config) (template : Text w) (cursor : Cursor) : Rendering w :=
  renderPieces config 0 (.sequential cursor) (pieces .print template)

end FormatString
