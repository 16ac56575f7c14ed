import FormatString.Writer.Rendering

/-!
# Format strings that name their arguments

In the ordered dialect every directive names the slot of its argument, counted from one. All slots
are checked before anything is put out, so a format string that is malformed or names slots it may
not name has no output at all.
-/

namespace FormatString

variable {w : Width}

/-- The slots a piece names. -/
def Piece.slots : Piece w → List Nat
  | .directive d => d.slots
  | _ => []

/-- The error a piece stands for. -/
def Located.malformed? (p : Located w) : Option FormatError :=
  match p.piece with
  | .malformed e => some (.malformed p.offset e)
  | _ => none

/-- The distinct slots a format string names. -/
def slotsOf (ps : List (Located w)) : List Nat := (ps.flatMap (·.piece.slots)).eraseDups

/-- What is wrong with a format string before it is rendered: a malformed directive, too many
slots, or a slot without an argument; of those the largest one. -/
def orderedFault? (limit argCount : Nat) (ps : List (Located w)) : Option FormatError :=
  match ps.findSome? Located.malformed? with
  | some e => some e
  | none =>
    let slots := slotsOf ps
    let last := slots.foldl max 0
    if limit < slots.length then some (.tooManySlots limit)
    else if argCount < last then some (.missingSlot last)
    else none

/-- Renders a format string of the ordered dialect. -/
def Config.renderOrdered (config : Config) (template : Text w) (args : List Arg) : Rendering w :=
  let ps := pieces .ordered template
  match orderedFault? config.slotLimit args.length ps with
  | some e => ⟨[], some e, .slots args⟩
  | none => renderPieces config 0 (.slots args) ps

end FormatString
