import FormatString.Text.CodeUnit

/-!
# Output as data

What a rendering puts out is a list of actions: chunks of text, and counts stored in cells. Padding
is a chunk of its own that says which unit is repeated how often, so that the length of an output is
known without building it.
-/

namespace FormatString

variable {w : Width}

/-- A stretch of output that is put out at once. -/
inductive Chunk (w : Width) where
  | units (text : Text w)
  | fill (unit : CodeUnit w) (count : Nat)

namespace Chunk

/-- The number of units. -/
def length : Chunk w → Nat
  | units text => text.length
  | fill _ count => count

/-- The units of the chunk. -/
def text : Chunk w → Text w
  | units text => text
  | fill unit count => List.replicate count unit

theorem length_text (c : Chunk w) : c.text.length = c.length := by
  cases c <;> simp [text, length]

/-- The most units of padding that are handed over at once. -/
def fillBlock : Nat := 32

/-- Padding as blocks of at most `fillBlock` units. -/
def fillBlocks (unit : CodeUnit w) (count : Nat) : List (Text w) :=
  if count = 0 then []
  else
    List.replicate (min count fillBlock) unit :: fillBlocks unit (count - fillBlock)
termination_by count
decreasing_by simp only [fillBlock]; omega

theorem flatten_fillBlocks (unit : CodeUnit w) (count : Nat) :
    (fillBlocks unit count).flatten = List.replicate count unit := by
  fun_induction fillBlocks unit count with
  | case1 => rfl
  | case2 count _ ih =>
    rw [List.flatten_cons, ih, List.replicate_append_replicate]
    congr 1
    rcases Nat.le_total count fillBlock with h | h
    · rw [Nat.min_eq_left h, Nat.sub_eq_zero_of_le h, Nat.add_zero]
    · rw [Nat.min_eq_right h, Nat.add_sub_cancel' h]

/-- The blocks in which the chunk is handed over. -/
def blocks : Chunk w → List (Text w)
  | units text => [text]
  | fill unit count => fillBlocks unit count

/-- Cut into blocks or not, the text is the same. -/
theorem flatten_blocks (c : Chunk w) : c.blocks.flatten = c.text := by
  cases c with
  | units text => exact List.append_nil text
  | fill unit count => exact flatten_fillBlocks unit count

end Chunk

/-- One effect of a rendering. -/
inductive Action (w : Width) where
  | put (chunk : Chunk w)
  /-- Stores the number of units written so far in a cell. -/
  | count (cell units : Nat)

namespace Action

/-- The number of units put out. -/
def length : Action w → Nat
  | put chunk => chunk.length
  | count .. => 0

/-- The units put out. -/
def text : Action w → Text w
  | put chunk => chunk.text
  | count .. => []

theorem length_text (a : Action w) : a.text.length = a.length := by
  cases a with
  | put chunk => exact chunk.length_text
  | count => rfl

/-- The count that is stored, with its cell. -/
def stored? : Action w → Option (Nat × Nat)
  | put _ => none
  | count cell units => some (cell, units)

end Action

/-- The number of units a list of actions puts out. -/
def outputLength : List (Action w) → Nat
  | [] => 0
  | a :: rest => a.length + outputLength rest

/-- The text a list of actions puts out. -/
def outputText (actions : List (Action w)) : Text w := actions.flatMap Action.text

theorem outputLength_append (xs ys : List (Action w)) :
    outputLength (xs ++ ys) = outputLength xs + outputLength ys := by
  induction xs with
  | nil => rw [List.nil_append, outputLength, Nat.zero_add]
  | cons a rest ih => rw [List.cons_append, outputLength, ih, outputLength, Nat.add_assoc]

theorem outputText_append (xs ys : List (Action w)) :
    outputText (xs ++ ys) = outputText xs ++ outputText ys := List.flatMap_append

/-- The length is known without building the text. -/
theorem length_outputText (actions : List (Action w)) :
    (outputText actions).length = outputLength actions := by
  induction actions with
  | nil => rfl
  | cons a rest ih =>
    rw [outputText, List.flatMap_cons, List.length_append, ← outputText, ih, a.length_text,
      outputLength]

end FormatString
