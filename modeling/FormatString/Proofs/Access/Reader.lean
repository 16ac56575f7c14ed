import Mathlib
import FormatString.Proofs.Access.Template
import FormatString.Proofs.Access.Float
import FormatString.Proofs.Reader.Step

/-!
# Input matched by position

A reading call over an array keeps the whole input and all targets, with the position of the next
unit and the number of the next target. `Scanner` is that state and `Scanner.view` what of it a
`ReadState` is. Matching by position is matching what the view shows, and stays inside: `Refines`
says so of one outcome, and there is one lemma for each way to match.
-/

namespace FormatString

variable {w : Width}

/-- What a reading call remembers beside its input. -/
structure Scanner where
  /-- The position of the next unit. -/
  position : Nat := 0
  targets : List Target
  /-- The number of the next target. -/
  next : Nat := 0
  assigned : Nat := 0
  matched : Bool := false
  clamped : List Nat := []

namespace Scanner

variable (input : Text w) (c : Scanner) (d : Directive) (offset : Nat)

/-- What is left of the input and of the targets. -/
def view : ReadState w where
  rest := input.drop c.position
  position := c.position
  stored := c.targets.take c.next
  pending := c.targets.drop c.next
  assigned := c.assigned
  matched := c.matched
  clamped := c.clamped

/-- Neither the input nor the targets are exceeded. -/
structure Inside : Prop where
  position_le : c.position ≤ input.length
  next_le : c.next ≤ c.targets.length

/-! ## Steps -/

/-- Goes on behind the blanks. -/
def skipBlanks : Scanner := { c with position := blanksFrom input c.position }

/-- Goes on behind a directive that took `used` units, and counts the assignment. -/
def finish? (used : Nat) : Access Halt Scanner := do
  let i ← input.position? (c.position + used)
  return { c with
    position := i
    matched := true
    assigned := c.assigned + if !d.flags.suppress && d.conversion.assigns then 1 else 0 }

/-- The target a directive stores in, by its number. -/
def claim? : Access Halt (Option Target) :=
  if d.flags.suppress then return none
  else if c.next < c.targets.length then some <$> liftM c.targets[c.next]?
  else settled (.error .missingTarget)

/-- Records what the next target has become. -/
def settle (t : Option Target) : Scanner :=
  match t with
  | some t => { c with targets := c.targets.set c.next t, next := c.next + 1 }
  | none => c

/-- Records that a number was clamped. -/
def noteClamped (clamped : Bool) : Scanner :=
  if clamped then { c with clamped := c.clamped ++ [offset] } else c

/-- Matches one unit. -/
def matchUnit? (u : CodeUnit w) : Access Halt Scanner :=
  match input[c.position]? with
  | none => settled (.error .exhausted)
  | some v =>
    if v = u then do
      return { c with position := ← input.position? (c.position + 1), matched := true }
    else settled (.error .mismatch)

/-- Matches a unit of a literal run. -/
def matchLiteral? (u : CodeUnit w) : Access Halt Scanner :=
  if u.isBlank then return c.skipBlanks input else c.matchUnit? input u

/-- Matches a percent sign after blanks. -/
def matchPercent? : Access Halt Scanner := (c.skipBlanks input).matchUnit? input (.ofAscii w '%')

/-! ## Values -/

/-- The units a directive may look at. -/
def field? : Option (Text w) := do
  let rest ← input.from? c.position
  rest.slice? 0 (d.fieldWidth?.elim rest.length (min · rest.length))

/-- The type an integer is read as. -/
def integerType? (d : Directive) (target : Option Target) : Option IntType :=
  match target with
  | none => some .int64
  | some t => if d.conversion = .pointer then t.addressType? else t.intType?

/-- Reads an integer. -/
def readInteger? : Access Halt Scanner := do
  let target ← c.claim? d
  match integerType? d target with
  | none => settled (.error .badType)
  | some type =>
    let parsed := type.read d.conversion.base (Text.asciiRun (← c.field? input d))
    if parsed.consumed = 0 then settled (.error .mismatch)
    else
      ((c.settle (target.map (·.storeInt parsed.value))).noteClamped offset
        (target.isSome && parsed.overflow)).finish? input d parsed.consumed

/-- Reads a float. -/
def readFloat? : Access Halt Scanner := do
  let target ← c.claim? d
  if target.any (!·.isFloat) then settled (.error .badType)
  else
    let parsed ← (← c.field? input d).floatAt?
    if parsed.consumed = 0 then settled (.error .mismatch)
    else
      ((c.settle (target.map (·.storeFloat parsed.value))).noteClamped offset
        (target.any fun t ↦ parsed.overflow || t.narrowsToInfinity parsed.value)).finish? input d
          parsed.consumed

/-- Stores the next `n` units as text. -/
def storeUnits? (n : Nat) : Access Halt Scanner := do
  match ← c.claim? d with
  | none => c.finish? input d n
  | some t =>
    let units ← input.slice? c.position (c.position + n)
    let stored := if d.conversion = .char then t.storeChar? units else t.storeText? units
    match stored with
    | some t => (c.settle (some t)).finish? input d n
    | none => settled (.error .badType)

/-- Reads characters. -/
def readChars? : Access Halt Scanner := do
  let rest ← input.from? c.position
  match d.fieldWidth? with
  | none =>
    match decode? rest with
    | some (_, used) => c.storeUnits? input d used
    | none => settled (.error .exhausted)
  | some n => if rest.length < n then settled (.error .exhausted) else c.storeUnits? input d n

/-- Reads units up to the next blank. -/
def readWord? : Access Halt Scanner := do
  let field ← c.field? input d
  c.storeUnits? input d (field.takeWhile (!·.isBlank)).length

/-- Reads characters of a set. -/
def readSet? : Access Halt Scanner := do
  match d.set with
  | none => settled (.error .badType)
  | some set =>
    let used ← runAt? (set.admits ·.toNat) (← c.field? input d) 0
    if used = 0 then settled (.error .mismatch) else c.storeUnits? input d used

/-- Stores the position, or the largest number the target can hold. -/
def readCount? : Access Halt Scanner := do
  match ← c.claim? d with
  | none => c.finish? input d 0
  | some t =>
    match t.intType? with
    | some type =>
      (c.settle (some (t.storeInt (min (c.position : Int) type.max)))).finish? input d 0
    | none => settled (.error .badType)

/-- Matches a directive that reads input. -/
def readValue? : Access Halt Scanner :=
  if input.length ≤ c.position then settled (.error .exhausted)
  else
    match d.conversion with
    | .floatSci | .floatFixed | .floatShortest => c.readFloat? input d offset
    | .string => c.readWord? input d
    | .char => c.readChars? input d
    | .charSet => c.readSet? input d
    | _ => c.readInteger? input d offset

/-- Matches a directive. -/
def matchDirective? : Access Halt Scanner :=
  match d.conversion with
  | .percent => c.matchPercent? input
  | .countWritten => c.readCount? input d
  | .char | .charSet => c.readValue? input d offset
  | _ => (c.skipBlanks input).readValue? input d offset

/-- Matches a piece. -/
def matchPiece? (p : Located w) : Access Halt Scanner :=
  match p.piece with
  | .literal units => units.foldlM (matchLiteral? input) c
  | .percent => c.matchPercent? input
  | .directive d => c.matchDirective? input d p.offset
  | .malformed e => settled (.error (.malformed e))

/-! ## Refinement -/

/-- An outcome by position that is inside, and the same on the view. -/
inductive Refines (input : Text w) :
    Access Halt Scanner → Except Halt (ReadState w) → Prop where
  | go {c : Scanner} (hc : c.Inside input) : Refines input (settled (.ok c)) (.ok (c.view input))
  | halt (h : Halt) : Refines input (settled (.error h)) (.error h)

variable {input c d offset}

theorem inside_start (input : Text w) (targets : List Target) :
    Inside input { targets := targets } := ⟨Nat.zero_le _, Nat.zero_le _⟩

theorem length_rest_view (c : Scanner) : (c.view input).rest.length = input.length - c.position :=
  List.length_drop

theorem position_le_of_le_rest (hc : c.Inside input) {n : Nat}
    (hn : n ≤ (c.view input).rest.length) : c.position + n ≤ input.length := by
  have hle := hc.position_le
  rw [length_rest_view] at hn
  omega

theorem Inside.skipBlanks (hc : c.Inside input) :
    (c.skipBlanks input).Inside input ∧
      (c.skipBlanks input).view input = (c.view input).skipBlanks := by
  rw [Scanner.skipBlanks, blanksFrom_eq]
  refine ⟨⟨position_le_of_le_rest hc (c.view input).length_takeWhile_isBlank_le, hc.next_le⟩, ?_⟩
  rw [view, ReadState.skipBlanks, ReadState.consume, view, List.drop_drop]

theorem Inside.finish (hc : c.Inside input) (d : Directive) {n : Nat}
    (hn : n ≤ (c.view input).rest.length) :
    Refines input (c.finish? input d n) (.ok ((c.view input).finish d n)) := by
  have hle := position_le_of_le_rest hc hn
  rw [finish?, Text.position?_of_le hle, lift_some_bind, ReadState.finish, ReadState.consume, view,
    List.drop_drop]
  exact .go ⟨hle, hc.next_le⟩

/-- Settling a target that was claimed. -/
theorem Inside.settle (hc : c.Inside input) {t : Option Target}
    (ht : t.isSome → c.next < c.targets.length) :
    (c.settle t).Inside input ∧ (c.settle t).view input = (c.view input).settle t := by
  cases t with
  | none => exact ⟨hc, rfl⟩
  | some t =>
    have hlt := ht rfl
    refine ⟨⟨hc.position_le, ?_⟩, ?_⟩
    · change c.next + 1 ≤ (c.targets.set c.next t).length
      rw [List.length_set]
      exact hlt
    · have hstored : (c.targets.set c.next t).take (c.next + 1) = c.targets.take c.next ++ [t] := by
        rw [List.take_add_one, List.take_set_of_le le_rfl, List.getElem?_set_self hlt]
        rfl
      have hpending : (c.targets.set c.next t).drop (c.next + 1)
          = (c.targets.drop c.next).drop 1 := by
        rw [List.drop_set_of_lt (Nat.lt_succ_self _), List.drop_drop]
      rw [view, ReadState.settle, ReadState.keep, view, ← hstored, ← hpending]
      rfl

theorem Inside.noteClamped (hc : c.Inside input) (offset : Nat) (clamped : Bool) :
    (c.noteClamped offset clamped).Inside input ∧
      (c.noteClamped offset clamped).view input = (c.view input).noteClamped offset clamped := by
  cases clamped with
  | false => exact ⟨hc, rfl⟩
  | true => exact ⟨⟨hc.position_le, hc.next_le⟩, rfl⟩

/-- What a directive does to the scanner once it has read its units. -/
theorem Inside.finish_settle (hc : c.Inside input) (d : Directive) {t : Option Target}
    (ht : t.isSome → c.next < c.targets.length) (offset : Nat) (clamped : Bool) {n : Nat}
    (hn : n ≤ (c.view input).rest.length) :
    Refines input (((c.settle t).noteClamped offset clamped).finish? input d n)
      (.ok ((((c.view input).settle t).noteClamped offset clamped).finish d n)) := by
  obtain ⟨hsettled, hview⟩ := hc.settle ht
  obtain ⟨hnoted, hview'⟩ := hsettled.noteClamped offset clamped
  rw [← hview, ← hview']
  refine hnoted.finish d ?_
  rw [hview', hview]
  cases t <;> cases clamped <;> exact hn

/-- **A directive claims its target**, which is there. -/
theorem Refines.claim {f : Option Target → Access Halt Scanner}
    {g : Option Target → Except Halt (ReadState w)}
    (h : ∀ target, (target.isSome → c.next < c.targets.length) →
      Refines input (f target) (g target)) :
    Refines input (c.claim? d >>= f) ((c.view input).nextTarget d >>= g) := by
  rw [claim?, ReadState.nextTarget]
  split
  · exact h none (by simp)
  · by_cases hlt : c.next < c.targets.length
    · have hdrop : (c.view input).pending = c.targets[c.next] :: c.targets.drop (c.next + 1) :=
        List.drop_eq_getElem_cons hlt
      rw [if_pos hlt, List.getElem?_eq_getElem hlt, hdrop]
      exact h (some _) fun _ ↦ hlt
    · have hnil : (c.view input).pending = [] := List.drop_of_length_le (Nat.not_lt.mp hlt)
      rw [if_neg hlt, hnil]
      exact .halt _

/-- The field is sliced out of what is left of the input. -/
theorem Inside.field? (hc : c.Inside input) (d : Directive) :
    c.field? input d = some ((c.view input).field d) := by
  have hslice {n : Nat} (hn : n ≤ (input.drop c.position).length) :
      Text.slice? (input.drop c.position) 0 n = some ((input.drop c.position).take n) :=
    Text.slice?_of_le (Nat.zero_le n) hn
  rw [Scanner.field?, Text.from?_of_le hc.position_le, Option.bind_eq_bind, Option.bind_some,
    ReadState.field]
  cases d.fieldWidth? with
  | none =>
    rw [Option.elim_none, hslice le_rfl, List.take_length]
    rfl
  | some n =>
    rw [Option.elim_some, hslice (Nat.min_le_right _ _), ← List.take_eq_take_min]
    rfl

/-! ## Each way to match -/

theorem Inside.matchUnit (hc : c.Inside input) (u : CodeUnit w) :
    Refines input (c.matchUnit? input u) ((c.view input).matchUnit u) := by
  have hhead : input[c.position]? = (c.view input).rest.head? := List.head?_drop.symm
  rw [matchUnit?, ReadState.matchUnit, hhead]
  cases hrest : (c.view input).rest with
  | nil => exact .halt _
  | cons v rest =>
    dsimp only [List.head?_cons]
    split
    · have hle : c.position + 1 ≤ input.length :=
        position_le_of_le_rest hc (by rw [hrest]; exact Nat.le_add_left _ _)
      rw [Text.position?_of_le hle, lift_some_bind, ReadState.consume, view, List.drop_drop]
      exact .go ⟨hle, hc.next_le⟩
    · exact .halt _

theorem Inside.matchPercent (hc : c.Inside input) :
    Refines input (c.matchPercent? input) (c.view input).matchPercent := by
  obtain ⟨hskipped, hview⟩ := hc.skipBlanks
  rw [ReadState.matchPercent, ← hview]
  exact hskipped.matchUnit _

theorem Inside.matchLiteral (hc : c.Inside input) (u : CodeUnit w) :
    Refines input (c.matchLiteral? input u) ((c.view input).matchLiteral u) := by
  rw [matchLiteral?, ReadState.matchLiteral]
  split
  · obtain ⟨hskipped, hview⟩ := hc.skipBlanks
    rw [← hview]
    exact .go hskipped
  · exact hc.matchUnit u

/-- **A literal run**, unit by unit. -/
theorem Inside.foldlM_matchLiteral (hc : c.Inside input) (run : Text w) :
    Refines input (run.foldlM (matchLiteral? input) c)
      (run.foldlM ReadState.matchLiteral (c.view input)) := by
  induction run generalizing c with
  | nil => exact .go hc
  | cons u run ih =>
    rw [List.foldlM_cons, List.foldlM_cons]
    have hunit := hc.matchLiteral u
    generalize c.matchLiteral? input u = x at hunit
    generalize (c.view input).matchLiteral u = y at hunit
    cases hunit with
    | go hc => exact ih hc
    | halt h => exact .halt h

theorem Inside.readInteger (hc : c.Inside input) (d : Directive) (offset : Nat) :
    Refines input (c.readInteger? input d offset) ((c.view input).readInteger d offset) := by
  refine .claim fun target htarget ↦ ?_
  change Refines input _ (match integerType? d target with
    | none => _
    | some type => _)
  cases integerType? d target with
  | none => exact .halt _
  | some type =>
    dsimp only
    rw [hc.field? d, lift_some_bind]
    split
    · exact .halt _
    · refine hc.finish_settle d (by rwa [Option.isSome_map]) _ _ ?_
      exact (type.consumed_read_le _ _).trans ((c.view input).length_asciiRun_field_le d)

theorem Inside.readFloat (hc : c.Inside input) (d : Directive) (offset : Nat) :
    Refines input (c.readFloat? input d offset) ((c.view input).readFloat d offset) := by
  refine .claim fun target htarget ↦ ?_
  split
  · exact .halt _
  · rw [hc.field? d, lift_some_bind, Text.floatAt?_eq, lift_some_bind]
    dsimp only
    split
    · exact .halt _
    · refine hc.finish_settle d (by rwa [Option.isSome_map]) _ _ ?_
      exact (consumed_readFloat_le _ _).trans ((c.view input).length_asciiRun_field_le d)

theorem Inside.storeUnits (hc : c.Inside input) (d : Directive) {n : Nat}
    (hn : n ≤ (c.view input).rest.length) :
    Refines input (c.storeUnits? input d n) ((c.view input).storeUnits d n) := by
  refine .claim fun target htarget ↦ ?_
  cases target with
  | none => exact hc.finish d hn
  | some t =>
    dsimp only
    rw [Text.slice?_of_le (Nat.le_add_right _ _) (position_le_of_le_rest hc hn), lift_some_bind,
      Nat.add_sub_cancel_left]
    -- The units that are sliced are those that the view takes.
    obtain ⟨stored, hstored⟩ : ∃ stored, (if d.conversion = .char then
      t.storeChar? ((c.view input).rest.take n)
      else t.storeText? ((c.view input).rest.take n)) = stored := ⟨_, rfl⟩
    change Refines input (match (if d.conversion = .char then
        t.storeChar? ((c.view input).rest.take n)
        else t.storeText? ((c.view input).rest.take n)) with
      | some t => _
      | none => _) _
    rw [hstored]
    cases stored with
    | some t' => exact hc.finish_settle d (t := some t') (fun _ ↦ htarget rfl) 0 false hn
    | none => exact .halt _

theorem Inside.readChars (hc : c.Inside input) (d : Directive) :
    Refines input (c.readChars? input d) ((c.view input).readChars d) := by
  rw [readChars?, Text.from?_of_le hc.position_le, lift_some_bind, ReadState.readChars]
  cases d.fieldWidth? with
  | none =>
    change Refines input (match decode? (c.view input).rest with
      | some (_, used) => _
      | none => _) _
    cases hdecode : decode? (c.view input).rest with
    | none => exact .halt _
    | some p => exact hc.storeUnits d (decode?_le hdecode)
  | some n =>
    change Refines input (if (c.view input).rest.length < n then _ else _) _
    dsimp only
    split
    · exact .halt _
    · next hn => exact hc.storeUnits d (Nat.not_lt.mp hn)

theorem Inside.readWord (hc : c.Inside input) (d : Directive) :
    Refines input (c.readWord? input d) ((c.view input).readWord d) := by
  rw [readWord?, hc.field? d, lift_some_bind]
  exact hc.storeUnits d ((List.takeWhile_sublist _).length_le.trans
    ((c.view input).length_field_le d))

theorem Inside.readSet (hc : c.Inside input) (d : Directive) :
    Refines input (c.readSet? input d) ((c.view input).readSet d) := by
  rw [readSet?, ReadState.readSet]
  cases d.set with
  | none => exact .halt _
  | some set =>
    dsimp only
    rw [hc.field? d, lift_some_bind, runAt?_eq _ (Nat.zero_le _), lift_some_bind, List.drop_zero,
      Nat.zero_add]
    have hrun := List.takeWhile_prefix (fun p : Spelled w ↦ set.admits p.char.toNat)
      (l := characters ((c.view input).field d))
    have hle : (unitsOf ((characters ((c.view input).field d)).takeWhile
        fun p ↦ set.admits p.char.toNat)).length ≤ (c.view input).rest.length := by
      rw [List.prefix_iff_eq_take.mp hrun]
      exact (length_unitsOf_take_le _ _).trans ((c.view input).length_field_le d)
    by_cases hnil : (characters ((c.view input).field d)).takeWhile
        (fun p ↦ set.admits p.char.toNat) = []
    · rw [hnil]
      exact .halt _
    · rw [if_neg (by rwa [List.length_eq_zero_iff, unitsOf_eq_nil_iff hrun]),
        if_neg (by rwa [List.isEmpty_iff])]
      exact hc.storeUnits d hle

theorem Inside.readCount (hc : c.Inside input) (d : Directive) :
    Refines input (c.readCount? input d) ((c.view input).readCount d) := by
  refine .claim fun target htarget ↦ ?_
  cases target with
  | none => exact hc.finish d (Nat.zero_le _)
  | some t =>
    dsimp only
    cases t.intType? with
    | none => exact .halt _
    | some type =>
      exact hc.finish_settle d (t := some _) (fun _ ↦ htarget rfl) 0 false
        (Nat.zero_le _)

theorem Inside.readValue (hc : c.Inside input) (d : Directive) (offset : Nat) :
    Refines input (c.readValue? input d offset) ((c.view input).readValue d offset) := by
  have hleft : (c.view input).rest.isEmpty = true ↔ input.length ≤ c.position := by
    rw [List.isEmpty_iff, ← List.length_eq_zero_iff, length_rest_view, Nat.sub_eq_zero_iff_le]
  rw [readValue?, ReadState.readValue]
  by_cases hend : input.length ≤ c.position
  · rw [if_pos hend, if_pos (hleft.mpr hend)]
    exact .halt _
  · rw [if_neg hend, if_neg (mt hleft.mp hend)]
    cases d.conversion with
    | floatSci | floatFixed | floatShortest => exact hc.readFloat d offset
    | string => exact hc.readWord d
    | char => exact hc.readChars d
    | charSet => exact hc.readSet d
    | _ => exact hc.readInteger d offset

theorem Inside.matchDirective (hc : c.Inside input) (d : Directive) (offset : Nat) :
    Refines input (c.matchDirective? input d offset) ((c.view input).matchDirective d offset) := by
  obtain ⟨hskipped, hview⟩ := hc.skipBlanks
  rw [matchDirective?, ReadState.matchDirective, ← hview]
  cases d.conversion with
  | percent => exact hc.matchPercent
  | countWritten => exact hc.readCount d
  | char | charSet => exact hc.readValue d offset
  | _ => exact hskipped.readValue d offset

/-- **A piece is matched inside** the input and the targets. -/
theorem Inside.matchPiece (hc : c.Inside input) (p : Located w) :
    Refines input (c.matchPiece? input p) ((c.view input).matchPiece p) := by
  rw [matchPiece?, ReadState.matchPiece]
  cases p.piece with
  | literal units => exact hc.foldlM_matchLiteral units
  | percent => exact hc.matchPercent
  | directive d => exact hc.matchDirective d p.offset
  | malformed e => exact .halt _

/-! ## Runs -/

/-- Matches pieces until one halts; the state is the one before that piece. -/
def matchPieces? (input : Text w) (c : Scanner) :
    List (Located w) → Option (Scanner × Option (Nat × Halt))
  | [] => some (c, none)
  | p :: rest => do
    match ← (c.matchPiece? input p).run with
    | .ok c => matchPieces? input c rest
    | .error h => some (c, some (p.offset, h))

/-- **A run stays inside.** -/
theorem Inside.matchPieces (hc : c.Inside input) (ps : List (Located w)) :
    ∃ c' halt, matchPieces? input c ps = some (c', halt) ∧ c'.Inside input ∧
      FormatString.matchPieces (c.view input) ps = (c'.view input, halt) := by
  induction ps generalizing c with
  | nil => exact ⟨c, none, rfl, hc, rfl⟩
  | cons p ps ih =>
    have hpiece := hc.matchPiece p
    rw [matchPieces?, FormatString.matchPieces]
    generalize c.matchPiece? input p = x at hpiece
    generalize (c.view input).matchPiece p = y at hpiece
    cases hpiece with
    | go hc => exact ih hc
    | halt h => exact ⟨c, _, rfl, hc, rfl⟩

end Scanner

/-- A reading call whose format string, input and targets are read by position. -/
def scanAt? (input template : Text w) (targets : List Target) : Option Reading := do
  let pieces ← piecesAt? .scan template 0 0
  let (c, halt) ← Scanner.matchPieces? input { targets := targets } pieces
  some (readingOf input.isEmpty (c.view input) halt)

/-- **Reading stays in range.** -/
theorem scanAt?_eq (input template : Text w) (targets : List Target) :
    scanAt? input template targets = some (scan input template targets) := by
  obtain ⟨c, halt, hrun, -, hview⟩ :=
    (Scanner.inside_start input targets).matchPieces (pieces .scan template)
  have hmodel : matchPieces { rest := input, pending := targets } (pieces .scan template)
      = (c.view input, halt) := hview
  have hpieces : piecesAt? .scan template 0 0 = some (pieces .scan template) :=
    piecesAt?_eq le_rfl (Nat.zero_le _) (by simp)
  rw [scanAt?, hpieces, Option.bind_eq_bind, Option.bind_some, hrun, scan, hmodel]
  rfl

end FormatString
