import Mathlib
import FormatString.Proofs.Reader.Split

/-!
# Reading calls apart from offsets

Where a piece stands in the format string shows in what a call reports of it and nowhere else: its
offset is noted when a number is clamped, and again when the call fails at the piece. So a call by
the same pieces at other offsets has the same outcome, with these offsets in it. A step says so
(`ReadState.matchPiece_moved`), and so does a run.
-/

namespace FormatString

variable {w : Width} {f : Nat → Nat}

/-! ## Outcomes -/

/-- The error at another offset. -/
def ScanError.moved (f : Nat → Nat) : ScanError → ScanError
  | eof => eof
  | malformed offset e n => malformed (f offset) e n
  | missingTarget offset n => missingTarget (f offset) n
  | badType offset n => badType (f offset) n

/-- The report at another offset. -/
def Diagnostic.moved (f : Nat → Nat) (x : Diagnostic) : Diagnostic :=
  { x with offset := f x.offset }

/-- The same outcome at other offsets. -/
def Reading.moved (f : Nat → Nat) (x : Reading) : Reading where
  result := x.result.mapError (ScanError.moved f)
  targets := x.targets
  diagnostics := x.diagnostics.map (Diagnostic.moved f)

/-- The piece at another offset. -/
def Located.moved (f : Nat → Nat) (p : Located w) : Located w := { p with offset := f p.offset }

namespace ReadState

/-- The state with the clamped numbers at other offsets. -/
def moved (f : Nat → Nat) (s : ReadState w) : ReadState w := { s with clamped := s.clamped.map f }

/-- A halt is reported at the offset it is given. -/
theorem readingOf_moved (f : Nat → Nat) (inputEmpty : Bool) (s : ReadState w)
    (halt : Option (Nat × Halt)) :
    readingOf inputEmpty (s.moved f) (halt.map fun (offset, x) ↦ (f offset, x))
      = (readingOf inputEmpty s halt).moved f := by
  have htargets : (s.moved f).targets = s.targets := rfl
  have hclamped : (s.moved f).clamped.map (Diagnostic.mk · .rangeOverflow)
      = (s.clamped.map (Diagnostic.mk · .rangeOverflow)).map (Diagnostic.moved f) := by
    rw [moved, List.map_map, List.map_map]
    rfl
  have hmatched : (s.moved f).matched = s.matched := rfl
  have hassigned : (s.moved f).assigned = s.assigned := rfl
  rcases halt with _ | ⟨offset, _ | _ | e | _ | _⟩
  case some.exhausted =>
    simp only [readingOf, Reading.moved, htargets, hclamped, List.map_append, Option.map,
      Halt.result, hmatched, hassigned]
    split <;> rfl
  all_goals
    simp only [readingOf, Reading.moved, htargets, hclamped, List.map_append, Option.map,
      Halt.result, hassigned]
    rfl

/-! ## Steps and runs -/

theorem moved_apply (f : Nat → Nat) (s : ReadState w) (offset : Nat) (e : Effect) :
    (s.moved f).apply (f offset) e = (s.apply offset e).moved f := by
  cases hclamped : e.clamped <;> simp [apply, moved, hclamped]

/-- **One step** at another offset. -/
theorem matchPiece_moved (f : Nat → Nat) (s : ReadState w) (p : Located w) :
    (s.moved f).matchPiece (p.moved f) = (s.matchPiece p).map (moved f) := by
  have hthere : Alike s (s.moved f) p.offset (p.moved f).offset (p.piece.Does s)
      (s.matchPiece p) ((s.moved f).matchPiece (p.moved f)) :=
    matchPiece_alike rfl ⟨rfl, List.prefix_refl _⟩ fun _ ↦ rfl
  have hback : Alike (s.moved f) s (p.moved f).offset p.offset (p.piece.Does (s.moved f))
      ((s.moved f).matchPiece (p.moved f)) (s.matchPiece p) :=
    matchPiece_alike rfl ⟨rfl, List.prefix_refl _⟩ fun _ ↦ rfl
  obtain ⟨halt, hx, hy⟩ | ⟨e, hx, hy⟩ := hthere.both hback
  · rw [hx, hy]
    rfl
  · rw [hx, hy]
    exact congrArg Except.ok (moved_apply f s p.offset e)

/-- **A run** at other offsets. -/
theorem matchPieces_moved (f : Nat → Nat) (s : ReadState w) (ps : List (Located w)) :
    matchPieces (s.moved f) (ps.map (Located.moved f))
      = ((matchPieces s ps).1.moved f,
        (matchPieces s ps).2.map fun (offset, h) ↦ (f offset, h)) := by
  induction ps generalizing s with
  | nil => rfl
  | cons p ps ih =>
    rw [List.map_cons, FormatString.matchPieces, FormatString.matchPieces, matchPiece_moved]
    cases hp : s.matchPiece p with
    | ok s₁ => exact ih s₁
    | error h => rfl

/-- **The outcome of a call** by pieces at other offsets. -/
theorem call_moved (f : Nat → Nat) (s : ReadState w) (inputEmpty : Bool) (ps : List (Located w)) :
    (s.moved f).call inputEmpty (ps.map (Located.moved f)) = (s.call inputEmpty ps).moved f := by
  rw [call, matchPieces_moved]
  exact readingOf_moved f inputEmpty _ _

end ReadState

end FormatString
