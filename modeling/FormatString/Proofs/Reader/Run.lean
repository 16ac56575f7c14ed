import Mathlib
import FormatString.Proofs.Reader.Step
import FormatString.Proofs.Template.Cut

/-!
# Runs of a reading call

A run goes through the pieces of a format string until one halts it. What is in front of that piece
was matched, and by itself it is matched to the same end. So a call that fails at a directive has
done what the call by the format string in front of the directive does.
-/

namespace FormatString

variable {w : Width}

/-! ## Matched and halted -/

section

variable {s s' : ReadState w} {ps qs : List (Located w)}

theorem matchPieces_cons_eq_none_iff {p : Located w} :
    matchPieces s (p :: ps) = (s', none) ↔
      ∃ s₁, s.matchPiece p = .ok s₁ ∧ matchPieces s₁ ps = (s', none) := by
  rw [matchPieces]
  cases hp : s.matchPiece p with
  | ok s₁ => simp
  | error h => simp

/-- **Induction along a run that no piece halts.** The state at its end stays the same. -/
theorem matched_induction {motive : ReadState w → List (Located w) → Prop} (nil : motive s' [])
    (cons : ∀ s s₁ p ps, s.matchPiece p = .ok s₁ → motive s₁ ps → motive s (p :: ps))
    (h : matchPieces s ps = (s', none)) : motive s ps := by
  induction ps generalizing s with
  | nil =>
    obtain ⟨rfl, -⟩ := Prod.mk.inj h
    exact nil
  | cons p ps ih =>
    obtain ⟨s₁, hp, hps⟩ := matchPieces_cons_eq_none_iff.mp h
    exact cons s s₁ p ps hp (ih hps)

/-- A run goes on behind pieces that were matched. -/
theorem matchPieces_append_of_none (h : matchPieces s ps = (s', none)) (qs : List (Located w)) :
    matchPieces s (ps ++ qs) = matchPieces s' qs := by
  refine matched_induction (motive := fun s ps ↦ matchPieces s (ps ++ qs) = matchPieces s' qs) rfl
    ?_ h
  intro s s₁ p ps hp ih
  rw [List.cons_append, matchPieces, hp]
  exact ih

/-- What halts a run is a piece, behind others that were matched. -/
theorem exists_halting_piece {offset : Nat} {h : Halt}
    (hrun : matchPieces s ps = (s', some (offset, h))) :
    ∃ before p after, ps = before ++ p :: after ∧ p.offset = offset ∧
      matchPieces s before = (s', none) ∧ s'.matchPiece p = .error h := by
  induction ps generalizing s with
  | nil => exact absurd (Prod.mk.inj hrun).2 (by simp)
  | cons p ps ih =>
    cases hp : s.matchPiece p with
    | ok s₁ =>
      rw [matchPieces, hp] at hrun
      obtain ⟨before, q, after, rfl, hq, hmatched, hhalt⟩ := ih hrun
      refine ⟨p :: before, q, after, rfl, hq, ?_, hhalt⟩
      rw [matchPieces, hp]
      exact hmatched
    | error h' =>
      rw [matchPieces, hp] at hrun
      obtain ⟨rfl, heq⟩ := Prod.mk.inj hrun
      obtain ⟨rfl, rfl⟩ := Prod.mk.inj (Option.some.inj heq)
      exact ⟨[], p, ps, rfl, rfl, rfl, hp⟩

/-- What every step preserves, a run preserves. -/
theorem matchPieces_invariant {P : ReadState w → Prop}
    (hstep : ∀ s s' p, P s → s.matchPiece p = .ok s' → P s') (h : P s) (ps : List (Located w)) :
    P (matchPieces s ps).1 := by
  induction ps generalizing s with
  | nil => exact h
  | cons p ps ih =>
    rw [matchPieces]
    split
    · next s' hp => exact ih (hstep s s' p h hp)
    · exact h

end

/-! ## Failing calls -/

/-- The offset of the directive the error is about. -/
def ScanError.offset? : ScanError → Option Nat
  | .eof => none
  | .malformed offset .. | .missingTarget offset _ | .badType offset _ => some offset

/-- A call that fails at a directive was halted there, and it reports what happened once. -/
theorem Halt.result_eq_error {inputEmpty : Bool} {s : ReadState w} {offset offset' : Nat} {h : Halt}
    {e : ScanError} (he : h.result inputEmpty s offset = .error e)
    (hoffset : e.offset? = some offset') :
    offset' = offset ∧ e.assigned = s.assigned ∧
      ∃ kind, e.diagnostic? = some ⟨offset', kind⟩ := by
  cases h with
  | mismatch => exact absurd he (by simp [result])
  | exhausted =>
    rw [result] at he
    split at he
    · rw [← Except.error.inj he] at hoffset
      exact absurd hoffset (by simp [ScanError.offset?])
    · exact absurd he (by simp)
  | malformed | missingTarget | badType =>
    rw [← Except.error.inj he] at hoffset ⊢
    obtain rfl := Option.some.inj hoffset
    exact ⟨rfl, rfl, _, rfl⟩

/-- **Reading is atomic for each directive.** A call that fails at a directive was left with the
targets of the call by the format string in front of the directive. That one succeeds, with as many
assignments as the failing call made, and all that the failing call reported besides is the fault. -/
theorem failing_scan_is_shorter_scan (input t : Text w) (targets : List Target) {e : ScanError}
    {offset : Nat} (herror : (scan input t targets).result = .error e)
    (hoffset : e.offset? = some offset) :
    let shorter := scan input (t.take offset) targets
    shorter.result = .ok e.assigned ∧ shorter.targets = (scan input t targets).targets ∧
      ∃ kind, e.diagnostic? = some ⟨offset, kind⟩ ∧
        (scan input t targets).diagnostics = shorter.diagnostics ++ [⟨offset, kind⟩] := by
  intro shorter
  generalize hrun : matchPieces { rest := input, pending := targets } (pieces .scan t) = run
  obtain ⟨s, halt⟩ := run
  have hscan : scan input t targets = readingOf input.isEmpty s halt := by rw [scan, hrun]
  rw [hscan] at herror ⊢
  cases halt with
  | none => exact absurd herror (by simp [readingOf])
  | some stop =>
    obtain ⟨place, h⟩ := stop
    obtain ⟨rfl, hassigned, kind, hkind⟩ := h.result_eq_error herror hoffset
    obtain ⟨before, p, after, hpieces, rfl, hmatched, -⟩ := exists_halting_piece hrun
    have hshorter : shorter = readingOf input.isEmpty s none := by
      rw [show shorter = scan input (t.take p.offset) targets from rfl, scan,
        (pieces_take hpieces).1, hmatched]
    rw [hshorter, hassigned]
    refine ⟨rfl, rfl, kind, hkind, ?_⟩
    change h.result input.isEmpty s p.offset = _ at herror
    simp only [readingOf, herror, hkind, Option.toList, List.append_nil]

/-- `7 300 1` by `%u %u %d` into two bytes: the second number is clamped, and for the third there is
no target. Without its directive the call succeeds. -/
theorem failing_scan_is_shorter_scan_clamped :
    let input := Text.ofAscii .utf8 ['7', ' ', '3', '0', '0', ' ', '1']
    let t := Text.ofAscii .utf8 ['%', 'u', ' ', '%', 'u', ' ', '%', 'd']
    let targets := [Target.integer ⟨.w8, false⟩ 0, .integer ⟨.w8, false⟩ 0]
    (scan input t targets).result = .error (.missingTarget 6 2) ∧
      (scan input (t.take 6) targets).result = .ok 2 ∧
      (scan input (t.take 6) targets).targets = (scan input t targets).targets := by
  intro input t targets
  have herror : (scan input t targets).result = .error (.missingTarget 6 2) := by decide +kernel
  obtain ⟨hresult, htargets, -⟩ := failing_scan_is_shorter_scan input t targets herror rfl
  exact ⟨herror, hresult, htargets⟩

end FormatString
