import Mathlib
import FormatString.Proofs.Template.Cut
import FormatString.Proofs.Writer.Ordered

/-!
# Where a writing call fails

A directive that fails has put nothing out and stored nothing. So a call that fails has done what the
call by the format string in front of the failing directive does, and that one succeeds: its pieces
are the ones that were rendered, for a format string can be cut in front of any directive.
-/

namespace FormatString

variable {w : Width}

/-- The offset of the directive the error is about. -/
def FormatError.offset? : FormatError → Option Nat
  | .malformed offset _ | .notEnoughArguments offset | .badType offset => some offset
  | .sink | .tooManySlots _ | .missingSlot _ => none

/-! ## The failing piece -/

/-- What can fail is a directive, and the error is at its offset. -/
theorem Located.render_eq_error {p : Located w} {config : Config} {written : Nat}
    {source source' : ArgSource} {e : FormatError}
    (h : p.render config written source = (.error e, source')) :
    p.piece.isLiteral = false ∧ e.offset? = some p.offset := by
  rcases p with ⟨offset, run | _ | d | fault⟩
  · exact absurd h (by simp [render])
  · exact absurd h (by simp [render])
  · refine ⟨rfl, ?_⟩
    rw [render] at h
    dsimp only at h
    split at h
    · exact absurd h (by simp)
    · next f _ =>
      obtain ⟨he, -⟩ := Prod.mk.inj h
      rw [← Except.error.inj he]
      cases f <;> rfl
  · obtain ⟨he, -⟩ := Prod.mk.inj h
    rw [← Except.error.inj he]
    exact ⟨rfl, rfl⟩

/-- A rendering that fails has gone through the pieces in front of one that failed. -/
theorem exists_failing_piece {config : Config} {written : Nat} {source : ArgSource}
    {ps : List (Located w)} {e : FormatError}
    (h : (renderPieces config written source ps).fault = some e) :
    ∃ before p after, ps = before ++ p :: after ∧ p.piece.isLiteral = false ∧
      e.offset? = some p.offset ∧ (renderPieces config written source before).fault = none ∧
      (renderPieces config written source before).steps
        = (renderPieces config written source ps).steps := by
  induction ps generalizing written source with
  | nil => exact absurd h (by simp [renderPieces])
  | cons p rest ih =>
    rw [renderPieces] at h ⊢
    cases hp : p.render config written source with
    | mk result source' =>
      rw [hp] at h
      cases result with
      | error e' =>
        obtain rfl : e' = e := Option.some.inj h
        obtain ⟨hpiece, hoffset⟩ := Located.render_eq_error hp
        exact ⟨[], p, rest, rfl, hpiece, hoffset, rfl, rfl⟩
      | ok step =>
        obtain ⟨before, q, after, rfl, hpiece, hoffset, hfault, hsteps⟩ := ih h
        refine ⟨p :: before, q, after, rfl, hpiece, hoffset, ?_, ?_⟩
        · rw [renderPieces, hp]
          exact hfault
        · rw [renderPieces, hp]
          exact congrArg (step :: ·) hsteps

/-! ## Failing calls -/

/-- A call failed at the directive that starts at `offset`, and the call `shorter`, by the format
string in front of there, succeeds with all that was put out and stored. -/
structure Outcome.FailsBehind (o : Outcome (Text w)) (t : Text w) (offset : Nat)
    (shorter : Outcome (Text w)) : Prop where
  percent : t[offset]? = some (.ofAscii w '%')
  result : shorter.result = .ok o.sink.length
  sink : shorter.sink = o.sink
  counts : shorter.counts = o.counts

/-- **Rendering is atomic.** -/
theorem failsBehind_of_fault {dialect : Dialect} {config : Config} {source : ArgSource} {t : Text w}
    {e : FormatError} {offset : Nat} (hoffset : e.offset? = some offset)
    (h : (renderPieces config 0 source (pieces dialect t)).fault = some e) :
    (∃ after, pieces dialect t = pieces dialect (t.take offset) ++ after) ∧
      (renderPieces config 0 source (pieces dialect t)).outcome.FailsBehind t offset
        (renderPieces config 0 source (pieces dialect (t.take offset))).outcome := by
  obtain ⟨before, p, after, hps, hpiece, hp, hfault, hsteps⟩ := exists_failing_piece h
  obtain rfl : p.offset = offset := Option.some.inj (hp.symm.trans hoffset)
  obtain ⟨hfront, hpercent⟩ := pieces_take hps
  rw [hfront]
  have hactions : (renderPieces config 0 source before).actions
      = (renderPieces config 0 source (pieces dialect t)).actions :=
    congrArg (List.flatMap Step.actions) hsteps
  have htext : (renderPieces config 0 source before).text
      = (renderPieces config 0 source (pieces dialect t)).text := congrArg outputText hactions
  refine ⟨⟨_, hps⟩, hpercent hpiece, ?_, htext, congrArg (List.filterMap _) hactions⟩
  refine (Rendering.result_of_fault_none hfault).trans ?_
  rw [htext]
  rfl

/-- The check never finds an argument wrong. -/
theorem orderedFault?_ne_badType {limit argCount : Nat} {ps : List (Located w)} {offset : Nat} :
    orderedFault? limit argCount ps ≠ some (.badType offset) := by
  intro h
  rw [orderedFault?] at h
  split at h
  · next e hmalformed =>
    obtain ⟨p, -, hp⟩ := List.exists_of_findSome?_eq_some hmalformed
    rw [Option.some.inj h, Located.malformed?] at hp
    split at hp <;> exact absurd hp (by simp)
  · dsimp only at h
    repeat' split at h
    all_goals exact absurd h (by simp)

/-- **Writing is atomic for each directive.** A call that fails at a directive was left with the
output and the counts with which the call by the format string in front of the directive succeeds.
That holds of the calls that name their arguments too, if it is an argument that was wrong: all other
faults are found before they begin. -/
theorem failing_call_is_shorter_call (config : Config) (t : Text w) (args : List Arg) (offset : Nat) :
    (∀ e, (config.format t args).result = .error e → e.offset? = some offset →
      (config.format t args).FailsBehind t offset (config.format (t.take offset) args)) ∧
    ((config.formatOrdered t args).result = .error (.badType offset) →
      (config.formatOrdered t args).FailsBehind t offset
        (config.formatOrdered (t.take offset) args)) := by
  constructor
  · intro e herror hoffset
    rw [Config.format_eq] at herror ⊢
    rw [Config.format_eq]
    exact (failsBehind_of_fault hoffset (Rendering.fault_of_result herror)).2
  · intro herror
    cases hcheck : orderedFault? config.slotLimit args.length (pieces .ordered t) with
    | some e =>
      rw [formatOrdered_eq_of_fault config t args hcheck] at herror
      rw [Except.error.inj herror] at hcheck
      exact absurd hcheck orderedFault?_ne_badType
    | none =>
      rw [formatOrdered_eq config t args hcheck] at herror ⊢
      obtain ⟨⟨after, hps⟩, hfails⟩ :=
        failsBehind_of_fault (e := .badType offset) rfl (Rendering.fault_of_result herror)
      rw [hps] at hcheck
      rwa [formatOrdered_eq config _ args (orderedFault?_of_append hcheck)]

/-- A wrong argument behind a count: `ab42` was put out and counted, and the string has no place in
`%d`. The ordered call stops there as well. -/
theorem failing_call_is_shorter_call_behind_count :
    let t := Text.ofAscii .utf8 ['a', 'b', '%', 'd', '%', 'n', '%', 'd']
    let ordered := Text.ofAscii .utf8 ['a', '%', '1', ':', 'd', '%', '2', ':', 'd', '%', '1', ':', 'd']
    let args := [Arg.integer .int32 42, .count 0, .nullText]
    ((Config.format {} t args).result = .error (.badType 6) ∧
      (Config.format {} t args).FailsBehind t 6 (Config.format {} (t.take 6) args)) ∧
    (Config.formatOrdered {} ordered args).result = .error (.badType 5) ∧
      (Config.formatOrdered {} ordered args).FailsBehind ordered 5
        (Config.formatOrdered {} (ordered.take 5) args) := by
  intro t ordered args
  have hformat : (Config.format {} t args).result = .error (.badType 6) := by decide +kernel
  have hordered : (Config.formatOrdered {} ordered args).result = .error (.badType 5) := by
    decide +kernel
  exact ⟨⟨hformat, (failing_call_is_shorter_call {} t args 6).1 _ hformat rfl⟩, hordered,
    (failing_call_is_shorter_call {} ordered args 5).2 hordered⟩

end FormatString
