import Mathlib
import FormatString.Proofs.Writer.Rendering

/-!
# Writing by joined format strings

A call that succeeds can be followed by another that takes its arguments where the first left them;
the two write what one call by the joined format string writes. The pieces at the seam need not be
those of the parts, since a literal run may go on across it, but a directive that was complete stays
what it was.
-/

namespace FormatString

variable {w : Width}

namespace Config

variable (config : Config)

theorem vformat_eq_units (t : Text w) (c : Cursor) :
    config.vformat t c
      = (renderPieces config 0 (.sequential c) (unitPieces .print 0 t)).outcome := by
  rw [vformat_eq, unitPieces, outcome_units, pieces]

/-- A call leaves its arguments at a place in the list. -/
theorem source_vformat (t : Text w) (c : Cursor) :
    (config.vformat t c).source = .sequential (config.vformat t c).source.cursor := by
  rw [vformat_eq_units]
  exact ArgSource.invariant_sequential.renderPieces config 0 _ rfl

end Config

/-- A piece that is malformed does not go through. -/
theorem isMalformed_eq_false_of_ok {config : Config} {written : Nat} {source : ArgSource}
    {ps : List (Located w)} {n : Nat}
    (h : (renderPieces config written source ps).result = .ok n) :
    ∀ p ∈ ps, p.isMalformed = false := by
  induction ps generalizing written source n with
  | nil => simp
  | cons p rest ih =>
    rw [renderPieces] at h
    split at h
    · next step source' heq =>
      refine List.forall_mem_cons.mpr ⟨?_, ?_⟩
      · rcases p with ⟨offset, run | _ | d | e⟩
        all_goals first | rfl | exact absurd heq (by simp [Located.render])
      · set after := renderPieces config (written + outputLength step.actions) source' rest
        cases hfault : after.fault with
        | none => exact ih (Rendering.result_of_fault_none hfault)
        | some e =>
          rw [Rendering.result, hfault] at h
          exact absurd h (by simp)
    · exact absurd h (by simp [Rendering.result])

/-- **Split law.** If a call succeeds, then writing by its format string followed by another is
writing by the one and then, with the arguments left, by the other: the errors of the second are
further on in the format string, and its counts further on in the output. -/
theorem vformat_append (config : Config) (t₁ t₂ : Text w) (c : Cursor) {n₁ : Nat}
    (h : (config.vformat t₁ c).result = .ok n₁) :
    let first := config.vformat t₁ c
    let second := config.vformat t₂ first.source.cursor
    let joined := config.vformat (t₁ ++ t₂) c
    first.sink.length = n₁ ∧
      joined.sink = first.sink ++ second.sink ∧
      joined.source = second.source ∧
      (∀ n₂, second.result = .ok n₂ → joined.result = .ok (n₁ + n₂)) ∧
      (∀ e, second.result = .error e → joined.result = .error (e.shift t₁.length)) ∧
      joined.counts = first.counts ++ second.counts.map fun (cell, n) ↦ (cell, n + n₁) := by
  intro first second joined
  have hwell : ∀ p ∈ unitPieces .print 0 t₁, p.isMalformed = false := by
    rw [config.vformat_eq_units] at h
    exact isMalformed_eq_false_of_ok h
  have hlength : first.sink.length = n₁ := by
    rw [config.vformat_eq_units] at h
    rw [show first = _ from config.vformat_eq_units t₁ c]
    exact Rendering.length_of_result h
  -- Taken apart, the literal run across the seam is no longer a piece of its own.
  have hjoined : joined = first.followedBy (second.shift n₁ t₁.length) := by
    have hfirst := config.vformat_eq_units t₁ c
    have hsource := config.source_vformat t₁ c
    rw [show joined = _ from config.vformat_eq_units (t₁ ++ t₂) c,
      unitPieces_append hwell,
      outcome_append, ← hfirst, unitPieces_add, hsource, hlength, outcome_shift,
      ← config.vformat_eq_units]
  rw [hjoined, Outcome.followedBy_ok h]
  refine ⟨hlength, rfl, rfl, fun n₂ hn₂ ↦ ?_, fun e he ↦ ?_, rfl⟩
  · rw [Outcome.shift, hn₂]
    rfl
  · rw [Outcome.shift, he]
    rfl

/-- The literal run `bc` goes on across the seam, and the count behind it is that of the joined
output. -/
theorem vformat_append_across_run :
    let cursor := Cursor.ofArgs [.integer .int32 42, .count 0]
    let t₁ := Text.ofAscii .utf8 ['a', '%', 'd', 'b']
    let t₂ := Text.ofAscii .utf8 ['c', '%', 'n']
    (Config.vformat {} t₁ cursor).result = .ok 4 ∧
      (Config.vformat {} (t₁ ++ t₂) cursor).counts = [(0, 5)] := by
  intro cursor t₁ t₂
  have hfirst : (Config.vformat {} t₁ cursor).result = .ok 4 := by decide +kernel
  obtain ⟨-, -, -, -, -, hcounts⟩ := vformat_append {} t₁ t₂ cursor hfirst
  refine ⟨hfirst, hcounts.trans ?_⟩
  decide +kernel

end FormatString
