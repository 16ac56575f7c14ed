import Mathlib
import FormatString.Writer.Format

/-!
# What a writing call reports

A writing call reports the error it ends with, and the outcome of a call says so once the call is
over. Errors arise in several places, though: before the first piece where a format string names
its arguments, and at any piece, while others have been handed to the sink already.
`Config.writePieces` is a writer that goes along the pieces with the sink and reports an error where
it arises. Rendering first and handing over afterwards comes to the same, reports included, so none
is lost between the two and none is made twice.
-/

namespace FormatString

variable {w : Width} {σ : Type}

/-- The outcome of a writing call, and what was reported on the way to it. -/
structure Reporting (σ : Type) where
  outcome : Outcome σ
  reports : List Diagnostic

namespace Config

variable (config : Config) (sink : FillSink w σ)

/-- Writes one piece after another, after `written` units were put out, and reports an error where
it arises. -/
def writePieces (s : σ) (written : Nat) (source : ArgSource) : List (Located w) → Reporting σ
  | [] => ⟨⟨.ok written, s, [], source⟩, []⟩
  | p :: rest =>
    match p.render config written source with
    | (.error e, source) => ⟨⟨.error e, s, [], source⟩, e.diagnostic?.toList⟩
    | (.ok step, source) =>
      let done := sink.run s step.actions
      if done.accepted then
        let after := writePieces done.sink (written + outputLength step.actions) source rest
        { after with outcome.counts := done.counts ++ after.outcome.counts }
      else
        ⟨⟨.error .sink, done.sink, done.counts, step.source⟩, FormatError.sink.diagnostic?.toList⟩

/-- Writes by a format string of the print dialect. -/
def write (template : Text w) (cursor : Cursor) (s : σ) : Reporting σ :=
  config.writePieces sink s 0 (.sequential cursor) (pieces .print template)

/-- Writes by a format string of the ordered dialect; what is wrong with its slots is reported
before anything is written. -/
def writeOrdered (template : Text w) (args : List Arg) (s : σ) : Reporting σ :=
  let ps := pieces .ordered template
  match orderedFault? config.slotLimit args.length ps with
  | some e => ⟨⟨.error e, s, [], .slots args⟩, e.diagnostic?.toList⟩
  | none => config.writePieces sink s 0 (.slots args) ps

end Config

/-- The report on the result of a writing call: none where the call succeeds or the sink has
refused, and one for any other error. -/
inductive ReportedResult : Except FormatError Nat → List Diagnostic → Prop where
  | ok (length : Nat) : ReportedResult (.ok length) []
  | sink : ReportedResult (.error .sink) []
  | malformed (offset : Nat) (error : DirectiveError) :
    ReportedResult (.error (.malformed offset error)) [⟨offset, .malformed error⟩]
  | notEnoughArguments (offset : Nat) :
    ReportedResult (.error (.notEnoughArguments offset)) [⟨offset, .notEnoughArguments⟩]
  | badType (offset : Nat) : ReportedResult (.error (.badType offset)) [⟨offset, .badType⟩]
  | tooManySlots (limit : Nat) :
    ReportedResult (.error (.tooManySlots limit)) [⟨0, .tooManySlots limit⟩]
  | missingSlot (index : Nat) :
    ReportedResult (.error (.missingSlot index)) [⟨0, .missingSlot index⟩]

theorem Outcome.reportedResult (o : Outcome σ) : ReportedResult o.result o.diagnostics := by
  rw [diagnostics]
  cases o.result with
  | ok n => exact .ok n
  | error e =>
    cases e with
    | sink => exact .sink
    | malformed offset error => exact .malformed offset error
    | notEnoughArguments offset => exact .notEnoughArguments offset
    | badType offset => exact .badType offset
    | tooManySlots limit => exact .tooManySlots limit
    | missingSlot index => exact .missingSlot index

/-- A finished call together with its diagnostics. -/
def Outcome.reporting (o : Outcome σ) : Reporting σ := ⟨o, o.diagnostics⟩

theorem Rendering.result_cons (r : Rendering w) (step : Step w) :
    ({ r with steps := step :: r.steps } : Rendering w).result
      = r.result.map (outputLength step.actions + ·) := by
  rw [result, result]
  dsimp only
  cases r.fault with
  | some e => rfl
  | none => rw [actions, actions, List.flatMap_cons, outputLength_append]; rfl

namespace Config

variable (config : Config) (sink : FillSink w σ)

/-- **The run.** What is left to write is handed over as the rendering of the pieces that are left,
in a call whose result counts what was written before. -/
theorem writePieces_eq (r : Rendering w) (s : σ) (written : Nat) (source : ArgSource)
    (ps : List (Located w)) (hsource : r.source = (renderPieces config written source ps).source)
    (hresult : r.result = (renderPieces config written source ps).result.map (written + ·)) :
    config.writePieces sink s written source ps
      = (deliverSteps sink r s (renderPieces config written source ps).steps).reporting := by
  induction ps generalizing s written source with
  | nil =>
    simp only [renderPieces] at hsource hresult
    simp only [writePieces, renderPieces, deliverSteps, Outcome.reporting, Outcome.diagnostics,
      hsource, hresult]
    rfl
  | cons p ps ih =>
    rw [writePieces]
    simp only [renderPieces] at hsource hresult ⊢
    rcases hp : p.render config written source with ⟨e | step, source'⟩
    · rw [hp] at hsource hresult
      simp only [deliverSteps, Outcome.reporting, Outcome.diagnostics, hsource, hresult]
      rfl
    · rw [hp] at hsource hresult
      dsimp only at hsource hresult ⊢
      rw [Rendering.result_cons] at hresult
      rw [deliverSteps]
      by_cases hdone : (sink.run s step.actions).accepted
      · rw [if_pos hdone, if_pos hdone, ih _ _ _ hsource]
        · rfl
        · rw [hresult]
          cases (renderPieces config (written + outputLength step.actions) source' ps).result with
          | error e => rfl
          | ok n => simp only [Except.map, Nat.add_assoc]
      · rw [if_neg hdone, if_neg hdone]
        rfl

theorem writePieces_eq_into (s : σ) (source : ArgSource) (ps : List (Located w)) :
    config.writePieces sink s 0 source ps
      = ((renderPieces config 0 source ps).into sink s).reporting := by
  refine config.writePieces_eq sink _ s 0 source ps rfl ?_
  cases (renderPieces config 0 source ps).result with
  | error e => rfl
  | ok n => simp only [Except.map, Nat.zero_add]

/-- **Reports on the way** are the diagnostics of the call. -/
theorem write_eq (template : Text w) (cursor : Cursor) (s : σ) :
    config.write sink template cursor s
      = (config.vformatInto template cursor sink s).reporting :=
  config.writePieces_eq_into sink s _ _

theorem writeOrdered_eq (template : Text w) (args : List Arg) (s : σ) :
    config.writeOrdered sink template args s
      = (config.formatOrderedInto template args sink s).reporting := by
  rw [writeOrdered, formatOrderedInto, renderOrdered]
  cases orderedFault? config.slotLimit args.length (pieces .ordered template) with
  | some e => rfl
  | none => exact config.writePieces_eq_into sink s _ _

end Config

end FormatString
