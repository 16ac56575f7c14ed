import Mathlib
import FormatString.Proofs.Template.Pieces
import FormatString.Proofs.Writer.Delivery

/-!
# Rendering one list of pieces behind another

A rendering that goes through leaves three things to what is rendered behind it: the arguments that
are left, the number of units written and the offset. The first is a matter of `ArgSource`; the
other two only ever appear in stored counts and in errors. So the outcome of joined pieces is put
together from the outcomes of the parts (`outcome_append`, `outcome_shift`), and a literal run may
be taken apart into its units (`outcome_units`).
-/

namespace FormatString

variable {w : Width} {α β : Type}

/-! ## Taking arguments -/

namespace ArgSource

/-- Taking an argument preserves the property. -/
def Invariant (P : ArgSource → Prop) : Prop := ∀ s slot, P s → P (s.next slot).2

theorem invariant_sequential : Invariant fun s ↦ s = .sequential s.cursor := by
  rintro s slot hs
  rw [hs]
  rcases s.cursor with ⟨n, _ | ⟨arg, rest⟩⟩ <;> rfl

@[simp] theorem take_cons (n : Nat) (arg : Arg) (rest : List Arg) (slot : Option Nat) :
    (sequential ⟨n, arg :: rest⟩).take slot = ⟨.ok arg, sequential ⟨n + 1, rest⟩⟩ := rfl

end ArgSource

@[simp] theorem Taken.andThen_ok (a : α) (s : ArgSource) (f : α → ArgSource → Taken β) :
    (⟨.ok a, s⟩ : Taken α).andThen f = f a s := rfl

theorem Taken.andThen_source {P : ArgSource → Prop} {t : Taken α} {f : α → ArgSource → Taken β}
    (ht : P t.source) (hf : ∀ a s, P s → P (f a s).source) : P (t.andThen f).source := by
  rw [andThen]
  split
  · exact hf _ _ ht
  · exact ht

/-- Applies a function to the result. -/
def Taken.map (f : α → β) (t : Taken α) : Taken β := ⟨t.result.map f, t.source⟩

theorem Taken.map_andThen {γ : Type} (t : Taken α) (f : α → ArgSource → Taken β) (g : β → γ) :
    (t.andThen f).map g = t.andThen fun a s ↦ (f a s).map g := by
  rw [andThen, andThen]
  split <;> rfl

namespace ArgSource.Invariant

variable {P : ArgSource → Prop} (h : Invariant P) {s : ArgSource}

include h

theorem take (slot : Option Nat) (hs : P s) : P (s.take slot).source := by
  have hnext := h s slot hs
  rw [ArgSource.take]
  split
  · next heq => rwa [heq] at hnext
  · next heq => rwa [heq] at hnext

theorem takeAmount (amount : Option Amount) (hs : P s) : P (s.takeAmount amount).source := by
  unfold ArgSource.takeAmount
  split
  · exact hs
  · exact hs
  · refine Taken.andThen_source (h.take _ hs) fun arg s hs ↦ ?_
    split <;> exact hs

theorem render (d : Directive) (config : Config) (written : Nat) (hs : P s) :
    P (d.render (w := w) config written s).source := by
  refine Taken.andThen_source (h.takeAmount _ hs) fun width s hs ↦ ?_
  refine Taken.andThen_source (h.takeAmount _ hs) fun precision s hs ↦ ?_
  split
  · exact hs
  · refine Taken.andThen_source (h.take _ hs) fun arg s hs ↦ ?_
    split <;> exact hs

theorem renderPiece (p : Located w) (config : Config) (written : Nat) (hs : P s) :
    P (p.render config written s).2 := by
  unfold Located.render
  split
  · exact hs
  · exact hs
  · exact h.render _ config written hs
  · exact hs

theorem renderPieces (config : Config) (written : Nat) (ps : List (Located w)) (hs : P s) :
    P (renderPieces config written s ps).source := by
  induction ps generalizing written s with
  | nil => exact hs
  | cons p rest ih =>
    have hp := h.renderPiece p config written hs
    rw [FormatString.renderPieces]
    split
    · next heq =>
      rw [heq] at hp
      exact ih _ hp
    · next heq => rwa [heq] at hp

end ArgSource.Invariant

/-! ## Output of one directive -/

theorem Directive.output?_of_field {d : Directive} (hd : d.conversion ≠ .countWritten)
    {config : Config} {layout : Layout} {value : Arg} {f : Field w}
    (hf : d.field? config layout.precision value = some f) (written : Nat) :
    d.output? config layout written value = some ((f.chunks layout).map .put) := by
  rw [output?.eq_def]
  split
  · next hconversion => exact absurd hconversion hd
  · rw [hf]
    rfl

/-- What is left to do for a directive once its width and its precision are known. -/
def Directive.renderValue (d : Directive) (config : Config) (layout : Layout) (written : Nat)
    (source : ArgSource) : Taken (List (Action w)) :=
  if d.conversion = .percent then ⟨.ok [.put (.units [.ofAscii w '%'])], source⟩
  else (source.take d.index).andThen fun arg source ↦
    match d.output? config layout written arg with
    | some actions => ⟨.ok actions, source⟩
    | none => ⟨.error .badType, source⟩

theorem Directive.render_of_amounts {d : Directive} {source s₁ s₂ : ArgSource}
    {width precision : Option Int} (hwidth : source.takeAmount d.width = ⟨.ok width, s₁⟩)
    (hprecision : s₁.takeAmount d.precision = ⟨.ok precision, s₂⟩) (config : Config)
    (written : Nat) :
    d.render (w := w) config written source
      = d.renderValue config (.of d width precision) written s₂ := by
  rw [render, hwidth, Taken.andThen_ok, hprecision, Taken.andThen_ok]
  rfl

/-- A percent sign with no amounts takes no argument. -/
theorem Directive.render_percent {d : Directive} (hconversion : d.conversion = .percent)
    (hwidth : d.width = none) (hprecision : d.precision = none) (config : Config) (written : Nat)
    (source : ArgSource) :
    d.render (w := w) config written source
      = ⟨.ok [.put (.units [.ofAscii w '%'])], source⟩ := by
  rw [render, hwidth, hprecision]
  exact if_pos hconversion

theorem outputText_map_put (chunks : List (Chunk w)) :
    outputText (chunks.map .put) = chunks.flatMap Chunk.text := by
  rw [outputText, List.flatMap_map]
  rfl

theorem filterMap_stored?_map_put (chunks : List (Chunk w)) :
    (chunks.map Action.put).filterMap Action.stored? = [] := by
  rw [List.filterMap_map, List.filterMap_eq_nil_iff]
  exact fun _ _ ↦ rfl

/-! ## Outcomes -/

/-- The outcome of a rendering that is kept as text. -/
def Rendering.outcome (r : Rendering w) : Outcome (Text w) := ⟨r.result, r.text, r.counts, r.source⟩

theorem FillSink.Accepting.into_source {σ : Type} {sink : FillSink w σ} (h : sink.Accepting)
    (r : Rendering w) (s : σ) : (r.into sink s).source = r.source := by
  have hsteps : ∀ steps s, (deliverSteps sink r s steps).source = r.source := by
    intro steps
    induction steps with
    | nil =>
      intro s
      rfl
    | cons step rest ih =>
      intro s
      rw [deliverSteps, h.run_eq]
      exact ih _
  exact hsteps r.steps s

theorem Rendering.into_text_nil (r : Rendering w) : r.into .text [] = r.outcome := by
  obtain ⟨hresult, hcounts, hsink⟩ := r.into_text []
  have hsource := FillSink.accepting_text.into_source r []
  rw [List.nil_append] at hsink
  rw [outcome, ← hresult, ← hcounts, ← hsink, ← hsource]

namespace Outcome

/-- The outcome of two calls one after the other, the second being made if the first succeeds. -/
def followedBy (o next : Outcome (Text w)) : Outcome (Text w) :=
  match o.result with
  | .ok n => ⟨next.result.map (n + ·), o.sink ++ next.sink, o.counts ++ next.counts, next.source⟩
  | .error _ => o

theorem followedBy_ok {o : Outcome (Text w)} {n : Nat} (h : o.result = .ok n)
    (next : Outcome (Text w)) : o.followedBy next
      = ⟨next.result.map (n + ·), o.sink ++ next.sink, o.counts ++ next.counts, next.source⟩ := by
  rw [followedBy, h]

end Outcome

namespace Rendering

variable {r : Rendering w}

theorem length_text (r : Rendering w) : r.text.length = outputLength r.actions :=
  length_outputText _

theorem result_of_fault_none (h : r.fault = none) : r.result = .ok r.text.length := by
  rw [result, h, length_text]

theorem result_of_fault_some {e : FormatError} (h : r.fault = some e) : r.result = .error e := by
  rw [result, h]

theorem fault_of_result {e : FormatError} (h : r.result = .error e) : r.fault = some e := by
  cases hfault : r.fault with
  | some e' =>
    rw [result_of_fault_some hfault] at h
    rw [Except.error.inj h]
  | none =>
    rw [result_of_fault_none hfault] at h
    exact absurd h (by simp)

/-- A rendering behind one that went through. -/
def followedBy (r next : Rendering w) : Rendering w := { next with steps := r.steps ++ next.steps }

theorem outcome_followedBy (h : r.fault = none) (next : Rendering w) :
    (r.followedBy next).outcome = r.outcome.followedBy next.outcome := by
  have hactions : (r.followedBy next).actions = r.actions ++ next.actions := List.flatMap_append
  have htext : (r.followedBy next).text = r.text ++ next.text := by
    rw [text, hactions, outputText_append]
    rfl
  have hcounts : (r.followedBy next).counts = r.counts ++ next.counts := by
    rw [counts, hactions, List.filterMap_append]
    rfl
  have hresult : (r.followedBy next).result = next.result.map (r.text.length + ·) := by
    cases hfault : next.fault with
    | some e =>
      rw [result_of_fault_some hfault, result_of_fault_some (r := r.followedBy next) hfault]
      rfl
    | none =>
      rw [result_of_fault_none hfault, result_of_fault_none (r := r.followedBy next) hfault, htext,
        List.length_append]
      rfl
  rw [Outcome.followedBy_ok (result_of_fault_none h), outcome, htext, hcounts, hresult]
  rfl

end Rendering

section Append

variable {config : Config} {written : Nat} {source : ArgSource} {ps : List (Located w)}

/-- Nothing is rendered behind a piece that failed. -/
theorem renderPieces_append_of_fault {e : FormatError}
    (h : (renderPieces config written source ps).fault = some e) (qs : List (Located w)) :
    renderPieces config written source (ps ++ qs) = renderPieces config written source ps := by
  induction ps generalizing written source with
  | nil => exact absurd h (by simp [renderPieces])
  | cons p rest ih =>
    rw [renderPieces] at h
    rw [List.cons_append, renderPieces, renderPieces]
    split at h
    · rw [ih h]
    · rfl

/-- Pieces that go through are rendered one list behind the other. -/
theorem renderPieces_append_of_none (h : (renderPieces config written source ps).fault = none)
    (qs : List (Located w)) :
    renderPieces config written source (ps ++ qs)
      = (renderPieces config written source ps).followedBy
          (renderPieces config
            (written + (renderPieces config written source ps).text.length)
            (renderPieces config written source ps).source qs) := by
  induction ps generalizing written source with
  | nil => rfl
  | cons p rest ih =>
    rw [renderPieces] at h
    rw [List.cons_append, renderPieces, renderPieces]
    split at h
    · next step source' heq =>
      rw [ih h, Rendering.length_text, Rendering.length_text, Rendering.actions, Rendering.actions,
        List.flatMap_cons, outputLength_append, Nat.add_assoc]
      rfl
    · exact absurd h (by simp)

/-- **Outcomes are put together.** -/
theorem outcome_append (config : Config) (written : Nat) (source : ArgSource)
    (ps qs : List (Located w)) :
    (renderPieces config written source (ps ++ qs)).outcome
      = (renderPieces config written source ps).outcome.followedBy
          (renderPieces config
            (written + (renderPieces config written source ps).outcome.sink.length)
            (renderPieces config written source ps).outcome.source qs).outcome := by
  cases hfault : (renderPieces config written source ps).fault with
  | some e =>
    have hresult : (renderPieces config written source ps).outcome.result = .error e :=
      Rendering.result_of_fault_some hfault
    rw [renderPieces_append_of_fault hfault, Outcome.followedBy, hresult]
  | none => rw [renderPieces_append_of_none hfault, Rendering.outcome_followedBy hfault]; rfl

/-- What is written behind a piece that goes through. -/
theorem outcome_cons_of_ok {p : Located w} {text : Text w} {n : Nat} {source' : ArgSource}
    (h : (renderPieces config written source [p]).outcome = ⟨.ok n, text, [], source'⟩)
    (ps : List (Located w)) :
    (renderPieces config written source (p :: ps)).outcome
      = (⟨.ok n, text, [], source'⟩ : Outcome (Text w)).followedBy
          (renderPieces config (written + text.length) source' ps).outcome := by
  have happend := outcome_append config written source [p] ps
  rwa [h] at happend

theorem outcome_singleton (config : Config) (written : Nat) (source : ArgSource) (p : Located w) :
    (renderPieces config written source [p]).outcome
      = match p.render config written source with
        | (.ok step, source) =>
          ⟨.ok (outputLength step.actions), outputText step.actions,
            step.actions.filterMap Action.stored?, source⟩
        | (.error e, source) => ⟨.error e, [], [], source⟩ := by
  rw [renderPieces]
  rcases p.render config written source with ⟨e | step, source'⟩
  · rfl
  · rw [Rendering.outcome, Rendering.result, Rendering.text, Rendering.counts, Rendering.actions]
    dsimp only [renderPieces]
    rw [List.flatMap_singleton]

end Append

/-! ## Literal runs -/

theorem outcome_literalUnits (config : Config) (written : Nat) (source : ArgSource) (offset : Nat)
    (run : Text w) :
    (renderPieces config written source (literalUnits offset run)).outcome
      = ⟨.ok run.length, run, [], source⟩ := by
  induction run generalizing written offset with
  | nil => rfl
  | cons u rest ih =>
    have hfirst : (renderPieces config written source
        [(⟨offset, .literal [u]⟩ : Located w)]).outcome = ⟨.ok 1, [u], [], source⟩ := rfl
    have happend := outcome_append config written source [⟨offset, .literal [u]⟩]
      (literalUnits (offset + 1) rest)
    rw [hfirst, Outcome.followedBy_ok rfl, ih] at happend
    rw [literalUnits_cons]
    refine happend.trans ?_
    rw [List.length_cons, Nat.add_comm rest.length]
    rfl

theorem outcome_units_of_piece (config : Config) (written : Nat) (source : ArgSource)
    (p : Located w) :
    (renderPieces config written source p.units).outcome
      = (renderPieces config written source [p]).outcome := by
  rcases p with ⟨offset, run | _ | d | e⟩
  · rw [Located.units_literal, outcome_literalUnits]
    simp [renderPieces, Located.render, Rendering.outcome, Rendering.result, Rendering.text,
      Rendering.counts, Rendering.actions, outputLength, outputText, Action.length, Action.text,
      Action.stored?, Chunk.length, Chunk.text]
  all_goals rfl

/-- Taking the literal runs apart does not change the outcome. -/
theorem outcome_units (config : Config) (written : Nat) (source : ArgSource)
    (ps : List (Located w)) :
    (renderPieces config written source (ps.flatMap Located.units)).outcome
      = (renderPieces config written source ps).outcome := by
  induction ps generalizing written source with
  | nil => rfl
  | cons p rest ih =>
    rw [List.flatMap_cons, outcome_append, outcome_units_of_piece, ih, ← outcome_append]
    rfl

/-! ## Further on in the output and in the format string -/

/-- The action when `n` more units were written before. -/
def Action.later (n : Nat) : Action w → Action w
  | .put chunk => .put chunk
  | .count cell units => .count cell (units + n)

theorem Action.text_later (n : Nat) (a : Action w) : (a.later n).text = a.text := by
  cases a <;> rfl

theorem Action.stored?_later (n : Nat) (a : Action w) :
    (a.later n).stored? = a.stored?.map fun (cell, units) ↦ (cell, units + n) := by
  cases a <;> rfl

theorem outputText_map_later (n : Nat) (actions : List (Action w)) :
    outputText (actions.map (Action.later n)) = outputText actions := by
  rw [outputText, List.flatMap_map]
  exact congrArg (actions.flatMap ·) (funext (Action.text_later n))

theorem filterMap_stored?_map_later (n : Nat) (actions : List (Action w)) :
    (actions.map (Action.later n)).filterMap Action.stored?
      = (actions.filterMap Action.stored?).map fun (cell, units) ↦ (cell, units + n) := by
  rw [List.filterMap_map, List.map_filterMap]
  exact congrArg (actions.filterMap ·) (funext (Action.stored?_later n))

/-- The error in a directive `k` units further on. -/
def FormatError.shift (k : Nat) : FormatError → FormatError
  | sink => sink
  | malformed offset error => malformed (offset + k) error
  | notEnoughArguments offset => notEnoughArguments (offset + k)
  | badType offset => badType (offset + k)
  | tooManySlots limit => tooManySlots limit
  | missingSlot index => missingSlot index

/-- The outcome behind `n` units of output and `k` units of format string. -/
def Outcome.shift (n k : Nat) (o : Outcome (Text w)) : Outcome (Text w) where
  result := o.result.mapError (FormatError.shift k)
  sink := o.sink
  counts := o.counts.map fun (cell, units) ↦ (cell, units + n)
  source := o.source

theorem Directive.output?_add (d : Directive) (config : Config) (layout : Layout) (written n : Nat)
    (arg : Arg) :
    d.output? (w := w) config layout (written + n) arg
      = (d.output? config layout written arg).map (List.map (Action.later n)) := by
  have hfield (f : Field w) :
      ((f.chunks layout).map Action.put).map (Action.later n) = (f.chunks layout).map .put := by
    rw [List.map_map]
    rfl
  rw [output?.eq_def, output?.eq_def]
  split
  · rfl
  · rw [Option.map_map]
    exact congrArg (Option.map · _) (funext fun f ↦ (hfield f).symm)

theorem Directive.render_add (d : Directive) (config : Config) (written n : Nat)
    (source : ArgSource) :
    d.render (w := w) config (written + n) source
      = (d.render config written source).map (List.map (Action.later n)) := by
  rw [render, render, Taken.map_andThen]
  congr 1
  funext width source
  rw [Taken.map_andThen]
  congr 1
  funext precision source
  split
  · rfl
  · rw [Taken.map_andThen]
    congr 1
    funext arg source
    rw [output?_add]
    cases d.output? config (.of d width precision) written arg <;> rfl

theorem Located.render_shift (p : Located w) (config : Config) (written n k : Nat)
    (source : ArgSource) :
    (p.shift k).render config (written + n) source
      = (((p.render config written source).1.map fun step ↦
            { step with actions := step.actions.map (Action.later n) }).mapError
              (FormatError.shift k), (p.render config written source).2) := by
  -- Only directives look at how much was written, and only failures at the offset.
  rcases p with ⟨offset, run | _ | d | e⟩
  · rfl
  · rfl
  · rw [Located.shift, Located.render, Located.render]
    dsimp only
    rw [Directive.render_add, Taken.map]
    rcases d.render (w := w) config written source with ⟨fault | actions, source⟩
    · cases fault <;> rfl
    · rfl
  · rfl

theorem Outcome.shift_followedBy (n k : Nat) (o next : Outcome (Text w)) :
    (o.shift n k).followedBy (next.shift n k) = (o.followedBy next).shift n k := by
  rcases o with ⟨e | m, sink, counts, source⟩
  · rfl
  · rw [followedBy_ok rfl, followedBy_ok rfl, shift, shift, shift, List.map_append]
    rcases next.result with e | m <;> rfl

theorem outcome_shift_singleton (config : Config) (written n k : Nat) (source : ArgSource)
    (p : Located w) :
    (renderPieces config (written + n) source [p.shift k]).outcome
      = (renderPieces config written source [p]).outcome.shift n k := by
  rw [outcome_singleton, outcome_singleton, Located.render_shift]
  rcases p.render config written source with ⟨e | ⟨actions, -⟩, source⟩
  · rfl
  · have hlength : outputLength (actions.map (Action.later n)) = outputLength actions := by
      rw [← length_outputText, ← length_outputText, outputText_map_later]
    change (⟨.ok (outputLength (actions.map (Action.later n))), _, _, _⟩ : Outcome (Text w)) = _
    rw [hlength, outputText_map_later, filterMap_stored?_map_later]
    rfl

/-- Further on in the output and in the format string, only the stored counts and the offsets of
errors are different. -/
theorem outcome_shift (config : Config) (written n k : Nat) (source : ArgSource)
    (ps : List (Located w)) :
    (renderPieces config (written + n) source (ps.map (Located.shift k))).outcome
      = (renderPieces config written source ps).outcome.shift n k := by
  induction ps generalizing written source with
  | nil => rfl
  | cons p rest ih =>
    have hshifted := outcome_append config (written + n) source [p.shift k]
      (rest.map (Located.shift k))
    have hsplit := outcome_append config written source [p] rest
    rw [outcome_shift_singleton] at hshifted
    rw [List.singleton_append] at hshifted hsplit
    rw [List.map_cons, hshifted, hsplit, ← Outcome.shift_followedBy, ← ih, Nat.add_right_comm]
    rfl

/-! ## Calls that keep their output as text -/

namespace Config

variable (config : Config) (t : Text w)

theorem vformat_eq (c : Cursor) :
    config.vformat t c = (renderPieces config 0 (.sequential c) (pieces .print t)).outcome := by
  rw [vformat, vformatInto, Rendering.into_text_nil, render]

theorem format_eq (args : List Arg) :
    config.format t args
      = (renderPieces config 0 (.sequential ⟨0, args⟩) (pieces .print t)).outcome :=
  config.vformat_eq t (.ofArgs args)

end Config

end FormatString
