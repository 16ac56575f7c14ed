import Mathlib
import FormatString.Writer.Format

/-!
# Delivery to sinks

A rendering is data, and a sink is handed the chunks of that data one after another. So whatever a
call comes to is settled by the rendering, unless the sink refuses a chunk, and what the sink
becomes is settled by the chunks: a growing text holds them joined, a buffer the units that fit, and
a callback sees the blocks they are cut into.

## Two ways of taking padding

Padding is a chunk of its own, and only a `FillSink` is told its length. The other sinks see blocks,
and `offer_blockwise` says that for these a chunk is no more than its blocks. From there on a run is
one list of blocks, which is what the laws of buffers and callbacks are stated for.
-/

namespace FormatString

variable {w : Width} {σ : Type}

/-! ## Chunks and blocks of an output -/

/-- The chunk an action puts out. -/
def Action.chunk? : Action w → Option (Chunk w)
  | .put chunk => some chunk
  | .count .. => none

/-- The chunks a list of actions puts out. -/
def chunksOf (actions : List (Action w)) : List (Chunk w) := actions.filterMap Action.chunk?

/-- The blocks a list of actions is handed over in. -/
def blocksOf (actions : List (Action w)) : List (Text w) := (chunksOf actions).flatMap Chunk.blocks

@[simp] theorem chunksOf_put (chunk : Chunk w) (rest : List (Action w)) :
    chunksOf (.put chunk :: rest) = chunk :: chunksOf rest := rfl

@[simp] theorem chunksOf_count (cell units : Nat) (rest : List (Action w)) :
    chunksOf (.count cell units :: rest) = chunksOf rest := rfl

theorem flatMap_text_chunksOf (actions : List (Action w)) :
    (chunksOf actions).flatMap Chunk.text = outputText actions := by
  induction actions with
  | nil => rfl
  | cons a rest ih =>
    cases a with
    | put chunk =>
      rw [chunksOf_put, List.flatMap_cons, ih, outputText, outputText, List.flatMap_cons]
      rfl
    | count cell units =>
      rw [chunksOf_count, ih, outputText, outputText, List.flatMap_cons]
      rfl

/-- Cut into blocks or not, the output is the same. -/
theorem flatten_blocksOf (actions : List (Action w)) :
    (blocksOf actions).flatten = outputText actions := by
  have hblocks : ∀ chunks : List (Chunk w),
      (chunks.flatMap Chunk.blocks).flatten = chunks.flatMap Chunk.text := by
    intro chunks
    induction chunks with
    | nil => rfl
    | cons c rest ih =>
      rw [List.flatMap_cons, List.flatten_append, ih, c.flatten_blocks, List.flatMap_cons]
  rw [blocksOf, hblocks, flatMap_text_chunksOf]

/-! ## A run over all actions -/

namespace FillSink

variable (sink : FillSink w σ)

/-- Carrying out two lists of actions is carrying out the first and, unless something was refused,
the second. -/
theorem run_append (s : σ) (xs ys : List (Action w)) :
    sink.run s (xs ++ ys)
      = if (sink.run s xs).accepted then
          { sink.run (sink.run s xs).sink ys with
            counts := (sink.run s xs).counts ++ (sink.run (sink.run s xs).sink ys).counts }
        else sink.run s xs := by
  induction xs generalizing s with
  | nil => rfl
  | cons a rest ih =>
    rw [List.cons_append]
    cases a with
    | put chunk =>
      rw [run, run]
      rcases sink.offer s chunk with ⟨s', accepted⟩
      cases accepted with
      | true => exact ih s'
      | false => rfl
    | count cell units =>
      rw [run, run, ih]
      by_cases h : (sink.run s rest).accepted
      · rw [if_pos h, if_pos h]
        rfl
      · rw [if_neg h, if_neg h]

end FillSink

/-- A call is a run over all actions of its rendering: piece by piece it comes to the same. -/
private theorem deliverSteps_eq_run (sink : FillSink w σ) (r : Rendering w) (s : σ)
    (steps : List (Step w)) :
    let o := deliverSteps sink r s steps
    let d := sink.run s (steps.flatMap Step.actions)
    o.sink = d.sink ∧ o.counts = d.counts ∧
      o.result = if d.accepted then r.result else .error .sink := by
  induction steps generalizing s with
  | nil => exact ⟨rfl, rfl, rfl⟩
  | cons step rest ih =>
    obtain ⟨hsink, hcounts, hresult⟩ := ih (sink.run s step.actions).sink
    rw [deliverSteps, List.flatMap_cons, sink.run_append]
    by_cases h : (sink.run s step.actions).accepted
    · rw [if_pos h, if_pos h]
      exact ⟨hsink, congrArg _ hcounts, hresult⟩
    · rw [if_neg h, if_neg h]
      exact ⟨rfl, rfl, by rw [if_neg h]⟩

namespace Rendering

variable (r : Rendering w) (sink : FillSink w σ) (s : σ)

theorem into_sink : (r.into sink s).sink = (sink.run s r.actions).sink :=
  (deliverSteps_eq_run sink r s r.steps).1

theorem into_counts : (r.into sink s).counts = (sink.run s r.actions).counts :=
  (deliverSteps_eq_run sink r s r.steps).2.1

theorem into_result :
    (r.into sink s).result = if (sink.run s r.actions).accepted then r.result else .error .sink :=
  (deliverSteps_eq_run sink r s r.steps).2.2

end Rendering

/-! ## Sinks that never refuse -/

namespace FillSink

variable (sink : FillSink w σ)

/-- The sink accepts whatever it is handed. -/
structure Accepting : Prop where
  put : ∀ s block, (sink.put s block).2 = true
  fill : ∀ s unit count, (sink.fill s unit count).2 = true

/-- What a sink becomes that is handed chunks and refuses none. -/
def absorb (s : σ) (chunks : List (Chunk w)) : σ := chunks.foldl (fun s c ↦ (sink.offer s c).1) s

variable {sink}

theorem Accepting.offer (h : sink.Accepting) (s : σ) (c : Chunk w) :
    (sink.offer s c).2 = true := by
  cases c with
  | units text => exact h.put s text
  | fill unit count => exact h.fill s unit count

theorem Accepting.run_eq (h : sink.Accepting) (s : σ) (actions : List (Action w)) :
    sink.run s actions
      = ⟨sink.absorb s (chunksOf actions), actions.filterMap Action.stored?, true⟩ := by
  induction actions generalizing s with
  | nil => rfl
  | cons a rest ih =>
    cases a with
    | put chunk =>
      have hoffer : sink.offer s chunk = ((sink.offer s chunk).1, true) :=
        Prod.ext rfl (h.offer s chunk)
      rw [run, hoffer]
      exact ih _
    | count cell units =>
      rw [run, ih]
      rfl

/-- **No refusal, no influence.** The result and the stored counts are those of the rendering. -/
theorem Accepting.into_eq (h : sink.Accepting) (r : Rendering w) (s : σ) :
    (r.into sink s).result = r.result ∧ (r.into sink s).counts = r.counts ∧
      (r.into sink s).sink = sink.absorb s (chunksOf r.actions) := by
  rw [r.into_result, r.into_counts, r.into_sink, h.run_eq]
  exact ⟨rfl, rfl, rfl⟩

theorem accepting_text : (text : FillSink w (Text w)).Accepting := ⟨fun _ _ ↦ rfl, fun _ _ _ ↦ rfl⟩

theorem accepting_null : (null : FillSink w Unit).Accepting := ⟨fun _ _ ↦ rfl, fun _ _ _ ↦ rfl⟩

theorem absorb_text (s : Text w) (chunks : List (Chunk w)) :
    text.absorb s chunks = s ++ chunks.flatMap Chunk.text := by
  induction chunks generalizing s with
  | nil => exact (List.append_nil s).symm
  | cons c rest ih =>
    have hoffer : (text.offer s c).1 = s ++ c.text := by cases c <;> rfl
    rw [absorb, List.foldl_cons, hoffer, ← absorb, ih, List.flatMap_cons, List.append_assoc]

end FillSink

/-- A growing text ends up with the text of the rendering behind what it held. -/
theorem Rendering.into_text (r : Rendering w) (s : Text w) :
    (r.into .text s).result = r.result ∧ (r.into .text s).counts = r.counts ∧
      (r.into .text s).sink = s ++ r.text := by
  obtain ⟨hresult, hcounts, hsink⟩ := FillSink.accepting_text.into_eq r s
  rw [hsink, FillSink.absorb_text, flatMap_text_chunksOf]
  exact ⟨hresult, hcounts, rfl⟩

/-- A rendering that goes through returns the length of its text. -/
theorem Rendering.length_of_result {r : Rendering w} {n : Nat} (h : r.result = .ok n) :
    r.text.length = n := by
  rw [result] at h
  split at h
  · exact absurd h (by simp)
  · rw [text, length_outputText]
    exact Except.ok.inj h

/-! ## Sinks that take padding in blocks -/

namespace Sink

variable (sink : Sink w σ)

/-- A chunk is no more to the sink than its blocks. -/
theorem offer_blockwise (s : σ) (c : Chunk w) :
    sink.blockwise.offer s c = sink.putAll s c.blocks := by
  cases c with
  | units text =>
    rw [FillSink.offer, Chunk.blocks, putAll]
    change sink.put s text = _
    rcases sink.put s text with ⟨s', accepted⟩
    cases accepted <;> rfl
  | fill unit count => rfl

theorem putAll_append (s : σ) (xs ys : List (Text w)) :
    sink.putAll s (xs ++ ys)
      = if (sink.putAll s xs).2 then sink.putAll (sink.putAll s xs).1 ys else sink.putAll s xs := by
  induction xs generalizing s with
  | nil => rfl
  | cons b rest ih =>
    rw [List.cons_append, putAll, putAll]
    rcases sink.put s b with ⟨s', accepted⟩
    cases accepted with
    | true => exact ih s'
    | false => rfl

theorem run_blockwise (s : σ) (actions : List (Action w)) :
    ((sink.blockwise.run s actions).sink, (sink.blockwise.run s actions).accepted)
      = sink.putAll s (blocksOf actions) := by
  induction actions generalizing s with
  | nil => rfl
  | cons a rest ih =>
    cases a with
    | put chunk =>
      rw [FillSink.run, offer_blockwise, blocksOf, chunksOf_put, List.flatMap_cons, putAll_append,
        ← blocksOf]
      rcases sink.putAll s chunk.blocks with ⟨s', accepted⟩
      cases accepted with
      | true => exact ih s'
      | false => rfl
    | count cell units => exact ih s

/-- A run over blocks that are all accepted is a fold. -/
theorem putAll_of_accepting (h : ∀ s b, (sink.put s b).2 = true) (s : σ) (blocks : List (Text w)) :
    sink.putAll s blocks = (blocks.foldl (fun s b ↦ (sink.put s b).1) s, true) := by
  induction blocks generalizing s with
  | nil => rfl
  | cons b rest ih =>
    have hput : sink.put s b = ((sink.put s b).1, true) := Prod.ext rfl (h s b)
    rw [putAll, hput]
    exact ih _

theorem accepting_blockwise (h : ∀ s b, (sink.put s b).2 = true) : sink.blockwise.Accepting where
  put := h
  fill s _ _ := congrArg Prod.snd (sink.putAll_of_accepting h s _)

end Sink

/-! ## Callbacks -/

namespace Sink

/-- The verdict accepts a list of blocks one after another, behind those it has seen. -/
def AcceptsAll (verdict : List (Text w) → Text w → Bool) (seen blocks : List (Text w)) : Prop :=
  ∀ before b after, blocks = before ++ b :: after → verdict (seen ++ before) b = true

theorem AcceptsAll.head {verdict : List (Text w) → Text w → Bool} {seen rest : List (Text w)}
    {b : Text w} (h : AcceptsAll verdict seen (b :: rest)) : verdict seen b = true := by
  simpa using h [] b rest rfl

theorem AcceptsAll.tail {verdict : List (Text w) → Text w → Bool} {seen rest : List (Text w)}
    {b : Text w} (h : AcceptsAll verdict seen (b :: rest)) :
    AcceptsAll verdict (seen ++ [b]) rest := by
  intro before c after hrest
  rw [List.append_assoc]
  exact h (b :: before) c after (congrArg (b :: ·) hrest)

theorem putAll_callback {verdict : List (Text w) → Text w → Bool} {seen blocks : List (Text w)}
    (h : AcceptsAll verdict seen blocks) :
    (callback verdict).putAll seen blocks = (seen ++ blocks, true) := by
  induction blocks generalizing seen with
  | nil => rw [putAll, List.append_nil]
  | cons b rest ih =>
    rw [putAll, callback]
    dsimp only
    rw [h.head]
    exact (ih h.tail).trans (by rw [List.append_assoc]; rfl)

/-- Nothing is offered behind the first refused block. -/
theorem putAll_callback_refused {verdict : List (Text w) → Text w → Bool}
    {before after : List (Text w)} {b : Text w} (h : AcceptsAll verdict [] before)
    (hrefused : verdict before b = false) :
    (callback verdict).putAll [] (before ++ b :: after) = (before ++ [b], false) := by
  rw [putAll_append, putAll_callback h, if_pos rfl, putAll, callback]
  dsimp only [List.nil_append]
  rw [hrefused]

end Sink

/-! ## Buffers -/

namespace Buffer

/-- The buffer has taken the output `out` in: what there is room for stands in front, and everything
behind it is as it was in `start`. -/
structure Holds (b : Buffer w) (start out : Text w) : Prop where
  stored : b.stored = min out.length (start.length - 1)
  units : b.units = out.take (start.length - 1) ++ start.drop b.stored
  truncated : b.truncated = decide (start.length - 1 < out.length)

theorem holds_nil (start : Text w) : (Buffer.mk start 0 false).Holds start [] :=
  ⟨(Nat.zero_min _).symm, by rw [List.take_nil, List.drop_zero, List.nil_append], by simp⟩

variable {start out : Text w} {b : Buffer w}

theorem Holds.length_take (h : b.Holds start out) :
    (out.take (start.length - 1)).length = b.stored := by
  rw [List.length_take, h.stored, Nat.min_comm]

theorem Holds.length_units (h : b.Holds start out) : b.units.length = start.length := by
  have hstored := h.stored
  rw [h.units, List.length_append, h.length_take, List.length_drop]
  omega

/-- **One block.** Storing a block is taking it in. -/
theorem Holds.store (h : b.Holds start out) (block : Text w) :
    (b.store block).Holds start (out ++ block) := by
  have hstored := h.stored
  -- The last unit of the buffer is kept for the NUL and counts as no room.
  set room := start.length - 1 - b.stored with hroom
  have hkept : (block.take room).length = min room block.length := List.length_take
  have hfront : b.units.take b.stored = out.take (start.length - 1) := by
    rw [h.units, List.take_left' h.length_take]
  have hback : b.units.drop (b.stored + (block.take room).length)
      = start.drop (b.stored + (block.take room).length) := by
    rw [h.units, List.drop_append, h.length_take,
      List.drop_of_length_le (by rw [h.length_take]; omega), List.nil_append, List.drop_drop,
      Nat.add_sub_cancel_left]
  have htake : (out ++ block).take (start.length - 1)
      = out.take (start.length - 1) ++ block.take room := by
    rw [List.take_append]
    by_cases hlong : start.length - 1 ≤ out.length
    · rw [show start.length - 1 - out.length = 0 from by omega, show room = 0 from by omega]
    · rw [show room = start.length - 1 - out.length from by omega]
  refine ⟨?_, ?_, ?_⟩
  · rw [Buffer.store, h.length_units, ← hroom, List.length_append, hkept]
    dsimp only
    omega
  · rw [Buffer.store, h.length_units, ← hroom, htake, ← hfront]
    dsimp only
    rw [hback]
  · rw [Buffer.store, h.length_units, ← hroom, List.length_append, h.truncated, hkept]
    dsimp only
    rw [← Bool.decide_or]
    exact decide_eq_decide.mpr (by omega)

theorem Holds.foldl_store (h : b.Holds start out) (blocks : List (Text w)) :
    (blocks.foldl (fun b block ↦ (sink.put b block).1) b).Holds start (out ++ blocks.flatten) := by
  induction blocks generalizing out b with
  | nil => rwa [List.flatten_nil, List.append_nil]
  | cons block rest ih =>
    rw [List.flatten_cons, ← List.append_assoc]
    exact ih (h.store block)

/-- Ended by a NUL, the buffer holds the output as far as it fits, the NUL, and what it held
before. -/
theorem Holds.finish_eq (h : b.Holds start out) (hne : start ≠ []) :
    b.finish = out.take (start.length - 1) ++ .nul w :: start.drop (b.stored + 1) := by
  have hstored := h.stored
  have hpos : 0 < start.length := List.length_pos_iff.mpr hne
  have hlt : b.stored < start.length := by omega
  rw [finish, h.units, List.set_append_right _ _ (by rw [h.length_take]), h.length_take,
    Nat.sub_self, List.drop_eq_getElem_cons hlt, List.set_cons_zero]

theorem accepting_sink : (sink : Sink w (Buffer w)).blockwise.Accepting :=
  Sink.accepting_blockwise _ fun _ _ ↦ rfl

theorem Holds.into (h : b.Holds start out) (r : Rendering w) :
    (r.into sink.blockwise b).sink.Holds start (out ++ r.text) := by
  have hrun := sink.run_blockwise b r.actions
  rw [Sink.putAll_of_accepting sink fun _ _ ↦ rfl] at hrun
  have hsink : (r.into sink.blockwise b).sink
      = (blocksOf r.actions).foldl (fun b block ↦ (sink.put b block).1) b :=
    (r.into_sink _ _).trans (congrArg Prod.fst hrun)
  rw [hsink, Rendering.text, ← flatten_blocksOf]
  exact h.foldl_store _

end Buffer

/-! ## Calls -/

/-- A writing call, by a format string of the print or of the ordered dialect. -/
structure Call (w : Width) where
  config : Config
  ordered : Bool
  template : Text w
  args : List Arg

namespace Call

variable (c : Call w)

/-- The call keeping its output as text. -/
def text : Outcome (Text w) :=
  if c.ordered then c.config.formatOrdered c.template c.args else c.config.format c.template c.args

/-- The call into a sink. -/
def into (sink : FillSink w σ) (s : σ) : Outcome σ :=
  if c.ordered then c.config.formatOrderedInto c.template c.args sink s
  else c.config.vformatInto c.template (.ofArgs c.args) sink s

/-- The call into a sink that takes padding in blocks. -/
def toSink (sink : Sink w σ) (s : σ) : Outcome σ :=
  if c.ordered then c.config.formatOrderedTo c.template c.args sink s
  else c.config.formatTo c.template c.args sink s

/-- What the call renders. -/
def rendering : Rendering w :=
  if c.ordered then c.config.renderOrdered c.template c.args
  else c.config.render c.template (.ofArgs c.args)

theorem into_eq (sink : FillSink w σ) (s : σ) : c.into sink s = c.rendering.into sink s := by
  rw [into, rendering]
  by_cases h : c.ordered
  · rw [if_pos h, if_pos h]
    rfl
  · rw [if_neg h, if_neg h]
    rfl

theorem toSink_eq (sink : Sink w σ) (s : σ) :
    c.toSink sink s = c.rendering.into sink.blockwise s := c.into_eq sink.blockwise s

theorem text_eq : c.text = c.rendering.into .text [] := c.into_eq .text []

theorem text_result : c.text.result = c.rendering.result := by
  rw [text_eq, (c.rendering.into_text []).1]

theorem text_counts : c.text.counts = c.rendering.counts := by
  rw [text_eq, (c.rendering.into_text []).2.1]

theorem text_sink : c.text.sink = c.rendering.text := by
  rw [text_eq, (c.rendering.into_text []).2.2, List.nil_append]

/-- A callback is offered the blocks of the rendering, and all of them unless it refuses one. -/
theorem toSink_callback (verdict : List (Text w) → Text w → Bool) :
    (c.toSink (.callback verdict) []).sink
        = ((Sink.callback verdict).putAll [] (blocksOf c.rendering.actions)).1 ∧
      (c.toSink (.callback verdict) []).result
        = if ((Sink.callback verdict).putAll [] (blocksOf c.rendering.actions)).2
          then c.rendering.result else .error .sink := by
  rw [toSink_eq, Rendering.into_sink, Rendering.into_result, ← Sink.run_blockwise]
  exact ⟨rfl, rfl⟩

theorem toSink_callback_true :
    (c.toSink (.callback fun _ _ ↦ true) []).sink = blocksOf c.rendering.actions := by
  rw [(c.toSink_callback _).1, Sink.putAll_callback (fun _ _ _ _ ↦ rfl), List.nil_append]

/-- What a call comes to does not depend on the sink, as long as the sink does not refuse. -/
structure SinkIndependent : Prop where
  /-- The length returned is that of the output. -/
  length : ∀ n, c.text.result = .ok n → n = c.text.sink.length
  /-- A sink that never refuses changes neither the result nor the counts stored in cells. -/
  accepting : ∀ {σ : Type} (sink : FillSink w σ) (s : σ), sink.Accepting →
    (c.into sink s).result = c.text.result ∧ (c.into sink s).counts = c.text.counts
  /-- Measuring returns the length of the output that would be written. -/
  measured : c.ordered = false →
    (c.config.formattedLength c.template c.args).result = c.text.result ∧
      (c.config.formattedLength c.template c.args).counts = c.text.counts
  /-- A buffer receives what fits before a NUL, and is not changed behind it. -/
  buffer : c.ordered = false → ∀ start : Text w,
    let o := c.config.formatToBuffer start c.template c.args
    o.result = c.text.result ∧ o.counts = c.text.counts ∧
      o.sink = if start = [] then [] else
        c.text.sink.take (start.length - 1) ++
          .nul w :: start.drop (min c.text.sink.length (start.length - 1) + 1)
  /-- The blocks a callback receives, none being refused, are the output. -/
  blocks : (c.toSink (.callback fun _ _ ↦ true) []).sink.flatten = c.text.sink
  /-- A callback that refuses a block is not called again, and nothing is reported. -/
  refused : ∀ (verdict : List (Text w) → Text w → Bool) (before after : List (Text w)) (b : Text w),
    (c.toSink (.callback fun _ _ ↦ true) []).sink = before ++ b :: after →
    Sink.AcceptsAll verdict [] before → verdict before b = false →
    (c.toSink (.callback verdict) []).result = .error .sink ∧
      (c.toSink (.callback verdict) []).sink = before ++ [b] ∧
      (c.toSink (.callback verdict) []).diagnostics = []

theorem length_of_result {n : Nat} (h : c.text.result = .ok n) : n = c.text.sink.length := by
  rw [text_result] at h
  rw [text_sink]
  exact (Rendering.length_of_result h).symm

theorem into_of_accepting {sink : FillSink w σ} (h : sink.Accepting) (s : σ) :
    (c.into sink s).result = c.text.result ∧ (c.into sink s).counts = c.text.counts := by
  obtain ⟨hresult, hcounts, -⟩ := h.into_eq c.rendering s
  rw [into_eq, text_result, text_counts]
  exact ⟨hresult, hcounts⟩

theorem toSink_buffer_holds {start out : Text w} {b : Buffer w} (h : b.Holds start out) :
    (c.toSink Buffer.sink b).sink.Holds start (out ++ c.text.sink) := by
  rw [toSink_eq, text_sink]
  exact h.into _

theorem formatToBuffer_eq (h : c.ordered = false) (start : Text w) :
    c.config.formatToBuffer start c.template c.args
      = { c.toSink Buffer.sink (Buffer.mk start 0 false) with
          sink := (c.toSink Buffer.sink (Buffer.mk start 0 false)).sink.finish } := by
  rw [toSink, h]
  rfl

theorem toSink_buffer_finish (start : Text w) :
    (c.toSink Buffer.sink (Buffer.mk start 0 false)).sink.finish
      = if start = [] then [] else
        c.text.sink.take (start.length - 1) ++
          .nul w :: start.drop (min c.text.sink.length (start.length - 1) + 1) := by
  have hholds := c.toSink_buffer_holds (Buffer.holds_nil start)
  rw [List.nil_append] at hholds
  split
  · next hnil =>
    have hlength : (c.toSink Buffer.sink (Buffer.mk start 0 false)).sink.units = [] := by
      rw [← List.length_eq_zero_iff, hholds.length_units, hnil, List.length_nil]
    rw [Buffer.finish, hlength, List.set_nil]
  · next hne => rw [hholds.finish_eq hne, hholds.stored]

theorem refused_block {verdict : List (Text w) → Text w → Bool} {before after : List (Text w)}
    {b : Text w} (hblocks : blocksOf c.rendering.actions = before ++ b :: after)
    (hbefore : Sink.AcceptsAll verdict [] before) (hrefused : verdict before b = false) :
    (c.toSink (.callback verdict) []).result = .error .sink ∧
      (c.toSink (.callback verdict) []).sink = before ++ [b] ∧
      (c.toSink (.callback verdict) []).diagnostics = [] := by
  obtain ⟨hsink, hresult⟩ := c.toSink_callback verdict
  rw [hblocks, Sink.putAll_callback_refused hbefore hrefused] at hsink hresult
  refine ⟨hresult, hsink, ?_⟩
  rw [Outcome.diagnostics, hresult]
  rfl

/-- Calls into one buffer take their outputs in, one behind the other. -/
theorem foldl_toSink_buffer_holds (calls : List (Call w)) {start out : Text w} {b : Buffer w}
    (h : b.Holds start out) :
    (calls.foldl (fun b c ↦ (c.toSink Buffer.sink b).sink) b).Holds start
      (out ++ calls.flatMap (·.text.sink)) := by
  induction calls generalizing out b with
  | nil => rwa [List.flatMap_nil, List.append_nil]
  | cons c rest ih =>
    rw [List.flatMap_cons, ← List.append_assoc]
    exact ih (c.toSink_buffer_holds h)

end Call

/-- **Sinks agree.** Every call returns the same and stores the same counts whatever its sink, and
what the sinks receive is the one output; several calls into one buffer fill it with their outputs
one behind the other. -/
theorem writing_independent_of_sink :
    (∀ c : Call w, c.SinkIndependent) ∧
      ∀ (start : Text w) (calls : List (Call w)),
        (calls.foldl (fun b c ↦ (c.toSink Buffer.sink b).sink)
          (Buffer.mk start 0 false)).Holds start (calls.flatMap (·.text.sink)) := by
  constructor
  · intro c
    exact {
      length := fun _ ↦ c.length_of_result
      accepting := fun _ s h ↦ c.into_of_accepting h s
      measured := by
        intro hordered
        have hinto := c.into_of_accepting FillSink.accepting_null ()
        rwa [Call.into, hordered] at hinto
      buffer := by
        intro hordered start
        have hinto := c.into_of_accepting Buffer.accepting_sink (Buffer.mk start 0 false)
        rw [c.into_eq, ← c.toSink_eq] at hinto
        rw [c.formatToBuffer_eq hordered]
        exact ⟨hinto.1, hinto.2, c.toSink_buffer_finish start⟩
      blocks := by
        rw [c.toSink_callback_true, flatten_blocksOf, c.text_sink]
        rfl
      refused := by
        intro verdict before after b hblocks hbefore hrefused
        rw [c.toSink_callback_true] at hblocks
        exact c.refused_block hblocks hbefore hrefused }
  · intro start calls
    simpa using Call.foldl_toSink_buffer_holds calls (Buffer.holds_nil start)

end FormatString
