import FormatString.Writer.Rendering

/-!
# Sinks

A sink takes the blocks of an output one after another and may refuse one; what it has become by
then is kept. Padding reaches it in blocks too, unless it is a `FillSink`, which is told the unit
and the count instead. `Rendering.into` hands a rendering to a sink. After a refusal nothing more is
put out or stored, and the call fails whatever the rendering would have come to.
-/

namespace FormatString

variable {w : Width} {σ : Type}

/-- A destination of output, `σ` being what it remembers. -/
structure Sink (w : Width) (σ : Type) where
  /-- Takes a block; the flag tells whether it was accepted. -/
  put : σ → Text w → σ × Bool

/-- A sink with a way of its own to take padding. -/
structure FillSink (w : Width) (σ : Type) extends Sink w σ where
  /-- Takes a unit so many times over; the flag tells whether all of it was accepted. -/
  fill : σ → CodeUnit w → Nat → σ × Bool

namespace Sink

variable (sink : Sink w σ)

/-- Hands over blocks until one is refused. -/
def putAll (s : σ) : List (Text w) → σ × Bool
  | [] => (s, true)
  | b :: rest =>
    match sink.put s b with
    | (s, true) => putAll s rest
    | (s, false) => (s, false)

/-- The sink taking padding in blocks. -/
def blockwise : FillSink w σ :=
  { sink with fill := fun s unit count ↦ sink.putAll s (Chunk.fillBlocks unit count) }

end Sink

/-! ## Handing over -/

/-- What has become of a sink and of the cells. -/
structure Delivery (σ : Type) where
  sink : σ
  counts : List (Nat × Nat)
  /-- Everything was accepted. -/
  accepted : Bool

namespace FillSink

variable (sink : FillSink w σ)

/-- Hands over a chunk. -/
def offer (s : σ) : Chunk w → σ × Bool
  | .units text => sink.put s text
  | .fill unit count => sink.fill s unit count

/-- Carries out actions until a chunk is refused. -/
def run (s : σ) : List (Action w) → Delivery σ
  | [] => ⟨s, [], true⟩
  | .put chunk :: rest =>
    match sink.offer s chunk with
    | (s, true) => run s rest
    | (s, false) => ⟨s, [], false⟩
  | .count cell units :: rest =>
    let after := run s rest
    { after with counts := (cell, units) :: after.counts }

end FillSink

/-- The outcome of a writing call. -/
structure Outcome (σ : Type) where
  /-- The length of the whole output, or the error. -/
  result : Except FormatError Nat
  sink : σ
  /-- The counts stored, each with its cell, in order. -/
  counts : List (Nat × Nat)
  /-- The arguments that were left. -/
  source : ArgSource

/-- The diagnostics of a writing call. -/
def Outcome.diagnostics (o : Outcome σ) : List Diagnostic :=
  match o.result with
  | .ok _ => []
  | .error e => e.diagnostic?.toList

/-- Hands over the output of one piece after another. -/
def deliverSteps (sink : FillSink w σ) (r : Rendering w) (s : σ) : List (Step w) → Outcome σ
  | [] => ⟨r.result, s, [], r.source⟩
  | step :: rest =>
    let done := sink.run s step.actions
    if done.accepted then
      let after := deliverSteps sink r done.sink rest
      { after with counts := done.counts ++ after.counts }
    else ⟨.error .sink, done.sink, done.counts, step.source⟩

/-- Hands a rendering to a sink. -/
def Rendering.into (r : Rendering w) (sink : FillSink w σ) (s : σ) : Outcome σ :=
  deliverSteps sink r s r.steps

/-! ## Sinks without bounds -/

/-- A text that grows. -/
def FillSink.text : FillSink w (Text w) where
  put s block := (s ++ block, true)
  fill s unit count := (s ++ List.replicate count unit, true)

/-- Drops everything. -/
def FillSink.null : FillSink w Unit where
  put _ _ := ((), true)
  fill _ _ _ := ((), true)

/-! ## Callbacks -/

/-- A function that is called with each block and may refuse it. Whatever it remembers of earlier
calls it has from their blocks, so the log of these is its state. -/
def Sink.callback (verdict : List (Text w) → Text w → Bool) : Sink w (List (Text w)) :=
  ⟨fun log block ↦ (log ++ [block], verdict log block)⟩

/-! ## Buffers -/

/-- A buffer of fixed size that keeps its last unit free for the NUL and drops what does not fit. -/
structure Buffer (w : Width) where
  units : Text w
  /-- The number of units stored. -/
  stored : Nat := 0
  /-- Something did not fit. -/
  truncated : Bool := false

namespace Buffer

/-- Stores as much of a block as there is room for. -/
def store (b : Buffer w) (block : Text w) : Buffer w :=
  let kept := block.take (b.units.length - 1 - b.stored)
  { units := b.units.take b.stored ++ kept ++ b.units.drop (b.stored + kept.length)
    stored := b.stored + kept.length
    truncated := b.truncated || kept.length < block.length }

/-- The buffer as a sink that accepts everything. -/
def sink : Sink w (Buffer w) := ⟨fun b block ↦ (b.store block, true)⟩

/-- The units of the buffer after the stored text has been ended by a NUL. -/
def finish (b : Buffer w) : Text w := b.units.set b.stored (.nul w)

end Buffer

/-- A byte store of limited capacity that refuses a block that does not fit, after keeping as much
of it as does. -/
structure ByteStore where
  capacity : Nat
  bytes : Text .utf8 := []

/-- The store as a sink. -/
def ByteStore.sink : Sink .utf8 ByteStore where
  put b block :=
    let kept := block.take (b.capacity - b.bytes.length)
    ({ b with bytes := b.bytes ++ kept }, kept.length == block.length)

end FormatString
