import FormatString.Writer.Ordered
import FormatString.Writer.Sink

/-!
# Writing calls

The calls by which values are written according to a format string: into any sink, as text, into a
buffer, or only to learn the length. The ordered ones take a format string that names its arguments.
-/

namespace FormatString.Config

variable {w : Width} {σ : Type} (config : Config)

/-- Writes into a sink, taking arguments from a cursor; the outcome holds the cursor behind them. -/
def vformatInto (template : Text w) (cursor : Cursor) (sink : FillSink w σ) (s : σ) : Outcome σ :=
  (config.render template cursor).into sink s

/-- Writes into a sink that takes padding in blocks. -/
def formatTo (template : Text w) (args : List Arg) (sink : Sink w σ) (s : σ) : Outcome σ :=
  config.vformatInto template (.ofArgs args) sink.blockwise s

/-- Writes a text, taking arguments from a cursor. -/
def vformat (template : Text w) (cursor : Cursor) : Outcome (Text w) :=
  config.vformatInto template cursor .text []

/-- Writes a text; after an error it holds what was written before. -/
def format (template : Text w) (args : List Arg) : Outcome (Text w) :=
  config.vformat template (.ofArgs args)

/-- Writes into a buffer and ends the text by a NUL. The result is the length of the whole output,
whatever the buffer could hold. -/
def formatToBuffer (buffer : Text w) (template : Text w) (args : List Arg) : Outcome (Text w) :=
  let o := config.formatTo template args Buffer.sink (Buffer.mk buffer 0 false)
  { o with sink := o.sink.finish }

/-- The length of the output, without building it. -/
def formattedLength (template : Text w) (args : List Arg) : Outcome Unit :=
  config.vformatInto template (.ofArgs args) .null ()

/-- Writes into a sink, by a format string that names its arguments. -/
def formatOrderedInto (template : Text w) (args : List Arg) (sink : FillSink w σ) (s : σ) :
    Outcome σ :=
  (config.renderOrdered template args).into sink s

/-- Writes into a sink that takes padding in blocks, by a format string that names its arguments. -/
def formatOrderedTo (template : Text w) (args : List Arg) (sink : Sink w σ) (s : σ) : Outcome σ :=
  config.formatOrderedInto template args sink.blockwise s

/-- Writes a text, by a format string that names its arguments. -/
def formatOrdered (template : Text w) (args : List Arg) : Outcome (Text w) :=
  config.formatOrderedInto template args .text []

end FormatString.Config
