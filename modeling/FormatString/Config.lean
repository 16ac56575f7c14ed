import FormatString.Text.Quoted
import FormatString.Diagnostic

/-!
# Settings of a call
-/

namespace FormatString

/-- The settings of a call. -/
structure Config where
  /-- Receives the diagnostics in place of the receiver of the process. -/
  receiver : Option Receiver := none
  /-- Stands between the digit groups of the `'` flag. -/
  separator : Char := ','
  /-- The most distinct slots a format string of the ordered dialect may name. -/
  slotLimit : Nat := 21

/-- The settings as text; of a receiver it is only shown that there is one. -/
def Config.text (c : Config) : String :=
  let receiver := if c.receiver.isSome then "Some(\"custom\")" else "None"
  "Config \x7b hook: " ++ receiver ++ ", group_separator: " ++ quoteChar c.separator ++
    ", slot_limit: " ++ toString c.slotLimit ++ " \x7d"

end FormatString
