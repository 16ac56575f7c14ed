import FormatString.Text.Printable
import FormatString.Number.Radix

/-!
# Quoted characters

The form in which a setting shows a character: in single quotes, with a backslash in front of the
quote and of itself, the usual letters for line breaks, tabs and NUL, and the code point in braces
for everything else that has no picture of its own.
-/

namespace FormatString

/-- The characters between the quotes. -/
def escapeChar (c : Char) : List Char :=
  if c = '\x00' then ['\\', '0']
  else if c = '\t' then ['\\', 't']
  else if c = '\n' then ['\\', 'n']
  else if c = '\r' then ['\\', 'r']
  else if c = '\'' ∨ c = '\\' then ['\\', c]
  else if isPrintable c then [c]
  else
    ['\\', 'u', '\x7b'] ++ (digitsOf .hexadecimal c.toNat).map (digitChar false) ++ ['\x7d']

/-- The character in single quotes. -/
def quoteChar (c : Char) : String := String.ofList ('\'' :: escapeChar c ++ ['\''])

end FormatString
