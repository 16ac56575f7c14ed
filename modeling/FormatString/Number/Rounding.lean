/-!
# Rounding a quotient

`roundHalfEven n d` is the natural number nearest to `n / d`, the even one of two when both are
equally near. All conversions between binary and decimal in this library round once, and by this
function.
-/

namespace FormatString

/-- `n / d` rounded to the nearest natural number, a tie to the even one. -/
def roundHalfEven (n d : Nat) : Nat :=
  let q := n / d
  let r := n % d
  if 2 * r > d ∨ (2 * r = d ∧ q % 2 = 1) then q + 1 else q

theorem roundHalfEven_eq_or (n d : Nat) :
    roundHalfEven n d = n / d ∨ roundHalfEven n d = n / d + 1 := by
  dsimp only [roundHalfEven]
  split
  · exact .inr rfl
  · exact .inl rfl

end FormatString
