import Mathlib
import FormatString.Proofs.Number.Separation

/-!
# The nearest multiple

What rounding at a place yields is described without rounding: of all multiples of the place it is
the nearest, and the even one of two that are equally near. There is only one such multiple, so
whoever rounds in this way finds the same digits.

The place of the last of so many significant digits is counted from the first digit of the number
itself, even where rounding carries into a new digit.
-/

namespace FormatString

/-- The multiple `m * u` is the nearest to `q`. Where another is as near as it, `m` is even. -/
structure IsNearestMultiple (u q : ℚ) (m : Nat) : Prop where
  nearest : ∀ k : Int, |m * u - q| ≤ |k * u - q|
  even : ∀ k : Int, k ≠ m → |k * u - q| = |m * u - q| → Even m

namespace IsNearestMultiple

variable {u q : ℚ} {m m' : Nat}

/-- One half of the spacing is near enough. -/
theorem of_le_half (hu : 0 < u) (hle : |m * u - q| ≤ u / 2) (htie : |m * u - q| = u / 2 → Even m) :
    IsNearestMultiple u q m := by
  have hfar (k : Int) (hk : k ≠ m) : u / 2 ≤ |k * u - q| := by
    have hone : (1 : ℚ) ≤ |(k : ℚ) - m| := by
      exact_mod_cast Int.one_le_abs (sub_ne_zero.mpr hk)
    have hspacing : u ≤ |(k : ℚ) * u - m * u| := by
      rw [← sub_mul, abs_mul, abs_of_pos hu]
      exact le_mul_of_one_le_left hu.le hone
    have htriangle := abs_sub_le (k * u) q (m * u)
    rw [abs_sub_comm q] at htriangle
    linarith
  constructor
  · intro k
    by_cases hk : k = m
    · rw [hk, Int.cast_natCast]
    · exact hle.trans (hfar k hk)
  · intro k hk heq
    exact htie (le_antisymm hle (heq ▸ hfar k hk))

/-- **One nearest multiple**: two that are equally near would both be even, and nearer than either
is the one half-way between. -/
theorem unique (hu : u ≠ 0) (h : IsNearestMultiple u q m) (h' : IsNearestMultiple u q m') :
    m = m' := by
  by_contra hne
  have heq : |(m' : ℚ) * u - q| = |m * u - q| :=
    le_antisymm (by exact_mod_cast h'.nearest m) (by exact_mod_cast h.nearest m')
  obtain ⟨a, rfl⟩ := h.even m' (by exact_mod_cast Ne.symm hne) (by exact_mod_cast heq)
  obtain ⟨b, rfl⟩ := h'.even (a + a : Nat) (by exact_mod_cast hne) (by exact_mod_cast heq.symm)
  push_cast at heq
  obtain hsame | hopposite := abs_eq_abs.mp heq
  · have hab : (b : ℚ) = a := by
      have hmul : (b : ℚ) * u = a * u := by linarith
      exact mul_right_cancel₀ hu hmul
    exact hne (by rw [Nat.cast_inj.mp hab])
  · have hmiddle := h.nearest (a + b)
    push_cast at hmiddle
    have hzero : ((a : ℚ) + b) * u - q = 0 := by linarith
    rw [hzero, abs_zero] at hmiddle
    have hexact : ((a : ℚ) + a) * u - q = 0 := abs_nonpos_iff.mp hmiddle
    have hab : (a : ℚ) = b := by
      have hmul : (a : ℚ) * u = b * u := by linarith
      exact mul_right_cancel₀ hu hmul
    exact hne (by rw [Nat.cast_inj.mp hab])

end IsNearestMultiple

namespace Decimal

/-! ## Rounding at a place -/

/-- At a tie the number is even. -/
theorem even_roundAt_of_tie {n : Nat} {e : Int} (h : |(roundAt n e : ℚ) - n * 10 ^ e| = 1 / 2) :
    Even (roundAt n e) := by
  have hpos : 0 < 10 ^ (-e).toNat := Nat.pow_pos (Nat.succ_pos 9)
  have hpos' : (0 : ℚ) < 10 ^ (-e).toNat := by positivity
  have hscaled : |(roundAt n e * 10 ^ (-e).toNat : ℚ) - n * 10 ^ e.toNat|
      = 10 ^ (-e).toNat / 2 := by
    rw [← ten_zpow_mul e, ← mul_assoc, ← sub_mul, abs_mul, h, abs_of_pos hpos']
    ring
  refine even_roundHalfEven_of_tie (n := n * 10 ^ e.toNat) hpos ?_
  change 2 * (n * 10 ^ e.toNat) = 2 * (roundAt n e * 10 ^ (-e).toNat) + 10 ^ (-e).toNat ∨
    2 * (roundAt n e * 10 ^ (-e).toNat) = 2 * (n * 10 ^ e.toNat) + 10 ^ (-e).toNat
  obtain habove | hbelow := eq_or_eq_neg_of_abs_eq hscaled
  · right
    have hcast : (2 * (roundAt n e * 10 ^ (-e).toNat) : ℚ)
        = 2 * (n * 10 ^ e.toNat) + 10 ^ (-e).toNat := by linarith
    exact_mod_cast hcast
  · left
    have hcast : (2 * (n * 10 ^ e.toNat) : ℚ)
        = 2 * (roundAt n e * 10 ^ (-e).toNat) + 10 ^ (-e).toNat := by linarith
    exact_mod_cast hcast

variable {F : BinaryFormat} {x : Binary F}

/-- **Rounding** at a place finds the nearest multiple of the place. -/
theorem isNearestMultiple_roundAt (x : Binary F) (k : Int) :
    IsNearestMultiple (10 ^ (-k)) x.magnitude (roundAt x.expansion (k - F.scale)) := by
  have hten : (10 : ℚ) ≠ 0 := by norm_num
  have hpos : (0 : ℚ) < 10 ^ (-k) := by positivity
  have hunit : (10 : ℚ) ^ k * 10 ^ (-k) = 1 := by rw [← zpow_add₀ hten, add_neg_cancel, zpow_zero]
  have hscaled : |(roundAt x.expansion (k - F.scale) : ℚ) * 10 ^ (-k) - x.magnitude|
      = |(roundAt x.expansion (k - F.scale) : ℚ) - x.magnitude * 10 ^ k| * 10 ^ (-k) := by
    rw [← abs_of_pos hpos, ← abs_mul, abs_of_pos hpos, sub_mul, mul_assoc, hunit, mul_one]
  have herror := roundAt_expansion_error x k
  refine .of_le_half hpos ?_ fun htie ↦ ?_
  · rw [hscaled]
    calc |(roundAt x.expansion (k - F.scale) : ℚ) - x.magnitude * 10 ^ k| * 10 ^ (-k)
        ≤ 1 / 2 * 10 ^ (-k) := by gcongr
      _ = 10 ^ (-k) / 2 := by ring
  · refine even_roundAt_of_tie ?_
    have hplace : (10 : ℚ) ^ (k - F.scale) = 10 ^ (-(F.scale : Int)) * 10 ^ k := by
      rw [← zpow_add₀ hten, neg_add_eq_sub]
    rw [hplace, ← mul_assoc, ← x.magnitude_eq]
    rw [hscaled] at htie
    have hhalf : |(roundAt x.expansion (k - F.scale) : ℚ) - x.magnitude * 10 ^ k| * 10 ^ (-k)
        = 1 / 2 * 10 ^ (-k) := by rw [htie]; ring
    exact mul_right_cancel₀ hpos.ne' hhalf

end Decimal

/-! ## The first digit -/

/-- The place of the first digit. -/
theorem int_log_digits {n : Nat} (hn : n ≠ 0) (e : Int) :
    Int.log 10 ((n : ℚ) * 10 ^ e) = (digitsOf .decimal n).length + e - 1 := by
  obtain ⟨hle, hlt⟩ := Binary.decimal_bounds hn e
  have hpos : (0 : ℚ) < n * 10 ^ e := lt_of_lt_of_le (by positivity) hle
  have hlower : ((digitsOf .decimal n).length : Int) + e - 1 ≤ Int.log 10 ((n : ℚ) * 10 ^ e) :=
    (Int.zpow_le_iff_le_log (by decide) hpos).mp hle
  have hupper : Int.log 10 ((n : ℚ) * 10 ^ e) < (digitsOf .decimal n).length + e :=
    (Int.lt_zpow_iff_log_lt (by decide) hpos).mp hlt
  omega

namespace Decimal

variable {F : BinaryFormat} {x : Binary F}

/-- **Fractional digits** are those of the nearest multiple of the last place. -/
theorem exists_fractional (hx : x.isFinite) (p : Nat) :
    ∃ m, IsNearestMultiple (10 ^ (-(p : Int))) x.magnitude m ∧
      ofBinary x (.fractional p) = if m = 0 then ⟨x.negative, .finite, [0], 0⟩
        else ⟨x.negative, .finite, digitsOf .decimal m, (digitsOf .decimal m).length - 1 - p⟩ := by
  refine ⟨_, isNearestMultiple_roundAt x p, ?_⟩
  rw [ofBinary_fractional hx, fractionalDigits]
  dsimp only
  split <;> rfl

/-- **Significant digits** are those of the nearest multiple of the last place, also where rounding
carries. -/
theorem exists_significant (hx : x.isFinite) (hzero : x.magnitude ≠ 0) (p : Nat) :
    ∃ (m k : Nat) (e : Int), m ≠ 0 ∧
      ofBinary x (.significant (p + 1)) = ⟨x.negative, .finite, digitsOf .decimal m, e⟩ ∧
      (digitsOf .decimal m).length = p + 1 ∧
      IsNearestMultiple (10 ^ (Int.log 10 x.magnitude - p)) x.magnitude k ∧
      (m : ℚ) * 10 ^ (e - p) = k * 10 ^ (Int.log 10 x.magnitude - p) := by
  have hten : (10 : ℚ) ≠ 0 := by norm_num
  have hn := Binary.expansion_ne_zero hzero
  have hmax : max (p + 1) 1 = p + 1 := Nat.max_eq_left (Nat.le_add_left 1 p)
  obtain ⟨m, e, hm, hdigits, hlength, -, carry, he, hcarry⟩ :=
    exists_significantDigits F.scale p hn
  have hlog : Int.log 10 x.magnitude = (digitsOf .decimal x.expansion).length - F.scale - 1 := by
    rw [x.magnitude_eq, int_log_digits hn, ← sub_eq_add_neg]
  have hplace : (p : Int) - Int.log 10 x.magnitude - F.scale
      = p + 1 - (digitsOf .decimal x.expansion).length := by
    rw [hlog]
    ring
  have hnearest := isNearestMultiple_roundAt x (p - Int.log 10 x.magnitude)
  rw [neg_sub, hplace, hcarry] at hnearest
  refine ⟨m, m * 10 ^ carry, e, hm, ?_, hlength, hnearest, ?_⟩
  · rw [ofBinary_significant hx, hmax, hdigits]
  · have hshift : e - p = carry + (Int.log 10 x.magnitude - p) := by
      rw [he, hlog]
      ring
    rw [hshift, zpow_add₀ hten, zpow_natCast]
    push_cast
    ring

end Decimal

end FormatString
