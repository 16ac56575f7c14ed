import Mathlib
import FormatString.Proofs.Number.Nearest
import FormatString.Proofs.Number.Significant

/-!
# Digits that tell a value apart

A binary value rounded to enough significant digits is still close to what it was. The first digit
is not zero, so one half of the last place is a small part of the number, whatever its size; two
times the number of ranks of a binade below the power of ten that stands for the places behind the
first digit is enough. Behind the point there may be no such number of places, but a value that ends
within them is not rounded at all.
-/

namespace FormatString

variable {F : BinaryFormat} {x : Binary F}

/-- The magnitude of the digits. -/
def Decimal.magnitude (x : Decimal) : ℚ :=
  valueOf .decimal x.digits * 10 ^ (x.exponent + 1 - x.digits.length)

theorem Binary.magnitude_eq (x : Binary F) :
    x.magnitude = x.expansion * 10 ^ (-(F.scale : Int)) := by
  have hpow : (10 : ℚ) ^ F.scale = 2 ^ F.scale * 5 ^ F.scale := by rw [← mul_pow]; norm_num
  have hexpansion : (x.expansion : ℚ) = F.units x.rank * 5 ^ F.scale := by
    rw [expansion]
    exact_mod_cast rfl
  rw [magnitude, hexpansion, zpow_neg, zpow_natCast, hpow]
  field_simp

theorem Binary.expansion_ne_zero (hx : x.magnitude ≠ 0) : x.expansion ≠ 0 := by
  intro hzero
  rw [x.magnitude_eq, hzero, Nat.cast_zero, zero_mul] at hx
  exact hx rfl

namespace Decimal

/-- Rounding at a place is off by one half of that place at most. -/
theorem roundAt_error (n : Nat) (e : Int) : |(roundAt n e : ℚ) - n * 10 ^ e| ≤ 1 / 2 := by
  have hpos : 0 < 10 ^ (-e).toNat := Nat.pow_pos (Nat.succ_pos 9)
  obtain ⟨hle, hge⟩ : 2 * (n * 10 ^ e.toNat) ≤ 2 * (roundAt n e * 10 ^ (-e).toNat)
      + 10 ^ (-e).toNat ∧ 2 * (roundAt n e * 10 ^ (-e).toNat) ≤ 2 * (n * 10 ^ e.toNat)
      + 10 ^ (-e).toNat := roundHalfEven_error _ hpos
  have hle' : 2 * ((n : ℚ) * 10 ^ e.toNat) ≤ 2 * (roundAt n e * 10 ^ (-e).toNat)
      + 10 ^ (-e).toNat := by exact_mod_cast hle
  have hge' : 2 * ((roundAt n e : ℚ) * 10 ^ (-e).toNat) ≤ 2 * (n * 10 ^ e.toNat)
      + 10 ^ (-e).toNat := by exact_mod_cast hge
  have hpos' : (0 : ℚ) < 10 ^ (-e).toNat := by positivity
  rw [← ten_zpow_mul e, ← mul_assoc (n : ℚ)] at hle' hge'
  refine abs_le.mpr ⟨?_, ?_⟩ <;> refine le_of_mul_le_mul_right ?_ hpos' <;> linarith

/-- The same for a value in multiples of its smallest decimal place. -/
theorem roundAt_expansion_error (x : Binary F) (k : Int) :
    |(roundAt x.expansion (k - F.scale) : ℚ) - x.magnitude * 10 ^ k| ≤ 1 / 2 := by
  have hten : (10 : ℚ) ≠ 0 := by norm_num
  have herror := roundAt_error x.expansion (k - F.scale)
  have hplace : (10 : ℚ) ^ (k - F.scale) = 10 ^ (-(F.scale : Int)) * 10 ^ k := by
    rw [← zpow_add₀ hten, neg_add_eq_sub]
  rwa [hplace, ← mul_assoc, ← x.magnitude_eq] at herror

/-- **Enough significant digits** are close to the value. -/
theorem isNear_significant (hx : x.isFinite) {p : Nat} (hp : 2 * F.binade < 10 ^ p) :
    x.IsNear (ofBinary x (.significant (p + 1))).magnitude := by
  have hmax : max (p + 1) 1 = p + 1 := Nat.max_eq_left (Nat.le_add_left 1 p)
  rw [ofBinary_significant hx, hmax]
  by_cases hzero : x.expansion = 0
  · left
    rw [x.magnitude_eq, hzero, significantDigits_zero, magnitude]
    dsimp only
    rw [← List.append_nil (List.replicate _ 0), valueOf_replicate_zero]
    simp [valueOf]
  · right
    obtain ⟨m, e, hne, hdigits, hlength, hm, -⟩ := exists_significantDigits F.scale p hzero
    rw [hdigits, magnitude]
    dsimp only
    rw [hlength, valueOf_digitsOf]
    -- Counted in the last place, the digits are a large number and off by one half at most.
    have herror := roundAt_expansion_error x (p - e)
    rw [← hm] at herror
    have hlarge : 2 * F.binade + 1 ≤ m :=
      hp.trans_le ((length_digitsOf_iff .decimal hne).mp hlength).1
    have hlarge' : 2 * (F.binade : ℚ) + 1 ≤ m := by exact_mod_cast hlarge
    have hnear : 4 * F.binade * |(m : ℚ) - x.magnitude * 10 ^ ((p : Int) - e)|
        < x.magnitude * 10 ^ ((p : Int) - e) :=
      calc 4 * F.binade * |(m : ℚ) - x.magnitude * 10 ^ ((p : Int) - e)|
          ≤ 4 * F.binade * (1 / 2) := by gcongr
        _ < m - 1 / 2 := by linarith
        _ ≤ x.magnitude * 10 ^ ((p : Int) - e) := by
          have := le_abs_self ((m : ℚ) - x.magnitude * 10 ^ ((p : Int) - e))
          linarith
    have hpos : (0 : ℚ) < 10 ^ ((p : Int) - e) := by positivity
    have hplace : e + 1 - ((p + 1 : Nat) : Int) = -((p : Int) - e) := by push_cast; ring
    have hdistance : |(m : ℚ) * 10 ^ (e + 1 - ((p + 1 : Nat) : Int)) - x.magnitude|
        = |(m : ℚ) - x.magnitude * 10 ^ ((p : Int) - e)| / 10 ^ ((p : Int) - e) := by
      rw [← abs_of_pos hpos, ← abs_div, abs_of_pos hpos, sub_div, mul_div_cancel_right₀ _ hpos.ne',
        hplace, zpow_neg, div_eq_mul_inv]
    rw [hdistance, ← mul_div_assoc]
    exact (div_lt_iff₀ hpos).mpr hnear

/-- **A value that ends within the places behind the point** is shown as it is. -/
theorem magnitude_fractional (hx : x.isFinite) {p n : Nat} (h : x.magnitude * 10 ^ p = n) :
    (ofBinary x (.fractional p)).magnitude = x.magnitude := by
  have hrounded : roundAt x.expansion (p - F.scale) = n := by
    have herror := roundAt_expansion_error x p
    rw [zpow_natCast, h] at herror
    have hlt : |(roundAt x.expansion (p - F.scale) : Int) - n| < 1 := by
      have hcast : |(roundAt x.expansion (p - F.scale) : ℚ) - n| < 1 := by linarith
      exact_mod_cast hcast
    have hbounds := abs_lt.mp hlt
    omega
  have hpos : (0 : ℚ) < 10 ^ p := by positivity
  rw [ofBinary_fractional hx, fractionalDigits, hrounded, eq_div_of_mul_eq hpos.ne' h]
  dsimp only
  split
  · next hzero =>
    subst hzero
    simp [magnitude, valueOf]
  · have hplace (length : Int) : length - 1 - p + 1 - length = -(p : Int) := by ring
    rw [magnitude]
    dsimp only
    rw [hplace, valueOf_digitsOf, zpow_neg, zpow_natCast, div_eq_mul_inv]

end Decimal

end FormatString
