import Mathlib
import FormatString.Number.FloatText
import FormatString.Proofs.Number.Rounding

/-!
# What is read as a given binary value

A decimal that is close to a finite binary value is read as that value. Close means that the two
differ by less than the value over four times the number of ranks of a binade: that is half the
spacing above the value at its largest, and below a power of two, where the spacing is only half as
wide, it is still half of that one.

Rounding picks the spacing by the size of the decimal, so just below a power of two it works with
the finer one. `nearestRank_eq_of_near` has this one case apart, and there the decimal is rounded up
to the first rank of the next binade. The largest finite value needs no case: its upper neighbour is
the rank of the infinity, and what is close to the value is not rounded there.
-/

namespace FormatString

/-! ## Spacings -/

/-- The shift that leaves `b + 1` bits of a quotient. -/
theorem log2_div_sub {s d b k : Nat} (hlt : s < 2 ^ (b + k + 1) * d)
    (hle : k = 0 ∨ 2 ^ (b + k) * d ≤ s) : Nat.log2 (s / d) - b = k := by
  have hd : 0 < d := Nat.pos_of_mul_pos_left (Nat.zero_lt_of_lt hlt)
  have hupper : Nat.log2 (s / d) < b + k + 1 := by
    by_cases hzero : s / d = 0
    · rw [hzero]
      exact Nat.succ_pos _
    · exact (Nat.log2_lt hzero).mpr ((Nat.div_lt_iff_lt_mul hd).mpr hlt)
  obtain rfl | hle := hle
  · omega
  · have hdiv : 2 ^ (b + k) ≤ s / d := (Nat.le_div_iff_mul_le hd).mpr hle
    have hpos : s / d ≠ 0 := (lt_of_lt_of_le (Nat.two_pow_pos _) hdiv).ne'
    have hlower := (Nat.le_log2 hpos).mpr hdiv
    omega

/-- **Rounding** `s / d`, which is close to `m * 2 ^ k`: the spacing that is picked is `2 ^ k`, or
half of that where `m * 2 ^ k` is a power of two and `s / d` is below it. -/
theorem exists_shift_of_near {b m k s d : Nat} (hm : m < 2 * 2 ^ b) (hk : k = 0 ∨ 2 ^ b ≤ m)
    (hbelow : 4 * 2 ^ b * s < 4 * 2 ^ b * (m * (d * 2 ^ k)) + m * (d * 2 ^ k))
    (habove : 4 * 2 ^ b * (m * (d * 2 ^ k)) < 4 * 2 ^ b * s + m * (d * 2 ^ k)) :
    ∃ j, Nat.log2 (s / d) - b = j ∧ j * 2 ^ b + roundHalfEven s (d * 2 ^ j) = k * 2 ^ b + m := by
  have hpos : 0 < 2 ^ b := Nat.two_pow_pos b
  have hspacing : 0 < d * 2 ^ k := by
    refine Nat.pos_of_ne_zero fun hzero ↦ ?_
    rw [hzero] at hbelow
    omega
  -- In spacings of the binade, `s / d` is less than one half away from `m`.
  have hhalf : m * (d * 2 ^ k) < 2 * 2 ^ b * (d * 2 ^ k) := Nat.mul_lt_mul_of_pos_right hm hspacing
  have hbelow' : 2 * s < 2 * (m * (d * 2 ^ k)) + d * 2 ^ k := by nlinarith
  have habove' : 2 * (m * (d * 2 ^ k)) < 2 * s + d * 2 ^ k := by nlinarith
  have hupper : s < 2 ^ (b + k + 1) * d := by
    have hpow : 2 ^ (b + k + 1) * d = 2 * 2 ^ b * (d * 2 ^ k) := by ring
    rw [hpow]
    nlinarith
  by_cases hlower : k = 0 ∨ 2 ^ (b + k) * d ≤ s
  · refine ⟨k, log2_div_sub hupper hlower, ?_⟩
    rw [roundHalfEven_eq_of_lt hbelow' habove']
  · obtain ⟨hk0, hlower⟩ := not_or.mp hlower
    obtain ⟨j, rfl⟩ := Nat.exists_eq_succ_of_ne_zero hk0
    have hwhole : d * 2 ^ j.succ = 2 * (d * 2 ^ j) := by rw [pow_succ]; ring
    have hbound : 2 ^ (b + j.succ) * d = 2 ^ b * (2 * (d * 2 ^ j)) := by rw [← hwhole]; ring
    have hhalved : 2 ^ (b + j) * d = 2 ^ b * (d * 2 ^ j) := by ring
    rw [hbound, Nat.not_le] at hlower
    rw [hwhole] at hspacing hbelow habove hhalf hbelow' habove'
    -- Above the power of two nothing close is below it.
    have hmb : m = 2 ^ b := by
      refine (hk.resolve_left (Nat.succ_ne_zero j)).antisymm' (Nat.le_of_not_lt fun hlt ↦ ?_)
      have hnext : (2 ^ b + 1) * (2 * (d * 2 ^ j)) ≤ m * (2 * (d * 2 ^ j)) :=
        Nat.mul_le_mul_right _ hlt
      nlinarith
    rw [← hmb] at hbelow habove hlower hhalved hpos ⊢
    have hnear : 4 * (m * (d * 2 ^ j)) < 2 * s + d * 2 ^ j := by nlinarith
    refine ⟨j, log2_div_sub ?_ (.inr ?_), ?_⟩
    · rwa [Nat.add_assoc, hbound, ← hmb]
    · rw [hhalved]
      nlinarith
    · rw [roundHalfEven_eq_of_lt (q := 2 * m) (by nlinarith) (by nlinarith), Nat.succ_mul j]
      omega

namespace BinaryFormat

variable {F : BinaryFormat} {r : Nat}

/-- The values of a binade are the multiples of its spacing. -/
theorem exists_spacing (F : BinaryFormat) (r : Nat) : ∃ k m, r = k * F.binade + m ∧
    F.units r = m * 2 ^ k ∧ m < 2 * F.binade ∧ (k = 0 ∨ F.binade ≤ m) := by
  have hsplit : r = r / F.binade * F.binade + r % F.binade := (Nat.div_add_mod' r F.binade).symm
  have hmod := Nat.mod_lt r F.binade_pos
  rw [units]
  by_cases h : r / F.binade = 0
  · rw [h, Nat.zero_mul, Nat.zero_add] at hsplit
    refine ⟨0, r % F.binade, by omega, ?_, by omega, .inl rfl⟩
    rw [if_pos h, pow_zero, Nat.mul_one]
  · obtain ⟨k, hk⟩ := Nat.exists_eq_succ_of_ne_zero h
    refine ⟨k, F.binade + r % F.binade, ?_, ?_, by omega, .inr (Nat.le_add_right _ _)⟩
    · rw [hk, Nat.succ_mul] at hsplit
      omega
    · rw [if_neg h, hk]
      rfl

theorem units_eq_zero_iff : F.units r = 0 ↔ r = 0 := by
  obtain ⟨k, m, hr, hunits, -, hk⟩ := F.exists_spacing r
  have hbinade := F.binade_pos
  rw [hunits, Nat.mul_eq_zero, or_iff_left (Nat.two_pow_pos k).ne']
  constructor
  · rintro rfl
    obtain rfl | hle := hk <;> omega
  · rintro rfl
    omega

/-- A finite magnitude is not larger than the exponents allow. -/
theorem units_lt (hr : r < F.infinityRank) :
    F.units r < 2 ^ (F.fractionBits + 2 ^ F.exponentBits) := by
  obtain ⟨k, m, rfl, hunits, hm, -⟩ := F.exists_spacing r
  have hk : k < 2 ^ F.exponentBits - 1 :=
    Nat.lt_of_mul_lt_mul_right (Nat.lt_of_le_of_lt (Nat.le_add_right _ m) hr)
  calc F.units (k * F.binade + m)
      = m * 2 ^ k := hunits
    _ < 2 * F.binade * 2 ^ k := Nat.mul_lt_mul_of_pos_right hm (Nat.two_pow_pos k)
    _ = 2 ^ (F.fractionBits + (k + 1)) := by
      change 2 * 2 ^ F.fractionBits * 2 ^ k = _
      ring
    _ ≤ 2 ^ (F.fractionBits + 2 ^ F.exponentBits) := Nat.pow_le_pow_right Nat.two_pos (by omega)

/-- **Rounding** to the rank of what is close. -/
theorem nearestRank_eq_of_near {n d : Nat} (hr : r < F.infinityRank)
    (hbelow : 4 * F.binade * (n * 2 ^ F.scale) < 4 * F.binade * (F.units r * d) + F.units r * d)
    (habove : 4 * F.binade * (F.units r * d) < 4 * F.binade * (n * 2 ^ F.scale) + F.units r * d) :
    F.nearestRank n d = r := by
  obtain ⟨k, m, hsplit, hunits, hm, hk⟩ := F.exists_spacing r
  rw [hunits, Nat.mul_assoc m, Nat.mul_comm (2 ^ k)] at hbelow habove
  obtain ⟨j, hshift, hround⟩ := exists_shift_of_near hm hk hbelow habove
  change min ((Nat.log2 (n * 2 ^ F.scale / d) - F.fractionBits) * F.binade
    + roundHalfEven (n * 2 ^ F.scale) (d * 2 ^ (Nat.log2 (n * 2 ^ F.scale / d)
      - F.fractionBits))) F.infinityRank = r
  rw [hshift]
  change j * F.binade + roundHalfEven (n * 2 ^ F.scale) (d * 2 ^ j) = k * F.binade + m at hround
  rw [hround, ← hsplit]
  exact Nat.min_eq_left hr.le

end BinaryFormat

/-! ## Reading decimals -/

/-- A power of ten as the quotient of two whole ones. -/
theorem ten_zpow_mul (e : Int) : (10 : ℚ) ^ e * 10 ^ (-e).toNat = 10 ^ e.toNat := by
  have hten : (10 : ℚ) ≠ 0 := by norm_num
  rw [← zpow_natCast, ← zpow_natCast, ← zpow_add₀ hten]
  congr 1
  omega

namespace Binary

variable {F : BinaryFormat} {x : Binary F} {n : Nat} {e : Int}

/-- The magnitude of a finite value. -/
def magnitude (x : Binary F) : ℚ := F.units x.rank / 2 ^ F.scale

theorem magnitude_nonneg (x : Binary F) : 0 ≤ x.magnitude := by
  rw [magnitude]
  positivity

theorem magnitude_eq_zero_iff : x.magnitude = 0 ↔ x.rank = 0 := by
  rw [magnitude, div_eq_zero_iff, or_iff_left (by positivity), Nat.cast_eq_zero,
    BinaryFormat.units_eq_zero_iff]

/-- The smallest positive value is a power of two. -/
theorem le_magnitude (hx : x.magnitude ≠ 0) : 1 / 2 ^ F.scale ≤ x.magnitude := by
  have hunits : 1 ≤ F.units x.rank :=
    Nat.one_le_iff_ne_zero.mpr (BinaryFormat.units_eq_zero_iff.not.mpr
      (magnitude_eq_zero_iff.not.mp hx))
  rw [magnitude]
  gcongr
  exact_mod_cast hunits

theorem magnitude_lt (hx : x.isFinite) : x.magnitude < 2 ^ 2 ^ F.exponentBits := by
  have hunits := BinaryFormat.units_lt (of_decide_eq_true hx)
  have hscale : F.fractionBits ≤ F.scale := Nat.le_add_left _ _
  rw [magnitude, div_lt_iff₀ (by positivity)]
  calc (F.units x.rank : ℚ)
      < 2 ^ (F.fractionBits + 2 ^ F.exponentBits) := by exact_mod_cast hunits
    _ = 2 ^ 2 ^ F.exponentBits * 2 ^ F.fractionBits := by rw [pow_add, mul_comm]
    _ ≤ 2 ^ 2 ^ F.exponentBits * 2 ^ F.scale := by gcongr; norm_num

/-- The number is the magnitude of the value, or close to it. -/
def IsNear (x : Binary F) (q : ℚ) : Prop :=
  q = x.magnitude ∨ 4 * F.binade * |q - x.magnitude| < x.magnitude

variable {q : ℚ}

theorem IsNear.lt (h : x.IsNear q) (hx : x.magnitude ≠ 0) :
    4 * F.binade * |q - x.magnitude| < x.magnitude := by
  obtain rfl | h := h
  · rw [sub_self, abs_zero, mul_zero]
    exact x.magnitude_nonneg.lt_of_ne' hx
  · exact h

theorem IsNear.eq_zero (h : x.IsNear q) (hx : x.magnitude = 0) : q = 0 := by
  obtain rfl | h := h
  · exact hx
  · rw [hx] at h
    exact absurd h (not_lt.mpr (by positivity))

/-- What is close to a value is less than twice and more than half of it. -/
theorem IsNear.bounds (h : x.IsNear q) (hx : x.magnitude ≠ 0) :
    x.magnitude < 2 * q ∧ q < 2 * x.magnitude := by
  have hlt := h.lt hx
  have hbinade : (1 : ℚ) ≤ F.binade := by exact_mod_cast F.binade_pos
  have hle : |q - x.magnitude| ≤ F.binade * |q - x.magnitude| :=
    le_mul_of_one_le_left (abs_nonneg _) hbinade
  have hfour : 4 * |q - x.magnitude| < x.magnitude := by linarith
  obtain ⟨hlower, hupper⟩ := abs_lt.mp (show |q - x.magnitude| < x.magnitude / 4 by linarith)
  constructor <;> linarith

/-- The place of the first digit bounds a decimal. -/
theorem decimal_bounds (hn : n ≠ 0) (e : Int) :
    (10 : ℚ) ^ ((digitsOf .decimal n).length + e - 1) ≤ n * 10 ^ e ∧
      (n : ℚ) * 10 ^ e < 10 ^ ((digitsOf .decimal n).length + e) := by
  obtain ⟨k, hk⟩ : ∃ k, (digitsOf .decimal n).length = k + 1 := ⟨_, length_digitsOf .decimal hn⟩
  obtain ⟨hle, hlt⟩ := (length_digitsOf_iff .decimal hn).mp hk
  have hlower : (10 : ℚ) ^ k ≤ n := by exact_mod_cast hle
  have hupper : (n : ℚ) < 10 ^ (k + 1) := by exact_mod_cast hlt
  have hten : (10 : ℚ) ≠ 0 := by norm_num
  have hplace : ((k + 1 : Nat) : Int) + e - 1 = k + e := by push_cast; ring
  rw [hk, hplace, zpow_add₀ hten, zpow_add₀ hten, zpow_natCast, zpow_natCast]
  constructor
  · gcongr
  · gcongr

/-- Closeness to a value, counted in smallest positive values. -/
theorem IsNear.units_bounds (h : x.IsNear (n * 10 ^ e)) (hx : x.magnitude ≠ 0) :
    let s := n * 10 ^ e.toNat * 2 ^ F.scale
    let t := F.units x.rank * 10 ^ (-e).toNat
    4 * F.binade * s < 4 * F.binade * t + t ∧ 4 * F.binade * t < 4 * F.binade * s + t := by
  intro s t
  have hfactor : (0 : ℚ) < 10 ^ (-e).toNat * 2 ^ F.scale := by positivity
  have hvalue : x.magnitude * (10 ^ (-e).toNat * 2 ^ F.scale) = (t : ℚ) := by
    rw [magnitude, Nat.cast_mul, Nat.cast_pow, Nat.cast_ofNat]
    field_simp
  have hnumber : (n : ℚ) * 10 ^ e * (10 ^ (-e).toNat * 2 ^ F.scale) = (s : ℚ) := by
    rw [Nat.cast_mul, Nat.cast_mul, Nat.cast_pow, Nat.cast_pow, Nat.cast_ofNat, Nat.cast_ofNat,
      ← ten_zpow_mul e]
    ring
  have hlt := mul_lt_mul_of_pos_right (h.lt hx) hfactor
  rw [mul_assoc, ← abs_of_pos hfactor, ← abs_mul, abs_of_pos hfactor, sub_mul, hvalue, hnumber]
    at hlt
  have hbinade : (0 : ℚ) ≤ 4 * F.binade := by positivity
  have hupper := mul_le_mul_of_nonneg_left (le_abs_self ((s : ℚ) - t)) hbinade
  have hlower := mul_le_mul_of_nonneg_left (neg_abs_le ((s : ℚ) - t)) hbinade
  have hbelow : (4 * F.binade * s : ℚ) < 4 * F.binade * t + t := by linarith
  have habove : (4 * F.binade * t : ℚ) < 4 * F.binade * s + t := by linarith
  exact ⟨by exact_mod_cast hbelow, by exact_mod_cast habove⟩

/-- What is close to a value is rounded to that value. -/
theorem nearest_of_isNear (hx : x.isFinite) (hzero : x.magnitude ≠ 0)
    (h : x.IsNear (n * 10 ^ e)) :
    nearest x.negative (n * Nat.pow 10 e.toNat) (Nat.pow 10 (-e).toNat) = x := by
  obtain ⟨hbelow, habove⟩ := h.units_bounds hzero
  have hrank : F.nearestRank (n * 10 ^ e.toNat) (10 ^ (-e).toNat) = x.rank :=
    BinaryFormat.nearestRank_eq_of_near (of_decide_eq_true hx) hbelow habove
  rcases x with ⟨negative, rank, hlt⟩
  exact (Binary.mk.injEq ..).mpr ⟨rfl, hrank⟩

section Places

variable (hzero : x.magnitude ≠ 0) (hn : n ≠ 0) (h : x.IsNear (n * 10 ^ e))

include hzero hn h

/-- What is close to a value has too many digits to be zero by their number alone. -/
theorem IsNear.neg_scale_le : -(F.scale : Int) ≤ (digitsOf .decimal n).length + e := by
  by_contra hlt
  have hten : (10 : ℚ) ≠ 0 := by norm_num
  have hplace : ((digitsOf .decimal n).length : Int) + e ≤ -(F.scale : Int) - 1 := by omega
  refine absurd (x.le_magnitude hzero) (not_le.mpr ?_)
  calc x.magnitude
      < 2 * (n * 10 ^ e) := (h.bounds hzero).1
    _ < 2 * 10 ^ ((digitsOf .decimal n).length + e) := by
      gcongr
      exact (decimal_bounds hn e).2
    _ ≤ 2 * 10 ^ (-(F.scale : Int) - 1) := by gcongr; norm_num
    _ = 2 / 10 * (1 / 10 ^ F.scale) := by
      rw [zpow_sub₀ hten, zpow_neg, zpow_natCast, zpow_one]
      ring
    _ ≤ 1 * (1 / 2 ^ F.scale) := by gcongr <;> norm_num
    _ = 1 / 2 ^ F.scale := one_mul _

/-- What is close to a finite value has too few digits to be infinite by their number alone. -/
theorem IsNear.le_two_pow (hx : x.isFinite) :
    ((digitsOf .decimal n).length : Int) + e ≤ (2 ^ F.exponentBits : Nat) := by
  by_contra hlt
  have hplace : ((2 ^ F.exponentBits : Nat) : Int) ≤ (digitsOf .decimal n).length + e - 1 :=
    Int.le_sub_one_of_lt (not_le.mp hlt)
  have hfive : (2 : ℚ) ≤ 5 ^ 2 ^ F.exponentBits := by
    have hpos : 2 ^ F.exponentBits ≠ 0 := (Nat.two_pow_pos _).ne'
    exact le_trans (by norm_num) (le_self_pow₀ (by norm_num) hpos)
  refine absurd (decimal_bounds hn e).1 (not_le.mpr ?_)
  calc (n : ℚ) * 10 ^ e
      < 2 * x.magnitude := (h.bounds hzero).2
    _ < 2 * 2 ^ 2 ^ F.exponentBits := by gcongr; exact magnitude_lt hx
    _ ≤ 5 ^ 2 ^ F.exponentBits * 2 ^ 2 ^ F.exponentBits := by gcongr
    _ = 10 ^ ((2 ^ F.exponentBits : Nat) : Int) := by
      rw [← mul_pow, zpow_natCast]
      norm_num
    _ ≤ 10 ^ ((digitsOf .decimal n).length + e - 1 : Int) := by gcongr; norm_num

end Places

/-- **Reading** what is close to a value yields the value, and its zero for a zero. -/
theorem ofDecimal_of_isNear (hx : x.isFinite) (h : x.IsNear (n * 10 ^ e)) :
    ofDecimal F x.negative n e = x := by
  rw [ofDecimal]
  by_cases hzero : x.magnitude = 0
  · have hn : n = 0 := by
      have hpow : (10 : ℚ) ^ e ≠ 0 := zpow_ne_zero e (by norm_num)
      exact_mod_cast (mul_eq_zero.mp (h.eq_zero hzero)).resolve_right hpow
    rw [if_pos (.inl hn)]
    rcases x with ⟨negative, rank, hlt⟩
    exact (Binary.mk.injEq ..).mpr ⟨rfl, (magnitude_eq_zero_iff.mp hzero).symm⟩
  · have hn : n ≠ 0 := by
      rintro rfl
      have hmore := (h.bounds hzero).1
      rw [Nat.cast_zero, zero_mul, mul_zero] at hmore
      exact absurd x.magnitude_nonneg (not_le.mpr hmore)
    have hbottom := not_lt.mpr (h.neg_scale_le hzero hn)
    have htop : ¬ ((digitsOf .decimal n).length + e > (Nat.pow 2 F.exponentBits : Nat)) :=
      not_lt.mpr (h.le_two_pow hzero hn hx)
    rw [if_neg (not_or.mpr ⟨hn, hbottom⟩), if_neg htop]
    exact nearest_of_isNear hx hzero h

end Binary

end FormatString
