import Mathlib
import FormatString.Proofs.Number.Nearest

/-!
# Numbers that are rounded to an infinity

The ranks go on from the largest finite value to the infinity as if that were the next power of two,
so a number is rounded there from half a spacing below that power on. The halfway point itself is
rounded up: the largest finite value has an odd number of spacings.
-/

namespace FormatString

section RoundHalfEven

variable {n d k : Nat}

/-- From halfway behind an odd number on, a quotient is rounded up. -/
theorem lt_roundHalfEven (hd : 0 < d) (hk : k % 2 = 1) (h : (2 * k + 1) * d ≤ 2 * n) :
    k < roundHalfEven n d := by
  have hn := Nat.div_add_mod' n d
  have htwice : (2 * k + 1) * d = 2 * (k * d) + d := by ring
  have hle : k ≤ n / d := (Nat.le_div_iff_mul_le hd).mpr (by omega)
  rw [roundHalfEven]
  obtain hlt | heq := hle.lt_or_eq
  · split <;> omega
  · rw [← heq] at hn ⊢
    rw [if_pos (by omega)]
    exact Nat.lt_succ_self k

/-- Below halfway it is not. -/
theorem roundHalfEven_le (h : 2 * n < (2 * k + 1) * d) : roundHalfEven n d ≤ k := by
  have hd : 0 < d := Nat.pos_of_mul_pos_left (Nat.zero_lt_of_lt h)
  have hn := Nat.div_add_mod' n d
  have htwice : (2 * k + 1) * d = 2 * (k * d) + d := by ring
  have hlt : n / d < k + 1 := (Nat.div_lt_iff_lt_mul hd).mpr (by rw [Nat.succ_mul]; omega)
  rw [roundHalfEven]
  obtain hlt | heq := (Nat.le_of_lt_succ hlt).lt_or_eq
  · split <;> omega
  · rw [heq] at hn ⊢
    rw [if_neg (by omega)]

end RoundHalfEven

/-- The shift that leaves so many bits of a quotient. -/
theorem log2_div_sub_le_iff {s d b k : Nat} (hd : 0 < d) :
    Nat.log2 (s / d) - b ≤ k ↔ s < 2 ^ (b + k + 1) * d := by
  rw [← Nat.div_lt_iff_lt_mul hd]
  by_cases hzero : s / d = 0
  · rw [hzero]
    exact iff_of_true (by simp) (Nat.two_pow_pos _)
  · rw [← Nat.log2_lt hzero]
    omega

namespace BinaryFormat

variable {F : BinaryFormat} {n d : Nat}

/-- Twice the units halfway between the largest finite value and the next power of two. -/
def overflowUnits (F : BinaryFormat) : Nat :=
  (4 * F.binade - 1) * 2 ^ (2 ^ F.exponentBits - 3)

/-- **Rounding to the infinity** starts halfway. -/
theorem nearestRank_eq_infinityRank_iff (hF : 2 ≤ F.exponentBits) (hd : 0 < d) :
    F.nearestRank n d = F.infinityRank ↔ F.overflowUnits * d ≤ 2 * (n * 2 ^ F.scale) := by
  -- The last finite binade has the spacing `2 ^ (k + 1)` and ends `q` spacings from zero.
  obtain ⟨k, hk⟩ : ∃ k, 2 ^ F.exponentBits = k + 1 + 3 := by
    have hfour : 2 ^ 2 ≤ 2 ^ F.exponentBits := Nat.pow_le_pow_right Nat.two_pos hF
    exact ⟨2 ^ F.exponentBits - 4, by omega⟩
  obtain ⟨q, hq⟩ : ∃ q, 2 * F.binade = q + 1 := ⟨2 * F.binade - 1, by have := F.binade_pos; omega⟩
  have hinfinity : F.infinityRank = (k + 1) * F.binade + (q + 1) := by
    change (2 ^ F.exponentBits - 1) * F.binade = _
    rw [hk, show k + 1 + 3 - 1 = k + 1 + 2 by omega, Nat.add_mul, hq]
  have hunits : F.overflowUnits * d = (2 * q + 1) * (d * 2 ^ (k + 1)) := by
    rw [overflowUnits, hk, Nat.add_sub_cancel, show 4 * F.binade - 1 = 2 * q + 1 by omega]
    ring
  rw [hunits]
  change min ((Nat.log2 (n * 2 ^ F.scale / d) - F.fractionBits) * F.binade
    + roundHalfEven (n * 2 ^ F.scale) (d * 2 ^ (Nat.log2 (n * 2 ^ F.scale / d)
      - F.fractionBits))) F.infinityRank = F.infinityRank ↔ _
  generalize n * 2 ^ F.scale = s
  generalize hj : Nat.log2 (s / d) - F.fractionBits = j
  have hshift (i : Nat) : j ≤ i ↔ s < (q + 1) * (d * 2 ^ i) := by
    have hpow : 2 ^ (F.fractionBits + i + 1) * d = (q + 1) * (d * 2 ^ i) := by
      rw [← hq]
      change _ = 2 * 2 ^ F.fractionBits * (d * 2 ^ i)
      ring
    rw [← hj, log2_div_sub_le_iff hd, hpow]
  have hpos (i : Nat) : 0 < d * 2 ^ i := Nat.mul_pos hd (Nat.two_pow_pos i)
  have hsplit (i : Nat) : (q + 1) * (d * 2 ^ i) = q * (d * 2 ^ i) + d * 2 ^ i := Nat.succ_mul _ _
  have hhalf (i : Nat) : (2 * q + 1) * (d * 2 ^ i) = 2 * (q * (d * 2 ^ i)) + d * 2 ^ i := by ring
  have hdouble (i : Nat) : F.binade * (d * 2 ^ (i + 1)) = (q + 1) * (d * 2 ^ i) := by
    rw [← hq]
    ring
  rw [min_eq_right_iff, hinfinity]
  constructor
  · intro h
    by_contra hlt
    rw [Nat.not_le] at hlt
    have hle : j ≤ k + 1 := by
      rw [hshift, hsplit]
      rw [hhalf] at hlt
      omega
    obtain hless | rfl := hle.lt_or_eq
    · -- In a lower binade not even the next power of two is the infinity.
      have hnext : (j + 1) * F.binade ≤ (k + 1) * F.binade := Nat.mul_le_mul_right _ hless
      have hround := (roundHalfEven_mem (a := 0) (by rw [Nat.zero_mul]; exact Nat.zero_le s)
        ((hshift j).mp le_rfl)).2
      have hpos := F.binade_pos
      rw [Nat.succ_mul] at hnext
      omega
    · have hround := roundHalfEven_le hlt
      omega
  · intro h
    have hge : k + 1 ≤ j := by
      refine Nat.lt_of_not_le fun hjk ↦ ?_
      have hlt := (hshift k).mp hjk
      have hpow : d * 2 ^ (k + 1) = 2 * (d * 2 ^ k) := by ring
      have hmul : q * (2 * (d * 2 ^ k)) = 2 * (q * (d * 2 ^ k)) := by ring
      rw [hsplit] at hlt
      rw [hhalf, hpow, hmul] at h
      omega
    obtain hless | rfl := hge.lt_or_eq
    · obtain ⟨i, rfl⟩ : ∃ i, j = i + 1 := ⟨j - 1, by omega⟩
      have hle : F.binade * (d * 2 ^ (i + 1)) ≤ s := by
        rw [hdouble]
        exact Nat.not_lt.mp fun hlt ↦ Nat.not_succ_le_self i ((hshift i).mpr hlt)
      have hround := (roundHalfEven_mem (b := s + 1) hle
        (Nat.lt_of_lt_of_le (Nat.lt_succ_self s) (Nat.le_mul_of_pos_right _ (hpos _)))).1
      have hnext : (k + 1 + 1) * F.binade ≤ (i + 1) * F.binade := Nat.mul_le_mul_right _ hless
      rw [Nat.succ_mul (k + 1)] at hnext
      omega
    · have hround := lt_roundHalfEven (hpos _) (show q % 2 = 1 by omega) h
      omega

/-- The least magnitude that is rounded to the infinity: half a spacing below a power of two. -/
def overflowBound (F : BinaryFormat) : ℚ :=
  2 ^ 2 ^ (F.exponentBits - 1) - 2 ^ (2 ^ (F.exponentBits - 1) - 2) / F.binade

theorem overflowBound_binary64 : overflowBound .binary64 = 2 ^ 1024 - 2 ^ 970 := by
  have hbinade : (binade .binary64 : ℚ) = 2 ^ 52 := by
    change ((2 ^ 52 : Nat) : ℚ) = 2 ^ 52
    norm_num
  have hsplit {a b c : Nat} (h : a = b + c) : (2 : ℚ) ^ a = 2 ^ b * 2 ^ c := by rw [h, pow_add]
  change (2 : ℚ) ^ 1024 - 2 ^ 1022 / (binade .binary64 : ℚ) = _
  rw [hbinade, hsplit (show 1022 = 970 + 52 from rfl), mul_div_cancel_right₀ _ (by positivity)]

/-- With two bits for the exponent the power of two is at least the fourth. -/
theorem exists_two_pow (hF : 2 ≤ F.exponentBits) :
    ∃ t, 2 ^ (F.exponentBits - 1) = t + 2 ∧ 2 ^ F.exponentBits = 2 * t + 4 ∧
      F.scale = t + F.fractionBits := by
  obtain ⟨b, hb⟩ : ∃ b, F.exponentBits = b + 1 + 1 := ⟨F.exponentBits - 2, by omega⟩
  have htwo : 2 ≤ 2 ^ (b + 1) := Nat.le_self_pow (Nat.succ_ne_zero b) 2
  refine ⟨2 ^ (b + 1) - 2, ?_, ?_, ?_⟩
  · rw [hb, Nat.add_sub_cancel]
    omega
  · rw [hb, pow_succ 2 (b + 1)]
    omega
  · change 2 ^ (F.exponentBits - 1) - 2 + F.fractionBits = _
    rw [hb, Nat.add_sub_cancel]

theorem overflowBound_mul (hF : 2 ≤ F.exponentBits) :
    F.overflowBound * (2 * 2 ^ F.scale) = F.overflowUnits := by
  obtain ⟨t, hhalf, hwhole, hscale⟩ := exists_two_pow hF
  have hbinade : (F.binade : ℚ) = 2 ^ F.fractionBits := by
    change ((2 ^ F.fractionBits : Nat) : ℚ) = _
    push_cast
    rfl
  have hpos : (2 : ℚ) ^ F.fractionBits ≠ 0 := by positivity
  have hone : 1 ≤ 4 * F.binade := by have := F.binade_pos; omega
  rw [overflowBound, overflowUnits, hhalf, hwhole, hscale, Nat.cast_mul, Nat.cast_sub hone,
    show 2 * t + 4 - 3 = t + t + 1 by omega, Nat.add_sub_cancel]
  push_cast
  rw [hbinade, pow_add, pow_add, pow_add, pow_add]
  field_simp
  ring

theorem overflowBound_mem (hF : 2 ≤ F.exponentBits) :
    1 < F.overflowBound ∧ F.overflowBound < 2 ^ 2 ^ F.exponentBits := by
  obtain ⟨t, hhalf, hwhole, -⟩ := exists_two_pow hF
  have hbinade : (1 : ℚ) ≤ F.binade := by exact_mod_cast F.binade_pos
  have hpow : (1 : ℚ) ≤ 2 ^ t := one_le_pow₀ (by norm_num)
  have hpart : (2 : ℚ) ^ t / F.binade ≤ 2 ^ t := div_le_self (by positivity) hbinade
  have hpart' : (0 : ℚ) < 2 ^ t / F.binade := by positivity
  have hquarter : (2 : ℚ) ^ (t + 2) = 4 * 2 ^ t := by ring
  rw [overflowBound, hhalf, hwhole, Nat.add_sub_cancel]
  constructor
  · linarith
  · calc (2 : ℚ) ^ (t + 2) - 2 ^ t / F.binade
        < 2 ^ (t + 2) := by linarith
      _ ≤ 2 ^ (2 * t + 4) := pow_le_pow_right₀ (by norm_num) (by omega)

end BinaryFormat

namespace Binary

variable {F : BinaryFormat} {n : Nat} {e : Int}

theorem isInfinite_zero (hF : 2 ≤ F.exponentBits) (negative : Bool) :
    (zero negative : Binary F).isInfinite = false := by
  obtain ⟨t, -, hwhole, -⟩ := BinaryFormat.exists_two_pow hF
  refine beq_eq_false_iff_ne.mpr (Nat.mul_pos ?_ F.binade_pos).ne
  change 0 < 2 ^ F.exponentBits - 1
  omega

theorem isInfinite_nearest_iff (hF : 2 ≤ F.exponentBits) (negative : Bool) (n : Nat) (e : Int) :
    (nearest negative (n * Nat.pow 10 e.toNat) (Nat.pow 10 (-e).toNat) : Binary F).isInfinite
      ↔ F.overflowBound ≤ n * 10 ^ e := by
  have hd : 0 < 10 ^ (-e).toNat := Nat.pow_pos (Nat.succ_pos 9)
  have hfactor : (0 : ℚ) < 10 ^ (-e).toNat * (2 * 2 ^ F.scale) := by positivity
  have hvalue : (n : ℚ) * 10 ^ e * (10 ^ (-e).toNat * (2 * 2 ^ F.scale))
      = 2 * (n * 10 ^ e.toNat * 2 ^ F.scale) := by
    rw [← ten_zpow_mul e]
    ring
  have hbound : F.overflowBound * (10 ^ (-e).toNat * (2 * 2 ^ F.scale))
      = F.overflowUnits * 10 ^ (-e).toNat := by
    rw [← BinaryFormat.overflowBound_mul hF]
    ring
  rw [← mul_le_mul_iff_left₀ hfactor, hvalue, hbound]
  refine (beq_iff_eq.trans (BinaryFormat.nearestRank_eq_infinityRank_iff hF hd)).trans ?_
  exact_mod_cast Iff.rfl

/-- **Overflow.** A decimal is read as an infinity just from the bound on. -/
theorem isInfinite_ofDecimal_iff (hF : 2 ≤ F.exponentBits) (negative : Bool) (n : Nat) (e : Int) :
    (ofDecimal F negative n e).isInfinite ↔ F.overflowBound ≤ n * 10 ^ e := by
  obtain ⟨hone, htwo⟩ := BinaryFormat.overflowBound_mem hF
  rw [ofDecimal]
  by_cases hn : n = 0
  · rw [if_pos (.inl hn), isInfinite_zero hF, hn, Nat.cast_zero, zero_mul]
    exact iff_of_false Bool.false_ne_true (by linarith)
  obtain ⟨hlower, hupper⟩ := decimal_bounds hn e
  by_cases hbottom : (digitsOf .decimal n).length + e < -(F.scale : Int)
  · rw [if_pos (.inr hbottom), isInfinite_zero hF]
    refine iff_of_false Bool.false_ne_true (not_le.mpr (hupper.trans_le ?_))
    have hle : (10 : ℚ) ^ (((digitsOf .decimal n).length : Int) + e) ≤ 10 ^ (0 : Int) :=
      zpow_le_zpow_right₀ (by norm_num) (by omega)
    rw [zpow_zero] at hle
    linarith
  rw [if_neg (not_or.mpr ⟨hn, hbottom⟩)]
  by_cases htop : (digitsOf .decimal n).length + e > (Nat.pow 2 F.exponentBits : Nat)
  · rw [if_pos htop]
    refine iff_of_true (beq_self_eq_true _) (le_trans ?_ hlower)
    calc F.overflowBound
        ≤ 2 ^ 2 ^ F.exponentBits := htwo.le
      _ ≤ 10 ^ 2 ^ F.exponentBits := by gcongr; norm_num
      _ = 10 ^ ((2 ^ F.exponentBits : Nat) : Int) := (zpow_natCast _ _).symm
      _ ≤ 10 ^ (((digitsOf .decimal n).length : Int) + e - 1) :=
        zpow_le_zpow_right₀ (by norm_num) (Int.le_sub_one_of_lt htop)
  · rw [if_neg htop]
    exact isInfinite_nearest_iff hF negative n e

end Binary

end FormatString
