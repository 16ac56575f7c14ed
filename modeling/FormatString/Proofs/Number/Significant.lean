import Mathlib
import FormatString.Proofs.Number.Decimal
import FormatString.Proofs.Number.Rounding

/-!
# Significant digits

So many significant digits of a number are the number rounded at the place of the last of them, and
that is also how digits behind the point are found. There is one case where the two could part:
rounding may carry into a new first digit, and then the last of the digits shown stands one place
further left than the one that was rounded at. `roundAt_of_carry` says that rounding there yields
the same digits, so the place can be told from the exponent alone.
-/

namespace FormatString

/-! ## Finite values -/

section Finite

variable {F : BinaryFormat} {x : Binary F}

theorem Binary.not_isNaN (hx : x.isFinite) : ¬ x.isNaN := by
  simpa [isNaN] using (of_decide_eq_true hx : x.rank < F.infinityRank).le

theorem Binary.not_isInfinite (hx : x.isFinite) : ¬ x.isInfinite := by
  simpa [isInfinite] using (of_decide_eq_true hx : x.rank < F.infinityRank).ne

end Finite

namespace Decimal

/-! ## Rounding at a place -/

section RoundAt

variable (n p k : Nat)

theorem roundAt_sub : roundAt n (p - k) = roundHalfEven (n * 10 ^ (p - k)) (10 ^ (k - p)) := by
  have hpos : ((p : Int) - k).toNat = p - k := by omega
  have hneg : (-((p : Int) - k)).toNat = k - p := by omega
  rw [roundAt, hpos, hneg]
  rfl

/-- Rounding one place further left. -/
theorem roundAt_sub_succ :
    roundAt n (p - (k + 1 : Nat)) = roundHalfEven (n * 10 ^ (p - k)) (10 ^ (k - p) * 10) := by
  rw [roundAt_sub]
  obtain hlt | hle := Nat.lt_or_ge k p
  · obtain ⟨m, rfl⟩ := Nat.exists_eq_add_of_lt hlt
    have hleft : k + m + 1 - k = m + 1 := by omega
    have hright : k + m + 1 - (k + 1) = m := by omega
    rw [hleft, hright, Nat.sub_eq_zero_of_le (by omega), Nat.sub_eq_zero_of_le (by omega), pow_succ,
      ← Nat.mul_assoc, roundHalfEven_mul_mul _ _ (by decide)]
  · rw [Nat.sub_eq_zero_of_le hle, Nat.sub_eq_zero_of_le (Nat.le_succ_of_le hle), ← pow_succ,
      Nat.succ_sub hle]

/-- A place can be counted from the first digit and from the last. -/
theorem pow_mul_pow_sub : 10 ^ p * 10 ^ (k - p) = 10 ^ k * 10 ^ (p - k) := by
  rw [← pow_add, ← pow_add]
  congr 1
  omega

variable {n p k}

theorem mul_pow_lt (hlt : n < 10 ^ (k + 1)) : n * 10 ^ (p - k) < 10 ^ (p + 1) * 10 ^ (k - p) :=
  calc n * 10 ^ (p - k)
      < 10 ^ (k + 1) * 10 ^ (p - k) := Nat.mul_lt_mul_of_pos_right hlt (by positivity)
    _ = 10 ^ k * 10 ^ (p - k) * 10 := by rw [pow_succ, Nat.mul_right_comm]
    _ = 10 ^ (p + 1) * 10 ^ (k - p) := by rw [← pow_mul_pow_sub, pow_succ, Nat.mul_right_comm]

/-- Of a number of `k + 1` digits rounding leaves `p + 1` digits, or it carries. -/
theorem roundAt_mem (hle : 10 ^ k ≤ n) (hlt : n < 10 ^ (k + 1)) :
    10 ^ p ≤ roundAt n (p - k) ∧ roundAt n (p - k) ≤ 10 ^ (p + 1) := by
  rw [roundAt_sub]
  refine roundHalfEven_mem ?_ (mul_pow_lt hlt)
  rw [pow_mul_pow_sub]
  exact Nat.mul_le_mul_right _ hle

/-- **Carrying.** If rounding carries into a new digit, rounding one place further left yields the
same number without the zero at its end. -/
theorem roundAt_of_carry (hlt : n < 10 ^ (k + 1)) (h : roundAt n (p - k) = 10 ^ (p + 1)) :
    roundAt n (p - (k + 1 : Nat)) = 10 ^ p := by
  have hbelow := mul_pow_lt (p := p) hlt
  have hb : 0 < 10 ^ (k - p) := by positivity
  obtain ⟨-, hge⟩ := roundHalfEven_error (n * 10 ^ (p - k)) hb
  rw [← roundAt_sub, h] at hge
  have hten : 10 ^ p * (10 ^ (k - p) * 10) = 10 ^ (p + 1) * 10 ^ (k - p) := by ring
  rw [roundAt_sub_succ]
  refine roundHalfEven_eq_of_lt ?_ ?_ <;> rw [hten] <;> omega

end RoundAt

/-! ## Significant and fractional digits -/

/-- **Significant digits** are those of the number rounded at the place of the last of them. That
place is counted from the first digit of the number, and a carry moves it by one. -/
theorem exists_significantDigits (scale p : Nat) {n : Nat} (hn : n ≠ 0) :
    ∃ (m : Nat) (e : Int), m ≠ 0 ∧ significantDigits n scale (p + 1) = (digitsOf .decimal m, e) ∧
      (digitsOf .decimal m).length = p + 1 ∧ m = roundAt n (p - e - scale) ∧
      ∃ carry : Nat, e = (digitsOf .decimal n).length - 1 - scale + carry ∧
        roundAt n (p + 1 - (digitsOf .decimal n).length) = m * 10 ^ carry := by
  obtain ⟨k, hk⟩ : ∃ k, (digitsOf .decimal n).length = k + 1 := ⟨_, length_digitsOf .decimal hn⟩
  obtain ⟨hle, hlt⟩ := (length_digitsOf_iff .decimal hn).mp hk
  obtain ⟨hmin, hmax⟩ := roundAt_mem (p := p) hle hlt
  have hone : (10 ^ p : Nat) ≠ 0 := by positivity
  have hplace : ((p + 1 : Nat) : Int) - (k + 1 : Nat) = p - k := by omega
  have hplace' : (p : Int) + 1 - (k + 1 : Nat) = p - k := by omega
  rw [significantDigits, if_neg hn, hk]
  dsimp only
  rw [hplace, hplace']
  obtain hbelow | hcarry := Nat.lt_or_eq_of_le hmax
  · have hne : roundAt n (p - k) ≠ 0 := fun h ↦ hone (Nat.le_zero.mp (h ▸ hmin))
    have hlength : (digitsOf .decimal (roundAt n (p - k))).length = p + 1 :=
      (length_digitsOf_iff .decimal hne).mpr ⟨hmin, hbelow⟩
    refine ⟨roundAt n (p - k), k - scale, hne, ?_, hlength, ?_, 0, ?_, ?_⟩
    · rw [hlength, List.take_of_length_le hlength.le]
      congr 1
      omega
    · congr 1
      omega
    · omega
    · rw [pow_zero, Nat.mul_one]
  · have hlength : (digitsOf .decimal (10 ^ p)).length = p + 1 :=
      (length_digitsOf_iff .decimal hone).mpr ⟨Nat.le_refl _, Nat.pow_lt_pow_succ (by decide)⟩
    have hdigits : digitsOf .decimal (10 ^ (p + 1)) = digitsOf .decimal (10 ^ p) ++ [0] :=
      digitsOf_mul .decimal hone
    refine ⟨10 ^ p, k + 1 - scale, hone, ?_, hlength, ?_, 1, ?_, ?_⟩
    · rw [hcarry, hdigits, List.length_append, hlength, List.take_left' hlength]
      congr 1
      simp
    · rw [← roundAt_of_carry hlt hcarry]
      congr 1
      omega
    · omega
    · rw [hcarry, pow_succ, pow_one]

/-- Where so many digits behind the point end at the place of the last significant digit, they are
the significant digits. -/
theorem fractionalDigits_eq {n scale p count : Nat} (hn : n ≠ 0)
    (h : (significantDigits n scale (p + 1)).2 = p - count) :
    fractionalDigits n scale count = significantDigits n scale (p + 1) := by
  obtain ⟨m, e, hne, hdigits, hlength, hm, -⟩ := exists_significantDigits scale p hn
  rw [hdigits] at h ⊢
  obtain rfl : e = p - count := h
  have hplace : (p : Int) - (p - count) - scale = count - scale := by omega
  rw [hplace] at hm
  rw [fractionalDigits, ← hm]
  dsimp only
  rw [if_neg hne, hlength]
  congr 1
  omega

/-! ## Binary values -/

theorem significantDigits_zero (scale count : Nat) :
    significantDigits 0 scale count = (List.replicate count 0, 0) := if_pos rfl

theorem fractionalDigits_zero (scale count : Nat) : fractionalDigits 0 scale count = ([0], 0) := by
  have hzero : roundAt 0 (count - scale) = 0 := by simp [roundAt, roundHalfEven]
  rw [fractionalDigits, hzero]
  rfl

section OfBinary

variable {F : BinaryFormat} {x : Binary F}

theorem ofBinary_significant (hx : x.isFinite) (count : Nat) :
    ofBinary x (.significant count) = ⟨x.negative, .finite,
      (significantDigits x.expansion F.scale (max count 1)).1,
      (significantDigits x.expansion F.scale (max count 1)).2⟩ :=
  (if_neg (Binary.not_isNaN hx)).trans (if_neg (Binary.not_isInfinite hx))

theorem ofBinary_fractional (hx : x.isFinite) (count : Nat) :
    ofBinary x (.fractional count) = ⟨x.negative, .finite,
      (fractionalDigits x.expansion F.scale count).1,
      (fractionalDigits x.expansion F.scale count).2⟩ :=
  (if_neg (Binary.not_isNaN hx)).trans (if_neg (Binary.not_isInfinite hx))

/-- A finite value has digits, and its sign. -/
theorem ofBinary_of_isFinite (hx : x.isFinite) (mode : DigitMode) :
    (ofBinary x mode).kind = .finite ∧ (ofBinary x mode).negative = x.negative := by
  cases mode with
  | significant count => rw [ofBinary_significant hx]; exact ⟨rfl, rfl⟩
  | fractional count => rw [ofBinary_fractional hx]; exact ⟨rfl, rfl⟩

/-- **Significant and fractional digits.** The fixed form is the same from either when the last
digit stands at the same place: for a number other than zero they are the same digits, and for zero
both are zeros. -/
theorem renderFixed_ofBinary (hx : x.isFinite) {p count : Nat} (alt : Bool)
    (h : (ofBinary x (.significant (p + 1))).exponent = p - count) :
    (ofBinary x (.fractional count)).renderFixed count alt
      = (ofBinary x (.significant (p + 1))).renderFixed count alt := by
  have hmax : max (p + 1) 1 = p + 1 := Nat.max_eq_left (Nat.le_add_left 1 p)
  rw [ofBinary_significant hx, hmax] at h
  rw [ofBinary_fractional hx, ofBinary_significant hx, hmax]
  by_cases hn : x.expansion = 0
  · rw [hn, significantDigits_zero] at h ⊢
    obtain rfl : count = p := by
      dsimp only at h
      omega
    rw [fractionalDigits_zero]
    simp [renderFixed, integerDigits, fractionDigits, firstDigits, List.replicate_succ]
  · rw [fractionalDigits_eq hn h]

end OfBinary

end Decimal

end FormatString
