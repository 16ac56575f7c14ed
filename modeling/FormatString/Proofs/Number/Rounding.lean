import Mathlib
import FormatString.Number.Rounding
import FormatString.Proofs.Number.Digits

/-!
# Rounding and the number of digits

A rounded quotient is off by one half at most, and whatever is nearer than one half to a quotient is
what it is rounded to. Both are stated without division, so that they can be combined with bounds on
powers of the radix; those come from the number of digits.
-/

namespace FormatString

/-! ## Rounding a quotient -/

section RoundHalfEven

variable {n d q : Nat}

/-- Rounding is off by one half at most. -/
theorem roundHalfEven_error (n : Nat) (hd : 0 < d) :
    2 * n ≤ 2 * (roundHalfEven n d * d) + d ∧ 2 * (roundHalfEven n d * d) ≤ 2 * n + d := by
  have hn := Nat.div_add_mod' n d
  have hr := Nat.mod_lt n hd
  have hsucc : (n / d + 1) * d = n / d * d + d := Nat.succ_mul _ _
  rw [roundHalfEven]
  split <;> omega

/-- A tie is rounded to an even number. -/
theorem even_roundHalfEven_of_tie (hd : 0 < d)
    (h : 2 * n = 2 * (roundHalfEven n d * d) + d ∨ 2 * (roundHalfEven n d * d) = 2 * n + d) :
    Even (roundHalfEven n d) := by
  have hn := Nat.div_add_mod' n d
  have hr := Nat.mod_lt n hd
  have hsucc : (n / d + 1) * d = n / d * d + d := Nat.succ_mul _ _
  rw [Nat.even_iff]
  revert h
  rw [roundHalfEven]
  split <;> intro h <;> omega

/-- What is nearer than one half to a quotient is what it is rounded to. -/
theorem roundHalfEven_eq_of_lt (hlt : 2 * n < 2 * (q * d) + d) (hgt : 2 * (q * d) < 2 * n + d) :
    roundHalfEven n d = q := by
  have hd : 0 < d := by
    rcases Nat.eq_zero_or_pos d with rfl | hd
    · omega
    · exact hd
  obtain ⟨hle, hge⟩ := roundHalfEven_error n hd
  refine Nat.le_antisymm ?_ ?_
  · refine Nat.lt_succ_iff.mp (Nat.lt_of_mul_lt_mul_right (a := d) ?_)
    rw [Nat.succ_mul]
    omega
  · refine Nat.lt_succ_iff.mp (Nat.lt_of_mul_lt_mul_right (a := d) ?_)
    rw [Nat.succ_mul]
    omega

/-- Bounds of a quotient that are whole numbers are bounds of what it is rounded to. -/
theorem roundHalfEven_mem {a b : Nat} (ha : a * d ≤ n) (hb : n < b * d) :
    a ≤ roundHalfEven n d ∧ roundHalfEven n d ≤ b := by
  have hd : 0 < d := Nat.pos_of_mul_pos_left (Nat.zero_lt_of_lt hb)
  have hle : a ≤ n / d := (Nat.le_div_iff_mul_le hd).mpr ha
  have hlt : n / d < b := (Nat.div_lt_iff_lt_mul hd).mpr hb
  obtain h | h := roundHalfEven_eq_or n d <;> omega

theorem roundHalfEven_mul_mul (n d : Nat) {k : Nat} (hk : 0 < k) :
    roundHalfEven (n * k) (d * k) = roundHalfEven n d := by
  have htwice (x y : Nat) : 2 * (x * k) > y * k ↔ 2 * x > y := by
    rw [gt_iff_lt, ← Nat.mul_assoc, Nat.mul_lt_mul_right hk]
  have heq (x y : Nat) : 2 * (x * k) = y * k ↔ 2 * x = y := by
    rw [← Nat.mul_assoc, Nat.mul_left_inj hk.ne']
  simp only [roundHalfEven, Nat.mul_div_mul_right n d hk, Nat.mul_mod_mul_right, htwice, heq]

end RoundHalfEven

/-! ## The number of digits -/

variable {r : Radix} {n : Nat}

theorem digitsOnto_eq (r : Radix) (n : Nat) (ds : List Nat) :
    digitsOnto r n ds = digitsOf r n ++ ds := by
  suffices h : ∀ ds es, digitsOnto r n (ds ++ es) = digitsOnto r n ds ++ es from h [] ds
  intro ds es
  fun_induction digitsOnto r n ds with
  | case1 n ds h => rw [digitsOnto, if_pos h, List.cons_append]
  | case2 n ds h ih => rw [digitsOnto, if_neg h, ← List.cons_append, ih]

/-- Digits are found from the last one to the first. -/
theorem digitsOf_of_le (h : r.value ≤ n) :
    digitsOf r n = digitsOf r (n / r.value) ++ [n % r.value] := by
  rw [← digitsOnto_eq, digitsOf, digitsOnto, if_neg (Nat.not_lt.mpr h)]

theorem digitsOf_of_lt (h : n < r.value) : digitsOf r n = [n] := by
  rw [digitsOf, digitsOnto, if_pos h]

/-- The radix to the number of digits is the least power that the number does not reach. -/
theorem length_digitsOf (r : Radix) (hn : n ≠ 0) :
    (digitsOf r n).length = Nat.log r.value n + 1 := by
  induction n using Nat.strong_induction_on with
  | _ n ih =>
    have hr : 1 < r.value := r.two_le
    by_cases h : n < r.value
    · rw [digitsOf_of_lt h, Nat.log_of_lt h, List.length_singleton]
    · have hle := Nat.le_of_not_lt h
      have hpos : n / r.value ≠ 0 := (Nat.div_pos hle (Nat.zero_lt_of_lt hr)).ne'
      have hlt : n / r.value < n := Nat.div_lt_self (Nat.pos_of_ne_zero hn) hr
      rw [digitsOf_of_le hle, List.length_append, ih _ hlt hpos, List.length_singleton,
        Nat.log_of_one_lt_of_le hr hle]

theorem length_digitsOf_iff (r : Radix) (hn : n ≠ 0) {k : Nat} :
    (digitsOf r n).length = k + 1 ↔ r.value ^ k ≤ n ∧ n < r.value ^ (k + 1) := by
  rw [length_digitsOf r hn, Nat.add_left_inj, Nat.log_eq_iff (.inr ⟨r.two_le, hn⟩)]

/-- Another zero at the end. -/
theorem digitsOf_mul (r : Radix) (hn : n ≠ 0) : digitsOf r (n * r.value) = digitsOf r n ++ [0] := by
  have hr : 0 < r.value := Nat.zero_lt_of_lt r.two_le
  rw [digitsOf_of_le (Nat.le_mul_of_pos_left _ (Nat.pos_of_ne_zero hn)), Nat.mul_div_cancel _ hr,
    Nat.mul_mod_left]

end FormatString
