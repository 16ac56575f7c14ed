import Mathlib
import FormatString.Number.IntType

/-!
# The range of integer types
-/

namespace FormatString.IntType

variable (t : IntType)

theorem min_le_zero : t.min ≤ 0 := by
  rcases t with ⟨width, _ | _⟩ <;> cases width <;> decide

theorem zero_le_max : 0 ≤ t.max := by
  rcases t with ⟨width, _ | _⟩ <;> cases width <;> decide

/-- Reinterpreting gives a value of the type. -/
theorem reinterpret_mem (v : Int) : t.min ≤ t.reinterpret v ∧ t.reinterpret v ≤ t.max := by
  rcases t with ⟨width, signed⟩
  cases signed with
  | true =>
    have hlow := Int.le_bmod (x := v) (m := Nat.pow 2 width.bits) (by cases width <;> decide)
    have hhigh := Int.bmod_lt (x := v) (m := Nat.pow 2 width.bits) (by cases width <;> decide)
    cases width <;> exact ⟨hlow, Int.le_sub_one_of_lt hhigh⟩
  | false =>
    have hlow := Int.emod_nonneg v (b := Nat.pow 2 width.bits) (by cases width <;> decide)
    have hhigh := Int.emod_lt_of_pos v (b := Nat.pow 2 width.bits) (by cases width <;> decide)
    exact ⟨hlow, Int.le_sub_one_of_lt hhigh⟩

/-- A value of the type stays as it is. -/
theorem reinterpret_of_mem {t : IntType} {v : Int} (hmin : t.min ≤ v) (hmax : v ≤ t.max) :
    t.reinterpret v = v := by
  rcases t with ⟨width, signed⟩
  cases signed with
  | true =>
    have hlow : -(Nat.pow 2 (width.bits - 1) : Int) ≤ v := hmin
    have hhigh : v ≤ (Nat.pow 2 (width.bits - 1) : Int) - 1 := hmax
    have hdouble : (Nat.pow 2 width.bits : Int) = 2 * Nat.pow 2 (width.bits - 1) := by
      cases width <;> rfl
    change Int.bmod v (Nat.pow 2 width.bits) = v
    exact Int.bmod_eq_of_le_mul_two (by omega) (by omega)
  | false => exact Int.emod_eq_of_lt hmin (Int.lt_of_le_sub_one hmax)

theorem reinterpret_reinterpret (v : Int) : t.reinterpret (t.reinterpret v) = t.reinterpret v :=
  reinterpret_of_mem (t.reinterpret_mem v).1 (t.reinterpret_mem v).2

end FormatString.IntType
