import Mathlib
import FormatString.Number.FloatText
import FormatString.Proofs.Number.IntType

/-!
# Bounds of what is read

A reader of numbers takes no more than there is, and the value it yields is one of the type it reads
into.
-/

namespace FormatString

/-! ## How much is taken -/

theorem length_digitRun_le (r : Radix) (cs : List Char) : (digitRun r cs).length ≤ cs.length := by
  induction cs with
  | nil => exact Nat.le_refl 0
  | cons c cs ih =>
    rw [digitRun]
    split
    · exact Nat.succ_le_succ ih
    · exact Nat.zero_le _

theorem readSign_suffix (cs : List Char) : (readSign cs).2 <:+ cs := by
  unfold readSign
  split
  · exact List.suffix_cons _ _
  · exact List.suffix_cons _ _
  · exact List.suffix_refl _

theorem readMark_suffix (base : Base) (cs : List Char) : (readMark base cs).2 <:+ cs := by
  unfold readMark
  split
  · split
    · exact (List.suffix_cons _ _).trans (List.suffix_cons _ _)
    · split
      · exact (List.suffix_cons _ _).trans (List.suffix_cons _ _)
      · exact List.suffix_refl _
  · exact List.suffix_refl _

theorem IntLiteral.consumed_le {base : Base} {cs : List Char} {l : IntLiteral}
    (h : IntLiteral.read? base cs = some l) : l.consumed ≤ cs.length := by
  have hbody := (readMark_suffix base (readSign (cs.dropWhile isBlank)).2).trans
    ((readSign_suffix _).trans (List.dropWhile_suffix isBlank (l := cs)))
  have hle := hbody.length_le
  have hdigits := length_digitRun_le (readMark base (readSign (cs.dropWhile isBlank)).2).1
    (readMark base (readSign (cs.dropWhile isBlank)).2).2
  rw [IntLiteral.read?] at h
  dsimp only at h
  split at h
  · exact absurd h (by simp)
  · next d ds hrun =>
    rw [hrun] at hdigits
    rw [← Option.some.inj h]
    dsimp only
    omega

theorem IntType.consumed_read_le (t : IntType) (base : Base) (cs : List Char) :
    (t.read base cs).consumed ≤ cs.length := by
  rw [IntType.read]
  split
  · exact Nat.zero_le _
  · next l hl => exact l.consumed_le hl

theorem consumed_readFloat_le (F : BinaryFormat) (cs : List Char) :
    (readFloat F cs).consumed ≤ cs.length := by
  rw [readFloat]
  dsimp only
  split
  · exact Nat.zero_le _
  · exact Nat.sub_le _ _

/-! ## Which values are read -/

namespace IntType

variable (t : IntType)

theorem clamp_mem (r : Radix) (v : Int) : t.min ≤ (t.clamp r v).1 ∧ (t.clamp r v).1 ≤ t.max := by
  have hmin := t.min_le_zero
  have hmax := t.zero_le_max
  rw [clamp]
  split
  · exact ⟨Int.le_refl _, by omega⟩
  split
  · exact ⟨by omega, by omega⟩
  split
  · next hsigned =>
    -- The upper half of the unsigned range is the negative half of the signed one.
    have hsplit : t.modulus = t.max + 1 - t.min := by
      obtain ⟨hsigned, -⟩ := hsigned
      rcases t with ⟨width, signed⟩
      obtain rfl : signed = true := hsigned
      cases width <;> rfl
    have hle : v ≤ t.modulus - 1 := hsigned.2.2
    exact ⟨by dsimp only; omega, by dsimp only; omega⟩
  · exact ⟨by omega, Int.le_refl _⟩

/-- **What is read fits the type**, whether it was clamped or not. -/
theorem read_mem (base : Base) (cs : List Char) :
    t.min ≤ (t.read base cs).value ∧ (t.read base cs).value ≤ t.max := by
  rw [read]
  split
  · exact ⟨t.min_le_zero, t.zero_le_max⟩
  · exact t.clamp_mem _ _

end IntType

end FormatString
