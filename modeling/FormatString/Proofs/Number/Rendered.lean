import Mathlib
import FormatString.Proofs.Number.DecimalText

/-!
# What is rendered spells its digits

The digits of a decimal are the same number in every form it is rendered in, as long as the form has
room for the last of them. The scientific form has it by the number of digits; in the fixed form
that is said by the exponent. Zeros are put in front of the digits or behind them, and shortening
takes only such zeros away as stand behind the point.
-/

namespace FormatString

/-! ## Zeros behind the digits -/

theorem valueOf_append (r : Radix) (ds es : List Nat) :
    valueOf r (ds ++ es) = valueOf r ds * r.value ^ es.length + valueOf r es := by
  induction es using List.reverseRecOn with
  | nil => rw [List.append_nil, List.length_nil, pow_zero, Nat.mul_one]; rfl
  | append_singleton es e ih =>
    have hlast (fs : List Nat) : valueOf r (fs ++ [e]) = valueOf r fs * r.value + e := by
      rw [valueOf, List.foldl_append]
      rfl
    rw [← List.append_assoc, hlast, hlast, ih, List.length_append, List.length_singleton, pow_succ]
    ring

theorem valueOf_append_replicate_zero (r : Radix) (ds : List Nat) (k : Nat) :
    valueOf r (ds ++ List.replicate k 0) = valueOf r ds * r.value ^ k := by
  have hzeros : valueOf r (List.replicate k 0 ++ []) = 0 := valueOf_replicate_zero r k []
  rw [valueOf_append, List.length_replicate, ← List.append_nil (List.replicate k 0), hzeros,
    Nat.add_zero]

/-- Every list of digits is one that does not end in a zero, and zeros. -/
theorem exists_trailing_zeros (ds : List Nat) : ∃ kept k, ds = kept ++ List.replicate k 0 ∧
    (kept = [] ∨ ∃ front d, kept = front ++ [d] ∧ d ≠ 0) := by
  induction ds using List.reverseRecOn with
  | nil => exact ⟨[], 0, rfl, .inl rfl⟩
  | append_singleton ds d ih =>
    by_cases hd : d = 0
    · obtain ⟨kept, k, rfl, hkept⟩ := ih
      refine ⟨kept, k + 1, ?_, hkept⟩
      rw [hd, List.replicate_succ', List.append_assoc]
    · exact ⟨ds ++ [d], 0, (List.append_nil _).symm, .inr ⟨ds, d, rfl, hd⟩⟩

namespace Decimal

/-! ## The first digits -/

section FirstDigits

variable (ds : List Nat)

theorem length_firstDigits (count : Nat) : (firstDigits count ds).length = count := by
  rw [firstDigits, List.length_append, List.length_take, List.length_replicate]
  omega

theorem firstDigits_of_le {count : Nat} (h : ds.length ≤ count) :
    firstDigits count ds = ds ++ List.replicate (count - ds.length) 0 := by
  rw [firstDigits, List.take_of_length_le h]

theorem firstDigits_add (a b : Nat) :
    firstDigits (a + b) ds = firstDigits a ds ++ firstDigits b (ds.drop a) := by
  rw [firstDigits, firstDigits, firstDigits, List.length_drop]
  by_cases hle : a ≤ ds.length
  · have hnone : a - ds.length = 0 := Nat.sub_eq_zero_of_le hle
    have hcount : a + b - ds.length = b - (ds.length - a) := by omega
    rw [hnone, hcount, List.take_add, List.replicate_zero, List.append_nil, List.append_assoc]
  · have hcount : a + b - ds.length = (a - ds.length) + (b - (ds.length - a)) := by omega
    have hlt : ds.length ≤ a := Nat.le_of_not_le hle
    rw [hcount, List.take_of_length_le (by omega), List.take_of_length_le hlt,
      List.drop_eq_nil_of_le hlt, List.take_nil, List.nil_append, List.append_assoc,
      List.replicate_append_replicate]

end FirstDigits

variable {x : Decimal}

theorem length_fractionDigits (x : Decimal) (count : Nat) :
    (x.fractionDigits count).length = count := by
  rw [fractionDigits]
  split
  · rw [List.length_append, List.length_replicate, length_firstDigits]
    omega
  · exact length_firstDigits _ _

/-- In the fixed form, the digits stand between zeros, as many of them as there is room for. -/
theorem valueOf_fixedDigits (x : Decimal) (count : Nat) :
    valueOf .decimal (x.integerDigits ++ x.fractionDigits count)
      = valueOf .decimal (firstDigits (x.exponent + 1 + count).toNat x.digits) := by
  rw [integerDigits, fractionDigits]
  by_cases hneg : x.exponent < 0
  · have hcount : count - min ((-x.exponent).toNat - 1) count
        = (x.exponent + 1 + count).toNat := by omega
    rw [if_pos hneg, if_pos hneg]
    dsimp only
    rw [hcount, List.singleton_append, valueOf_cons_zero, valueOf_replicate_zero]
  · have hcount : (x.exponent + 1 + count).toNat = x.exponent.toNat + 1 + count := by omega
    rw [if_neg hneg, if_neg hneg, hcount, ← firstDigits_add]

/-! ## Rendered forms -/

theorem spellsDecimal_renderScientific (h : ∀ d ∈ x.digits, d < 10) {p : Nat}
    (hlength : x.digits.length = p + 1) (upper alt : Bool) :
    ∃ n e, SpellsDecimal (x.renderScientific p upper alt) n e ∧ (n : ℚ) * 10 ^ e = x.magnitude := by
  have hwhole : firstDigits 1 x.digits ≠ [] := by
    rw [← List.length_pos_iff, length_firstDigits]
    exact Nat.one_pos
  have hmark : isMark (if upper then 'E' else 'e') := by cases upper <;> rfl
  refine ⟨_, _, .intro hwhole (firstDigits_lt h 1) (fraction_lt h p)
    (.marked hmark (spellsInt_renderExponent x.exponent)) alt, ?_⟩
  have hplace : x.exponent - p = x.exponent + 1 - (p + 1 : Nat) := by push_cast; ring
  rw [← firstDigits_add, firstDigits_of_le _ (by omega), length_firstDigits, magnitude, hlength,
    Nat.add_comm 1 p, Nat.sub_self, List.replicate_zero, List.append_nil, hplace]

theorem spellsDecimal_renderFixed (h : ∀ d ∈ x.digits, d < 10) {count : Nat}
    (hplace : x.digits.length ≤ x.exponent + 1 + count) (alt : Bool) :
    ∃ n e, SpellsDecimal (x.renderFixed count alt) n e ∧ (n : ℚ) * 10 ^ e = x.magnitude := by
  have hten : (10 : ℚ) ≠ 0 := by norm_num
  have hwhole : x.integerDigits ≠ [] := by
    rw [integerDigits]
    split
    · exact List.cons_ne_nil _ _
    · rw [← List.length_pos_iff, length_firstDigits]
      exact Nat.succ_pos _
  have hspells := SpellsDecimal.intro hwhole (integerDigits_lt h) (fractionDigits_lt h count)
    .absent alt
  rw [List.append_nil, valueOf_fixedDigits, firstDigits_of_le _ (by omega),
    valueOf_append_replicate_zero, length_fractionDigits] at hspells
  refine ⟨_, _, hspells, ?_⟩
  have hroom : (((x.exponent + 1 + count).toNat - x.digits.length : Nat) : Int)
      = x.exponent + 1 + count - x.digits.length := by omega
  rw [magnitude, Nat.cast_mul, Nat.cast_pow, ← zpow_natCast, hroom, mul_assoc]
  change _ * ((10 : ℚ) ^ _ * _) = _
  rw [← zpow_add₀ hten]
  congr 2
  ring

/-! ## Digits of a binary value -/

section OfBinary

variable {F : BinaryFormat} {v : Binary F}

theorem length_significant (hv : v.isFinite) (p : Nat) :
    (ofBinary v (.significant (p + 1))).digits.length = p + 1 := by
  have hmax : max (p + 1) 1 = p + 1 := Nat.max_eq_left (Nat.le_add_left 1 p)
  rw [ofBinary_significant hv, hmax]
  by_cases hzero : v.expansion = 0
  · rw [hzero, significantDigits_zero]
    exact List.length_replicate
  · obtain ⟨m, e, -, hdigits, hlength, -⟩ := exists_significantDigits F.scale p hzero
    rw [hdigits]
    exact hlength

/-- So many digits behind the point do not reach further. -/
theorem length_fractional_le (hv : v.isFinite) (count : Nat) :
    ((ofBinary v (.fractional count)).digits.length : Int)
      ≤ (ofBinary v (.fractional count)).exponent + 1 + count := by
  rw [ofBinary_fractional hv, fractionalDigits]
  dsimp only
  split
  · rw [List.length_singleton]
    omega
  · dsimp only
    omega

end OfBinary

end Decimal

/-! ## Shortening -/

theorem dropTrailing_append_replicate {α : Type} {p : α → Bool} {a : α} (ha : p a) (xs : List α)
    (k : Nat) : dropTrailing p (xs ++ List.replicate k a) = dropTrailing p xs := by
  have hall : ∀ x ∈ List.replicate k a, p x := by
    intro x hx
    rwa [List.eq_of_mem_replicate hx]
  rw [dropTrailing, List.reverse_append, List.reverse_replicate, List.dropWhile_append_of_pos hall,
    dropTrailing]

theorem dropTrailing_append_singleton {α : Type} {p : α → Bool} {a : α} (ha : p a = false)
    (xs : List α) : dropTrailing p (xs ++ [a]) = xs ++ [a] := by
  rw [dropTrailing, List.reverse_append, List.reverse_singleton, List.singleton_append,
    List.dropWhile_cons_of_neg (ne_true_of_eq_false ha), List.reverse_cons,
    List.reverse_reverse]

/-- The digits of zero and the point are told apart from the other digits. -/
theorem digitChar_ne {d : Nat} (hd : d < 10) (hne : d ≠ 0) :
    (digitChar false d == '0') = false ∧ digitChar false d ≠ '.' := by
  have htable : ∀ d < 10, d ≠ 0 → (digitChar false d == '0') = false ∧ digitChar false d ≠ '.' := by
    decide
  exact htable d hd hne

/-- **Shortening** takes zeros from the end of the fraction, and with all of it the point. -/
theorem shortenMantissa_zeros {whole kept : List Nat} (hkept : ∀ d ∈ kept, d < 10)
    (hlast : kept = [] ∨ ∃ front d, kept = front ++ [d] ∧ d ≠ 0) (k : Nat) :
    shortenMantissa (whole.map (digitChar false) ++
        Decimal.pointed (kept ++ List.replicate k 0) true)
      = whole.map (digitChar false) ++ Decimal.pointed kept false := by
  have hpoint (digits : List Nat) :
      Decimal.pointed digits true = '.' :: digits.map (digitChar false) := by
    rw [Decimal.pointed, Bool.not_true, Bool.and_false, if_neg Bool.false_ne_true]
    rfl
  have hzero : digitChar false 0 = '0' := rfl
  generalize whole.map (digitChar false) = front
  have hany : (front ++ Decimal.pointed (kept ++ List.replicate k 0) true).any (· == '.') := by
    rw [hpoint, List.any_append, List.any_cons]
    simp
  rw [shortenMantissa, if_pos hany, hpoint, List.map_append, List.map_replicate, hzero,
    ← List.cons_append, ← List.append_assoc, dropTrailing_append_replicate (by decide)]
  obtain rfl | ⟨digits, d, rfl, hd⟩ := hlast
  · have hbare : Decimal.pointed [] false = [] := rfl
    rw [List.map_nil, dropTrailing_append_singleton (by decide), hbare]
    simp
  · have hrest : Decimal.pointed (digits ++ [d]) false
        = '.' :: (digits ++ [d]).map (digitChar false) := by
      rw [← hpoint, Decimal.pointed, Decimal.pointed, List.isEmpty_eq_false_iff.mpr (by simp)]
      rfl
    obtain ⟨hne, hpointless⟩ := digitChar_ne (hkept d (by simp)) hd
    rw [List.map_append, List.map_singleton, ← List.cons_append, ← List.append_assoc,
      dropTrailing_append_singleton (p := (· == '0')) hne]
    dsimp only
    rw [List.getLast?_concat, if_neg (by simpa using hpointless), hrest, List.map_append,
      List.append_assoc, List.cons_append, List.map_singleton]

/-- The digits in front of the point and the exponent are kept. -/
theorem dropFractionZeros_zeros {whole kept : List Nat} {exponent : List Char} {e : Int}
    (hwhole : ∀ d ∈ whole, d < 10) (hkept : ∀ d ∈ kept, d < 10)
    (hlast : kept = [] ∨ ∃ front d, kept = front ++ [d] ∧ d ≠ 0)
    (hexponent : SpellsExponent exponent e) (k : Nat) (alt : Bool) :
    dropFractionZeros some (whole.map (digitChar false) ++
        Decimal.pointed (kept ++ List.replicate k 0) alt ++ exponent)
      = whole.map (digitChar false) ++ Decimal.pointed kept false ++ exponent := by
  have hdigits := Decimal.isDigit_map_digitChar hwhole
  have hfraction : ∀ d ∈ kept ++ List.replicate k 0, d < 10 :=
    List.forall_mem_append.mpr ⟨hkept, replicate_zero_lt k⟩
  have hmantissa : ∀ c ∈ whole.map (digitChar false) ++
      Decimal.pointed (kept ++ List.replicate k 0) alt, Decimal.isMark c = false :=
    List.forall_mem_append.mpr ⟨fun c hc ↦ Decimal.isMark_eq_false_of_isDigit (hdigits c hc),
      Decimal.isMark_pointed hfraction alt⟩
  have hsuffix : NotNext (!Decimal.isMark ·) exponent := by
    cases hexponent with
    | absent => exact notNext_nil
    | marked hmark => exact notNext_cons.mpr (by rw [hmark]; rfl)
  rw [dropFractionZeros_append hmantissa hsuffix, shortenMantissa_pointed hdigits,
    shortenMantissa_zeros hkept hlast]

/-- **A shortened number** is the same number. -/
theorem SpellsDecimal.dropFractionZeros {text : List Char} {n : Nat} {e : Int}
    (h : SpellsDecimal text n e) : ∃ n' e', SpellsDecimal (dropFractionZeros some text) n' e' ∧
      (n' : ℚ) * 10 ^ e' = n * 10 ^ e := by
  obtain ⟨hne, hwhole, hfraction, hexponent, alt⟩ := h
  rename_i whole fraction exponent e
  obtain ⟨kept, k, rfl, hlast⟩ := exists_trailing_zeros fraction
  have hkept := (List.forall_mem_append.mp hfraction).1
  rw [dropFractionZeros_zeros hwhole hkept hlast hexponent]
  refine ⟨_, _, .intro hne hwhole hkept hexponent false, ?_⟩
  have hten : (10 : ℚ) ≠ 0 := by norm_num
  have hplace : e - kept.length = k + (e - (kept.length + k : Nat)) := by push_cast; ring
  rw [← List.append_assoc, valueOf_append_replicate_zero, List.length_append, List.length_replicate,
    hplace, zpow_add₀ hten, zpow_natCast, Nat.cast_mul, Nat.cast_pow, mul_assoc]
  rfl

end FormatString
