import Mathlib
import FormatString.Proofs.Number.Rendered
import FormatString.Proofs.Number.WrittenInt

/-!
# The number a text stands for

Text of a number is taken apart here without regard to how it was made: digits, perhaps a point,
digits behind it, and perhaps an exponent. Its value is read off these parts by positions alone. No
text has two values, since the parts can be told from the text, so it makes sense to ask which
number a rendered form denotes.
-/

namespace FormatString

/-- The characters of decimal digits. -/
def spellDigits (digits : List Nat) : List Char := digits.map Nat.digitChar

/-! ## Parts -/

/-- A mark, a sign that may be missing, and the digits of an exponent. -/
structure ExponentText where
  mark : Char
  sign : List Char
  digits : List Nat

namespace ExponentText

/-- The exponent as it is written. -/
def text (e : ExponentText) : List Char := e.mark :: (e.sign ++ spellDigits e.digits)

def value (e : ExponentText) : Int :=
  (if e.sign = ['-'] then -1 else 1) * (Nat.ofDigits 10 e.digits.reverse : Nat)

structure WellFormed (e : ExponentText) : Prop where
  mark : e.mark = 'e' ∨ e.mark = 'E'
  sign : e.sign = [] ∨ e.sign = ['+'] ∨ e.sign = ['-']
  ne_nil : e.digits ≠ []
  lt : ∀ d ∈ e.digits, d < 10

end ExponentText

/-- Digits, a point and digits behind it, and an exponent. -/
structure NumberText where
  whole : List Nat
  point : Bool
  fraction : List Nat
  exponent : Option ExponentText

namespace NumberText

/-- The number as it is written. -/
def text (t : NumberText) : List Char :=
  spellDigits t.whole ++ ((if t.point then ['.'] else []) ++ spellDigits t.fraction) ++
    (t.exponent.map ExponentText.text).getD []

def exponentValue (t : NumberText) : Int := (t.exponent.map ExponentText.value).getD 0

/-- The digits on both sides of the point are one number, in units of the last of them. -/
def value (t : NumberText) : ℚ :=
  (Nat.ofDigits 10 (t.whole ++ t.fraction).reverse : Nat) *
    10 ^ (t.exponentValue - t.fraction.length)

structure WellFormed (t : NumberText) : Prop where
  ne_nil : t.whole ≠ []
  lt : ∀ d ∈ t.whole ++ t.fraction, d < 10
  point : t.fraction ≠ [] → t.point
  exponent : ∀ e, t.exponent = some e → e.WellFormed

end NumberText

theorem spellDigits_eq {digits : List Nat} (h : ∀ d ∈ digits, d < 10) :
    spellDigits digits = digits.map (digitChar false) := by
  have htable : ∀ d < 10, Nat.digitChar d = digitChar false d := by decide
  exact List.map_congr_left fun d hd ↦ htable d (h d hd)

theorem isDigit_spellDigits {digits : List Nat} (h : ∀ d ∈ digits, d < 10) :
    ∀ c ∈ spellDigits digits, Radix.decimal.isDigit c := by
  rw [spellDigits_eq h]
  intro c hc
  rw [Radix.isDigit_decimal]
  exact Decimal.isDigit_map_digitChar h c hc

theorem ExponentText.WellFormed.spellsInt {e : ExponentText} (h : e.WellFormed) :
    SpellsInt .decimal (e.sign ++ spellDigits e.digits) e.value := by
  have hne : spellDigits e.digits ≠ [] := List.map_eq_nil_iff.not.mpr h.ne_nil
  have hvalue : valueOf .decimal (digitRun .decimal (spellDigits e.digits))
      = Nat.ofDigits 10 e.digits.reverse := by
    rw [spellDigits_eq h.lt, digitRun_map_digitChar h.lt]
    exact valueOf_eq_ofDigits .decimal _
  have hspells {negative : Bool} (hsign : SpellsSign e.sign negative) :=
    SpellsInt.literal hsign .absent hne (isDigit_spellDigits h.lt)
  simp only [hvalue, List.nil_append] at hspells
  rw [ExponentText.value]
  obtain hsign | hsign | hsign := h.sign <;> rw [hsign] at hspells ⊢
  · simpa using hspells .absent
  · simpa using hspells .plus
  · simpa using hspells .minus

namespace NumberText

variable {t t' : NumberText}

theorem WellFormed.spellsExponent (h : t.WellFormed) :
    SpellsExponent ((t.exponent.map ExponentText.text).getD []) t.exponentValue := by
  rw [exponentValue]
  cases hexponent : t.exponent with
  | none => exact .absent
  | some e =>
    have he := h.exponent e hexponent
    refine .marked ?_ he.spellsInt
    obtain hmark | hmark := he.mark <;> rw [hmark] <;> rfl

/-- The point is written where there are digits behind it, and may be elsewhere. -/
theorem WellFormed.text_eq (h : t.WellFormed) :
    t.text = t.whole.map (digitChar false) ++ Decimal.pointed t.fraction t.point ++
      (t.exponent.map ExponentText.text).getD [] := by
  obtain ⟨hwhole, hfraction⟩ := List.forall_mem_append.mp h.lt
  have hpoint : (if t.fraction.isEmpty && !t.point then [] else ['.'])
      = if t.point then ['.'] else [] := by
    cases hp : t.point with
    | true => rw [Bool.not_true, Bool.and_false, if_pos rfl, if_neg Bool.false_ne_true]
    | false =>
      have hnil : t.fraction = [] := by
        by_contra hne
        exact absurd (h.point hne) (ne_true_of_eq_false hp)
      rw [hnil]
      rfl
  rw [text, spellDigits_eq hwhole, spellDigits_eq hfraction, Decimal.pointed, hpoint]
  rfl

/-- **The parts can be told from the text**: a reader finds them again. -/
theorem WellFormed.readDecimal? (h : t.WellFormed) :
    readDecimal? t.text = some (.decimal t.whole t.fraction t.exponentValue, []) := by
  obtain ⟨hwhole, hfraction⟩ := List.forall_mem_append.mp h.lt
  have hend : EndsNumber [] := notNext_nil
  have hparts := readDecimal?_parts h.ne_nil hwhole hfraction h.spellsExponent t.point hend
  rwa [List.append_nil, ← h.text_eq] at hparts

theorem WellFormed.text_of_exponent_none (h : t.WellFormed) (hexponent : t.exponent = none) :
    t.text = t.whole.map (digitChar false) ++ Decimal.pointed t.fraction t.point := by
  rw [h.text_eq, hexponent]
  exact List.append_nil _

/-- In fixed form there are only digits and a point. -/
theorem WellFormed.mem_text_of_exponent_none (h : t.WellFormed) (hexponent : t.exponent = none) :
    ∀ c ∈ t.text, c.isDigit ∨ c = '.' := by
  obtain ⟨hwhole, hfraction⟩ := List.forall_mem_append.mp h.lt
  have hdigits := Decimal.isDigit_map_digitChar hfraction
  rw [h.text_of_exponent_none hexponent]
  refine List.forall_mem_append.mpr
    ⟨fun c hc ↦ .inl (Decimal.isDigit_map_digitChar hwhole c hc), ?_⟩
  refine List.forall_mem_append.mpr ⟨fun c hc ↦ .inr ?_, fun c hc ↦ .inl (hdigits c hc)⟩
  split at hc
  · exact absurd hc (by simp)
  · exact List.mem_singleton.mp hc

/-- Behind the digits in front, there is nothing or the point. -/
theorem WellFormed.dropWhile_text_of_exponent_none (h : t.WellFormed)
    (hexponent : t.exponent = none) : ∀ c ∈ (t.text.dropWhile Char.isDigit).head?, c = '.' := by
  have hdigits := Decimal.isDigit_map_digitChar (List.forall_mem_append.mp h.lt).1
  rw [h.text_of_exponent_none hexponent, List.dropWhile_append_of_pos hdigits, Decimal.pointed]
  split
  · next hbare =>
    rw [List.isEmpty_iff.mp (Bool.and_eq_true_iff.mp hbare).1]
    rintro c ⟨⟩
  · rintro c ⟨⟩
    rfl

/-- An exponent has a mark. -/
theorem exists_mark_of_exponent_ne_none (h : t.WellFormed) (hexponent : t.exponent ≠ none) :
    ∃ c ∈ t.text, Decimal.isMark c := by
  obtain ⟨e, he⟩ := Option.ne_none_iff_exists'.mp hexponent
  have hmark : Decimal.isMark e.mark := by
    simpa [Decimal.isMark] using (h.exponent e he).mark
  refine ⟨e.mark, ?_, hmark⟩
  rw [text, he]
  exact List.mem_append_right _ List.mem_cons_self

/-! ### Shortening -/

/-- The number without the zeros at the end of its fraction, and without a point that nothing stands
behind. -/
def shortened (t : NumberText) : NumberText :=
  let fraction := dropTrailing (· == 0) t.fraction
  { t with point := !fraction.isEmpty, fraction }

theorem WellFormed.shortened (h : t.WellFormed) : t.shortened.WellFormed where
  ne_nil := h.ne_nil
  lt := by
    obtain ⟨hwhole, hfraction⟩ := List.forall_mem_append.mp h.lt
    exact List.forall_mem_append.mpr
      ⟨hwhole, fun d hd ↦ hfraction d (dropTrailing_subset _ t.fraction hd)⟩
  point (hne : dropTrailing (· == 0) t.fraction ≠ []) :=
    (congrArg not (List.isEmpty_eq_false_iff.mpr hne)).trans Bool.not_false
  exponent := h.exponent

/-- Shortening the text of a number shortens the number. -/
theorem WellFormed.text_shortened (h : t.WellFormed) :
    t.shortened.text = dropFractionZeros some t.text := by
  obtain ⟨hwhole, hfraction⟩ := List.forall_mem_append.mp h.lt
  obtain ⟨kept, k, hzeros, hlast⟩ := exists_trailing_zeros t.fraction
  have hdrop : dropTrailing (· == 0) t.fraction = kept := by
    rw [hzeros, dropTrailing_append_replicate (by decide)]
    obtain rfl | ⟨front, d, rfl, hd⟩ := hlast
    · rfl
    · exact dropTrailing_append_singleton (by simpa using hd) front
  have hpoint : Decimal.pointed kept (!kept.isEmpty) = Decimal.pointed kept false := by
    cases kept <;> rfl
  rw [hzeros] at hfraction
  rw [h.text_eq, hzeros, dropFractionZeros_zeros hwhole (List.forall_mem_append.mp hfraction).1
    hlast h.spellsExponent, h.shortened.text_eq, NumberText.shortened]
  dsimp only
  rw [hdrop, hpoint]

end NumberText

/-! ## Rendered forms -/

namespace Decimal

variable {x : Decimal}

/-- The digits of the shown exponent: at least two. -/
def exponentDigits (e : Int) : List Nat :=
  if e.natAbs < 10 then [0, e.natAbs] else digitsOf .decimal e.natAbs

/-- The shown exponent. -/
def exponentText (upper : Bool) (e : Int) : ExponentText :=
  ⟨if upper then 'E' else 'e', if e < 0 then ['-'] else ['+'], exponentDigits e⟩

/-- The fixed form in parts. -/
def fixedText (x : Decimal) (precision : Nat) (alt : Bool) : NumberText :=
  ⟨x.integerDigits, 0 < precision || alt, x.fractionDigits precision, none⟩

/-- The scientific form in parts. -/
def scientificText (x : Decimal) (precision : Nat) (upper alt : Bool) : NumberText :=
  ⟨firstDigits 1 x.digits, 0 < precision || alt, firstDigits precision (x.digits.drop 1),
    some (exponentText upper x.exponent)⟩

theorem lt_of_mem_exponentDigits (e : Int) : ∀ d ∈ exponentDigits e, d < 10 := by
  rw [exponentDigits]
  split
  · next h => simpa using h
  · exact lt_of_mem_digitsOf .decimal _

theorem exponentDigits_ne_nil (e : Int) : exponentDigits e ≠ [] := by
  rw [exponentDigits]
  split
  · exact List.cons_ne_nil _ _
  · exact digitsOnto_ne_nil _ _ _

theorem exponentText_wellFormed (upper : Bool) (e : Int) : (exponentText upper e).WellFormed where
  mark := by cases upper <;> simp [exponentText]
  sign := by
    rw [exponentText]
    dsimp only
    split <;> simp
  ne_nil := exponentDigits_ne_nil e
  lt := lt_of_mem_exponentDigits e

theorem exponentText_text (upper : Bool) (e : Int) :
    (exponentText upper e).text = (if upper then 'E' else 'e') :: renderExponent e := by
  rw [ExponentText.text, exponentText, renderExponent]
  dsimp only
  rw [spellDigits_eq (lt_of_mem_exponentDigits e), exponentDigits]
  congr 1
  by_cases h : e.natAbs < 10
  · rw [if_pos h, if_pos h, digitsOf_of_lt h]
    split <;> rfl
  · rw [if_neg h, if_neg h]
    split <;> rfl

theorem exponentText_value (upper : Bool) (e : Int) : (exponentText upper e).value = e := by
  have hdigits : Nat.ofDigits 10 (exponentDigits e).reverse = e.natAbs := by
    refine (valueOf_eq_ofDigits .decimal _).symm.trans ?_
    rw [exponentDigits]
    split
    · next h => rw [valueOf_cons_zero, ← digitsOf_of_lt (r := .decimal) h, valueOf_digitsOf]
    · exact valueOf_digitsOf _ _
  rw [ExponentText.value, exponentText]
  dsimp only
  rw [hdigits]
  by_cases h : e < 0
  · rw [if_pos h, if_pos rfl]
    omega
  · rw [if_neg h, if_neg (by decide)]
    omega

theorem fixedText_wellFormed (h : ∀ d ∈ x.digits, d < 10) (precision : Nat) (alt : Bool) :
    (x.fixedText precision alt).WellFormed where
  ne_nil := by
    rw [fixedText, integerDigits]
    dsimp only
    split
    · exact List.cons_ne_nil _ _
    · rw [← List.length_pos_iff, length_firstDigits]
      exact Nat.succ_pos _
  lt := List.forall_mem_append.mpr ⟨integerDigits_lt h, fractionDigits_lt h precision⟩
  point hne := by
    rw [← List.length_pos_iff] at hne
    have hpos : 0 < precision := hne.trans_eq (length_fractionDigits x precision)
    simp [fixedText, hpos]
  exponent e he := by cases he

theorem scientificText_wellFormed (h : ∀ d ∈ x.digits, d < 10) (precision : Nat) (upper alt : Bool) :
    (x.scientificText precision upper alt).WellFormed where
  ne_nil := by
    rw [← List.length_pos_iff]
    exact Nat.one_pos.trans_eq (length_firstDigits _ 1).symm
  lt := List.forall_mem_append.mpr ⟨firstDigits_lt h 1, fraction_lt h precision⟩
  point hne := by
    rw [← List.length_pos_iff] at hne
    have hpos : 0 < precision := hne.trans_eq (length_firstDigits _ precision)
    simp [scientificText, hpos]
  exponent e he := by
    obtain rfl := Option.some.inj he
    exact exponentText_wellFormed _ _

/-- The point is left out only where nothing stands behind it and nobody asked for it. -/
theorem pointed_eq (digits : List Nat) (alt : Bool) :
    pointed digits alt = pointed digits (0 < digits.length || alt) := by
  cases digits <;> cases alt <;> rfl

/-- **What is rendered** in fixed form is the text of these parts. -/
theorem fixedText_text (h : ∀ d ∈ x.digits, d < 10) (precision : Nat) (alt : Bool) :
    (x.fixedText precision alt).text = x.renderFixed precision alt := by
  rw [(fixedText_wellFormed h precision alt).text_eq, renderFixed, pointed_eq _ alt,
    length_fractionDigits]
  exact List.append_nil _

theorem scientificText_text (h : ∀ d ∈ x.digits, d < 10) (precision : Nat) (upper alt : Bool) :
    (x.scientificText precision upper alt).text = x.renderScientific precision upper alt := by
  rw [(scientificText_wellFormed h precision upper alt).text_eq, renderScientific,
    pointed_eq _ alt, length_firstDigits]
  exact congrArg _ (exponentText_text upper x.exponent)

theorem fixedText_value (x : Decimal) (precision : Nat) (alt : Bool) :
    (x.fixedText precision alt).value
      = valueOf .decimal (firstDigits (x.exponent + 1 + precision).toNat x.digits) *
        10 ^ (-(precision : Int)) := by
  rw [NumberText.value, ← valueOf_fixedDigits, valueOf_eq_ofDigits]
  change _ * (10 : ℚ) ^ (0 - ((x.fractionDigits precision).length : Int)) = _
  rw [length_fractionDigits, zero_sub]
  rfl

theorem scientificText_value (x : Decimal) (precision : Nat) (upper alt : Bool) :
    (x.scientificText precision upper alt).value
      = valueOf .decimal (firstDigits (precision + 1) x.digits) *
        10 ^ (x.exponent - precision) := by
  rw [NumberText.value, Nat.add_comm precision, firstDigits_add, valueOf_eq_ofDigits]
  change _ * (10 : ℚ) ^ ((exponentText upper x.exponent).value -
    ((firstDigits precision (x.digits.drop 1)).length : Int)) = _
  rw [length_firstDigits, exponentText_value]
  rfl

end Decimal

end FormatString
