import Mathlib
import FormatString.Proofs.Number.LongestFloat
import FormatString.Proofs.Number.NearestMultiple
import FormatString.Proofs.Number.NumberText

/-!
# Correct rounding

A number rounded to so many digits has one text in fixed form and, apart from the letters of the
exponent, one in scientific form. `NumberText.RoundsFixed` and `NumberText.RoundsScientific` describe
them by their shape and by the nearest multiple of the place of the last digit. Both forms that are
rendered from the digits of a binary value are such texts.

The digits can also be had from such a text, whoever wrote it: `ofFixedText` cuts it at the point and
turns the zeros behind the point into an exponent, and `ofScientificText` reads the exponent. Since
the text decides the digits, they are the same as those that are computed.
-/

namespace FormatString

/-! ## Rounded text -/

namespace ExponentText

/-- A sign always, and two digits at least, more only where the number needs them. -/
structure IsPadded (e : ExponentText) : Prop where
  sign : e.sign = if e.value < 0 then ['-'] else ['+']
  two_le : 2 ≤ e.digits.length
  leading : e.digits.head? = some 0 → e.digits.length = 2

end ExponentText

namespace NumberText

/-- The text is `q` rounded to `p` digits behind the point. -/
structure RoundsFixed (t : NumberText) (q : ℚ) (p : Nat) : Prop where
  wellFormed : t.WellFormed
  unmarked : t.exponent = none
  leading : t.whole.head? = some 0 → t.whole = [0]
  length : t.fraction.length = p
  nearest : ∃ m : Nat, t.value = m * 10 ^ (-(p : Int)) ∧ IsNearestMultiple (10 ^ (-(p : Int))) q m

/-- The text is `q` rounded to one significant digit before the point and `p` behind it. -/
structure RoundsScientific (t : NumberText) (q : ℚ) (p : Nat) : Prop where
  wellFormed : t.WellFormed
  marked : t.exponent ≠ none
  single : t.whole.length = 1
  leading : t.whole = [0] → q = 0
  length : t.fraction.length = p
  nearest : q ≠ 0 → ∃ m : Nat, t.value = m * 10 ^ (Int.log 10 q - p) ∧
    IsNearestMultiple (10 ^ (Int.log 10 q - p)) q m
  zero : q = 0 → t.value = 0 ∧ t.exponentValue = 0

end NumberText

/-! ## Digits of a text -/

/-- The digits that digit characters stand for. -/
def digitsOfText (cs : List Char) : List Nat := cs.map fun c ↦ c.toNat - '0'.toNat

namespace Decimal

/-- The digits of a number in fixed form. Zeros in front of the first digit are left out. -/
def ofFixedText (negative : Bool) (text : List Char) : Decimal :=
  let whole := text.takeWhile (· != '.')
  let fraction := (text.dropWhile (· != '.')).drop 1
  if whole ≠ ['0'] then ⟨negative, .finite, digitsOfText (whole ++ fraction), whole.length - 1⟩
  else
    let zeros := (fraction.takeWhile (· == '0')).length
    if zeros = fraction.length then ⟨negative, .finite, [0], 0⟩
    else ⟨negative, .finite, digitsOfText (fraction.drop zeros), -zeros - 1⟩

/-- The digits of a number in scientific form. -/
def ofScientificText (negative : Bool) (text : List Char) : Decimal :=
  let mantissa := text.takeWhile (· != 'e')
  let exponent := (text.dropWhile (· != 'e')).drop 1
  ⟨negative, .finite, digitsOfText (mantissa.filter Char.isDigit),
    (parseInteger? exponent).getD 0⟩

end Decimal

section DigitsOfText

variable {ds : List Nat}

theorem digitsOfText_spellDigits (h : ∀ d ∈ ds, d < 10) : digitsOfText (spellDigits ds) = ds := by
  have htable : ∀ d < 10, (Nat.digitChar d).toNat - '0'.toNat = d := by decide
  rw [digitsOfText, spellDigits, List.map_map]
  exact (List.map_congr_left fun d hd ↦ htable d (h d hd)).trans (List.map_id ds)

@[simp] theorem length_spellDigits (ds : List Nat) : (spellDigits ds).length = ds.length :=
  List.length_map _

theorem spellDigits_append (ds es : List Nat) :
    spellDigits (ds ++ es) = spellDigits ds ++ spellDigits es := List.map_append

/-- Digits are those of their value, unless they start with a zero. -/
theorem digitsOf_valueOf (h : ∀ d ∈ ds, d < 10) (hne : ds ≠ []) (hhead : ds.head? ≠ some 0) :
    valueOf .decimal ds ≠ 0 ∧ digitsOf .decimal (valueOf .decimal ds) = ds := by
  have hlast (hrev : ds.reverse ≠ []) : ds.reverse.getLast hrev ≠ 0 := by
    rw [List.getLast_reverse]
    intro hzero
    exact hhead (by rw [List.head?_eq_some_head hne, hzero])
  have hdigits : ds.reverse = Nat.digits 10 (valueOf .decimal ds) := by
    rw [valueOf_eq_ofDigits]
    exact (Nat.digits_ofDigits 10 (by decide) _ (fun d hd ↦ h d (List.mem_reverse.mp hd)) hlast).symm
  have hzero : valueOf .decimal ds ≠ 0 := by
    intro hzero
    rw [hzero, Nat.digits_zero] at hdigits
    exact hne (List.reverse_eq_nil_iff.mp hdigits)
  refine ⟨hzero, List.reverse_injective ?_⟩
  rw [hdigits]
  exact (Radix.decimal.isNumeral_writeNat false _).reverse_eq_digits (by decide)
    (head?_digitsOf_ne_zero _ hzero)

/-- Only zeros are worth nothing. -/
theorem eq_replicate_of_valueOf_eq_zero (h : valueOf .decimal ds = 0) :
    ds = List.replicate ds.length 0 := by
  induction ds with
  | nil => rfl
  | cons d ds ih =>
    rw [← List.singleton_append, valueOf_append] at h
    obtain ⟨hd, hds⟩ := Nat.add_eq_zero_iff.mp h
    have hd : d = 0 := by simpa [valueOf, Radix.decimal] using hd
    rw [List.length_cons, List.replicate_succ, ← ih hds, hd]

theorem exists_leading_zeros (ds : List Nat) :
    ∃ zeros rest, ds = List.replicate zeros 0 ++ rest ∧ rest.head? ≠ some 0 := by
  induction ds with
  | nil => exact ⟨0, [], rfl, by simp⟩
  | cons d ds ih =>
    by_cases hd : d = 0
    · obtain ⟨zeros, rest, rfl, hrest⟩ := ih
      exact ⟨zeros + 1, rest, by rw [hd, List.replicate_succ, List.cons_append], hrest⟩
    · exact ⟨0, d :: ds, rfl, by simpa using hd⟩

end DigitsOfText

namespace NumberText

variable {t : NumberText}

theorem value_eq (t : NumberText) :
    t.value = valueOf .decimal (t.whole ++ t.fraction) *
      10 ^ (t.exponentValue - t.fraction.length) := by
  rw [value, valueOf_eq_ofDigits]
  rfl

/-- **Cutting at the point** gives the digits on both sides. -/
theorem WellFormed.split_point (h : t.WellFormed) (hnone : t.exponent = none) :
    t.text.takeWhile (· != '.') = spellDigits t.whole ∧
      (t.text.dropWhile (· != '.')).drop 1 = spellDigits t.fraction := by
  obtain ⟨hwhole, -⟩ := List.forall_mem_append.mp h.lt
  have hdigits : ∀ c ∈ spellDigits t.whole, c != '.' := fun c hc ↦
    bne_iff_ne.mpr (ne_of_isDigit (isDigit_spellDigits hwhole c hc) (by decide))
  have hrest : NotNext (· != '.') ((if t.point then ['.'] else []) ++ spellDigits t.fraction) ∧
      ((if t.point then ['.'] else []) ++ spellDigits t.fraction).drop 1
        = spellDigits t.fraction := by
    by_cases hpoint : t.point = true
    · rw [if_pos hpoint]
      exact ⟨notNext_cons.mpr (by decide), rfl⟩
    · have hnil : t.fraction = [] := not_not.mp (mt h.point hpoint)
      rw [if_neg hpoint, hnil]
      exact ⟨notNext_nil, rfl⟩
  obtain ⟨htake, hdrop⟩ := span_of_notNext hdigits hrest.1
  rw [text, hnone, Option.map_none, Option.getD_none, List.append_nil, htake, hdrop]
  exact ⟨rfl, hrest.2⟩

/-- **Cutting at the mark** gives the digits and the exponent. -/
theorem WellFormed.split_mark (h : t.WellFormed) {e : ExponentText} (he : t.exponent = some e)
    (hmark : e.mark = 'e') :
    (t.text.takeWhile (· != 'e')).filter Char.isDigit = spellDigits (t.whole ++ t.fraction) ∧
      parseInteger? ((t.text.dropWhile (· != 'e')).drop 1) = some e.value := by
  obtain ⟨hwhole, hfraction⟩ := List.forall_mem_append.mp h.lt
  have hdigit {ds : List Nat} (hds : ∀ d ∈ ds, d < 10) :
      ∀ c ∈ spellDigits ds, c != 'e' ∧ c.isDigit := by
    intro c hc
    have hdecimal := isDigit_spellDigits hds c hc
    rw [← Radix.isDigit_decimal]
    refine ⟨bne_iff_ne.mpr ?_, hdecimal⟩
    rintro rfl
    exact absurd hdecimal (by decide)
  have hmantissa : ∀ c ∈ spellDigits t.whole ++
      ((if t.point then ['.'] else []) ++ spellDigits t.fraction), c != 'e' := by
    refine List.forall_mem_append.mpr ⟨fun c hc ↦ (hdigit hwhole c hc).1,
      List.forall_mem_append.mpr ⟨?_, fun c hc ↦ (hdigit hfraction c hc).1⟩⟩
    split <;> simp
  have hrest : NotNext (· != 'e') e.text := by
    rw [ExponentText.text, hmark]
    exact notNext_cons.mpr (by decide)
  have hpoint : (if t.point then ['.'] else []).filter Char.isDigit = [] := by
    split <;> rfl
  obtain ⟨htake, hdrop⟩ := span_of_notNext hmantissa hrest
  rw [text, he, Option.map_some, Option.getD_some, htake, hdrop, List.filter_append,
    List.filter_append, hpoint, List.nil_append, spellDigits_append,
    List.filter_eq_self.mpr fun c hc ↦ (hdigit hwhole c hc).2,
    List.filter_eq_self.mpr fun c hc ↦ (hdigit hfraction c hc).2]
  exact ⟨rfl, parseInteger?_of_spellsInt (h.exponent e he).spellsInt⟩

end NumberText

namespace Decimal

variable {F : BinaryFormat} {x : Binary F} {t : NumberText} {p : Nat}

/-! ## The digits of rounded text -/

theorem ofFixedText_of_ne (h : t.WellFormed) (hnone : t.exponent = none) (hne : t.whole ≠ [0])
    (negative : Bool) : ofFixedText negative t.text
      = ⟨negative, .finite, t.whole ++ t.fraction, t.whole.length - 1⟩ := by
  obtain ⟨htake, hdrop⟩ := h.split_point hnone
  have hspelled : spellDigits t.whole ≠ ['0'] := by
    intro hzero
    refine hne ?_
    rw [← digitsOfText_spellDigits (List.forall_mem_append.mp h.lt).1, hzero]
    rfl
  rw [ofFixedText, htake, hdrop, ← spellDigits_append, digitsOfText_spellDigits h.lt,
    length_spellDigits]
  exact if_pos hspelled

/-- Zeros behind the point become the exponent. -/
theorem ofFixedText_of_zeros (h : t.WellFormed) (hnone : t.exponent = none) (hzero : t.whole = [0])
    {zeros : Nat} {rest : List Nat} (hsplit : t.fraction = List.replicate zeros 0 ++ rest)
    (hhead : rest.head? ≠ some 0) (negative : Bool) : ofFixedText negative t.text
      = if rest = [] then ⟨negative, .finite, [0], 0⟩ else ⟨negative, .finite, rest, -zeros - 1⟩ := by
  obtain ⟨htake, hdrop⟩ := h.split_point hnone
  have hrest : ∀ d ∈ rest, d < 10 := fun d hd ↦
    h.lt d (by rw [hsplit]; exact List.mem_append_right _ (List.mem_append_right _ hd))
  have hfirst : NotNext (· == '0') (spellDigits rest) := by
    cases rest with
    | nil => exact notNext_nil
    | cons d rest =>
      have htable : ∀ d < 10, d ≠ 0 → (Nat.digitChar d == '0') = false := by decide
      exact notNext_cons.mpr (htable d (hrest d List.mem_cons_self) fun hd ↦ hhead (by rw [hd]; rfl))
  have hzeros : ∀ c ∈ List.replicate zeros '0', c == '0' := fun c hc ↦
    beq_iff_eq.mpr (List.eq_of_mem_replicate hc)
  have hchars : spellDigits t.fraction = List.replicate zeros '0' ++ spellDigits rest := by
    rw [hsplit, spellDigits_append, spellDigits, List.map_replicate]
    rfl
  have hlength : (List.replicate zeros '0').length
      = (List.replicate zeros '0' ++ spellDigits rest).length ↔ rest = [] := by
    rw [List.length_append, length_spellDigits, ← List.length_eq_zero_iff]
    omega
  have hwhole : ¬ spellDigits [0] ≠ ['0'] := by decide
  rw [ofFixedText, htake, hdrop, hzero, hchars, (span_of_notNext hzeros hfirst).1, if_neg hwhole]
  dsimp only
  rw [List.drop_left, digitsOfText_spellDigits hrest]
  by_cases hnil : rest = []
  · rw [if_pos (hlength.mpr hnil), if_pos hnil]
  · rw [if_neg (mt hlength.mp hnil), if_neg hnil, List.length_replicate]

/-- Rounded text has the digits of the nearest multiple. -/
theorem valueOf_of_roundsFixed {q : ℚ} {m : Nat} (h : t.RoundsFixed q p)
    (hm : IsNearestMultiple (10 ^ (-(p : Int))) q m) :
    valueOf .decimal (t.whole ++ t.fraction) = m := by
  have hpos : (10 : ℚ) ^ (-(p : Int)) ≠ 0 := by positivity
  obtain ⟨m', hvalue, hm'⟩ := h.nearest
  have hnone : t.exponentValue = 0 := by rw [NumberText.exponentValue, h.unmarked]; rfl
  rw [t.value_eq, hnone, h.length, zero_sub] at hvalue
  rw [hm.unique hpos hm']
  exact_mod_cast mul_right_cancel₀ hpos hvalue

/-- **Text in fixed form** that is correctly rounded gives the digits that are computed. -/
theorem ofFixedText_of_rounds (hx : x.isFinite) (h : t.RoundsFixed x.magnitude p) :
    ofFixedText x.negative t.text = ofBinary x (.fractional p) := by
  obtain ⟨m, hm, hdigits⟩ := exists_fractional hx p
  have hvalue := valueOf_of_roundsFixed h hm
  have hlt := h.wellFormed.lt
  rw [hdigits]
  by_cases hzero : t.whole = [0]
  · obtain ⟨zeros, rest, hsplit, hhead⟩ := exists_leading_zeros t.fraction
    have hlength : zeros + rest.length = p := by
      rw [← h.length, hsplit, List.length_append, List.length_replicate]
    rw [hzero, hsplit, List.singleton_append, valueOf_cons_zero, valueOf_replicate_zero] at hvalue
    rw [ofFixedText_of_zeros h.wellFormed h.unmarked hzero hsplit hhead]
    by_cases hnil : rest = []
    · have hm : m = 0 := by rw [← hvalue, hnil]; rfl
      rw [if_pos hnil, if_pos hm]
    · rw [hsplit] at hlt
      have hrest : ∀ d ∈ rest, d < 10 := fun d hd ↦
        hlt d (List.mem_append_right _ (List.mem_append_right _ hd))
      obtain ⟨hne, hof⟩ := digitsOf_valueOf hrest hnil hhead
      have hplace : -(zeros : Int) - 1 = rest.length - 1 - p := by omega
      rw [hvalue] at hne hof
      rw [if_neg hnil, if_neg hne, hof, hplace]
  · have hhead : (t.whole ++ t.fraction).head? ≠ some 0 := by
      rw [List.head?_append_of_ne_nil _ h.wellFormed.ne_nil]
      exact mt h.leading hzero
    have hnil : t.whole ++ t.fraction ≠ [] :=
      List.append_ne_nil_of_left_ne_nil h.wellFormed.ne_nil _
    obtain ⟨hne, hof⟩ := digitsOf_valueOf hlt hnil hhead
    have hplace : ((t.whole ++ t.fraction).length : Int) - 1 - p = t.whole.length - 1 := by
      rw [List.length_append, h.length]
      omega
    rw [hvalue] at hne hof
    rw [ofFixedText_of_ne h.wellFormed h.unmarked hzero, if_neg hne, hof, hplace]

theorem significant_of_magnitude_eq_zero (hx : x.isFinite) (hzero : x.magnitude = 0) (p : Nat) :
    ofBinary x (.significant (p + 1)) = ⟨x.negative, .finite, List.replicate (p + 1) 0, 0⟩ := by
  have hpos : (10 : ℚ) ^ (-(F.scale : Int)) ≠ 0 := by positivity
  have hmax : max (p + 1) 1 = p + 1 := Nat.max_eq_left (Nat.le_add_left 1 p)
  have hexpansion : x.expansion = 0 := by
    rw [x.magnitude_eq] at hzero
    exact_mod_cast (mul_eq_zero.mp hzero).resolve_right hpos
  rw [ofBinary_significant hx, hmax, hexpansion, significantDigits_zero]

/-- The first digit of a number other than zero stands at the place of its exponent. -/
theorem int_log_scientific {n p : Nat} (hn : n ≠ 0) (hlength : (digitsOf .decimal n).length = p + 1)
    (e : Int) : Int.log 10 ((n : ℚ) * 10 ^ (e - p)) = e := by
  rw [int_log_digits hn, hlength]
  push_cast
  ring

/-- **Text in scientific form** that is correctly rounded gives the digits that are computed. -/
theorem ofScientificText_of_rounds (hx : x.isFinite) (h : t.RoundsScientific x.magnitude p)
    {e : ExponentText} (he : t.exponent = some e) (hmark : e.mark = 'e') :
    ofScientificText x.negative t.text = ofBinary x (.significant (p + 1)) := by
  obtain ⟨hfilter, hparse⟩ := h.wellFormed.split_mark he hmark
  have hlt := h.wellFormed.lt
  have hexponent : t.exponentValue = e.value := by rw [NumberText.exponentValue, he]; rfl
  have hlength : (t.whole ++ t.fraction).length = p + 1 := by
    rw [List.length_append, h.single, h.length, Nat.add_comm]
  rw [ofScientificText, hfilter, hparse, digitsOfText_spellDigits hlt, Option.getD_some]
  by_cases hzero : x.magnitude = 0
  · obtain ⟨hvalue, hnone⟩ := h.zero hzero
    have hpos : (10 : ℚ) ^ (t.exponentValue - t.fraction.length) ≠ 0 := by positivity
    have hdigits : valueOf .decimal (t.whole ++ t.fraction) = 0 := by
      rw [t.value_eq] at hvalue
      exact_mod_cast (mul_eq_zero.mp hvalue).resolve_right hpos
    rw [significant_of_magnitude_eq_zero hx hzero, eq_replicate_of_valueOf_eq_zero hdigits, hlength,
      ← hexponent, hnone]
  · obtain ⟨m, k, exponent, hm, hcomputed, hmlength, hk, hmvalue⟩ := exists_significant hx hzero p
    obtain ⟨k', hvalue, hk'⟩ := h.nearest hzero
    have hpos : (10 : ℚ) ^ (Int.log 10 x.magnitude - p) ≠ 0 := by positivity
    have hhead : (t.whole ++ t.fraction).head? ≠ some 0 := by
      obtain ⟨d, hd⟩ := List.length_eq_one_iff.mp h.single
      rw [hd, List.singleton_append, List.head?_cons]
      intro hfirst
      exact hzero (h.leading (by rw [hd, Option.some.inj hfirst]))
    have hnil : t.whole ++ t.fraction ≠ [] := by
      rw [← List.length_pos_iff, hlength]
      exact Nat.succ_pos p
    obtain ⟨hne, hof⟩ := digitsOf_valueOf hlt hnil hhead
    -- The value decides the exponent, and with it the digits.
    have hsame : (valueOf .decimal (t.whole ++ t.fraction) : ℚ) * 10 ^ (e.value - p)
        = m * 10 ^ (exponent - p) := by
      rw [hmvalue, hk.unique hpos hk', ← hvalue, t.value_eq, hexponent, h.length]
    have hplace : e.value = exponent := by
      rw [← int_log_scientific hne (by rw [hof, hlength]) e.value, hsame,
        int_log_scientific hm hmlength]
    have hnumber : valueOf .decimal (t.whole ++ t.fraction) = m := by
      rw [hplace] at hsame
      have hunit : (10 : ℚ) ^ (exponent - p) ≠ 0 := by positivity
      exact_mod_cast mul_right_cancel₀ hunit hsame
    rw [hcomputed, hplace, ← hnumber, hof]

/-! ## What is rendered -/

theorem exponentText_isPadded (upper : Bool) (e : Int) : (exponentText upper e).IsPadded where
  sign := by
    rw [exponentText_value]
    rfl
  two_le := by
    change 2 ≤ (exponentDigits e).length
    rw [exponentDigits]
    split
    · exact Nat.le_refl 2
    · next h =>
      have hne : digitsOf .decimal (e.natAbs / 10) ≠ [] := digitsOnto_ne_nil _ _ _
      have hpos := List.length_pos_iff.mpr hne
      rw [digitsOf_of_le (r := .decimal) (Nat.le_of_not_lt h), List.length_append]
      exact Nat.add_le_add_right hpos 1
  leading := by
    change (exponentDigits e).head? = some 0 → (exponentDigits e).length = 2
    rw [exponentDigits]
    split
    · exact fun _ ↦ rfl
    · next h => exact fun hhead ↦ absurd hhead (head?_digitsOf_ne_zero _ (by omega))

theorem head?_firstDigits {ds : List Nat} (hne : ds ≠ []) (count : Nat) :
    (firstDigits (count + 1) ds).head? = ds.head? := by
  obtain ⟨d, ds, rfl⟩ := List.exists_cons_of_ne_nil hne
  rfl

theorem valueOf_replicate (count : Nat) : valueOf .decimal (List.replicate count 0) = 0 := by
  rw [← List.append_nil (List.replicate count 0), valueOf_replicate_zero]
  rfl

/-- **The fixed form** of a binary value is correctly rounded. -/
theorem roundsFixed_fixedText (hx : x.isFinite) (p : Nat) (alt : Bool) :
    ((ofBinary x (.fractional p)).fixedText p alt).RoundsFixed x.magnitude p := by
  obtain ⟨m, hm, hdigits⟩ := exists_fractional hx p
  have hwellFormed := fixedText_wellFormed (digits_ofBinary_lt x (.fractional p)) p alt
  refine ⟨hwellFormed, rfl, ?_, length_fractionDigits _ p, m, ?_, hm⟩
  · change (ofBinary x (.fractional p)).integerDigits.head? = some 0 →
      (ofBinary x (.fractional p)).integerDigits = [0]
    rw [hdigits]
    split
    · exact fun _ ↦ rfl
    · next hne =>
      rw [integerDigits]
      split
      · exact fun _ ↦ rfl
      · have hfirst := head?_firstDigits (digitsOnto_ne_nil .decimal m [])
        exact fun hhead ↦ absurd ((hfirst _).symm.trans hhead) (head?_digitsOf_ne_zero _ hne)
  · rw [fixedText_value, hdigits]
    congr 2
    split
    · next hzero =>
      rw [hzero]
      exact (congrArg _ (firstDigits_of_le [0] (by simp; omega))).trans (valueOf_replicate _)
    · have hcount : (((digitsOf .decimal m).length : Int) - 1 - p + 1 + p).toNat
          = (digitsOf .decimal m).length := by omega
      dsimp only
      rw [hcount, firstDigits_of_le _ (Nat.le_refl _), Nat.sub_self, List.replicate_zero,
        List.append_nil, valueOf_digitsOf]

/-- **The scientific form** of a binary value is correctly rounded. -/
theorem roundsScientific_scientificText (hx : x.isFinite) (p : Nat) (upper alt : Bool) :
    ((ofBinary x (.significant (p + 1))).scientificText p upper alt).RoundsScientific
      x.magnitude p := by
  have hlength := length_significant hx p
  have hvalue := scientificText_value (ofBinary x (.significant (p + 1))) p upper alt
  rw [firstDigits_of_le _ hlength.le, hlength, Nat.sub_self, List.replicate_zero,
    List.append_nil] at hvalue
  refine ⟨scientificText_wellFormed (digits_ofBinary_lt x _) p upper alt, Option.some_ne_none _,
    length_firstDigits _ 1, fun hfirst ↦ ?_, length_firstDigits _ p, fun hzero ↦ ?_,
    fun hzero ↦ ?_⟩
  · by_contra hzero
    obtain ⟨m, -, e, hm, hcomputed, -⟩ := exists_significant hx hzero p
    refine head?_digitsOf_ne_zero .decimal hm ?_
    have hhead := head?_firstDigits (digitsOnto_ne_nil .decimal m []) 0
    change firstDigits 1 (ofBinary x (.significant (p + 1))).digits = [0] at hfirst
    rw [hcomputed] at hfirst
    exact hhead.symm.trans (congrArg List.head? hfirst)
  · obtain ⟨m, k, e, -, hcomputed, -, hk, hmvalue⟩ := exists_significant hx hzero p
    refine ⟨k, ?_, hk⟩
    rw [hvalue, hcomputed, ← hmvalue, valueOf_digitsOf]
  · have hcomputed := significant_of_magnitude_eq_zero hx hzero p
    constructor
    · rw [hvalue, hcomputed, valueOf_replicate, Nat.cast_zero, zero_mul]
    · exact (exponentText_value upper _).trans (by rw [hcomputed])

/-- **Correct rounding.** Whatever correctly rounded text the digits of a finite value are taken
from, they are the same, and what is rendered from them again is correctly rounded: to `p` digits
behind the point in the fixed form, and to as many behind the first one in the scientific form. The
point is written where digits follow it or the alternate form is asked for. -/
theorem rendered_correctly_rounded (hx : x.isFinite) (p : Nat) (upper alt : Bool) :
    ((∀ t : NumberText, t.RoundsFixed x.magnitude p →
        ofFixedText x.negative t.text = ofBinary x (.fractional p)) ∧
      ∃ t : NumberText, t.text = (ofBinary x (.fractional p)).renderFixed p alt ∧
        t.RoundsFixed x.magnitude p ∧ (t.point ↔ 0 < p ∨ alt)) ∧
    ((∀ (t : NumberText) (e : ExponentText), t.RoundsScientific x.magnitude p →
        t.exponent = some e → e.mark = 'e' →
          ofScientificText x.negative t.text = ofBinary x (.significant (p + 1))) ∧
      ∃ (t : NumberText) (e : ExponentText),
        t.text = (ofBinary x (.significant (p + 1))).renderScientific p upper alt ∧
        t.RoundsScientific x.magnitude p ∧ (t.point ↔ 0 < p ∨ alt) ∧ t.exponent = some e ∧
        e.mark = (if upper then 'E' else 'e') ∧ e.IsPadded) := by
  have hpoint : (decide (0 < p) || alt) = true ↔ 0 < p ∨ alt = true := by
    rw [Bool.or_eq_true, decide_eq_true_iff]
  refine ⟨⟨fun t h ↦ ofFixedText_of_rounds hx h, _, ?_, roundsFixed_fixedText hx p alt, hpoint⟩,
    fun t e h he hmark ↦ ofScientificText_of_rounds hx h he hmark, _, _, ?_,
    roundsScientific_scientificText hx p upper alt, hpoint, rfl, rfl,
    exponentText_isPadded upper _⟩
  · exact fixedText_text (digits_ofBinary_lt x _) p alt
  · exact scientificText_text (digits_ofBinary_lt x _) p upper alt

/-- The value next to `9.996` is `10.00` in either form: rounding carries into a new digit. -/
theorem rendered_correctly_rounded_carry :
    let x : Binary .binary64 := ⟨false, 0x4023fdf3b645a1cb, by decide⟩
    x.isFinite ∧ (∃ t : NumberText, t.text = "10.00".toList ∧ t.RoundsFixed x.magnitude 2) ∧
      ∃ t : NumberText, t.text = "1.00e+01".toList ∧ t.RoundsScientific x.magnitude 2 := by
  intro x
  have hx : x.isFinite := by decide
  have hfixed : (ofBinary x (.fractional 2)).renderFixed 2 false = "10.00".toList := by
    decide +kernel
  have hscientific : (ofBinary x (.significant 3)).renderScientific 2 false false
      = "1.00e+01".toList := by decide +kernel
  obtain ⟨⟨-, t, ht, hrounds, -⟩, -, t', -, ht', hrounds', -⟩ :=
    rendered_correctly_rounded hx 2 false false
  exact ⟨hx, ⟨t, ht.trans hfixed, hrounds⟩, t', ht'.trans hscientific, hrounds'⟩

end Decimal

end FormatString
