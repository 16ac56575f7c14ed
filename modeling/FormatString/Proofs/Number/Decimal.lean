import Mathlib
import FormatString.Number.Decimal
import FormatString.Proofs.Number.IntText

/-!
# The text of a decimal

Whatever a binary value is rounded to, its digits are digits of radix ten, and what is written for
it is ASCII: these digits, a point, and an exponent with its mark and its sign. The exponent can be
told from the text, and so can be what shortening leaves of the digits in front of it.
-/

namespace FormatString

/-! ## Digit characters -/

theorem ascii_digitChar {d : Nat} (hd : d < 36) (upper : Bool) : (digitChar upper d).toNat < 0x80 := by
  have htable : ∀ upper, ∀ d < 36, (digitChar upper d).toNat < 0x80 := by decide
  exact htable upper d hd

theorem isDigit_digitChar {d : Nat} (hd : d < 10) (upper : Bool) : (digitChar upper d).isDigit := by
  have htable : ∀ upper, ∀ d < 10, (digitChar upper d).isDigit := by decide
  exact htable upper d hd

theorem ascii_map_digitChar {ds : List Nat} (hds : ∀ d ∈ ds, d < 10) (upper : Bool) :
    ∀ c ∈ ds.map (digitChar upper), c.toNat < 0x80 := by
  refine List.forall_mem_map.mpr fun d hd ↦ ascii_digitChar ?_ upper
  have := hds d hd
  omega

theorem lt_of_mem_digitsOf (r : Radix) (n : Nat) : ∀ d ∈ digitsOf r n, d < r.value :=
  lt_of_mem_digitsOnto (by simp)

theorem replicate_zero_lt (n : Nat) : ∀ d ∈ List.replicate n 0, d < 10 := by
  intro d hd
  rw [List.eq_of_mem_replicate hd]
  exact Nat.zero_lt_succ 9

namespace Decimal

/-! ## Digits of a binary value -/

theorem significantDigits_lt (n scale count : Nat) :
    ∀ d ∈ (significantDigits n scale count).1, d < 10 := by
  rw [significantDigits]
  split
  · exact replicate_zero_lt count
  · exact fun d hd ↦ lt_of_mem_digitsOf .decimal _ d (List.mem_of_mem_take hd)

theorem fractionalDigits_lt (n scale count : Nat) :
    ∀ d ∈ (fractionalDigits n scale count).1, d < 10 := by
  rw [fractionalDigits]
  dsimp only
  split
  · simp
  · exact lt_of_mem_digitsOf .decimal _

/-- The digits of a binary value are decimal ones. -/
theorem digits_ofBinary_lt {F : BinaryFormat} (x : Binary F) (mode : DigitMode) :
    ∀ d ∈ (ofBinary x mode).digits, d < 10 := by
  rw [ofBinary.eq_def]
  split
  · simp
  split
  · simp
  cases mode with
  | significant count => exact significantDigits_lt _ _ _
  | fractional count => exact fractionalDigits_lt _ _ _

/-! ## Rendering -/

section Rendering

variable {digits : List Nat} {x : Decimal}

theorem firstDigits_lt (h : ∀ d ∈ digits, d < 10) (count : Nat) :
    ∀ d ∈ firstDigits count digits, d < 10 := by
  exact List.forall_mem_append.mpr ⟨fun d hd ↦ h d (List.mem_of_mem_take hd), replicate_zero_lt _⟩

/-- The digits behind the point in the scientific form. -/
theorem fraction_lt (h : ∀ d ∈ digits, d < 10) (count : Nat) :
    ∀ d ∈ firstDigits count (digits.drop 1), d < 10 :=
  firstDigits_lt (fun d hd ↦ h d (List.mem_of_mem_drop hd)) count

theorem integerDigits_lt (h : ∀ d ∈ x.digits, d < 10) : ∀ d ∈ x.integerDigits, d < 10 := by
  rw [integerDigits]
  split
  · simp
  · exact firstDigits_lt h _

theorem fractionDigits_lt (h : ∀ d ∈ x.digits, d < 10) (count : Nat) :
    ∀ d ∈ x.fractionDigits count, d < 10 := by
  rw [fractionDigits]
  split
  · exact List.forall_mem_append.mpr ⟨replicate_zero_lt _, firstDigits_lt h _⟩
  · exact firstDigits_lt (fun d hd ↦ h d (List.mem_of_mem_drop hd)) _

theorem ascii_pointed (h : ∀ d ∈ digits, d < 10) (alt : Bool) :
    ∀ c ∈ pointed digits alt, c.toNat < 0x80 := by
  refine List.forall_mem_append.mpr ⟨?_, ascii_map_digitChar h false⟩
  split <;> simp

theorem ascii_renderFixed (h : ∀ d ∈ x.digits, d < 10) (precision : Nat) (alt : Bool) :
    ∀ c ∈ x.renderFixed precision alt, c.toNat < 0x80 :=
  List.forall_mem_append.mpr ⟨ascii_map_digitChar (integerDigits_lt h) false,
    ascii_pointed (fractionDigits_lt h precision) alt⟩

theorem ascii_renderExponent (e : Int) : ∀ c ∈ renderExponent e, c.toNat < 0x80 := by
  have hdigits := ascii_map_digitChar (lt_of_mem_digitsOf .decimal e.natAbs) false
  refine List.forall_mem_cons.mpr ⟨by split <;> decide, ?_⟩
  split
  · exact List.forall_mem_cons.mpr ⟨by decide, hdigits⟩
  · exact hdigits

theorem ascii_renderScientific (h : ∀ d ∈ x.digits, d < 10) (precision : Nat) (upper alt : Bool) :
    ∀ c ∈ x.renderScientific precision upper alt, c.toNat < 0x80 := by
  refine List.forall_mem_append.mpr ⟨List.forall_mem_append.mpr ⟨?_, ?_⟩, ?_⟩
  · exact ascii_map_digitChar (firstDigits_lt h 1) false
  · exact ascii_pointed (fraction_lt h precision) alt
  · exact List.forall_mem_cons.mpr ⟨by cases upper <;> decide, ascii_renderExponent _⟩

/-! ## The shown exponent -/

/-- The mark in front of an exponent. -/
def isMark (c : Char) : Bool := c == 'e' || c == 'E'

/-- The exponent `e` is shown: it is spelled behind the only mark. -/
inductive ShowsExponent : List Char → Int → Prop where
  | intro {mantissa exponent : List Char} {mark : Char} {e : Int}
    (hmantissa : ∀ c ∈ mantissa, isMark c = false) (hmark : isMark mark)
    (h : SpellsInt .decimal exponent e) : ShowsExponent (mantissa ++ mark :: exponent) e

theorem spellsInt_renderExponent (e : Int) : SpellsInt .decimal (renderExponent e) e := by
  obtain ⟨k, hdigits⟩ : ∃ k, renderExponent e = [if e < 0 then '-' else '+'] ++
      ([] ++ (List.replicate k '0' ++ Radix.decimal.writeNat false e.natAbs)) := by
    by_cases h : e.natAbs < 10
    · refine ⟨1, ?_⟩
      rw [renderExponent, if_pos h]
      rfl
    · refine ⟨0, ?_⟩
      rw [renderExponent, if_neg h]
      rfl
  have hsign : SpellsSign [if e < 0 then '-' else '+'] (e < 0) := by
    by_cases h : e < 0
    · rw [if_pos h, decide_eq_true h]
      exact .minus
    · rw [if_neg h, decide_eq_false h]
      exact .plus
  rw [hdigits]
  exact .of_natAbs hsign .absent false k

theorem isMark_eq_false_of_isDigit {c : Char} (h : c.isDigit) : isMark c = false := by
  refine Bool.eq_false_of_not_eq_true fun hmark ↦ ?_
  obtain rfl | rfl : c = 'e' ∨ c = 'E' := by simpa [isMark] using hmark
  · exact absurd h (by decide)
  · exact absurd h (by decide)

theorem isDigit_map_digitChar (h : ∀ d ∈ digits, d < 10) :
    ∀ c ∈ digits.map (digitChar false), c.isDigit :=
  List.forall_mem_map.mpr fun d hd ↦ isDigit_digitChar (h d hd) false

/-- There is no mark among digits and a point. -/
theorem isMark_pointed (h : ∀ d ∈ digits, d < 10) (alt : Bool) :
    ∀ c ∈ pointed digits alt, isMark c = false := by
  refine List.forall_mem_append.mpr ⟨?_, fun c hc ↦ ?_⟩
  · split
    · simp
    · simp [isMark]
  · exact isMark_eq_false_of_isDigit (isDigit_map_digitChar h c hc)

/-- The scientific form shows the exponent. -/
theorem showsExponent_renderScientific (h : ∀ d ∈ x.digits, d < 10) (precision : Nat)
    (upper alt : Bool) : ShowsExponent (x.renderScientific precision upper alt) x.exponent := by
  refine .intro (List.forall_mem_append.mpr ⟨fun c hc ↦ ?_, ?_⟩) (by cases upper <;> rfl)
    (spellsInt_renderExponent x.exponent)
  · exact isMark_eq_false_of_isDigit (isDigit_map_digitChar (firstDigits_lt h 1) c hc)
  · exact isMark_pointed (fraction_lt h precision) alt

end Rendering

end Decimal

/-! ## Shortening -/

/-- A mantissa without the zeros at the end of its fraction, and without a point at its end. -/
def shortenMantissa (mantissa : List Char) : List Char :=
  if mantissa.any (· == '.') then
    let kept := dropTrailing (· == '0') mantissa
    if kept.getLast? = some '.' then kept.dropLast else kept
  else mantissa

theorem dropFractionZeros_eq (text : List Char) :
    dropFractionZeros some text = shortenMantissa (text.takeWhile (!Decimal.isMark ·)) ++
      text.dropWhile (!Decimal.isMark ·) := by
  have hmark : (fun c ↦ !Decimal.isMark c) = fun c ↦ !(some c == some 'e' || some c == some 'E') :=
    rfl
  have hzero : (fun c : Char ↦ c == '0') = fun c ↦ some c == some '0' := rfl
  rw [dropFractionZeros, hmark, shortenMantissa, hzero]
  generalize text.takeWhile _ = mantissa
  dsimp only
  generalize dropTrailing _ mantissa = kept
  cases kept.getLast? <;> simp

/-- The mantissa is shortened, and the exponent is kept. -/
theorem dropFractionZeros_append {mantissa suffix : List Char}
    (hmantissa : ∀ c ∈ mantissa, Decimal.isMark c = false)
    (hsuffix : NotNext (!Decimal.isMark ·) suffix) :
    dropFractionZeros some (mantissa ++ suffix) = shortenMantissa mantissa ++ suffix := by
  have hall : ∀ c ∈ mantissa, !Decimal.isMark c := fun c hc ↦ by rw [hmantissa c hc, Bool.not_false]
  rw [dropFractionZeros_eq, List.takeWhile_append_of_pos hall, List.dropWhile_append_of_pos hall]
  cases suffix with
  | nil => rw [List.takeWhile_nil, List.append_nil, List.dropWhile_nil]
  | cons c cs =>
    have hmark : Decimal.isMark c := by simpa using hsuffix
    simp [hmark]

/-- **The point does not matter**: without digits behind it, it is dropped. -/
theorem shortenMantissa_pointed {whole : List Char} (hwhole : ∀ c ∈ whole, c.isDigit)
    (digits : List Nat) (alt : Bool) :
    shortenMantissa (whole ++ Decimal.pointed digits alt)
      = shortenMantissa (whole ++ Decimal.pointed digits true) := by
  rcases digits with _ | ⟨d, ds⟩
  · have hany : whole.any (· == '.') = false := by
      refine List.any_eq_false.mpr fun c hc hpoint ↦ ?_
      obtain rfl := beq_iff_eq.mp hpoint
      exact absurd (hwhole _ hc) (by decide)
    have hpoint : shortenMantissa (whole ++ ['.']) = whole := by
      simp [shortenMantissa, dropTrailing]
    cases alt with
    | true => rfl
    | false =>
      refine Eq.trans ?_ hpoint.symm
      change shortenMantissa (whole ++ []) = whole
      rw [List.append_nil, shortenMantissa, hany]
      rfl
  · rfl

section Pointed

variable {digits : List Nat} {whole suffix : List Char} {x : Decimal}

theorem dropFractionZeros_pointed (hwhole : ∀ c ∈ whole, c.isDigit) (hdigits : ∀ d ∈ digits, d < 10)
    (hsuffix : NotNext (!Decimal.isMark ·) suffix) (alt : Bool) :
    dropFractionZeros some (whole ++ Decimal.pointed digits alt ++ suffix)
      = dropFractionZeros some (whole ++ Decimal.pointed digits true ++ suffix) := by
  have hmantissa (alt : Bool) :
      ∀ c ∈ whole ++ Decimal.pointed digits alt, Decimal.isMark c = false :=
    List.forall_mem_append.mpr ⟨fun c hc ↦ Decimal.isMark_eq_false_of_isDigit (hwhole c hc),
      Decimal.isMark_pointed hdigits alt⟩
  rw [dropFractionZeros_append (hmantissa alt) hsuffix,
    dropFractionZeros_append (hmantissa true) hsuffix, shortenMantissa_pointed hwhole]

/-- The alternate form and the other one are shortened to the same text. -/
theorem dropFractionZeros_renderFixed (h : ∀ d ∈ x.digits, d < 10) (precision : Nat) (alt : Bool) :
    dropFractionZeros some (x.renderFixed precision alt)
      = dropFractionZeros some (x.renderFixed precision true) := by
  have hwhole := Decimal.isDigit_map_digitChar (Decimal.integerDigits_lt h)
  have hdrop := dropFractionZeros_pointed hwhole (Decimal.fractionDigits_lt h precision) notNext_nil
    alt
  rwa [List.append_nil, List.append_nil] at hdrop

theorem dropFractionZeros_renderScientific (h : ∀ d ∈ x.digits, d < 10) (precision : Nat)
    (upper alt : Bool) :
    dropFractionZeros some (x.renderScientific precision upper alt)
      = dropFractionZeros some (x.renderScientific precision upper true) := by
  refine dropFractionZeros_pointed (Decimal.isDigit_map_digitChar (Decimal.firstDigits_lt h 1))
    (Decimal.fraction_lt h precision) ?_ alt
  cases upper <;> exact notNext_cons.mpr rfl

end Pointed

theorem dropTrailing_subset {α : Type} (p : α → Bool) (xs : List α) : dropTrailing p xs ⊆ xs := by
  intro x hx
  exact List.mem_reverse.mp (List.dropWhile_subset _ (List.mem_reverse.mp hx))

/-- Shortening only leaves characters out. -/
theorem dropFractionZeros_subset {α : Type} (view : α → Option Char) (text : List α) :
    dropFractionZeros view text ⊆ text := by
  refine List.append_subset.mpr ⟨?_, List.dropWhile_subset _⟩
  generalize hmantissa : text.takeWhile _ = mantissa
  have hsubset : mantissa ⊆ text := hmantissa ▸ List.takeWhile_subset _
  refine List.Subset.trans ?_ hsubset
  have hkept := dropTrailing_subset (view · == some '0') mantissa
  split
  · dsimp only
    split
    · split
      · exact List.Subset.trans (List.dropLast_subset _) hkept
      · exact hkept
    · exact hkept
  · exact List.Subset.refl _

end FormatString
