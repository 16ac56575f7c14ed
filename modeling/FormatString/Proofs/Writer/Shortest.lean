import Mathlib
import FormatString.Writer.Rendering
import FormatString.Proofs.Number.Significant
import FormatString.Proofs.Directive.Parse

/-!
# The shortest conversion

The shortest conversion writes what the fixed or the scientific one would write, whichever suits the
exponent, and without its alternate form the zeros at the end of the fraction are left out. It
rounds to significant digits even where it writes the fixed form. That the fixed conversion shows
the same is the fact about rounding that `Decimal.renderFixed_ofBinary` states. The rest is about
text: the alternate form keeps a point with nothing behind it, and shortening leaves no trace of it.
-/

namespace FormatString

variable {w : Width}

/-! ## The text before it is shortened -/

/-- The number with `p` significant digits, in the form that suits its exponent. -/
def Decimal.renderSuited (x : Decimal) (p : Nat) (upper alt : Bool) : List Char :=
  if -4 ≤ x.exponent ∧ x.exponent < p then x.renderFixed (p - 1 - x.exponent).toNat alt
  else x.renderScientific (p - 1) upper alt

theorem dropFractionZeros_renderSuited {x : Decimal} (h : ∀ d ∈ x.digits, d < 10) (p : Nat)
    (upper alt : Bool) :
    dropFractionZeros some (x.renderSuited p upper alt)
      = dropFractionZeros some (x.renderSuited p upper true) := by
  rw [Decimal.renderSuited, Decimal.renderSuited]
  split
  · exact dropFractionZeros_renderFixed h _ alt
  · exact dropFractionZeros_renderScientific h _ upper alt

/-- The form that suits the exponent is what the fixed or the scientific conversion shows. -/
theorem renderSuited_ofBinary {F : BinaryFormat} {x : Binary F} (hx : x.isFinite) (p : Nat)
    (upper alt : Bool) :
    let dec := Decimal.ofBinary x (.significant (p + 1))
    let count := ((p + 1 : Nat) - 1 - dec.exponent).toNat
    dec.renderSuited (p + 1) upper alt
      = if -4 ≤ dec.exponent ∧ dec.exponent < (p + 1 : Nat) then
          (Decimal.ofBinary x (.fractional count)).renderFixed count alt
        else dec.renderScientific p upper alt := by
  intro dec count
  rw [Decimal.renderSuited]
  split
  · next hfixed =>
    have hplace : dec.exponent = p - count := by
      have := hfixed.2
      omega
    exact (Decimal.renderFixed_ofBinary hx alt hplace).symm
  · rfl

/-! ## Numbers put out -/

/-- The directive with another conversion, in its alternate form or not. -/
def Directive.showing (d : Directive) (conversion : Conversion) (alt : Bool) : Directive :=
  { d with conversion, flags := { d.flags with alt } }

/-- The directive without groups of digits. -/
def Directive.ungrouped (d : Directive) : Directive :=
  { d with flags := { d.flags with group := false } }

/-- What the directive puts out for number text: the sign, and the text in groups if there is a
separator, padded to the width. -/
def Directive.putNumber (d : Directive) (layout : Layout) (negative : Bool)
    (separator : Option Char) (text : List Char) : List (Action w) :=
  ((⟨signOf d.flags negative, numberBody separator text, d.flags.zero⟩ : Field w).chunks
    layout).map .put

section Finite

variable {x : Binary .binary64}

/-- A finite number under a float conversion. -/
theorem floatField_of_isFinite (config : Config) (d : Directive) (precision : Option Nat)
    (hx : x.isFinite) :
    let shown := floatText d (precision.getD 6) (floatDecimal d (precision.getD 6) x)
    floatField (w := w) config d precision x
      = ⟨signOf d.flags x.negative,
          numberBody (if shown.fixed then separatorFor config d else none) shown.text,
          d.flags.zero⟩ := by
  obtain ⟨hkind, hnegative⟩ : (floatDecimal d (precision.getD 6) x).kind = .finite ∧
      (floatDecimal d (precision.getD 6) x).negative = x.negative :=
    Decimal.ofBinary_of_isFinite hx _
  rw [floatField, hkind, hnegative, beq_self_eq_true, Bool.and_true]

variable (config : Config) {d : Directive} (layout : Layout) (written : Nat) {arg : Arg}

/-- What a float conversion puts out for a finite number. -/
theorem Directive.output?_of_isFinite
    (hd : d.conversion = .floatSci ∨ d.conversion = .floatFixed ∨ d.conversion = .floatShortest)
    (harg : arg.float? = some x) (hx : x.isFinite) :
    let p := layout.precision.getD 6
    let shown := floatText d p (floatDecimal d p x)
    d.output? config layout written arg = some (d.putNumber (w := w) layout x.negative
      (if shown.fixed then separatorFor config d else none) shown.text) := by
  intro p shown
  have hput : d.output? config layout written arg
      = (arg.float?.map (floatField (w := w) config d layout.precision)).map
        fun f ↦ (f.chunks layout).map .put := by
    obtain hd | hd | hd := hd <;> simp only [output?, field?, hd]
  rw [hput, harg, Option.map_some, Option.map_some, floatField_of_isFinite config d _ hx]
  rfl

variable (d) (harg : arg.float? = some x) (hx : x.isFinite)

include harg hx

theorem Directive.output?_floatSci (alt : Bool) (p : Nat) :
    (d.showing .floatSci alt).output? config { layout with precision := some p } written arg
      = some (d.putNumber (w := w) layout x.negative none
          ((Decimal.ofBinary x (.significant (p + 1))).renderScientific p d.upper alt)) :=
  Directive.output?_of_isFinite config _ written (.inl rfl) harg hx

theorem Directive.output?_floatFixed (alt : Bool) (p : Nat) :
    (d.showing .floatFixed alt).output? config { layout with precision := some p } written arg
      = some (d.putNumber (w := w) layout x.negative (separatorFor config d)
          ((Decimal.ofBinary x (.fractional p)).renderFixed p alt)) :=
  Directive.output?_of_isFinite config _ written (.inr (.inl rfl)) harg hx

theorem Directive.output?_floatShortest (alt : Bool) :
    let p := max (layout.precision.getD 6) 1
    let dec := Decimal.ofBinary x (.significant p)
    let text := dec.renderSuited p d.upper true
    (d.showing .floatShortest alt).output? config layout written arg
      = some (d.putNumber (w := w) layout x.negative
          (if -4 ≤ dec.exponent ∧ dec.exponent < p then separatorFor config d else none)
          (if alt then text else dropFractionZeros some text)) := by
  intro p dec text
  have hshown : shortestText (d.showing .floatShortest alt) dec p
      = ⟨if alt then text else dropFractionZeros some text,
          -4 ≤ dec.exponent ∧ dec.exponent < p⟩ := by
    cases alt with
    | true => rfl
    | false =>
      have hdigits := Decimal.digits_ofBinary_lt x (.significant p)
      exact congrArg (FloatText.mk · _) (dropFractionZeros_renderSuited hdigits p d.upper false)
  have hput : (d.showing .floatShortest alt).output? config layout written arg
      = some (d.putNumber (w := w) layout x.negative
          (if (shortestText (d.showing .floatShortest alt) dec p).fixed then separatorFor config d
            else none)
          (shortestText (d.showing .floatShortest alt) dec p).text) :=
    Directive.output?_of_isFinite config layout written (.inr (.inr rfl)) harg hx
  rw [hput, hshown]
  simp only [decide_eq_true_eq]

end Finite

/-- **The shortest conversion agrees with the fixed and the scientific one.** Let `X` be the
exponent that the scientific conversion shows with as many digits. In the alternate form the
shortest one puts out what the fixed one does if `X` is at least `-4` and less than the number `P`
of digits, and what the scientific one does otherwise; in the other form it puts out the same text
shortened, and grouped and padded only then. -/
theorem shortest_agrees_with_fixed_and_scientific (config : Config) (d : Directive)
    (layout : Layout) (written : Nat) {arg : Arg} {x : Binary .binary64}
    (harg : arg.float? = some x) (hx : x.isFinite) :
    let P := max (layout.precision.getD 6) 1
    let X := (Decimal.ofBinary x (.significant P)).exponent
    let scientific := { layout with precision := some (P - 1) }
    let fixed := { layout with precision := some (P - 1 - X).toNat }
    let separator := if -4 ≤ X ∧ X < P then separatorFor config d else none
    (∀ alt, ∃ text, Decimal.ShowsExponent text X ∧
      (d.showing .floatSci alt).output? config scientific written arg
        = some (d.putNumber (w := w) layout x.negative none text)) ∧
    (d.showing .floatShortest true).output? (w := w) config layout written arg
      = (if -4 ≤ X ∧ X < P then (d.showing .floatFixed true).output? config fixed written arg
        else (d.showing .floatSci true).output? config scientific written arg) ∧
    ∃ text,
      (d.showing .floatShortest true).ungrouped.output? config layout written arg
        = some (d.putNumber (w := w) layout x.negative none text) ∧
      (d.showing .floatShortest true).output? config layout written arg
        = some (d.putNumber (w := w) layout x.negative separator text) ∧
      (d.showing .floatShortest false).output? config layout written arg
        = some (d.putNumber (w := w) layout x.negative separator
          (dropFractionZeros some text)) := by
  obtain ⟨p, hp⟩ : ∃ p, max (layout.precision.getD 6) 1 = p + 1 :=
    ⟨_, (Nat.sub_add_cancel (Nat.le_max_right _ 1)).symm⟩
  have hshortest (alt : Bool) :=
    Directive.output?_floatShortest (w := w) config d layout written harg hx alt
  have hungrouped :=
    Directive.output?_floatShortest (w := w) config d.ungrouped layout written harg hx true
  have hsuited := renderSuited_ofBinary hx p d.upper true
  dsimp only at hshortest hungrouped hsuited ⊢
  rw [hp] at hshortest hungrouped ⊢
  rw [Nat.add_sub_cancel]
  have hdigits := Decimal.digits_ofBinary_lt x (.significant (p + 1))
  set dec := Decimal.ofBinary x (.significant (p + 1))
  have hscientific (alt : Bool) :=
    Directive.output?_floatSci (w := w) config d layout written harg hx alt p
  refine ⟨fun alt ↦ ⟨_, Decimal.showsExponent_renderScientific hdigits p d.upper alt,
    hscientific alt⟩, ?_, dec.renderSuited (p + 1) d.upper true, ?_, hshortest true,
    hshortest false⟩
  · rw [hshortest, if_pos rfl, hsuited]
    split
    · exact (Directive.output?_floatFixed config d layout written harg hx true _).symm
    · exact (hscientific true).symm
  · have hseparator : separatorFor config d.ungrouped = none := rfl
    rw [hseparator, ite_self] at hungrouped
    exact hungrouped

/-- Rounding `9.9996` to four digits carries: it is shown as `10.00`, with two digits behind the
point. -/
theorem shortest_agrees_where_rounding_carries :
    let x : Binary .binary64 := ⟨false, 0x4023ffcb923a29c7, by decide⟩
    let d := Directive.bare .floatShortest false
    (Arg.float64 x).float? = some x ∧ x.isFinite ∧
      (d.showing .floatShortest true).output? (w := .utf8) {} ⟨0, false, some 4⟩ 0 (.float64 x)
        = (d.showing .floatFixed true).output? {} ⟨0, false, some 2⟩ 0 (.float64 x) := by
  intro x d
  have hfloat : (Arg.float64 x).float? = some x := rfl
  have hx : x.isFinite := by decide
  have hmax : max ((some 4).getD 6) 1 = 4 := rfl
  have hexponent : (Decimal.ofBinary x (.significant 4)).exponent = 1 := by decide +kernel
  obtain ⟨-, hagrees, -⟩ := shortest_agrees_with_fixed_and_scientific (w := .utf8) {} d
    ⟨0, false, some 4⟩ 0 hfloat hx
  rw [hmax, hexponent, if_pos (by decide)] at hagrees
  exact ⟨hfloat, hx, hagrees⟩

end FormatString
