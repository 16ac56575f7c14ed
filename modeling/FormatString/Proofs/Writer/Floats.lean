import Mathlib
import FormatString.Proofs.Number.Rendered
import FormatString.Proofs.Template.Joined
import FormatString.Proofs.Writer.Field
import FormatString.Proofs.Writer.Rendering
import FormatString.Proofs.Writer.Shortest

/-!
# What is written for a float

Without a width and without groups, a float conversion writes blanks and a text that `SpellsFloat`
describes. For an infinity or a NaN it spells the value of the same sign, and for a finite value the
value itself as long as enough digits are shown: `Directive.ShowsEnough` asks for seventeen
significant ones, or for as many places behind the point as the value has.
-/

namespace FormatString

variable {w : Width}

/-! ## Enough digits -/

/-- A float conversion with the precision `p` shows enough digits of a value to tell it from all
others: seventeen significant ones, or all that there are. -/
def Directive.ShowsEnough (d : Directive) (p : Nat) (x : Binary .binary64) : Prop :=
  match d.conversion with
  | .floatSci => 16 ≤ p
  | .floatFixed => ∃ n : Nat, x.magnitude * 10 ^ p = n
  | _ => 17 ≤ p

section Finite

variable {d : Directive} {x : Binary .binary64} {p : Nat}

theorem isNear_binary64 (hx : x.isFinite) (hp : 16 ≤ p) :
    x.IsNear (Decimal.ofBinary x (.significant (p + 1))).magnitude := by
  refine Decimal.isNear_significant hx ?_
  calc 2 * BinaryFormat.binary64.binade
      < 10 ^ 16 := by decide
    _ ≤ 10 ^ p := Nat.pow_le_pow_right (by decide) hp

/-- The form that suits the exponent has room for all digits. -/
theorem spellsDecimal_renderSuited {x : Decimal} (h : ∀ d ∈ x.digits, d < 10)
    (hlength : x.digits.length = p + 1) (upper alt : Bool) :
    ∃ n e, SpellsDecimal (x.renderSuited (p + 1) upper alt) n e ∧
      (n : ℚ) * 10 ^ e = x.magnitude := by
  rw [Decimal.renderSuited]
  split
  · next hfixed =>
    refine Decimal.spellsDecimal_renderFixed h ?_ alt
    obtain ⟨-, hlt⟩ := hfixed
    omega
  · exact Decimal.spellsDecimal_renderScientific h hlength upper alt

/-- **What is shown** of a finite value spells a number close to it. -/
theorem exists_spellsDecimal (hd : d.conversion.isFloat) (hx : x.isFinite)
    (henough : d.ShowsEnough p x) :
    ∃ n e, SpellsDecimal (floatText d p (floatDecimal d p x)).text n e ∧ x.IsNear (n * 10 ^ e) := by
  rw [Directive.ShowsEnough] at henough
  rw [floatText, floatDecimal]
  cases hk : d.conversion with
  | floatSci =>
    rw [hk] at henough
    dsimp only at henough ⊢
    obtain ⟨n, e, hspells, hvalue⟩ := Decimal.spellsDecimal_renderScientific
      (Decimal.digits_ofBinary_lt x _) (Decimal.length_significant hx p) d.upper d.flags.alt
    refine ⟨n, e, hspells, ?_⟩
    rw [hvalue]
    exact isNear_binary64 hx henough
  | floatFixed =>
    rw [hk] at henough
    dsimp only at henough ⊢
    obtain ⟨places, hplaces⟩ := henough
    obtain ⟨n, e, hspells, hvalue⟩ := Decimal.spellsDecimal_renderFixed
      (Decimal.digits_ofBinary_lt x _) (Decimal.length_fractional_le hx p) d.flags.alt
    refine ⟨n, e, hspells, .inl ?_⟩
    rw [hvalue, Decimal.magnitude_fractional hx hplaces]
  | floatShortest =>
    rw [hk] at henough
    dsimp only at henough ⊢
    obtain ⟨q, rfl⟩ : ∃ q, p = q + 1 := ⟨p - 1, by omega⟩
    rw [Nat.max_eq_left (Nat.le_add_left 1 q)]
    have hdigits := Decimal.digits_ofBinary_lt x (.significant (q + 1))
    have hlength := Decimal.length_significant hx q
    have hnear := isNear_binary64 hx (p := q) (by omega)
    obtain ⟨n, e, hspells, hvalue⟩ :=
      spellsDecimal_renderSuited hdigits hlength d.upper d.flags.alt
    rw [← hvalue] at hnear
    change ∃ n e, SpellsDecimal (if d.flags.alt then _ else dropFractionZeros some _) n e ∧ _
    split
    · exact ⟨n, e, hspells, hnear⟩
    · obtain ⟨n', e', hshort, hsame⟩ := hspells.dropFractionZeros
      refine ⟨n', e', hshort, ?_⟩
      rwa [hsame]
  | _ => exact absurd hd (by simp [hk, Conversion.isFloat])

end Finite

/-! ## What is written -/

theorem Binary.eq_infinity {F : BinaryFormat} {x : Binary F} (hx : x.isInfinite) :
    infinity x.negative = x := by
  rcases x with ⟨negative, rank, hlt⟩
  exact (Binary.mk.injEq ..).mpr ⟨rfl, (beq_iff_eq.mp hx).symm⟩

theorem Binary.isNaN_nan (negative : Bool) : (nan negative : Binary .binary64).isNaN := by
  cases negative <;> decide

/-- A float is read back as itself, or as a NaN of its sign. -/
inductive ReadsBackAs (x : Binary .binary64) : Binary .binary64 → Prop where
  | same (h : x.isNaN = false) : ReadsBackAs x x
  | nan {y : Binary .binary64} (hx : x.isNaN) (hy : y.isNaN) (hsign : y.negative = x.negative) :
    ReadsBackAs x y

section Written

variable (config : Config) {d : Directive} {x : Binary .binary64} (precision : Option Nat)

/-- The characters of a float: those of the sign, and those of a number or a word. -/
theorem exists_floatField (hd : d.conversion.isFloat) (hgroup : d.flags.group = false)
    (henough : x.isFinite → d.ShowsEnough (precision.getD 6) x) :
    ∃ body zeros, floatField (w := w) config d precision x
        = ⟨signOf d.flags x.negative, Text.ofAscii w body, zeros⟩ ∧
      ∀ sign, SpellsSign sign x.negative →
        ∃ y, SpellsFloat .binary64 (sign ++ body) y ∧ ReadsBackAs x y := by
  have hseparator : separatorFor config d = none := by
    rw [separatorFor, hgroup]
    rfl
  rcases lt_trichotomy x.rank (BinaryFormat.infinityRank .binary64) with hlt | heq | hgt
  · have hx : x.isFinite = true := decide_eq_true hlt
    have hnan : x.isNaN = false := Bool.eq_false_of_not_eq_true (Binary.not_isNaN hx)
    obtain ⟨n, e, hspells, hnear⟩ := exists_spellsDecimal hd hx (henough hx)
    refine ⟨(floatText d (precision.getD 6) (floatDecimal d (precision.getD 6) x)).text,
      d.flags.zero, ?_, fun sign hsign ↦ ?_⟩
    · rw [floatField_of_isFinite config d precision hx, hseparator, ite_self, numberBody]
    · have hvalue := Binary.ofDecimal_of_isNear hx hnear
      have hfloat := SpellsFloat.number (F := .binary64) hsign hspells (by rwa [hvalue])
      rw [hvalue] at hfloat
      exact ⟨x, hfloat, .same hnan⟩
  · have hx : x.isInfinite = true := beq_iff_eq.mpr heq
    have hnan : x.isNaN = false := by simp [Binary.isNaN, heq]
    have hdecimal : floatDecimal d (precision.getD 6) x = ⟨x.negative, .infinite, [], 0⟩ := by
      rw [floatDecimal, Decimal.ofBinary.eq_def, if_neg (by simp [hnan]), if_pos hx]
    refine ⟨['i', 'n', 'f'], false, ?_, fun sign hsign ↦ ⟨x, ?_, .same hnan⟩⟩
    · rw [floatField, hdecimal]
      simp [numberBody]
    · have hfloat := SpellsFloat.infinity (F := .binary64) hsign
      rwa [Binary.eq_infinity hx] at hfloat
  · have hx : x.isNaN = true := decide_eq_true hgt
    have hdecimal : floatDecimal d (precision.getD 6) x = ⟨x.negative, .nan, [], 0⟩ := by
      rw [floatDecimal, Decimal.ofBinary.eq_def, if_pos hx]
    refine ⟨['n', 'a', 'n'], false, ?_, fun sign hsign ↦
      ⟨.nan x.negative, .nan hsign, .nan hx (Binary.isNaN_nan _) rfl⟩⟩
    rw [floatField, hdecimal]
    simp [numberBody]

/-- **What is written** for a float is blanks and the text of what it is read back as. -/
theorem exists_spellsFloat (hd : d.conversion.isFloat) (hgroup : d.flags.group = false)
    {layout : Layout} (hwidth : layout.width = 0)
    (henough : x.isFinite → d.ShowsEnough (precision.getD 6) x) :
    ∃ a cs y, ((floatField (w := w) config d precision x).chunks layout).flatMap Chunk.text
        = Text.ofAscii w (List.replicate a ' ' ++ cs) ∧
      SpellsFloat .binary64 cs y ∧ ReadsBackAs x y := by
  obtain ⟨body, zeros, hfield, hbody⟩ :=
    exists_floatField (w := w) config precision hd hgroup henough
  obtain ⟨a, sign, hhead, hsign⟩ := signOf_eq d.flags x.negative
  obtain ⟨y, hfloat, hreads⟩ := hbody sign hsign
  refine ⟨a, sign ++ body, y, ?_, hfloat, hreads⟩
  rw [hfield, Field.text_of_width_zero _ hwidth, hhead, ← Text.ofAscii_append, List.append_assoc]

end Written

section Call

variable {spec : Text w} {d : Directive} {p : Option Nat}

/-- A precision spelled in the directive is the one of the layout. -/
theorem Layout.precision_of_literal (d : Directive) (width : Option Int) (p : Option Nat) :
    (Layout.of d width (p.map fun n ↦ (n : Int))).precision = p := by
  cases p with
  | none => rfl
  | some n =>
    change (if (0 : Int) ≤ n then some (n : Int).toNat else none) = some n
    rw [if_pos (Int.natCast_nonneg n), Int.toNat_natCast]

/-- Without a width, and with no precision to be taken from the arguments, a directive writes what
it shows of its value. -/
theorem Directive.exists_render (config : Config) (hpercent : d.conversion ≠ .percent)
    (hcount : d.conversion ≠ .countWritten) (hwidth : d.width = none)
    (hprecision : d.precision = p.map .literal) {value : Arg} {f : Field w}
    (hf : d.field? config p value = some f) :
    ∃ layout : Layout, layout.width = 0 ∧
      d.render config 0 (.sequential ⟨0, [value]⟩)
        = ⟨.ok ((f.chunks layout).map .put), .sequential ⟨1, []⟩⟩ := by
  refine ⟨.of d none (p.map fun n ↦ (n : Int)), rfl, ?_⟩
  have hamount : (ArgSource.sequential ⟨0, [value]⟩).takeAmount d.precision
      = ⟨.ok (p.map fun n ↦ (n : Int)), .sequential ⟨0, [value]⟩⟩ := by
    rw [hprecision]
    cases p <;> rfl
  rw [← Layout.precision_of_literal d none p] at hf
  rw [Directive.render, hwidth]
  change Taken.andThen ⟨.ok none, _⟩ _ = _
  rw [Taken.andThen_ok, hamount, Taken.andThen_ok, if_neg hpercent, ArgSource.take_cons,
    Taken.andThen_ok, Directive.output?_of_field hcount hf]

/-- **A call** that writes a float writes blanks and the text of what it is read back as. -/
theorem exists_format (config : Config) (h : IsDirective .print spec d)
    (hd : d.conversion.isFloat) (hwidth : d.width = none)
    (hprecision : d.precision = p.map .literal) (hgroup : d.flags.group = false)
    {x : Binary .binary64} (henough : x.isFinite → d.ShowsEnough (p.getD 6) x) :
    ∃ a cs y, config.format (.ofAscii w '%' :: spec) [.float64 x]
        = ⟨.ok (a + cs.length), Text.ofAscii w (List.replicate a ' ' ++ cs), [],
            .sequential ⟨1, []⟩⟩ ∧
      SpellsFloat .binary64 cs y ∧ ReadsBackAs x y := by
  have hne {k : Conversion} (hk : k.isFloat = false) : d.conversion ≠ k := by
    rintro rfl
    rw [hd] at hk
    exact Bool.noConfusion hk
  have hfield : d.field? config p (.float64 x) = some (floatField (w := w) config d p x) := by
    rw [Directive.field?]
    cases hk : d.conversion with
    | floatSci | floatFixed | floatShortest => rfl
    | _ => exact absurd hd (by simp [hk, Conversion.isFloat])
  obtain ⟨layout, hzero, hrender⟩ :=
    Directive.exists_render config (hne rfl) (hne rfl) hwidth hprecision hfield
  obtain ⟨a, cs, y, htext, hfloat, hreads⟩ :=
    exists_spellsFloat (w := w) config p hd hgroup hzero henough
  refine ⟨a, cs, y, ?_, hfloat, hreads⟩
  rw [config.format_eq, h.pieces_eq, outcome_singleton, Located.render]
  dsimp only
  rw [hrender]
  dsimp only
  rw [outputText_map_put, filterMap_stored?_map_put, ← length_outputText, outputText_map_put,
    htext, Text.length_ofAscii, List.length_append, List.length_replicate]

end Call

end FormatString
