import Mathlib
import FormatString.Proofs.Number.Significant
import FormatString.Proofs.Writer.Field
import FormatString.Proofs.Writer.Rendering

/-!
# Width only pads

The width of a directive is looked at in one place, after everything else about the value has been
decided. So a directive can be rendered twice, once with width zero and once with its own, and the
second text is the first one with spaces on one side of it, or with zeros behind its sign and radix
mark. Which of the three it is depends on a few flags and on what kind of value it is, and
`Directive.PadsWithZeros` says when it is zeros without mentioning how a value is written.
-/

namespace FormatString

variable {w : Width}

/-! ## What stands in front of the digits -/

namespace Directive

/-- The conversion writes an integer. -/
def WritesInteger (d : Directive) : Prop := d.conversion.isInteger ∨ d.conversion = .pointer

instance (d : Directive) : Decidable d.WritesInteger := inferInstanceAs (Decidable (_ ∨ _))

/-- The sign and the radix mark in front of a number. -/
def signAndMark (d : Directive) (arg : Arg) : List Char :=
  if d.conversion.isFloat then
    match arg.float? with
    | some x => signOf d.flags x.negative
    | none => []
  else if d.WritesInteger then
    match arg.integer? with
    | some (v, natural) =>
      let v := (d.intType natural).reinterpret v
      (if d.conversion.isSigned then signOf d.flags (v < 0) else []) ++ radixMark d v.natAbs
    | none => []
  else []

/-- Zeros are asked for, and the value is a finite float or an integer that has no precision. A
negative precision is none. -/
def PadsWithZeros (d : Directive) (precision : Option Int) (arg : Arg) : Prop :=
  d.flags.zero ∧ (d.WritesInteger ∧ (∀ p ∈ precision, p < 0) ∨
    d.conversion.isFloat ∧ ∃ x ∈ arg.float?, x.isFinite)

end Directive

theorem Decimal.negative_ofBinary {F : BinaryFormat} (x : Binary F) (mode : DigitMode) :
    (ofBinary x mode).negative = x.negative := by
  rw [ofBinary.eq_def]
  split
  · rfl
  split <;> rfl

theorem Decimal.kind_ofBinary {F : BinaryFormat} (x : Binary F) (mode : DigitMode) :
    (ofBinary x mode).kind = .finite ↔ x.isFinite := by
  constructor
  · intro hkind
    by_contra hx
    rw [ofBinary.eq_def] at hkind
    split at hkind
    · cases hkind
    · next hnan =>
      split at hkind
      · cases hkind
      · next hinfinite =>
        simp [Binary.isNaN, Binary.isInfinite, Binary.isFinite] at hnan hinfinite hx
        omega
  · exact fun hx ↦ (ofBinary_of_isFinite hx mode).1

section Field

variable {d : Directive} {arg : Arg} {f : Field w}

theorem Directive.WritesInteger.not_isFloat (h : d.WritesInteger) : ¬ d.conversion.isFloat := by
  revert h
  rw [WritesInteger]
  cases d.conversion <;> simp [Conversion.isInteger, Conversion.isFloat]

variable (config : Config) (precision : Option Nat)

theorem Directive.field?_of_isFloat (h : d.conversion.isFloat) :
    d.field? config precision arg = arg.float?.map (floatField (w := w) config d precision) := by
  revert h
  rw [field?.eq_def]
  cases d.conversion <;> simp [Conversion.isFloat]

theorem Directive.field?_of_writesInteger (h : d.WritesInteger) :
    d.field? config precision arg = arg.integer?.map fun (v, natural) ↦
      integerField (w := w) config d precision v natural := by
  revert h
  rw [WritesInteger, field?.eq_def]
  cases d.conversion <;> simp [Conversion.isInteger]

/-- A character or a string has nothing in front of it and is not padded with zeros. -/
theorem Directive.field?_of_text (hfloat : ¬ d.conversion.isFloat) (hinteger : ¬ d.WritesInteger)
    (hf : d.field? config precision arg = some f) : f.head = [] ∧ f.zeros = false := by
  have hbare (text : Option (Text w)) (hf : text.map (⟨[], ·, false⟩) = some f) :
      f.head = [] ∧ f.zeros = false := by
    obtain ⟨body, -, rfl⟩ := Option.map_eq_some_iff.mp hf
    exact ⟨rfl, rfl⟩
  obtain ⟨hkind, hpointer⟩ := not_or.mp hinteger
  rw [field?.eq_def] at hf
  cases hk : d.conversion <;> rw [hk] at hf hfloat hkind hpointer <;> first
    | exact hbare _ hf
    | exact absurd rfl hfloat
    | exact absurd rfl hkind
    | exact absurd rfl hpointer
    | cases hf

/-- An infinity or a NaN is no number that zeros could be put in front of. -/
theorem floatField_head (x : Binary .binary64) :
    (floatField (w := w) config d precision x).head = signOf d.flags x.negative ∧
      (floatField (w := w) config d precision x).zeros = (d.flags.zero && x.isFinite) := by
  have hkind : ((floatDecimal d (precision.getD 6) x).kind == .finite) = x.isFinite := by
    rw [Bool.eq_iff_iff, beq_iff_eq]
    exact Decimal.kind_ofBinary x _
  have hnegative : (floatDecimal d (precision.getD 6) x).negative = x.negative :=
    Decimal.negative_ofBinary x _
  rw [floatField, hnegative, hkind]
  exact ⟨rfl, rfl⟩

theorem Layout.precision_eq_none_iff (d : Directive) (width precision : Option Int) :
    (Layout.of d width precision).precision = none ↔ ∀ p ∈ precision, p < 0 := by
  rw [Layout.of]
  cases precision with
  | none => simp
  | some p => simp

/-- **The head** of a field is the sign and the mark, and the field says whether zeros may follow. -/
theorem Directive.field?_head (width precision : Option Int)
    (hf : d.field? config (Layout.of d width precision).precision arg = some f) :
    f.head = d.signAndMark arg ∧ (f.zeros = true ↔ d.PadsWithZeros precision arg) := by
  rw [signAndMark, PadsWithZeros]
  by_cases hfloat : d.conversion.isFloat = true
  · have hinteger : ¬ d.WritesInteger := fun h ↦ h.not_isFloat hfloat
    rw [d.field?_of_isFloat config _ hfloat] at hf
    obtain ⟨x, hx, rfl⟩ := Option.map_eq_some_iff.mp hf
    obtain ⟨hhead, hzeros⟩ :=
      floatField_head (w := w) (d := d) config (Layout.of d width precision).precision x
    rw [if_pos hfloat, hx, hhead, hzeros]
    simp [hinteger, hfloat]
  by_cases hinteger : d.WritesInteger
  · rw [d.field?_of_writesInteger config _ hinteger] at hf
    obtain ⟨⟨v, natural⟩, hv, rfl⟩ := Option.map_eq_some_iff.mp hf
    rw [if_neg hfloat, if_pos hinteger, hv, ← Layout.precision_eq_none_iff d width precision]
    simp [hinteger, hfloat, integerField]
  · obtain ⟨hhead, hzeros⟩ := d.field?_of_text config _ hfloat hinteger hf
    rw [if_neg hfloat, if_neg hinteger, hhead, hzeros]
    simp [hinteger, hfloat]

end Field

/-! ## Padding -/

/-- The text that padding is added to. -/
def Field.bare (f : Field w) : Text w := Text.ofAscii w f.head ++ f.body

/-- **Padding a field.** What is put out for it is longer only by spaces on one side, or by zeros
behind its head. -/
theorem Field.text_padded (f : Field w) (layout : Layout) :
    let padded := (f.chunks layout).flatMap Chunk.text
    let fill := layout.width - f.bare.length
    (layout.width ≤ f.bare.length → padded = f.bare) ∧
    (f.bare.length < layout.width → padded.length = layout.width ∧
      padded = if layout.left then f.bare ++ spaces w fill
        else if f.zeros then f.bare.take f.head.length ++ List.replicate fill (.ofAscii w '0') ++
          f.bare.drop f.head.length
        else spaces w fill ++ f.bare) := by
  have hlength : f.bare.length = f.head.length + f.body.length := by
    rw [bare, List.length_append, Text.length_ofAscii]
  have htake : f.bare.take f.head.length = Text.ofAscii w f.head :=
    List.take_left' (Text.length_ofAscii _)
  have hdrop : f.bare.drop f.head.length = f.body := List.drop_left' (Text.length_ofAscii _)
  have htext := f.text_chunks_eq layout
  dsimp only at htext ⊢
  rw [← hlength] at htext
  refine ⟨fun hle ↦ ?_, fun hlt ↦ ?_⟩
  · rw [htext, Nat.sub_eq_zero_of_le hle]
    simp [spaces, bare]
  · have hpadded : (f.chunks layout).flatMap Chunk.text
        = if layout.left then f.bare ++ spaces w (layout.width - f.bare.length)
          else if f.zeros then f.bare.take f.head.length ++
            List.replicate (layout.width - f.bare.length) (.ofAscii w '0') ++
              f.bare.drop f.head.length
          else spaces w (layout.width - f.bare.length) ++ f.bare := by
      rw [htext, htake, hdrop]
      cases hleft : layout.left <;> cases hzeros : f.zeros <;> simp [bare]
    refine ⟨?_, hpadded⟩
    rw [hpadded, htake, hdrop]
    split
    · simp [spaces]
      omega
    · split <;> simp [spaces] <;> omega

/-! ## Rendering twice -/

namespace Directive

variable {d : Directive} {source s₁ s₂ s₃ : ArgSource} {width precision : Option Int} {arg : Arg}

/-- The directive with width zero. -/
def widthless (d : Directive) : Directive := { d with width := some (.literal 0) }

/-- With its arguments at hand a directive puts out the field of its value, or refuses it. -/
theorem render_of_taken (hcount : d.conversion ≠ .countWritten) (hpercent : d.conversion ≠ .percent)
    (hwidth : source.takeAmount d.width = ⟨.ok width, s₁⟩)
    (hprecision : s₁.takeAmount d.precision = ⟨.ok precision, s₂⟩)
    (harg : s₂.take d.index = ⟨.ok arg, s₃⟩) (config : Config) (written : Nat) :
    d.render (w := w) config written source =
      match d.field? config (Layout.of d width precision).precision arg with
      | some f => ⟨.ok ((f.chunks (.of d width precision)).map .put), s₃⟩
      | none => ⟨.error .badType, s₃⟩ := by
  rw [render_of_amounts hwidth hprecision, renderValue, if_neg hpercent, harg, Taken.andThen_ok]
  cases hf : d.field? (w := w) config (Layout.of d width precision).precision arg with
  | some f => rw [output?_of_field hcount hf]
  | none =>
    have hnone : d.output? (w := w) config (.of d width precision) written arg = none := by
      rw [output?.eq_def]
      split
      · next hconversion => exact absurd hconversion hcount
      · rw [hf]
        rfl
    rw [hnone]

/-- Without a width the field of a value is put out as it is. -/
theorem exists_render_of_width_none (hcount : d.conversion ≠ .countWritten)
    (hpercent : d.conversion ≠ .percent) (hwidth : d.width = none)
    (hprecision : source.takeAmount d.precision = ⟨.ok precision, s₂⟩)
    (harg : s₂.take d.index = ⟨.ok arg, s₃⟩) {config : Config} {f : Field w}
    (hf : d.field? config (Layout.of d none precision).precision arg = some f) (written : Nat) :
    ∃ actions, d.render config written source = ⟨.ok actions, s₃⟩ ∧
      outputText actions = f.bare ∧ actions.filterMap Action.stored? = [] := by
  have hnone : source.takeAmount d.width = ⟨.ok none, source⟩ := by
    rw [hwidth]
    rfl
  have hrender := render_of_taken (w := w) hcount hpercent hnone hprecision harg config written
  rw [hf] at hrender
  refine ⟨_, hrender, ?_, filterMap_stored?_map_put _⟩
  rw [outputText_map_put]
  exact f.text_of_width_zero rfl

/-- **Width only pads.** A directive that writes a value accepts the same arguments with width zero,
and the text `B` that it puts out then is all there is to its text: it is `B` itself where that is
long enough, and otherwise `B` filled up to the width with spaces behind it, with zeros behind its
sign and radix mark, or with spaces in front of it. -/
theorem width_only_pads (hcount : d.conversion ≠ .countWritten) (hpercent : d.conversion ≠ .percent)
    (hwidth : source.takeAmount d.width = ⟨.ok width, s₁⟩)
    (hprecision : s₁.takeAmount d.precision = ⟨.ok precision, s₂⟩)
    (harg : s₂.take d.index = ⟨.ok arg, s₃⟩) (config : Config) (written : Nat) :
    let unpadded : Taken (List (Action w)) := d.widthless.render config written s₁
    let rendered : Taken (List (Action w)) := d.render config written source
    (∀ e, unpadded.result = .error e → rendered.result = .error e) ∧
    ∀ actions, unpadded.result = .ok actions → ∃ padded, rendered = ⟨.ok padded, s₃⟩ ∧
      padded.filterMap Action.stored? = [] ∧
      let B := outputText actions
      let n := (width.getD 0).natAbs
      let fill := n - B.length
      let left := d.flags.left ∨ width.getD 0 < 0
      let h := (d.signAndMark arg).length
      B.take h = Text.ofAscii w (d.signAndMark arg) ∧
      (n ≤ B.length → outputText padded = B) ∧
      (B.length < n → (outputText padded).length = n ∧
        (left → outputText padded = B ++ spaces w fill) ∧
        (¬ left → d.PadsWithZeros precision arg →
          outputText padded = B.take h ++ List.replicate fill (.ofAscii w '0') ++ B.drop h) ∧
        (¬ left → ¬ d.PadsWithZeros precision arg →
          outputText padded = spaces w fill ++ B)) := by
  intro unpadded rendered
  have hunpadded : unpadded =
      match d.field? config (Layout.of d width precision).precision arg with
      | some f => ⟨.ok ((f.chunks (.of d.widthless (some 0) precision)).map .put), s₃⟩
      | none => ⟨.error .badType, s₃⟩ :=
    render_of_taken (d := d.widthless) hcount hpercent rfl hprecision harg config written
  have hrendered : rendered = _ :=
    render_of_taken hcount hpercent hwidth hprecision harg config written
  cases hf : d.field? (w := w) config (Layout.of d width precision).precision arg with
  | none =>
    rw [hf] at hunpadded hrendered
    rw [hunpadded, hrendered]
    exact ⟨fun e he ↦ he, fun actions hactions ↦ absurd hactions (by simp)⟩
  | some f =>
    obtain ⟨hhead, hzeros⟩ := d.field?_head config width precision hf
    rw [hf] at hunpadded hrendered
    rw [hunpadded]
    refine ⟨fun e he ↦ absurd he (by simp), ?_⟩
    rintro actions ⟨⟩
    have hbare : outputText ((f.chunks (.of d.widthless (some 0) precision)).map .put) = f.bare := by
      rw [outputText_map_put]
      exact f.text_of_width_zero rfl
    have hleft : (Layout.of d width precision).left = true ↔
        d.flags.left = true ∨ width.getD 0 < 0 := by simp [Layout.of]
    have hlayout : (Layout.of d width precision).width = (width.getD 0).natAbs := rfl
    obtain ⟨hfits, hshort⟩ := f.text_padded (.of d width precision)
    refine ⟨_, hrendered, filterMap_stored?_map_put _, ?_⟩
    dsimp only
    rw [hbare, outputText_map_put, ← hhead, ← hlayout]
    refine ⟨List.take_left' (Text.length_ofAscii _), hfits, fun hlt ↦ ?_⟩
    obtain ⟨hlength, htext⟩ := hshort hlt
    refine ⟨hlength, fun h ↦ ?_, fun h hpads ↦ ?_, fun h hpads ↦ ?_⟩
    · rw [htext, if_pos (hleft.mpr h)]
    · rw [htext, if_neg (mt hleft.mp h), if_pos (hzeros.mpr hpads)]
    · rw [htext, if_neg (mt hleft.mp h), if_neg (mt hzeros.mp hpads)]

/-- A width that is an argument, and a negative number: the zeros follow the sign. -/
theorem width_only_pads_behind_sign :
    let d : Directive := { Directive.bare .signedInt false with
      flags := { zero := true }, width := some (.argument none) }
    let args : List Arg := [.integer .int32 6, .integer .int32 (-42)]
    ∃ padded, d.render (w := .utf8) {} 0 (.sequential (.ofArgs args))
        = ⟨.ok padded, .sequential ⟨2, []⟩⟩ ∧
      outputText padded = Text.ofAscii .utf8 "-00042".toList := by
  intro d args
  have hwidth : (ArgSource.sequential (.ofArgs args)).takeAmount d.width
      = ⟨.ok (some 6), .sequential ⟨1, [.integer .int32 (-42)]⟩⟩ := rfl
  obtain ⟨-, h⟩ :=
    width_only_pads (w := .utf8) (d := d) (by decide) (by decide) hwidth rfl rfl {} 0
  obtain ⟨actions, hactions, hbare⟩ : ∃ actions,
      (d.widthless.render (w := .utf8) {} 0 (.sequential ⟨1, [.integer .int32 (-42)]⟩)).result
        = .ok actions ∧ outputText actions = Text.ofAscii .utf8 "-42".toList :=
    ⟨_, rfl, by decide +kernel⟩
  obtain ⟨padded, hrender, -, -, -, hshort⟩ := h actions hactions
  rw [hbare] at hshort
  obtain ⟨-, -, hzeros, -⟩ := hshort (by decide)
  refine ⟨padded, hrender, ?_⟩
  rw [hzeros (by decide) ⟨rfl, .inl ⟨.inl rfl, by simp⟩⟩]
  decide

end Directive

end FormatString
