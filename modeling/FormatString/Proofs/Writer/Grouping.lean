import Mathlib
import FormatString.Proofs.Number.NumberText
import FormatString.Proofs.Writer.Encoded
import FormatString.Proofs.Writer.Padding
import FormatString.Proofs.Writer.Shortest

/-!
# Groups of thousands

What the flag for groups does can be told from the text that is put out without it. If that is a
decimal integer, or a number in fixed form, the digits behind its sign are cut into groups of three
and the separator is put between them; everything else stays as it is. In particular it does not
matter which conversion a number in fixed form comes from, nor whether its digits are zeros that the
precision asks for, nor what was stripped from its end.
-/

namespace FormatString

variable {w : Width}

/-! ## Cutting digits -/

section Cutting

variable {α β : Type} {digits : List α} {groups : List (List α)} {g : List α}

/-- The digits in groups of three, counted from their right end: only the first group may be
shorter. -/
structure IsThousands (digits : List α) (groups : List (List α)) : Prop where
  flatten : groups.flatten = digits
  first : ∀ g ∈ groups.head?, 1 ≤ g.length ∧ g.length ≤ 3
  rest : ∀ g ∈ groups.tail, g.length = 3

theorem IsThousands.length_eq (h : IsThousands digits (g :: groups)) :
    digits.length = g.length + 3 * groups.length := by
  have hlengths : groups.map List.length = List.replicate groups.length 3 :=
    List.map_eq_replicate_iff.mpr h.rest
  rw [← h.flatten, List.flatten_cons, List.length_append, List.length_flatten, hlengths,
    List.sum_replicate, smul_eq_mul, Nat.mul_comm]

/-- The number of separators. -/
theorem IsThousands.length_groups (h : IsThousands digits groups) :
    groups.length - 1 = (digits.length - 1) / 3 := by
  cases groups with
  | nil =>
    rw [← h.flatten]
    simp
  | cons g groups =>
    have hlength := h.length_eq
    have hfirst := h.first g rfl
    rw [List.length_cons]
    omega

/-- **Digits are put in thousands**, whatever they are spelled with. -/
theorem exists_isThousands (f : α → β) (separator : List β) (digits : List α) :
    ∃ groups, IsThousands digits groups ∧
      groupThousands separator (digits.map f)
        = separator.intercalate (groups.map (List.map f)) := by
  induction digits with
  | nil => exact ⟨[], ⟨rfl, by simp, by simp⟩, rfl⟩
  | cons d ds ih =>
    obtain ⟨groups, hgroups, htext⟩ := ih
    rw [List.map_cons, groupThousands_cons, List.length_map, htext]
    obtain _ | ⟨g, groups⟩ := groups
    · obtain rfl := hgroups.flatten
      exact ⟨[[d]], ⟨rfl, by simp, by simp⟩, rfl⟩
    -- A full first group is left alone, and the digit begins a group of its own.
    have hlength := hgroups.length_eq
    have hfirst := hgroups.first g rfl
    split
    · next hfull =>
      refine ⟨[d] :: g :: groups, ⟨congrArg (d :: ·) hgroups.flatten, by simp, ?_⟩, ?_⟩
      · exact List.forall_mem_cons.mpr ⟨by omega, hgroups.rest⟩
      · change _ = separator.intercalate ([f d] :: g.map f :: groups.map (List.map f))
        rw [List.intercalate_cons_cons]
        rfl
    · next hroom =>
      refine ⟨(d :: g) :: groups, ⟨congrArg (d :: ·) hgroups.flatten, ?_, hgroups.rest⟩, ?_⟩
      · rintro _ ⟨⟩
        rw [List.length_cons]
        omega
      · exact List.intercalate_cons_cons_left.symm

end Cutting

/-! ## Numbers in fixed form -/

/-- Something that may stand in front of the digits of a number. -/
def IsSign (sign : List Char) : Prop := sign = [] ∨ sign = ['-'] ∨ sign = ['+'] ∨ sign = [' ']

theorem isSign_signOf (flags : Flags) (negative : Bool) : IsSign (signOf flags negative) := by
  rw [signOf, IsSign]
  split_ifs <;> simp

/-- The text is a number without an exponent: perhaps a sign, digits, and perhaps a point and digits
behind it. -/
def Text.IsFixedForm (text : Text w) : Prop :=
  ∃ (sign : List Char) (t : NumberText), IsSign sign ∧ t.WellFormed ∧ t.exponent = none ∧
    text = Text.ofAscii w (sign ++ t.text)

section Shown

variable {x : Decimal} (h : ∀ n ∈ x.digits, n < 10)

include h

theorem exists_renderFixed (count : Nat) (alt : Bool) :
    ∃ t : NumberText, t.WellFormed ∧ t.text = x.renderFixed count alt ∧ t.exponent = none :=
  ⟨_, Decimal.fixedText_wellFormed h count alt, Decimal.fixedText_text h count alt, rfl⟩

theorem exists_renderScientific (count : Nat) (upper alt : Bool) :
    ∃ t : NumberText, t.WellFormed ∧ t.text = x.renderScientific count upper alt ∧
      t.exponent ≠ none :=
  ⟨_, Decimal.scientificText_wellFormed h count upper alt,
    Decimal.scientificText_text h count upper alt, Option.some_ne_none _⟩

theorem exists_renderSuited (p : Nat) (upper alt : Bool) :
    ∃ t : NumberText, t.WellFormed ∧ t.text = x.renderSuited p upper alt ∧
      (-4 ≤ x.exponent ∧ x.exponent < p ↔ t.exponent = none) := by
  rw [Decimal.renderSuited]
  split
  · next hsuits =>
    obtain ⟨t, ht, htext, hnone⟩ := exists_renderFixed h (p - 1 - x.exponent).toNat alt
    exact ⟨t, ht, htext, iff_of_true hsuits hnone⟩
  · next hsuits =>
    obtain ⟨t, ht, htext, hsome⟩ := exists_renderScientific h (p - 1) upper alt
    exact ⟨t, ht, htext, iff_of_false hsuits hsome⟩

/-- What is shown of a number is in fixed form if it says so, and has an exponent otherwise. -/
theorem exists_floatText (d : Directive) (precision : Nat) :
    ∃ t : NumberText, t.WellFormed ∧ t.text = (floatText d precision x).text ∧
      ((floatText d precision x).fixed ↔ t.exponent = none) := by
  rw [floatText]
  split
  · obtain ⟨t, ht, htext, hsome⟩ := exists_renderScientific h precision d.upper d.flags.alt
    exact ⟨t, ht, htext, iff_of_false Bool.false_ne_true hsome⟩
  · obtain ⟨t, ht, htext, hnone⟩ := exists_renderFixed h precision d.flags.alt
    exact ⟨t, ht, htext, iff_of_true rfl hnone⟩
  · set p := max precision 1
    obtain ⟨t, ht, htext, hform⟩ := exists_renderSuited h p d.upper d.flags.alt
    have hshown : shortestText d x p
        = ⟨if d.flags.alt then t.text else dropFractionZeros some t.text,
            -4 ≤ x.exponent ∧ x.exponent < p⟩ := by
      rw [htext]
      rfl
    -- Shortening leaves the exponent alone.
    rw [hshown, ← ht.text_shortened]
    cases d.flags.alt with
    | true => exact ⟨t, ht, rfl, decide_eq_true_iff.trans hform⟩
    | false => exact ⟨t.shortened, ht.shortened, rfl, decide_eq_true_iff.trans hform⟩

end Shown

/-- A text in fixed form has no letters. -/
theorem Text.IsFixedForm.mem {cs : List Char} (hcs : ∀ c ∈ cs, c.toNat < 0x80)
    (h : (Text.ofAscii w cs).IsFixedForm) : ∀ c ∈ cs, c.isDigit ∨ c ∈ ['.', '-', '+', ' '] := by
  obtain ⟨sign, t, hsign, ht, hexponent, htext⟩ := h
  have hchars : ∀ c ∈ sign ++ t.text, c.isDigit ∨ c ∈ ['.', '-', '+', ' '] := by
    refine List.forall_mem_append.mpr ⟨fun c hc ↦ .inr ?_, fun c hc ↦ ?_⟩
    · obtain rfl | rfl | rfl | rfl := hsign
      · exact absurd hc (by simp)
      all_goals
        rw [List.mem_singleton.mp hc]
        simp
    · obtain hdigit | rfl := ht.mem_text_of_exponent_none hexponent c hc
      · exact .inl hdigit
      · exact .inr (by simp)
  have hothers : ∀ c ∈ ['.', '-', '+', ' '], c.toNat < 0x80 := by simp
  have hascii : ∀ c ∈ sign ++ t.text, c.toNat < 0x80 := by
    intro c hc
    obtain hdigit | hother := hchars c hc
    · exact ascii_of_isDigit (r := .decimal) (by rwa [Radix.isDigit_decimal])
    · exact hothers c hother
  rwa [Text.ofAscii_injective hcs hascii htext]

/-- What is shown of a value is a number, or one of two words. -/
theorem shownFloat_cases (d : Directive) (precision : Nat) (x : Binary .binary64) :
    (∃ t : NumberText, t.WellFormed ∧ t.text = (shownFloat d precision x).text ∧
      ((shownFloat d precision x).fixed ↔ t.exponent = none)) ∨
    (shownFloat d precision x).fixed = false ∧ 'n' ∈ (shownFloat d precision x).text := by
  rw [shownFloat]
  split
  · exact .inl (exists_floatText (Decimal.digits_ofBinary_lt _ _) d precision)
  · exact .inr ⟨rfl, by simp⟩
  · exact .inr ⟨rfl, by simp⟩

/-- **The form of what is shown** can be told from the text. -/
theorem shownFloat_fixed_iff {sign : List Char} (hsign : IsSign sign)
    (hascii : ∀ c ∈ sign, c.toNat < 0x80) (d : Directive) (precision : Nat)
    (x : Binary .binary64) :
    (shownFloat d precision x).fixed
      ↔ (Text.ofAscii w (sign ++ (shownFloat d precision x).text)).IsFixedForm := by
  set shown := shownFloat d precision x
  have hletter {c : Char} (hc : c ∈ shown.text) (hmark : Decimal.isMark c ∨ c = 'n') :
      ¬ (Text.ofAscii w (sign ++ shown.text)).IsFixedForm := by
    intro hform
    have hchar := hform.mem (List.forall_mem_append.mpr ⟨hascii, ascii_shownFloat d precision x⟩) c
      (List.mem_append_right _ hc)
    rw [Decimal.isMark, Bool.or_eq_true, beq_iff_eq, beq_iff_eq] at hmark
    obtain (rfl | rfl) | rfl := hmark <;> exact absurd hchar (by decide)
  obtain ⟨t, ht, htext, hfixed⟩ | ⟨hword, hn⟩ := shownFloat_cases d precision x
  · refine ⟨fun h ↦ ⟨sign, t, hsign, ht, hfixed.mp h, by rw [htext]⟩, fun h ↦ ?_⟩
    refine hfixed.mpr (by_contra fun hexponent ↦ ?_)
    obtain ⟨c, hc, hmark⟩ := NumberText.exists_mark_of_exponent_ne_none ht hexponent
    exact hletter (htext ▸ hc) (.inl hmark) h
  · exact iff_of_false (ne_true_of_eq_false hword) (hletter hn (.inr rfl))

/-! ## Texts with groups -/

/-- The second text is the first one with the digits behind its sign put in thousands: the separator
is between the groups and nowhere else, and what is behind the digits is kept. -/
def CutsThousands (separator : Char) (plain grouped : Text w) : Prop :=
  ∃ (sign digits rest : List Char) (groups : List (List Char)), IsSign sign ∧
    (∀ c ∈ digits, c.isDigit) ∧ (∀ c ∈ rest.head?, c = '.') ∧
    plain = Text.ofAscii w (sign ++ digits ++ rest) ∧ IsThousands digits groups ∧
    groups.length - 1 = (digits.length - 1) / 3 ∧
    grouped = Text.ofAscii w sign ++
      ((encodeChar w separator).intercalate (groups.map (Text.ofAscii w)) ++ Text.ofAscii w rest)

theorem cutsThousands_numberBody {sign text : List Char} (hsign : IsSign sign)
    (hrest : ∀ c ∈ (text.dropWhile Char.isDigit).head?, c = '.') (separator : Char) :
    CutsThousands separator (Text.ofAscii w sign ++ numberBody none text)
      (Text.ofAscii w sign ++ numberBody (some separator) text) := by
  obtain ⟨groups, hgroups, htext⟩ := exists_isThousands (CodeUnit.ofAscii w)
    (encodeChar w separator) (text.takeWhile Char.isDigit)
  refine ⟨sign, text.takeWhile Char.isDigit, text.dropWhile Char.isDigit, groups, hsign,
    fun c hc ↦ List.mem_takeWhile_imp hc, hrest, ?_, hgroups, hgroups.length_groups, ?_⟩
  · rw [List.append_assoc, List.takeWhile_append_dropWhile, Text.ofAscii_append]
    rfl
  · exact congrArg (fun digits ↦ Text.ofAscii w sign ++ (digits ++ _)) htext

namespace Directive

variable {d : Directive}

/-- The conversion writes a decimal integer. -/
def WritesDecimal (d : Directive) : Prop :=
  d.conversion = .signedInt ∨ d.conversion = .autoInt ∨ d.conversion = .unsignedInt

/-- What the flag for groups makes of a text. -/
structure Groups (d : Directive) (separator : Char) (plain grouped : Text w) : Prop where
  cuts : d.WritesDecimal ∨ d.conversion.isFloat ∧ plain.IsFixedForm →
    CutsThousands separator plain grouped
  keeps : ¬ (d.WritesDecimal ∨ d.conversion.isFloat ∧ plain.IsFixedForm) → grouped = plain

theorem radix_eq_decimal_iff (h : d.WritesInteger) :
    d.conversion.radix = .decimal ↔ d.WritesDecimal := by
  revert h
  rw [WritesInteger, WritesDecimal]
  cases d.conversion <;> simp [Conversion.isInteger, Conversion.radix] <;> decide

theorem radixMark_of_writesDecimal (h : d.WritesDecimal) (n : Nat) : radixMark d n = [] := by
  rw [radixMark]
  obtain h | h | h := h <;> rw [h] <;> exact ite_self _

section Fields

variable (hgroup : d.flags.group) (config : Config) (precision : Option Nat)

include hgroup

/-- **Integers** are grouped if they are decimal. -/
theorem groups_integerField (hd : d.WritesInteger) (v : Int) (natural : IntType) :
    d.Groups config.separator (integerField (w := w) config d.ungrouped precision v natural).bare
      (integerField (w := w) config d precision v natural).bare := by
  set n := ((d.intType natural).reinterpret v).natAbs
  set sign := if d.conversion.isSigned then signOf d.flags ((d.intType natural).reinterpret v < 0)
    else [] with hsign
  have hplain : (integerField (w := w) config d.ungrouped precision v natural).bare
      = Text.ofAscii w (sign ++ radixMark d n) ++
        numberBody none (integerDigits d precision n) := by
    have hseparator : separatorFor config d.ungrouped = none := rfl
    rw [Field.bare, integerField, hseparator, ite_self]
    rfl
  have hgrouped : (integerField (w := w) config d precision v natural).bare
      = Text.ofAscii w (sign ++ radixMark d n) ++
        numberBody (if d.conversion.radix = .decimal then some config.separator else none)
          (integerDigits d precision n) := by
    have hseparator : separatorFor config d = some config.separator := if_pos hgroup
    rw [Field.bare, integerField, hseparator]
  have hfloat := hd.not_isFloat
  rw [hplain, hgrouped]
  constructor
  · intro h
    have hdecimal := h.resolve_right fun h ↦ hfloat h.1
    have hradix := (radix_eq_decimal_iff hd).mpr hdecimal
    have hdigits : ∀ c ∈ integerDigits d precision n, c.isDigit := by
      intro c hc
      rw [← Radix.isDigit_decimal, ← hradix]
      exact isDigit_integerDigits d precision n c hc
    rw [if_pos hradix, radixMark_of_writesDecimal hdecimal, List.append_nil]
    refine cutsThousands_numberBody ?_ ?_ config.separator
    · rw [hsign]
      split
      · exact isSign_signOf _ _
      · exact .inl rfl
    · rw [List.dropWhile_eq_nil_iff.mpr hdigits]
      simp
  · intro h
    rw [if_neg (mt (radix_eq_decimal_iff hd).mp fun hdecimal ↦ h (.inl hdecimal))]

/-- **Floats** are grouped if they are shown in fixed form. -/
theorem groups_floatField (hd : d.conversion.isFloat) (x : Binary .binary64) :
    d.Groups config.separator (floatField (w := w) config d.ungrouped precision x).bare
      (floatField (w := w) config d precision x).bare := by
  set p := precision.getD 6
  set sign := signOf d.flags (floatDecimal d p x).negative
  set shown := shownFloat d p x
  have hplain : (floatField (w := w) config d.ungrouped precision x).bare
      = Text.ofAscii w sign ++ numberBody none shown.text := by
    have hseparator : separatorFor config d.ungrouped = none := rfl
    rw [Field.bare, floatField, hseparator, ite_self]
    rfl
  have hgrouped : (floatField (w := w) config d precision x).bare
      = Text.ofAscii w sign ++
        numberBody (if shown.fixed then some config.separator else none) shown.text := by
    have hseparator : separatorFor config d = some config.separator := if_pos hgroup
    rw [Field.bare, floatField, hseparator]
    rfl
  have hsign : IsSign sign := isSign_signOf _ _
  have hform : (Text.ofAscii w sign ++ numberBody none shown.text).IsFixedForm ↔ shown.fixed := by
    rw [numberBody, ← Text.ofAscii_append]
    exact (shownFloat_fixed_iff hsign (ascii_signOf _ _) d p x).symm
  have hinteger : ¬ d.WritesDecimal := by
    rw [WritesDecimal]
    rintro (h | h | h) <;> exact absurd hd (by rw [h]; decide)
  rw [hplain, hgrouped]
  constructor
  · intro h
    have hfixed := hform.mp (h.resolve_left hinteger).2
    rw [if_pos hfixed]
    refine cutsThousands_numberBody hsign ?_ config.separator
    obtain ⟨t, ht, htext, hexponent⟩ | ⟨hword, -⟩ := shownFloat_cases d p x
    · rw [← htext]
      exact ht.dropWhile_text_of_exponent_none (hexponent.mp hfixed)
    · exact absurd hfixed (ne_true_of_eq_false hword)
  · intro h
    rw [if_neg (mt hform.mpr fun hform ↦ h (.inr ⟨hd, hform⟩))]

end Fields

/-! ## Rendering -/

/-- The values that a directive refuses are the same with groups and without. -/
theorem field?_ungrouped (hkind : d.WritesInteger ∨ d.conversion.isFloat) (hgroup : d.flags.group)
    (config : Config) (precision : Option Nat) (arg : Arg) :
    Option.Rel (fun plain grouped ↦ d.Groups config.separator plain.bare grouped.bare)
      (d.ungrouped.field? (w := w) config precision arg) (d.field? config precision arg) := by
  obtain hd | hd := hkind
  · rw [field?_of_writesInteger (d := d.ungrouped) config precision hd,
      field?_of_writesInteger config precision hd]
    cases arg.integer? with
    | none => exact .none
    | some v => exact .some (groups_integerField hgroup config precision hd v.1 v.2)
  · rw [field?_of_isFloat (d := d.ungrouped) config precision hd,
      field?_of_isFloat config precision hd]
    cases arg.float? with
    | none => exact .none
    | some x => exact .some (groups_floatField hgroup config precision hd x)

theorem ne_of_writesNumber (h : d.WritesInteger ∨ d.conversion.isFloat) :
    d.conversion ≠ .countWritten ∧ d.conversion ≠ .percent := by
  revert h
  rw [WritesInteger]
  generalize d.conversion = k
  cases k <;> decide

/-- Without a width, the arguments of a directive either fail to be taken or are the same with all
flags. -/
theorem render_flags (hcount : d.conversion ≠ .countWritten) (hpercent : d.conversion ≠ .percent)
    (hwidth : d.width = none) (config : Config) (written : Nat) (source : ArgSource) :
    (∃ failed : Taken (List (Action w)), (∃ e, failed.result = .error e) ∧
      ∀ flags, { d with flags }.render config written source = failed) ∨
    ∃ precision arg s, ∀ flags, { d with flags }.render (w := w) config written source =
      match { d with flags }.field? config (Layout.of d none precision).precision arg with
      | some f => ⟨.ok ((f.chunks (.of { d with flags } none precision)).map .put), s⟩
      | none => ⟨.error .badType, s⟩ := by
  have hnone : source.takeAmount d.width = ⟨.ok none, source⟩ := by
    rw [hwidth]
    rfl
  rcases hprecision : source.takeAmount d.precision with ⟨e | precision, s₂⟩
  · refine .inl ⟨⟨.error e, s₂⟩, ⟨e, rfl⟩, fun flags ↦ ?_⟩
    rw [render, hnone, Taken.andThen_ok, hprecision]
    rfl
  rcases harg : s₂.take d.index with ⟨e | arg, s₃⟩
  · refine .inl ⟨⟨.error e, s₃⟩, ⟨e, rfl⟩, fun flags ↦ ?_⟩
    rw [render_of_amounts (d := { d with flags }) hnone hprecision, renderValue, if_neg hpercent,
      harg]
    rfl
  · exact .inr ⟨precision, arg, s₃, fun flags ↦
      render_of_taken (d := { d with flags }) hcount hpercent hnone hprecision harg config written⟩

/-- **Thousands grouping.** Without a width, a directive that writes a number with groups fails just
where it fails without them. Where it does not, what it puts out without them is cut: if it is a
decimal integer, or a number in fixed form, its leading digits are put in groups of three counted
from their right end, with the separator between them. Everything else is put out as it is. -/
theorem groups_are_thousands (hkind : d.WritesInteger ∨ d.conversion.isFloat)
    (hgroup : d.flags.group) (hwidth : d.width = none) (config : Config) (written : Nat)
    (source : ArgSource) :
    let plain : Taken (List (Action w)) := d.ungrouped.render config written source
    let rendered : Taken (List (Action w)) := d.render config written source
    (∀ e, plain.result = .error e → rendered = plain) ∧
    ∀ actions, plain.result = .ok actions → ∃ grouped, rendered = ⟨.ok grouped, plain.source⟩ ∧
      grouped.filterMap Action.stored? = [] ∧
      d.Groups config.separator (outputText actions) (outputText grouped) := by
  intro plain rendered
  obtain ⟨hcount, hpercent⟩ := ne_of_writesNumber hkind
  obtain ⟨failed, ⟨e, he⟩, hfailed⟩ | ⟨precision, arg, s, htaken⟩ :=
    d.render_flags (w := w) hcount hpercent hwidth config written source
  · have hplain : plain = failed := hfailed _
    have hrendered : rendered = failed := hfailed d.flags
    refine ⟨fun _ _ ↦ hrendered.trans hplain.symm, fun actions hactions ↦ ?_⟩
    rw [hplain, he] at hactions
    exact absurd hactions (by simp)
  set count := (Layout.of d none precision).precision
  have hplain : plain = match d.ungrouped.field? config count arg with
      | some f => ⟨.ok ((f.chunks (.of d.ungrouped none precision)).map .put), s⟩
      | none => ⟨.error .badType, s⟩ := htaken d.ungrouped.flags
  have hrendered : rendered = match d.field? config count arg with
      | some f => ⟨.ok ((f.chunks (.of d none precision)).map .put), s⟩
      | none => ⟨.error .badType, s⟩ := htaken d.flags
  have hfields := field?_ungrouped (w := w) hkind hgroup config count arg
  generalize d.ungrouped.field? config count arg = f, d.field? config count arg = g
    at hplain hrendered hfields
  cases hfields with
  | none =>
    rw [hplain, hrendered]
    exact ⟨fun _ _ ↦ rfl, fun actions hactions ↦ absurd hactions (by simp)⟩
  | some hgroups =>
    rw [hplain]
    refine ⟨fun e he ↦ absurd he (by simp), ?_⟩
    rintro actions ⟨⟩
    refine ⟨_, hrendered, filterMap_stored?_map_put _, ?_⟩
    rw [outputText_map_put, outputText_map_put, Field.text_of_width_zero _ rfl,
      Field.text_of_width_zero _ rfl]
    exact hgroups

/-- What is stripped from the end does not move the groups, and neither does a separator of two
units. -/
theorem groups_are_thousands_behind_stripping :
    let x : Binary .binary64 := ⟨false, 0x4132D68780000000, by decide⟩
    let d := { bare .floatShortest false with
      flags := { group := true }, precision := some (.literal 9) }
    ∃ grouped, d.render (w := .utf8) { separator := '·' } 0 (.sequential (.ofArgs [.float64 x]))
        = ⟨.ok grouped, .sequential ⟨1, []⟩⟩ ∧
      CutsThousands '·' (Text.ofAscii .utf8 "1234567.5".toList) (outputText grouped) ∧
      outputText grouped = encode .utf8 "1·234·567.5".toList := by
  intro x d
  obtain ⟨-, h⟩ := groups_are_thousands (w := .utf8) (d := d) (.inr rfl) rfl rfl
    { separator := '·' } 0 (.sequential (.ofArgs [.float64 x]))
  obtain ⟨actions, hactions, hplain⟩ : ∃ actions,
      (d.ungrouped.render (w := .utf8) { separator := '·' } 0
        (.sequential (.ofArgs [.float64 x]))).result = .ok actions ∧
      outputText actions = Text.ofAscii .utf8 "1234567.5".toList := ⟨_, rfl, by decide +kernel⟩
  obtain ⟨grouped, hgrouped, -, hcuts, -⟩ := h actions hactions
  have hform : (Text.ofAscii .utf8 "1234567.5".toList).IsFixedForm :=
    ⟨[], ⟨[1, 2, 3, 4, 5, 6, 7], true, [5], none⟩, .inl rfl, ⟨by simp, by simp, by simp, by simp⟩,
      rfl, rfl⟩
  rw [hplain] at hcuts
  refine ⟨grouped, hgrouped, hcuts (.inr ⟨rfl, hform⟩), ?_⟩
  have htext : (d.render (w := .utf8) { separator := '·' } 0
      (.sequential (.ofArgs [.float64 x]))).result.map outputText
        = .ok (encode .utf8 "1·234·567.5".toList) := by decide +kernel
  rw [hgrouped] at htext
  exact Except.ok.inj htext

end Directive

end FormatString
