import Mathlib
import FormatString.Proofs.Number.Decimal
import FormatString.Proofs.Text.Encoded
import FormatString.Proofs.Writer.Field

/-!
# Fields of characters

A value is converted to the same characters at every width. Numbers are ASCII but for the separator
of their groups; a text argument is cut by characters, and spelling it anew comes to the same as
keeping its units where it has the width of the output already. A `StringField` is what is converted,
in characters, and `UniformField` says that there is one for all widths.

What depends on the width is padding, which is measured in units. So a padded field has to be ASCII.
-/

namespace FormatString

variable {w : Width}

theorem ascii_replicate {c : Char} (hc : c.toNat < 0x80) (n : Nat) :
    ∀ d ∈ List.replicate n c, d.toNat < 0x80 := by
  intro d hd
  rwa [(List.mem_replicate.mp hd).2]

/-! ## Fields -/

/-- A converted value in characters. -/
structure StringField where
  head : List Char
  body : List Char
  zeros : Bool

/-- The field as it is spelled in a width. -/
def StringField.at (w : Width) (f : StringField) : Field w := ⟨f.head, encode w f.body, f.zeros⟩

/-- The field with its padding. -/
def StringField.padded (f : StringField) (layout : Layout) : List Char :=
  let pad := layout.width - (f.head.length + f.body.length)
  (if layout.left || f.zeros then [] else List.replicate pad ' ') ++ f.head ++
    (if f.zeros && !layout.left then List.replicate pad '0' else []) ++ f.body ++
    if layout.left then List.replicate pad ' ' else []

namespace StringField

variable {f : StringField}

theorem ascii_padded (hhead : ∀ c ∈ f.head, c.toNat < 0x80) (hbody : ∀ c ∈ f.body, c.toNat < 0x80)
    (layout : Layout) : ∀ c ∈ f.padded layout, c.toNat < 0x80 := by
  have hnil : ∀ c ∈ ([] : List Char), c.toNat < 0x80 := by simp
  simp only [padded, List.forall_mem_append]
  refine ⟨⟨⟨⟨?_, hhead⟩, ?_⟩, hbody⟩, ?_⟩
  · split
    · exact hnil
    · exact ascii_replicate (by decide) _
  · split
    · exact ascii_replicate (by decide) _
    · exact hnil
  · split
    · exact ascii_replicate (by decide) _
    · exact hnil

/-- **Padding** is the same at every width if there is none, or if what is padded is ASCII. -/
theorem text_chunks_at (hhead : ∀ c ∈ f.head, c.toNat < 0x80) {layout : Layout}
    (h : layout.width = 0 ∨ ∀ c ∈ f.body, c.toNat < 0x80) (w : Width) :
    ((f.at w).chunks layout).flatMap Chunk.text = encode w (f.padded layout) := by
  have hpad : layout.width - ((f.at w).head.length + (f.at w).body.length)
      = layout.width - (f.head.length + f.body.length) := by
    obtain hwidth | hbody := h
    · rw [hwidth, Nat.zero_sub, Nat.zero_sub]
    · rw [StringField.at, length_encode_of_ascii hbody]
  have hfill {c : Char} (hc : c.toNat < 0x80) (n : Nat) :
      encode w (List.replicate n c) = List.replicate n (.ofAscii w c) := by
    rw [encode_of_ascii (ascii_replicate hc n), Text.ofAscii_replicate]
  have htext := (f.at w).text_chunks_eq layout
  dsimp only at htext
  rw [htext, hpad]
  simp only [padded, encode_append, encode_of_ascii hhead, apply_ite (encode w),
    hfill (c := ' ') (by decide), hfill (c := '0') (by decide), encode_nil]
  rfl

end StringField

/-- The values converted at the different widths are the same characters, with an ASCII head, and
with an ASCII body on the condition `ascii`. -/
def UniformField (ascii : Prop) (f : (w : Width) → Option (Field w)) : Prop :=
  ∃ g : Option StringField, (∀ w, f w = g.map (·.at w)) ∧
    ∀ x ∈ g, (∀ c ∈ x.head, c.toNat < 0x80) ∧ (ascii → ∀ c ∈ x.body, c.toNat < 0x80)

namespace UniformField

variable {ascii ascii' : Prop} {f : (w : Width) → Option (Field w)}

theorem none : UniformField ascii fun _ ↦ .none := ⟨.none, fun _ ↦ rfl, by simp⟩

theorem some (x : StringField) (hhead : ∀ c ∈ x.head, c.toNat < 0x80)
    (hbody : ascii → ∀ c ∈ x.body, c.toNat < 0x80) (h : ∀ w, f w = .some (x.at w)) :
    UniformField ascii f := by
  refine ⟨.some x, h, ?_⟩
  rintro y hy
  obtain rfl := Option.some.inj hy
  exact ⟨hhead, hbody⟩

/-- A field that is only text. -/
theorem text (cs : List Char) (hcs : ascii → ∀ c ∈ cs, c.toNat < 0x80)
    (h : ∀ w, f w = .some ⟨[], encode w cs, false⟩) : UniformField ascii f :=
  .some ⟨[], cs, false⟩ (by simp) hcs h

theorem map {α : Type} {f : (w : Width) → α → Field w} {x : Option α}
    (h : ∀ a, UniformField ascii fun w ↦ .some (f w a)) :
    UniformField ascii fun w ↦ x.map (f w) := by
  cases x with
  | none => exact none
  | some a => exact h a

theorem mono (h : UniformField ascii f) (himp : ascii' → ascii) : UniformField ascii' f := by
  obtain ⟨g, hg, hascii⟩ := h
  exact ⟨g, hg, fun x hx ↦ ⟨(hascii x hx).1, fun h' ↦ (hascii x hx).2 (himp h')⟩⟩

end UniformField

/-! ## Groups -/

/-- Number text in characters, the digits before the point in groups if there is a separator. -/
def groupedText (separator : Option Char) (text : List Char) : List Char :=
  match separator with
  | none => text
  | some c => groupThousands [c] (text.takeWhile Char.isDigit) ++ text.dropWhile Char.isDigit

theorem groupThousands_encode (c : Char) {ds : List Char} (hds : ∀ d ∈ ds, d.toNat < 0x80) :
    groupThousands (encodeChar w c) (Text.ofAscii w ds) = encode w (groupThousands [c] ds) := by
  induction ds with
  | nil => rfl
  | cons d ds ih =>
    obtain ⟨hd, hds⟩ := List.forall_mem_cons.mp hds
    -- There are as many units as digits, so the separators are in the same places.
    change groupThousands (encodeChar w c) (.ofAscii w d :: Text.ofAscii w ds) = _
    rw [groupThousands_cons, groupThousands_cons, Text.length_ofAscii, ih hds]
    split
    · rw [encode_cons, encodeChar_of_ascii hd, encode_append, encode_singleton]
      rfl
    · rw [encode_cons, encodeChar_of_ascii hd]
      rfl

theorem mem_groupThousands {α : Type} {separator digits : List α} {x : α}
    (h : x ∈ groupThousands separator digits) : x ∈ separator ∨ x ∈ digits := by
  induction digits with
  | nil => exact absurd h (by simp [groupThousands])
  | cons d ds ih =>
    rw [groupThousands_cons] at h
    split at h
    · simp only [List.mem_cons, List.mem_append] at h ⊢
      tauto
    · simp only [List.mem_cons] at h ⊢
      tauto

section NumberText

variable {separator : Option Char} {text : List Char} (htext : ∀ c ∈ text, c.toNat < 0x80)

include htext

theorem numberBody_eq_encode : numberBody separator text = encode w (groupedText separator text) := by
  cases separator with
  | none => exact (encode_of_ascii htext).symm
  | some c =>
    have hdigits : ∀ d ∈ text.takeWhile Char.isDigit, d.toNat < 0x80 :=
      fun d hd ↦ htext d (List.takeWhile_subset _ hd)
    have hrest : ∀ d ∈ text.dropWhile Char.isDigit, d.toNat < 0x80 :=
      fun d hd ↦ htext d (List.dropWhile_subset _ hd)
    rw [numberBody, groupThousands_encode c hdigits, ← encode_of_ascii hrest, ← encode_append]
    rfl

theorem ascii_groupedText (hseparator : ∀ c ∈ separator, c.toNat < 0x80) :
    ∀ c ∈ groupedText separator text, c.toNat < 0x80 := by
  cases separator with
  | none => exact htext
  | some c =>
    refine List.forall_mem_append.mpr ⟨fun d hd ↦ ?_, fun d hd ↦ ?_⟩
    · obtain hd | hd := mem_groupThousands hd
      · rw [List.mem_singleton.mp hd]
        exact hseparator c rfl
      · exact htext d (List.takeWhile_subset _ hd)
    · exact htext d (List.dropWhile_subset _ hd)

end NumberText

/-! ## Numbers -/

theorem ascii_signOf (flags : Flags) (negative : Bool) :
    ∀ c ∈ signOf flags negative, c.toNat < 0x80 := by
  obtain ⟨a, sign, hsign, hspells⟩ := signOf_eq flags negative
  rw [hsign]
  exact List.forall_mem_append.mpr ⟨ascii_replicate (by decide) a, hspells.ascii⟩

/-- What is written of a magnitude are digits of the radix, whatever the precision asks for. -/
theorem isDigit_integerDigits (d : Directive) (precision : Option Nat) (n : Nat) :
    ∀ c ∈ integerDigits d precision n, d.conversion.radix.isDigit c := by
  have hzero : d.conversion.radix.isDigit '0' := by
    rw [Radix.isDigit, Radix.digit?_zero]
    rfl
  rw [integerDigits]
  set shown := if precision = some 0 ∧ n = 0 then [] else d.conversion.radix.writeNat d.upper n
    with hshown
  have hdigits : ∀ c ∈ shown, d.conversion.radix.isDigit c := by
    rw [hshown]
    split
    · simp
    · exact Radix.isDigit_writeNat d.upper n
  have hpadded : ∀ c ∈ List.replicate (precision.getD 0 - shown.length) '0' ++ shown,
      d.conversion.radix.isDigit c := by
    refine List.forall_mem_append.mpr ⟨fun c hc ↦ ?_, hdigits⟩
    rwa [(List.mem_replicate.mp hc).2]
  split
  · exact List.forall_mem_cons.mpr ⟨hzero, hpadded⟩
  · exact hpadded

theorem ascii_integerDigits (d : Directive) (precision : Option Nat) (n : Nat) :
    ∀ c ∈ integerDigits d precision n, c.toNat < 0x80 :=
  fun c hc ↦ ascii_of_isDigit (isDigit_integerDigits d precision n c hc)

theorem ascii_shortestText (d : Directive) {x : Decimal} (hx : ∀ n ∈ x.digits, n < 10) (p : Nat) :
    ∀ c ∈ (shortestText d x p).text, c.toNat < 0x80 := by
  rw [shortestText]
  dsimp only
  set text := if -4 ≤ x.exponent ∧ x.exponent < p then
      x.renderFixed (p - 1 - x.exponent).toNat d.flags.alt
    else x.renderScientific (p - 1) d.upper d.flags.alt with htext
  have hascii : ∀ c ∈ text, c.toNat < 0x80 := by
    rw [htext]
    split
    · exact Decimal.ascii_renderFixed hx _ _
    · exact Decimal.ascii_renderScientific hx _ _ _
  split
  · exact hascii
  · exact fun c hc ↦ hascii c (dropFractionZeros_subset some text hc)

theorem ascii_floatText (d : Directive) (precision : Nat) {x : Decimal}
    (hx : ∀ n ∈ x.digits, n < 10) : ∀ c ∈ (floatText d precision x).text, c.toNat < 0x80 := by
  rw [floatText]
  split
  · exact Decimal.ascii_renderScientific hx _ _ _
  · exact Decimal.ascii_renderFixed hx _ _
  · exact ascii_shortestText d hx _

/-- What a float conversion shows of a value, behind its sign. -/
def shownFloat (d : Directive) (precision : Nat) (x : Binary .binary64) : FloatText :=
  match (floatDecimal d precision x).kind with
  | .finite => floatText d precision (floatDecimal d precision x)
  | .infinite => ⟨['i', 'n', 'f'], false⟩
  | .nan => ⟨['n', 'a', 'n'], false⟩

theorem ascii_shownFloat (d : Directive) (precision : Nat) (x : Binary .binary64) :
    ∀ c ∈ (shownFloat d precision x).text, c.toNat < 0x80 := by
  rw [shownFloat]
  split
  · exact ascii_floatText _ _ (Decimal.digits_ofBinary_lt _ _)
  · simp
  · simp

/-- Only the separator of the settings ever separates groups. -/
theorem eq_of_mem_separatorFor {config : Config} {d : Directive} {p : Prop} [Decidable p] :
    ∀ c ∈ (if p then separatorFor config d else none), c = config.separator := by
  simp only [separatorFor]
  split
  · split <;> simp
  · simp

namespace UniformField

/-- Numbers are grouped in characters. -/
theorem number {config : Config} {head text : List Char} {separator : Option Char}
    (hhead : ∀ c ∈ head, c.toNat < 0x80) (htext : ∀ c ∈ text, c.toNat < 0x80)
    (hseparator : ∀ c ∈ separator, c = config.separator) (zeros : Bool) :
    UniformField (config.separator.toNat < 0x80)
      fun w ↦ .some (⟨head, numberBody separator text, zeros⟩ : Field w) := by
  refine .some ⟨head, groupedText separator text, zeros⟩ hhead (fun hascii ↦ ?_) fun w ↦ ?_
  · refine ascii_groupedText htext fun c hc ↦ ?_
    rwa [hseparator c hc]
  · rw [numberBody_eq_encode htext]
    rfl

variable (config : Config) (d : Directive) (precision : Option Nat)

/-- **Integers.** -/
theorem integer (v : Int) (natural : IntType) :
    UniformField (config.separator.toNat < 0x80)
      fun w ↦ .some (integerField (w := w) config d precision v natural) := by
  refine number (List.forall_mem_append.mpr ⟨?_, (spellsMark_radixMark _ _).ascii⟩)
    (ascii_integerDigits _ _ _) eq_of_mem_separatorFor _
  split
  · exact ascii_signOf _ _
  · simp

/-- **Floats.** -/
theorem float (x : Binary .binary64) :
    UniformField (config.separator.toNat < 0x80)
      fun w ↦ .some (floatField (w := w) config d precision x) :=
  number (ascii_signOf _ _) (ascii_shownFloat d _ x) eq_of_mem_separatorFor _

end UniformField

/-! ## Text -/

namespace Arg

/-- Text is well-formed, and a unit that is given for a character spells one. -/
def WellFormed : Arg → Prop
  | text s => ∃ cs, s.units = encode s.width cs
  | char w unit => ∃ c, encodeChar w c = [unit]
  | _ => True

/-- Text and characters are ASCII. -/
def Ascii : Arg → Prop
  | text s => ∀ u ∈ s.units, u.value < 0x80
  | char _ unit => unit.value < 0x80
  | _ => True

/-- The code point that is written for an integer as a character. -/
def codePoint? : Arg → Option Int
  | integer _ n => some n
  | _ => none

end Arg

theorem codePointText_toNat (c : Char) : codePointText c.toNat = encode .utf32 [c] := by
  have hc := (toNat_lt c).1
  rw [codePointText, if_pos (by omega), Int.toNat_natCast, encode_singleton]
  rfl

namespace UniformField

variable {arg : Arg}

/-- **Characters** are spelled anew, whether they are given by a unit or by a code point. -/
theorem char (hwf : arg.WellFormed)
    (hscalar : ∀ n ∈ arg.codePoint?, 0 ≤ n ∧ n.toNat.isValidChar) :
    UniformField (arg.Ascii ∧ ∀ n ∈ arg.codePoint?, n < 0x80)
      fun w ↦ (charText? w arg).map (⟨[], ·, false⟩) := by
  cases arg with
  | integer type n =>
    obtain ⟨hnonneg, hvalid⟩ := hscalar n rfl
    obtain ⟨c, rfl⟩ : ∃ c : Char, n = c.toNat := by
      refine ⟨Char.ofNat n.toNat, ?_⟩
      rw [Char.ofNat, dif_pos hvalid]
      exact (Int.toNat_of_nonneg hnonneg).symm.trans
        (congrArg Nat.cast (Char.toNat_ofNatAux hvalid).symm)
    refine text [c] (fun hascii ↦ ?_) fun w ↦ ?_
    · have := hascii.2 c.toNat rfl
      rw [List.forall_mem_singleton]
      omega
    · rw [← transcode_encode (v := .utf32), ← codePointText_toNat]
      rfl
  | char v unit =>
    obtain ⟨c, hc⟩ := hwf
    refine text [c] (fun hascii ↦ ?_) fun w ↦ ?_
    · have hunit : unit ∈ encodeChar v c := hc ▸ List.mem_singleton_self unit
      rw [List.forall_mem_singleton, ← value_of_mem_encodeChar hunit hascii.1]
      exact hascii.1
    · rw [← transcode_encode (v := v), encode_singleton, hc]
      rfl
  | _ => exact none

/-- **Strings** are cut before they are spelled anew, and both go by characters. -/
theorem string (hwf : arg.WellFormed) (precision : Option Nat) :
    UniformField arg.Ascii fun w ↦ (stringText? w precision arg).map (⟨[], ·, false⟩) := by
  have hcut (s : AnyText) (cs : List Char) (hs : s.units = encode s.width cs) :
      ∃ cs' ⊆ cs, ∀ w, stringText? w precision (.text s) = .some (encode w cs') := by
    cases precision with
    | none =>
      refine ⟨cs, List.Subset.refl _, fun w ↦ ?_⟩
      rw [stringText?]
      dsimp only
      rw [hs, transcode_encode]
    | some k =>
      refine ⟨cs.take k, List.take_subset _ _, fun w ↦ ?_⟩
      rw [stringText?]
      dsimp only
      rw [hs, charPrefix_encode, transcode_encode]
  cases arg with
  | text s =>
    obtain ⟨cs, hs⟩ := hwf
    obtain ⟨cs', hsubset, htext⟩ := hcut s cs hs
    refine text cs' (fun hascii c hc ↦ ?_) fun w ↦ ?_
    · rw [Arg.Ascii, hs] at hascii
      exact ascii_of_encode hascii c (hsubset hc)
    · rw [htext]
      rfl
  | nullText =>
    -- A string that is not there is written as this one.
    obtain ⟨cs', hsubset, htext⟩ := hcut (.ofChars "(null)".toList) _ rfl
    have hnull : ∀ c ∈ "(null)".toList, c.toNat < 0x80 := by simp
    refine text cs' (fun _ c hc ↦ hnull c (hsubset hc)) fun w ↦ ?_
    change (stringText? w precision (.text (.ofChars "(null)".toList))).map _ = _
    rw [htext]
    rfl
  | _ => exact none

end UniformField

end FormatString
