import Mathlib
import FormatString.Writer.Field
import FormatString.Proofs.Number.IntText
import FormatString.Proofs.Number.IntType
import FormatString.Proofs.Text.Encoding

/-!
# The text of a field

A padded field is blanks, the head, zeros, the body and blanks again, with only one of the three
paddings being there. For an integer field the middle of this spells the integer: the zeros are
further digits in front, and a space in place of a plus sign is one more blank.
-/

namespace FormatString

variable {w : Width}

/-! ## Padding -/

/-- So many spaces. -/
def spaces (w : Width) (n : Nat) : Text w := List.replicate n (.ofAscii w ' ')

/-- Chunks of no length put out nothing. -/
theorem flatMap_text_filter (chunks : List (Chunk w)) :
    (chunks.filter fun c ↦ c.length ≠ 0).flatMap Chunk.text = chunks.flatMap Chunk.text := by
  induction chunks with
  | nil => rfl
  | cons c rest ih =>
    rw [List.flatMap_cons, ← ih]
    by_cases h : c.length = 0
    · rw [List.filter_cons_of_neg (by simpa using h)]
      rw [← c.length_text, List.length_eq_zero_iff] at h
      rw [h, List.nil_append]
    · rw [List.filter_cons_of_pos (by simpa using h), List.flatMap_cons]

/-- What is put out for a field, with its padding. -/
theorem Field.text_chunks_eq (f : Field w) (layout : Layout) :
    let pad := layout.width - (f.head.length + f.body.length)
    (f.chunks layout).flatMap Chunk.text
      = (if layout.left || f.zeros then [] else spaces w pad) ++ Text.ofAscii w f.head ++
        (if f.zeros && !layout.left then List.replicate pad (.ofAscii w '0') else []) ++ f.body ++
        if layout.left then spaces w pad else [] := by
  intro pad
  have hhead : (f.head.map fun c ↦ (Chunk.units [.ofAscii w c] : Chunk w)).flatMap Chunk.text
      = Text.ofAscii w f.head := by
    induction f.head with
    | nil => rfl
    | cons c cs ih =>
      rw [List.map_cons, List.flatMap_cons, ih]
      rfl
  rw [Field.chunks, flatMap_text_filter]
  cases hleft : layout.left <;> cases hzeros : f.zeros <;>
    simp [hhead, spaces, Chunk.text, pad]

/-- **Padding.** Spaces are put on the left or on the right, or zeros behind the head. -/
theorem Field.text_chunks (f : Field w) (layout : Layout) :
    ∃ a z b, (f.chunks layout).flatMap Chunk.text
        = spaces w a ++ Text.ofAscii w (f.head ++ List.replicate z '0') ++ f.body ++ spaces w b ∧
      (f.zeros = false → z = 0) := by
  have htext := f.text_chunks_eq layout
  set pad := layout.width - (f.head.length + f.body.length)
  cases hleft : layout.left with
  | true =>
    refine ⟨0, 0, pad, ?_, fun _ ↦ rfl⟩
    simp [htext, hleft, spaces]
  | false =>
    cases hzeros : f.zeros with
    | true =>
      refine ⟨0, pad, 0, ?_, fun h ↦ absurd h (by decide)⟩
      simp [htext, hleft, hzeros, spaces]
    | false =>
      refine ⟨pad, 0, 0, ?_, fun _ ↦ rfl⟩
      simp [htext, hleft, hzeros, spaces]

/-- Without a width nothing is padded. -/
theorem Field.text_of_width_zero (f : Field w) {layout : Layout} (hwidth : layout.width = 0) :
    (f.chunks layout).flatMap Chunk.text = Text.ofAscii w f.head ++ f.body := by
  have hpad : layout.width - (f.head.length + f.body.length) = 0 := by
    rw [hwidth]
    exact Nat.zero_sub _
  rw [f.text_chunks_eq, hpad]
  simp [spaces]

/-! ## Groups of digits -/

/-- A separator is put behind a digit if the number of digits behind it is a multiple of three other
than zero. -/
theorem groupThousands_cons {α : Type} (separator : List α) (d : α) (ds : List α) :
    groupThousands separator (d :: ds)
      = if ds.length ≠ 0 ∧ ds.length % 3 = 0 then d :: (separator ++ groupThousands separator ds)
        else d :: groupThousands separator ds := by
  let step (d : α) (p : Nat × List α) : Nat × List α :=
    (p.1 + 1, if p.1 ≠ 0 ∧ p.1 % 3 = 0 then d :: (separator ++ p.2) else d :: p.2)
  have hcount (ds : List α) : (ds.foldr step (0, [])).1 = ds.length := by
    induction ds with
    | nil => rfl
    | cons d ds ih => exact congrArg (· + 1) ih
  rw [← hcount ds]
  rfl

/-! ## Integers -/

/-- The digits of a magnitude, unless there are none: zeros, and the number. -/
theorem exists_zeros_integerDigits (d : Directive) (precision : Option Nat) (n : Nat)
    (h : ¬ (precision = some 0 ∧ n = 0)) :
    ∃ k, integerDigits d precision n
      = List.replicate k '0' ++ d.conversion.radix.writeNat d.upper n := by
  rw [integerDigits, if_neg h]
  split
  · exact ⟨_ + 1, congrArg ('0' :: ·) rfl⟩
  · exact ⟨_, rfl⟩

theorem spellsMark_radixMark (d : Directive) (n : Nat) :
    SpellsMark d.conversion.radix (radixMark d n) := by
  rw [radixMark]
  split
  · split
    · next hk =>
      rw [hk]
      split
      · exact .absent
      · exact .hexadecimal (.inl rfl)
    · next hk =>
      rw [hk]
      split
      · exact .absent
      · exact .hexadecimal (.inr rfl)
    · next hk =>
      rw [hk]
      split
      · exact .absent
      · split
        · exact .binary (.inr rfl)
        · exact .binary (.inl rfl)
    · next hk =>
      rw [hk]
      exact .hexadecimal (.inl rfl)
    · exact .absent
  · exact .absent

/-- The sign of a number, a space in its place being a blank. -/
theorem signOf_eq (flags : Flags) (negative : Bool) :
    ∃ a sign, signOf flags negative = List.replicate a ' ' ++ sign ∧ SpellsSign sign negative := by
  rw [signOf]
  cases negative with
  | true => exact ⟨0, ['-'], rfl, .minus⟩
  | false =>
    cases hsign : flags.sign with
    | true => exact ⟨0, ['+'], rfl, .plus⟩
    | false =>
      cases hspace : flags.space with
      | true => exact ⟨1, [], rfl, .absent⟩
      | false => exact ⟨0, [], rfl, .absent⟩

theorem signed_intType (d : Directive) (natural : IntType) :
    (d.intType natural).signed = d.conversion.isSigned := by
  rw [Directive.intType]
  split
  · next h =>
    rw [h]
    rfl
  · rfl

/-- The sign of an integer field: only signed conversions write one, and only they need one. -/
theorem sign_integerField (d : Directive) (natural : IntType) (v : Int) :
    let x := (d.intType natural).reinterpret v
    ∃ a sign, (if d.conversion.isSigned then signOf d.flags (x < 0) else [])
      = List.replicate a ' ' ++ sign ∧ SpellsSign sign (x < 0) := by
  intro x
  cases hsigned : d.conversion.isSigned with
  | true => exact signOf_eq d.flags (x < 0)
  | false =>
    have hmin : (d.intType natural).min = 0 := by
      rw [IntType.min, signed_intType, hsigned]
      rfl
    have hnonneg : ¬ x < 0 := by
      rw [not_lt, ← hmin]
      exact ((d.intType natural).reinterpret_mem v).1
    refine ⟨0, [], rfl, ?_⟩
    rw [decide_eq_false hnonneg]
    exact .absent

/-- **An integer field** is its value between blanks, unless precision zero hides the number
zero. -/
theorem integerField_text (config : Config) {d : Directive} (hgroup : d.flags.group = false)
    (layout : Layout) (v : Int) (natural : IntType)
    (hzero : ¬ (layout.precision = some 0 ∧ (d.intType natural).reinterpret v = 0)) :
    ∃ a cs b, ((integerField (w := w) config d layout.precision v natural).chunks layout).flatMap
        Chunk.text = spaces w a ++ (Text.ofAscii w cs ++ spaces w b) ∧
      SpellsInt d.conversion.radix cs ((d.intType natural).reinterpret v) := by
  obtain ⟨a, sign, hsign, hspells⟩ := sign_integerField d natural v
  set f : Field w := integerField config d layout.precision v natural with hf
  set x := (d.intType natural).reinterpret v with hx
  obtain ⟨k, hdigits⟩ := exists_zeros_integerDigits d layout.precision x.natAbs
    (by rwa [Int.natAbs_eq_zero])
  obtain ⟨left, z, right, htext, -⟩ := f.text_chunks layout
  have hhead : f.head = List.replicate a ' ' ++ sign ++ radixMark d x.natAbs := by
    rw [hf, integerField]
    exact congrArg (· ++ _) hsign
  have hbody : f.body = Text.ofAscii w (integerDigits d layout.precision x.natAbs) := by
    have hseparator : separatorFor config d = none := by
      rw [separatorFor, hgroup]
      rfl
    rw [hf, integerField, hseparator, ite_self]
    rfl
  -- A space in place of the sign is one more blank, and the zeros of the padding are digits.
  refine ⟨left + a, sign ++ (radixMark d x.natAbs ++
    (List.replicate (z + k) '0' ++ d.conversion.radix.writeNat d.upper x.natAbs)), right, ?_, ?_⟩
  · rw [htext, hhead, hbody, hdigits]
    simp only [spaces, Text.ofAscii_append, Text.ofAscii_replicate, List.replicate_add,
      List.append_assoc]
  · exact .of_natAbs hspells (spellsMark_radixMark d x.natAbs) d.upper (z + k)

/-! ## Text -/

/-- A field that is only text is that text between spaces. -/
theorem textField_text (text : Text w) (layout : Layout) :
    ∃ a b, ((⟨[], text, false⟩ : Field w).chunks layout).flatMap Chunk.text
      = spaces w a ++ (text ++ spaces w b) := by
  obtain ⟨a, z, b, htext, hz⟩ := (⟨[], text, false⟩ : Field w).text_chunks layout
  refine ⟨a, b, ?_⟩
  rw [htext, hz rfl, List.append_assoc, List.append_assoc]
  rfl

end FormatString
