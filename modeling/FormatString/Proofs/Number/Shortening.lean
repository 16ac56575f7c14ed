import Mathlib
import FormatString.Proofs.Number.NumberText

/-!
# Shortening a fraction

Shortening looks at single units and does not ask whether they make up a number. It splits the text
at the first mark of an exponent; if there is a point in front of the mark, it takes zeros away
there, from the end, and then the point if it has come to it.

With one point, the zeros it takes stand behind the point: it stops there at the latest, since a
point is no zero. So what is kept in front of the mark has no point, or it ends in a unit that is
neither a zero nor the point, and shortening it once more takes nothing. For the text of a number
that means that only zeros at the end of the fraction are lost, and these do not count.
-/

namespace FormatString

/-! ## Trailing elements -/

section Trailing

variable {α β : Type} {p : α → Bool} {q : β → Bool} {f : β → α} {xs ys : List α}

theorem dropTrailing_isPrefix (p : α → Bool) (xs : List α) : dropTrailing p xs <+: xs :=
  List.rdropWhile_prefix p xs

theorem dropTrailing_idempotent (p : α → Bool) (xs : List α) :
    dropTrailing p (dropTrailing p xs) = dropTrailing p xs :=
  List.rdropWhile_idempotent p xs

/-- Where something of the end is kept, so is all that stands in front of it. -/
theorem dropTrailing_append : dropTrailing p (xs ++ ys)
    = if dropTrailing p ys = [] then dropTrailing p xs else xs ++ dropTrailing p ys := by
  rw [dropTrailing, List.reverse_append, List.dropWhile_append]
  simp only [dropTrailing, List.reverse_eq_nil_iff, List.isEmpty_iff]
  split
  · rfl
  · rw [List.reverse_append, List.reverse_reverse]

/-- What is kept is nothing or ends in an element that has to be kept. -/
theorem exists_dropTrailing_eq (p : α → Bool) (xs : List α) : dropTrailing p xs = [] ∨
    ∃ front x, dropTrailing p xs = front ++ [x] ∧ p x = false := by
  by_cases hnil : dropTrailing p xs = []
  · exact .inl hnil
  · refine .inr ⟨_, _, (List.dropLast_append_getLast hnil).symm, ?_⟩
    exact Bool.eq_false_of_not_eq_true (List.rdropWhile_last_not p xs hnil)

theorem dropTrailing_map {xs : List β} (h : ∀ x ∈ xs, p (f x) = q x) :
    dropTrailing p (xs.map f) = (dropTrailing q xs).map f := by
  induction xs using List.reverseRecOn with
  | nil => rfl
  | append_singleton xs x ih =>
    obtain ⟨hxs, hx⟩ := List.forall_mem_append.mp h
    have hconcat {γ : Type} (r : γ → Bool) (zs : List γ) (z : γ) :
        dropTrailing r (zs ++ [z]) = if r z then dropTrailing r zs else zs ++ [z] :=
      List.rdropWhile_concat r zs z
    rw [List.map_append, List.map_singleton, hconcat, hconcat, hx x (List.mem_singleton_self x),
      ih hxs]
    split
    · rfl
    · rw [List.map_append, List.map_singleton]

/-- What is dropped are copies of the one element. -/
theorem exists_dropTrailing_append_replicate [DecidableEq α] (a : α) (xs : List α) :
    ∃ k, xs = dropTrailing (· == a) xs ++ List.replicate k a := by
  refine ⟨(xs.rtakeWhile (· == a)).length, ?_⟩
  have hall : ∀ x ∈ xs.rtakeWhile (· == a), x = a := fun x hx ↦
    beq_iff_eq.mp (List.mem_rtakeWhile_imp (p := (· == a)) hx)
  rw [← List.eq_replicate_of_mem hall]
  exact List.rdropWhile_append_rtakeWhile.symm

end Trailing

/-! ## The parts of a text -/

section Parts

variable {α : Type} (view : α → Option Char)

/-- The unit shows a mark that starts an exponent. -/
def showsMark (u : α) : Bool := view u == some 'e' || view u == some 'E'

/-- The text in front of the first mark. -/
def mantissaOf (text : List α) : List α := text.takeWhile (!showsMark view ·)

/-- The text from the first mark on. -/
def suffixOf (text : List α) : List α := text.dropWhile (!showsMark view ·)

/-- The number of points in front of the first mark. -/
def pointCount (text : List α) : Nat := (mantissaOf view text).countP (view · == some '.')

/-- The unit shows neither a mark nor a point. -/
def IsPlain (u : α) : Prop := showsMark view u = false ∧ view u ≠ some '.'

/-- A point and what is behind it; the point is left out if there is nothing. -/
def behindPoint (p : α) (fraction : List α) : List α :=
  if fraction = [] then [] else p :: fraction

/-- One point stands in front of the first mark. -/
structure OnePoint (whole : List α) (p : α) (fraction suffix : List α) : Prop where
  whole : ∀ u ∈ whole, IsPlain view u
  point : view p = some '.'
  fraction : ∀ u ∈ fraction, IsPlain view u
  suffix : ∀ u ∈ suffix.head?, showsMark view u

variable {view} {whole fraction suffix text : List α} {p : α}

theorem mantissaOf_append (hmantissa : ∀ u ∈ text, showsMark view u = false)
    (hsuffix : ∀ u ∈ suffix.head?, showsMark view u) :
    mantissaOf view (text ++ suffix) = text ∧ suffixOf view (text ++ suffix) = suffix := by
  have hall : ∀ u ∈ text, !showsMark view u := fun u hu ↦ by rw [hmantissa u hu, Bool.not_false]
  rw [mantissaOf, suffixOf, List.takeWhile_append_of_pos hall, List.dropWhile_append_of_pos hall]
  cases suffix with
  | nil => simp
  | cons u rest =>
    have hu : showsMark view u = true := hsuffix u rfl
    simp [hu]

theorem showsMark_head?_suffixOf : ∀ u ∈ (suffixOf view text).head?, showsMark view u := by
  intro u hu
  have hnot := List.head?_dropWhile_not (!showsMark view ·) text
  rw [← suffixOf] at hnot
  rw [Option.mem_def.mp hu] at hnot
  simpa using hnot

theorem dropFractionZeros_eq_mantissaOf : dropFractionZeros view text
    = (if (mantissaOf view text).any (view · == some '.') then
        let kept := dropTrailing (view · == some '0') (mantissaOf view text)
        match kept.getLast? with
        | some u => if view u == some '.' then kept.dropLast else kept
        | none => kept
      else mantissaOf view text) ++ suffixOf view text := rfl

/-- Without a point in front of the mark, nothing is changed. -/
theorem dropFractionZeros_of_pointCount_eq_zero (h : pointCount view text = 0) :
    dropFractionZeros view text = text := by
  have hany : (mantissaOf view text).any (view · == some '.') = false :=
    List.any_eq_false.mpr (List.countP_eq_zero.mp h)
  rw [dropFractionZeros_eq_mantissaOf, hany, if_neg Bool.false_ne_true]
  exact List.takeWhile_append_dropWhile

/-- A text has no point in front of the mark, more than one, or it is taken apart at its one
point. -/
theorem exists_onePoint (h : pointCount view text ≤ 1) : pointCount view text = 0 ∨
    ∃ whole p fraction, text = whole ++ p :: fraction ++ suffixOf view text ∧
      OnePoint view whole p fraction (suffixOf view text) := by
  by_cases hzero : pointCount view text = 0
  · exact .inl hzero
  obtain ⟨p, hmem, hp⟩ := List.countP_pos_iff.mp (Nat.pos_of_ne_zero hzero)
  obtain ⟨whole, fraction, hsplit⟩ := List.append_of_mem hmem
  have hcount := h
  rw [pointCount, hsplit, List.countP_append,
    List.countP_cons_of_pos (p := (view · == some '.')) hp] at hcount
  have hplain {part : List α} (hpart : part ⊆ mantissaOf view text)
      (hnone : part.countP (view · == some '.') = 0) : ∀ u ∈ part, IsPlain view u := by
    refine fun u hu ↦ ⟨by simpa using List.mem_takeWhile_imp (hpart hu), fun hpoint ↦ ?_⟩
    exact List.countP_eq_zero.mp hnone u hu (beq_iff_eq.mpr hpoint)
  refine .inr ⟨whole, p, fraction, ?_, ?_, beq_iff_eq.mp hp, ?_, showsMark_head?_suffixOf⟩
  · rw [← hsplit]
    exact List.takeWhile_append_dropWhile.symm
  · exact hplain (hsplit ▸ List.subset_append_left _ _) (by omega)
  · refine hplain (hsplit ▸ ?_) (by omega)
    exact List.subset_append_of_subset_right _ (List.subset_cons_self _ _)

namespace OnePoint

variable (h : OnePoint view whole p fraction suffix)
include h

theorem mantissaOf_eq :
    mantissaOf view (whole ++ p :: fraction ++ suffix) = whole ++ p :: fraction ∧
      suffixOf view (whole ++ p :: fraction ++ suffix) = suffix := by
  refine mantissaOf_append (List.forall_mem_append.mpr ⟨fun u hu ↦ (h.whole u hu).1,
    List.forall_mem_cons.mpr ⟨?_, fun u hu ↦ (h.fraction u hu).1⟩⟩) h.suffix
  rw [showsMark, h.point]
  rfl

/-- **The zeros taken away stand behind the point**, and the point goes with the last unit there. -/
theorem dropFractionZeros_eq : dropFractionZeros view (whole ++ p :: fraction ++ suffix)
    = whole ++ behindPoint p (dropTrailing (view · == some '0') fraction) ++ suffix := by
  have hpoint : (view p == some '.') = true := beq_iff_eq.mpr h.point
  have hzero : (view p == some '0') = false := by
    rw [h.point]
    rfl
  have hany : (whole ++ p :: fraction).any (view · == some '.') := by
    rw [List.any_append, List.any_cons, hpoint, Bool.true_or, Bool.or_true]
  obtain ⟨hmantissa, hsuffix⟩ := h.mantissaOf_eq
  rw [dropFractionZeros_eq_mantissaOf, hmantissa, hsuffix, if_pos hany, ← List.singleton_append,
    ← List.append_assoc, dropTrailing_append]
  refine congrArg (· ++ suffix) ?_
  obtain hnil | ⟨front, u, hlast, -⟩ := exists_dropTrailing_eq (view · == some '0') fraction
  · rw [if_pos hnil, dropTrailing_append_singleton (p := (view · == some '0')) hzero, hnil]
    dsimp only
    rw [List.getLast?_concat]
    dsimp only
    rw [if_pos hpoint, List.dropLast_concat, behindPoint, if_pos rfl, List.append_nil]
  · -- The last unit kept is one of the fraction, so it is no point.
    have hmem : u ∈ fraction :=
      (dropTrailing_isPrefix (view · == some '0') fraction).subset (by rw [hlast]; simp)
    have hne : (view u == some '.') = false := beq_eq_false_iff_ne.mpr (h.fraction u hmem).2
    rw [hlast, if_neg (by simp), ← List.append_assoc]
    dsimp only
    rw [List.getLast?_concat]
    dsimp only
    rw [hne, if_neg Bool.false_ne_true, behindPoint, if_neg (by simp)]
    simp

/-- The shortened fraction is still one behind the only point. -/
theorem shortened :
    OnePoint view whole p (dropTrailing (view · == some '0') fraction) suffix where
  whole := h.whole
  point := h.point
  fraction u hu := h.fraction u ((dropTrailing_isPrefix _ fraction).subset hu)
  suffix := h.suffix

/-- Shortening twice is shortening once. -/
theorem dropFractionZeros_idempotent :
    let text := whole ++ p :: fraction ++ suffix
    dropFractionZeros view (dropFractionZeros view text) = dropFractionZeros view text := by
  intro text
  rw [h.dropFractionZeros_eq]
  by_cases hne : dropTrailing (view · == some '0') fraction = []
  · rw [behindPoint, if_pos hne, List.append_nil]
    obtain ⟨hmantissa, -⟩ := mantissaOf_append (fun u hu ↦ (h.whole u hu).1) h.suffix
    refine dropFractionZeros_of_pointCount_eq_zero ?_
    rw [pointCount, hmantissa]
    exact List.countP_eq_zero.mpr fun u hu hpoint ↦ (h.whole u hu).2 (beq_iff_eq.mp hpoint)
  · rw [behindPoint, if_neg hne, h.shortened.dropFractionZeros_eq, dropTrailing_idempotent,
      behindPoint, if_neg hne]

end OnePoint

end Parts

/-! ## Numbers -/

/-- The sign of a number, which a positive one has none of. -/
def signText (negative : Bool) : List Char := if negative then ['-'] else []

section Units

variable {w : Width} {c : Char} {ds : List Nat} {negative : Bool}

theorem isPlain_ofAscii (hc : c.toNat < 0x80) :
    IsPlain CodeUnit.ascii? (.ofAscii w c) ↔ Decimal.isMark c = false ∧ c ≠ '.' := by
  rw [IsPlain, showsMark, CodeUnit.ascii?_ofAscii hc, Ne, Option.some_inj]
  rfl

/-- A sign and digits are no marks and no points. -/
theorem isPlain_signed_digits (negative : Bool) (hds : ∀ d ∈ ds, d < 10) :
    ∀ u ∈ Text.ofAscii w (signText negative ++ spellDigits ds), IsPlain CodeUnit.ascii? u := by
  have hdigit : ∀ d < 10, (Nat.digitChar d).toNat < 0x80 ∧
      Decimal.isMark (Nat.digitChar d) = false ∧ Nat.digitChar d ≠ '.' := by decide
  have hsign : ∀ c ∈ signText negative, c.toNat < 0x80 ∧ Decimal.isMark c = false ∧ c ≠ '.' := by
    intro c hc
    rw [signText] at hc
    split at hc
    · rw [List.mem_singleton.mp hc]
      decide
    · exact absurd hc List.not_mem_nil
  refine List.forall_mem_map.mpr (List.forall_mem_append.mpr
    ⟨fun c hc ↦ (isPlain_ofAscii (hsign c hc).1).mpr (hsign c hc).2, ?_⟩)
  exact List.forall_mem_map.mpr fun d hd ↦
    (isPlain_ofAscii (hdigit d (hds d hd)).1).mpr (hdigit d (hds d hd)).2

/-- The zeros among the units of digits are the zeros among the digits. -/
theorem dropTrailing_spellDigits (hds : ∀ d ∈ ds, d < 10) :
    dropTrailing (CodeUnit.ascii? · == some '0') (Text.ofAscii w (spellDigits ds))
      = Text.ofAscii w (spellDigits (dropTrailing (· == 0) ds)) := by
  have hdigit : ∀ d < 10, (Nat.digitChar d).toNat < 0x80 ∧
      (some (Nat.digitChar d) == some '0') = (d == 0) := by decide
  rw [Text.ofAscii, spellDigits, List.map_map, Text.ofAscii, spellDigits, List.map_map]
  refine dropTrailing_map fun d hd ↦ ?_
  rw [Function.comp_apply, CodeUnit.ascii?_ofAscii (hdigit d (hds d hd)).1]
  exact (hdigit d (hds d hd)).2

theorem showsMark_head?_exponent {t : NumberText} (h : t.WellFormed) :
    ∀ u ∈ (Text.ofAscii w ((t.exponent.map ExponentText.text).getD [])).head?,
      showsMark CodeUnit.ascii? u := by
  cases hexponent : t.exponent with
  | none => exact fun u hu ↦ by cases hu
  | some e =>
    rintro u ⟨⟩
    obtain hmark | hmark := (h.exponent e hexponent).mark
    · rw [hmark, showsMark, CodeUnit.ascii?_ofAscii (by decide)]
      rfl
    · rw [hmark, showsMark, CodeUnit.ascii?_ofAscii (by decide)]
      rfl

end Units

namespace NumberText

variable {w : Width} {t : NumberText}

/-- The zeros taken away do not count. -/
theorem shortened_value (t : NumberText) : t.shortened.value = t.value := by
  obtain ⟨k, hk⟩ := exists_dropTrailing_append_replicate 0 t.fraction
  have hten : (10 : ℚ) ≠ 0 := by norm_num
  have hdigits (ds : List Nat) : Nat.ofDigits 10 ds.reverse = valueOf .decimal ds :=
    (valueOf_eq_ofDigits .decimal ds).symm
  have hexponent : t.shortened.exponentValue = t.exponentValue := rfl
  have hfraction : t.fraction = t.shortened.fraction ++ List.replicate k 0 := hk
  have hwhole : t.whole = t.shortened.whole := rfl
  rw [value, value, hdigits, hdigits, hexponent, hfraction, hwhole, ← List.append_assoc,
    valueOf_append_replicate_zero, List.length_append, List.length_replicate, Nat.cast_mul,
    Nat.cast_pow, mul_assoc, ← zpow_natCast]
  change _ = _ * ((10 : ℚ) ^ (k : Int) * _)
  rw [← zpow_add₀ hten]
  congr 2
  push_cast
  ring

/-- A point that is kept has a digit behind it that counts. -/
theorem exists_last_of_shortened_point (h : t.shortened.point) :
    ∃ front d, t.shortened.fraction = front ++ [d] ∧ d ≠ 0 := by
  obtain hnil | ⟨front, d, hlast, hd⟩ := exists_dropTrailing_eq (· == 0) t.fraction
  · have hpoint : (!(dropTrailing (· == 0) t.fraction).isEmpty) = true := h
    rw [hnil] at hpoint
    exact absurd hpoint (by decide)
  · exact ⟨front, d, hlast, ne_of_beq_false hd⟩

theorem WellFormed.fraction_eq_nil (h : t.WellFormed) (hpoint : t.point = false) :
    t.fraction = [] := by
  by_contra hne
  exact absurd (h.point hne) (ne_true_of_eq_false hpoint)

theorem WellFormed.shortened_eq_self (h : t.WellFormed) (hpoint : t.point = false) :
    t.shortened = t := by
  obtain ⟨whole, point, fraction, exponent⟩ := t
  obtain rfl : fraction = [] := h.fraction_eq_nil hpoint
  obtain rfl : point = false := hpoint
  rfl

/-- **The units of a number are shortened to those of the shortened number**, with the same
sign. -/
theorem WellFormed.dropFractionZeros_signed (h : t.WellFormed) (negative : Bool) :
    dropFractionZeros CodeUnit.ascii? (Text.ofAscii w (signText negative ++ t.text))
      = Text.ofAscii w (signText negative ++ t.shortened.text) := by
  obtain ⟨hwhole, hfraction⟩ := List.forall_mem_append.mp h.lt
  have hplain := isPlain_signed_digits (w := w) negative hwhole
  have hsuffix := showsMark_head?_exponent (w := w) h
  cases hpoint : t.point with
  | false =>
    have htext : Text.ofAscii w (signText negative ++ t.text) =
        Text.ofAscii w (signText negative ++ spellDigits t.whole) ++
          Text.ofAscii w ((t.exponent.map ExponentText.text).getD []) := by
      rw [text, hpoint, h.fraction_eq_nil hpoint, ← Text.ofAscii_append]
      simp [spellDigits]
    obtain ⟨hmantissa, -⟩ := mantissaOf_append (fun u hu ↦ (hplain u hu).1) hsuffix
    rw [h.shortened_eq_self hpoint, htext]
    refine dropFractionZeros_of_pointCount_eq_zero ?_
    rw [pointCount, hmantissa]
    exact List.countP_eq_zero.mpr fun u hu hp ↦ (hplain u hu).2 (beq_iff_eq.mp hp)
  | true =>
    have hbehind {fraction : List Nat} :
        Text.ofAscii w ((if !fraction.isEmpty then ['.'] else []) ++ spellDigits fraction)
          = behindPoint (CodeUnit.ofAscii w '.') (Text.ofAscii w (spellDigits fraction)) := by
      cases fraction <;> rfl
    have hparts : OnePoint CodeUnit.ascii?
        (Text.ofAscii w (signText negative ++ spellDigits t.whole)) (CodeUnit.ofAscii w '.')
        (Text.ofAscii w (spellDigits t.fraction))
        (Text.ofAscii w ((t.exponent.map ExponentText.text).getD [])) :=
      ⟨hplain, CodeUnit.ascii?_ofAscii (by decide), isPlain_signed_digits false hfraction, hsuffix⟩
    have htext : Text.ofAscii w (signText negative ++ t.text) =
        Text.ofAscii w (signText negative ++ spellDigits t.whole) ++ CodeUnit.ofAscii w '.' ::
          Text.ofAscii w (spellDigits t.fraction) ++
          Text.ofAscii w ((t.exponent.map ExponentText.text).getD []) := by
      rw [text, hpoint, if_pos rfl]
      simp [Text.ofAscii]
    rw [htext, hparts.dropFractionZeros_eq, dropTrailing_spellDigits hfraction, ← hbehind, text,
      NumberText.shortened]
    simp

end NumberText

/-! ## Every text -/

/-- What is kept of a mantissa: all that stands in front of the point, and no more of the rest than
ends in a unit that is neither a zero nor the point. -/
structure IsShortest {α : Type} (view : α → Option Char) (mantissa kept : List α) : Prop where
  kept_isPrefix : kept <+: mantissa
  whole_isPrefix : mantissa.takeWhile (view · != some '.') <+: kept
  last : (∀ u ∈ kept, view u ≠ some '.') ∨
    ∃ front u, kept = front ++ [u] ∧ view u ≠ some '0' ∧ view u ≠ some '.'

section Shortest

variable {α : Type} {view : α → Option Char} {whole fraction suffix text : List α} {p : α}

theorem OnePoint.isShortest (h : OnePoint view whole p fraction suffix) :
    IsShortest view (whole ++ p :: fraction)
      (whole ++ behindPoint p (dropTrailing (view · == some '0') fraction)) := by
  have htake : (whole ++ p :: fraction).takeWhile (view · != some '.') = whole := by
    have hall : ∀ u ∈ whole, view u != some '.' := fun u hu ↦ bne_iff_ne.mpr (h.whole u hu).2
    rw [List.takeWhile_append_of_pos hall, List.takeWhile_cons_of_neg (by simp [h.point]),
      List.append_nil]
  have hfront := dropTrailing_isPrefix (view · == some '0') fraction
  obtain hnil | ⟨front, u, hlast, hu⟩ := exists_dropTrailing_eq (view · == some '0') fraction
  · rw [behindPoint, if_pos hnil, List.append_nil]
    refine ⟨List.prefix_append _ _, ?_, .inl fun u hu ↦ (h.whole u hu).2⟩
    rw [htake]
  · rw [hlast] at hfront ⊢
    rw [behindPoint, if_neg (by simp)]
    refine ⟨?_, ?_, .inr ⟨whole ++ p :: front, u, ?_, ?_, ?_⟩⟩
    · exact (List.prefix_append_right_inj _).mpr (List.cons_prefix_cons.mpr ⟨rfl, hfront⟩)
    · rw [htake]
      exact List.prefix_append _ _
    · rw [List.append_assoc, List.cons_append]
    · exact beq_eq_false_iff_ne.mp hu
    · exact (h.fraction u (hfront.subset (by simp))).2

/-- The exponent is kept as it is, and of the mantissa what is needed. -/
theorem exists_isShortest (h : pointCount view text ≤ 1) :
    ∃ kept, dropFractionZeros view text = kept ++ suffixOf view text ∧
      IsShortest view (mantissaOf view text) kept := by
  obtain hzero | ⟨whole, p, fraction, htext, hparts⟩ := exists_onePoint h
  · refine ⟨mantissaOf view text, ?_, List.prefix_refl _, List.takeWhile_prefix _, .inl ?_⟩
    · rw [dropFractionZeros_of_pointCount_eq_zero hzero]
      exact List.takeWhile_append_dropWhile.symm
    · exact fun u hu hp ↦ List.countP_eq_zero.mp hzero u hu (beq_iff_eq.mpr hp)
  · have hmantissa := hparts.mantissaOf_eq.1
    have hdrop := hparts.dropFractionZeros_eq
    rw [← htext] at hmantissa hdrop
    exact ⟨_, hdrop, hmantissa ▸ hparts.isShortest⟩

theorem dropFractionZeros_idempotent (h : pointCount view text ≤ 1) :
    dropFractionZeros view (dropFractionZeros view text) = dropFractionZeros view text := by
  obtain hzero | ⟨whole, p, fraction, htext, hparts⟩ := exists_onePoint h
  · rw [dropFractionZeros_of_pointCount_eq_zero hzero,
      dropFractionZeros_of_pointCount_eq_zero hzero]
  · rw [htext]
    exact hparts.dropFractionZeros_idempotent

end Shortest

/-- **Shortening leaves the shortest text of the same number.** Whatever the units are, as long as
there is one point at most in front of the mark: shortening twice is shortening once, all behind
the mark is kept, and what is kept in front of it has no point or does not end in a zero; without a
point nothing is changed. A number keeps its sign, the digits in front of the point, its exponent
and its value, and if it still has a point, the last digit behind it is not zero. -/
theorem dropFractionZeros_shortens (w : Width) :
    (∀ text : Text w, pointCount CodeUnit.ascii? text ≤ 1 →
      dropFractionZeros CodeUnit.ascii? (dropFractionZeros CodeUnit.ascii? text)
          = dropFractionZeros CodeUnit.ascii? text ∧
        ∃ kept, dropFractionZeros CodeUnit.ascii? text = kept ++ suffixOf CodeUnit.ascii? text ∧
          IsShortest CodeUnit.ascii? (mantissaOf CodeUnit.ascii? text) kept) ∧
    (∀ text : Text w, pointCount CodeUnit.ascii? text = 0 →
      dropFractionZeros CodeUnit.ascii? text = text) ∧
    (∀ (negative : Bool) (t : NumberText), t.WellFormed → ∃ t' : NumberText,
      dropFractionZeros CodeUnit.ascii? (Text.ofAscii w (signText negative ++ t.text))
          = Text.ofAscii w (signText negative ++ t'.text) ∧
        t'.WellFormed ∧ t'.whole = t.whole ∧ t'.exponent = t.exponent ∧ t'.value = t.value ∧
        (t'.point → ∃ front d, t'.fraction = front ++ [d] ∧ d ≠ 0) ∧
        (t.point = false → t' = t)) := by
  refine ⟨fun text h ↦ ⟨dropFractionZeros_idempotent h, exists_isShortest h⟩,
    fun text h ↦ dropFractionZeros_of_pointCount_eq_zero h, fun negative t h ↦ ?_⟩
  exact ⟨t.shortened, h.dropFractionZeros_signed negative, h.shortened, rfl, rfl,
    t.shortened_value, NumberText.exists_last_of_shortened_point, h.shortened_eq_self⟩

/-- The zeros in front of the mark go, and those of the exponent stay. -/
theorem dropFractionZeros_shortens_scientific :
    let t : NumberText := ⟨[1, 0], true, [2, 5, 0, 0], some ⟨'e', ['+'], [1, 0]⟩⟩
    let text := Text.ofAscii .utf16 "-10.2500e+10".toList
    let short := Text.ofAscii .utf16 "-10.25e+10".toList
    t.WellFormed ∧ pointCount CodeUnit.ascii? text ≤ 1 ∧
      dropFractionZeros CodeUnit.ascii? text = short ∧
      dropFractionZeros CodeUnit.ascii? short = short ∧
      ∃ t' : NumberText, short = Text.ofAscii .utf16 (signText true ++ t'.text) ∧
        t'.value = t.value := by
  intro t text short
  have hexponent : (⟨'e', ['+'], [1, 0]⟩ : ExponentText).WellFormed :=
    ⟨by decide, by decide, by decide, by decide⟩
  have ht : t.WellFormed := ⟨by decide, by decide, fun _ ↦ rfl, by rintro e ⟨⟩; exact hexponent⟩
  have hcount : pointCount CodeUnit.ascii? text ≤ 1 := by decide +kernel
  have hshort : dropFractionZeros CodeUnit.ascii? text = short := by decide +kernel
  obtain ⟨hall, -, hnumber⟩ := dropFractionZeros_shortens .utf16
  have htwice := (hall text hcount).1
  rw [hshort] at htwice
  obtain ⟨t', htext, -, -, -, hvalue, -⟩ := hnumber true t ht
  exact ⟨ht, hcount, hshort, htwice, t', hshort.symm.trans htext, hvalue⟩

end FormatString
