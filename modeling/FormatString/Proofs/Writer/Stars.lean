import Mathlib
import FormatString.Proofs.Directive.Spelling
import FormatString.Proofs.Number.WrittenInt
import FormatString.Proofs.RoundTrip
import FormatString.Proofs.Writer.Locality
import FormatString.Proofs.Writer.Split

/-!
# Stars and numbers

A `*` in a directive stands for a number that comes with the arguments. The directive with the
number in its place does the same on the arguments without it. What is written in place of a star
is spelled the way a format string spells it: there are no negative numbers in one, so a negative
width is a flag and a number, and a width of zero and a negative precision are nothing at all.

The format strings and the lists of arguments have different lengths, so what comes behind the
directive does not stand at the same place. `Outcome.Alike` leaves out the places.
-/

namespace FormatString

variable {w : Width}

/-! ## Numbers in place of stars -/

/-- A number in decimal digits. -/
def decimalText (n : Nat) : List Char := Radix.decimal.writeNat false n

namespace Parts

/-- The parts with a width in place of the star: with a `-` among the flags if it is negative, and
without a width if it is zero. -/
def unstarWidth (p : Parts) (v : Int) : Parts :=
  if p.width = ['*'] then
    { p with
      flags := if v < 0 then p.flags ++ ['-'] else p.flags
      width := if v = 0 then [] else decimalText v.natAbs }
  else p

/-- The parts with a precision in place of the star, which is left out if it is negative. -/
def unstarPrecision (p : Parts) (v : Int) : Parts :=
  if p.precision = ['.', '*'] then
    { p with precision := if 0 ≤ v then '.' :: decimalText v.natAbs else [] }
  else p

/-- The parts with numbers in place of the stars. -/
def unstarred (p : Parts) (width precision : Option Int) : Parts :=
  (p.unstarWidth (width.getD 0)).unstarPrecision (precision.getD 0)

end Parts

namespace Directive

/-- What the parts with a width in place of the star spell. -/
def unstarWidth (d : Directive) (v : Int) : Directive :=
  if d.width = some (.argument none) then
    { d with
      flags := { d.flags with left := d.flags.left || v < 0 }
      width := if v = 0 then none else some (.literal v.natAbs) }
  else d

def unstarPrecision (d : Directive) (v : Int) : Directive :=
  if d.precision = some (.argument none) then
    { d with precision := if 0 ≤ v then some (.literal v.natAbs) else none }
  else d

/-- What the parts with numbers in place of the stars spell. -/
def unstarred (d : Directive) (width precision : Option Int) : Directive :=
  (d.unstarWidth (width.getD 0)).unstarPrecision (precision.getD 0)

end Directive

/-! ## Spelling -/

section Spelling

variable {dialect : Dialect} {cs : List Char} {n : Nat}

theorem numeral_decimalText (h : n ≤ numberLimit) : Numeral (decimalText n) n where
  ne_nil := Radix.writeNat_ne_nil false n
  digits := Radix.isDigit_writeNat false n
  value := Radix.valueOf_zeros_writeNat false 0 n
  le := h

/-- Only zero starts with a zero, which a format string would take for a flag. -/
theorem head?_decimalText (hn : n ≠ 0) : (decimalText n).head? ≠ some '0' := by
  obtain ⟨c, tail, htext, hc⟩ := Radix.decimal.exists_cons_writeNat false hn
  rw [decimalText, htext]
  exact fun h ↦ hc (Option.some.inj h)

theorem FlagRun.among {flags : Flags} (h : FlagRun dialect cs flags) (hdialect : dialect ≠ .scan) :
    (∀ c ∈ cs, c ∈ flagLetters) ∧ flags = flagsAmong cs := by
  cases h with
  | writer _ hcs => exact ⟨hcs, rfl⟩
  | absent => exact absurd rfl hdialect
  | suppress => exact absurd rfl hdialect

theorem flagsAmong_append_minus (cs : List Char) :
    flagsAmong (cs ++ ['-']) = { flagsAmong cs with left := true } := by
  simp [flagsAmong]

/-- A lone star is the only way to ask for the next argument. -/
theorem SpellsAmount.eq_star_iff {amount : Option Amount} (h : SpellsAmount .print cs amount) :
    cs = ['*'] ↔ amount = some (.argument none) := by
  cases h with
  | absent => simp
  | star h =>
    cases h with
    | next => simp
  | literal h =>
    refine iff_of_false ?_ (by simp)
    rintro rfl
    exact absurd (h.digits '*' List.mem_cons_self) (by decide)

theorem SpellsWidth.eq_star_iff {width : Option Amount} (h : SpellsWidth .print cs width) :
    cs = ['*'] ↔ width = some (.argument none) := by
  cases h with
  | writer _ _ h => exact h.eq_star_iff

theorem SpellsPrecision.eq_star_iff {precision : Option Amount}
    (h : SpellsPrecision .print cs precision) :
    cs = ['.', '*'] ↔ precision = some (.argument none) := by
  cases h with
  | absent => simp
  | @point cs amount _ h =>
    rw [List.cons_inj_right, h.eq_star_iff]
    cases amount <;> simp

end Spelling

namespace Parts.Spell

variable {p : Parts} {d : Directive} {v : Int}

theorem unstarWidth (h : p.Spell .print d)
    (hv : d.width = some (.argument none) → v.natAbs ≤ numberLimit) :
    (p.unstarWidth v).Spell .print (d.unstarWidth v) := by
  rw [Parts.unstarWidth, Directive.unstarWidth]
  by_cases hstar : d.width = some (.argument none)
  · rw [if_pos (h.width.eq_star_iff.mpr hstar), if_pos hstar]
    refine { h with flags := ?_, width := ?_ }
    · obtain ⟨hcs, hflags⟩ := h.flags.among (by decide)
      dsimp only
      split
      · next hneg =>
        rw [hflags, decide_eq_true hneg, Bool.or_true, ← flagsAmong_append_minus]
        refine .writer (by decide) (List.forall_mem_append.mpr ⟨hcs, ?_⟩)
        exact List.forall_mem_singleton.mpr (by decide)
      · next hneg =>
        rw [decide_eq_false hneg, Bool.or_false]
        exact h.flags
    · dsimp only
      split
      · exact .writer (by decide) (by simp) .absent
      · next hzero =>
        exact .writer (by decide) (head?_decimalText (Int.natAbs_ne_zero.mpr hzero))
          (.literal (numeral_decimalText (hv hstar)))
  · rwa [if_neg (mt h.width.eq_star_iff.mp hstar), if_neg hstar]

theorem unstarPrecision (h : p.Spell .print d)
    (hv : d.precision = some (.argument none) → 0 ≤ v → v.natAbs ≤ numberLimit) :
    (p.unstarPrecision v).Spell .print (d.unstarPrecision v) := by
  rw [Parts.unstarPrecision, Directive.unstarPrecision]
  by_cases hstar : d.precision = some (.argument none)
  · rw [if_pos (h.precision.eq_star_iff.mpr hstar), if_pos hstar]
    refine { h with precision := ?_ }
    dsimp only
    split
    · next hnonneg => exact .point (by decide) (.literal (numeral_decimalText (hv hstar hnonneg)))
    · exact .absent
  · rwa [if_neg (mt h.precision.eq_star_iff.mp hstar), if_neg hstar]

end Parts.Spell

/-! ## Taken amounts -/

namespace Takes

variable {d : Directive} {amount : Option Amount} {args : List Arg} {v width precision : Option Int}

/-- The next argument is taken as a signed number of 32 bits. -/
theorem exists_int32 (h : Takes (some (.argument none)) args v) :
    ∃ n, v = some n ∧ IntType.int32.min ≤ n ∧ n ≤ IntType.int32.max := by
  cases h with
  | @next _ n _ _ => exact ⟨_, rfl, IntType.int32.reinterpret_mem n⟩

/-- Without a star no argument is taken. -/
theorem args_eq_nil (h : Takes amount args v) (hamount : amount ≠ some (.argument none)) :
    args = [] := by
  cases h with
  | absent => rfl
  | literal => rfl
  | next => exact absurd rfl hamount

/-- With a number in place of the star no argument is taken for the width, and the layout is the
same. -/
theorem unstarWidth (h : Takes d.width args width) :
    ∃ width', Takes (d.unstarWidth (width.getD 0)).width [] width' ∧
      ∀ precision, Layout.of (d.unstarWidth (width.getD 0)) width' precision
        = .of d width precision := by
  rw [Directive.unstarWidth]
  by_cases hstar : d.width = some (.argument none)
  · rw [if_pos hstar]
    rw [hstar] at h
    obtain ⟨v, rfl, -⟩ := h.exists_int32
    by_cases hzero : v = 0
    · subst hzero
      exact ⟨none, .absent, fun precision ↦ by simp [Layout.of]⟩
    · rw [Option.getD_some, if_neg hzero]
      exact ⟨_, .literal v.natAbs, fun precision ↦ by simp [Layout.of, Int.natAbs_abs]⟩
  · obtain rfl := h.args_eq_nil hstar
    rw [if_neg hstar]
    exact ⟨width, h, fun _ ↦ rfl⟩

theorem unstarPrecision (h : Takes d.precision args precision) :
    ∃ precision', Takes (d.unstarPrecision (precision.getD 0)).precision [] precision' ∧
      ∀ width, Layout.of (d.unstarPrecision (precision.getD 0)) width precision'
        = .of d width precision := by
  rw [Directive.unstarPrecision]
  by_cases hstar : d.precision = some (.argument none)
  · rw [if_pos hstar]
    rw [hstar] at h
    obtain ⟨v, rfl, -⟩ := h.exists_int32
    by_cases hneg : 0 ≤ v
    · obtain ⟨n, rfl⟩ := Int.eq_ofNat_of_zero_le hneg
      rw [Option.getD_some, if_pos hneg]
      exact ⟨_, .literal n, fun width ↦ rfl⟩
    · rw [Option.getD_some, if_neg hneg]
      exact ⟨none, .absent, fun width ↦ by simp [Layout.of, hneg]⟩
  · obtain rfl := h.args_eq_nil hstar
    rw [if_neg hstar]
    exact ⟨precision, h, fun _ ↦ rfl⟩

end Takes

@[simp] theorem Directive.precision_unstarWidth (d : Directive) (v : Int) :
    (d.unstarWidth v).precision = d.precision := by
  rw [unstarWidth]
  split <;> rfl

@[simp] theorem Directive.width_unstarPrecision (d : Directive) (v : Int) :
    (d.unstarPrecision v).width = d.width := by
  rw [unstarPrecision]
  split <;> rfl

section Unstarred

variable {d : Directive} {widthArgs precisionArgs : List Arg} {width precision : Option Int}
  (hwidth : Takes d.width widthArgs width) (hprecision : Takes d.precision precisionArgs precision)

include hwidth hprecision

/-- The parts spell the directive with numbers in place of the stars. The width `-2 ^ 31` is left
out: no format string says `2 ^ 31`. -/
theorem Parts.Spell.unstarred {p : Parts} (h : p.Spell .print d) (hmin : width ≠ some (-2 ^ 31)) :
    (p.unstarred width precision).Spell .print (d.unstarred width precision) := by
  have hmax : IntType.int32.max = numberLimit := rfl
  refine (h.unstarWidth fun hstar ↦ ?_).unstarPrecision fun hstar hnonneg ↦ ?_
  · rw [hstar] at hwidth
    obtain ⟨v, rfl, hlow, hhigh⟩ := hwidth.exists_int32
    have hlow : -2 ^ 31 ≤ v := hlow
    have hne : v ≠ -2 ^ 31 := fun hv ↦ hmin (congrArg some hv)
    rw [Option.getD_some]
    rw [hmax] at hhigh
    rw [numberLimit] at hhigh ⊢
    omega
  · rw [Directive.precision_unstarWidth] at hstar
    rw [hstar] at hprecision
    obtain ⟨v, rfl, -, hhigh⟩ := hprecision.exists_int32
    rw [Option.getD_some] at hnonneg ⊢
    omega

/-- With numbers in place of the stars no argument is taken for them, and the layout is the same. -/
theorem Takes.unstarred :
    ∃ width' precision', Takes (d.unstarred width precision).width [] width' ∧
      Takes (d.unstarred width precision).precision [] precision' ∧
      Layout.of (d.unstarred width precision) width' precision' = .of d width precision := by
  obtain ⟨width', hwidth', hlayout⟩ := hwidth.unstarWidth
  rw [← d.precision_unstarWidth (width.getD 0)] at hprecision
  obtain ⟨precision', hprecision', hlayout'⟩ := hprecision.unstarPrecision
  refine ⟨width', precision', ?_, hprecision', (hlayout' width').trans (hlayout precision)⟩
  rwa [Directive.unstarred, Directive.width_unstarPrecision]

end Unstarred

/-! ## Rendering -/

namespace Directive

variable {d : Directive} {width precision : Option Int} {widthArgs precisionArgs : List Arg}

/-- Width and precision are in the layout, and nothing else is read off the directive that stars
have to do with. -/
theorem renderValue_unstarred (d : Directive) (width precision : Option Int) (config : Config)
    (layout : Layout) (written : Nat) :
    (d.unstarred width precision).renderValue (w := w) config layout written
      = d.renderValue config layout written := by
  have hwidth (d : Directive) (v : Int) :
      (d.unstarWidth v).renderValue (w := w) config layout written
        = d.renderValue config layout written := by
    rw [unstarWidth]
    split <;> rfl
  have hprecision (d : Directive) (v : Int) :
      (d.unstarPrecision v).renderValue (w := w) config layout written
        = d.renderValue config layout written := by
    rw [unstarPrecision]
    split <;> rfl
  rw [unstarred, hprecision, hwidth]

/-- The directive does the same as with numbers in place of its stars, and behind the arguments for
these the same arguments are left. -/
theorem render_unstarred (hwidth : Takes d.width widthArgs width)
    (hprecision : Takes d.precision precisionArgs precision) (config : Config)
    (written n n' : Nat) (back : List Arg) :
    ∃ result m m' left,
      d.render (w := w) config written (.sequential ⟨n, widthArgs ++ (precisionArgs ++ back)⟩)
          = ⟨result, .sequential ⟨m, left⟩⟩ ∧
        (d.unstarred width precision).render config written (.sequential ⟨n', back⟩)
          = ⟨result, .sequential ⟨m', left⟩⟩ := by
  obtain ⟨width', precision', hwidth', hprecision', hlayout⟩ := hwidth.unstarred hprecision
  obtain ⟨k₁, hk₁⟩ := hwidth.takeAmount n (precisionArgs ++ back)
  obtain ⟨k₂, hk₂⟩ := hprecision.takeAmount k₁ back
  obtain ⟨j₁, hj₁⟩ := hwidth'.takeAmount n' back
  obtain ⟨j₂, hj₂⟩ := hprecision'.takeAmount j₁ back
  obtain ⟨m, m', left, hsource, hplace⟩ := TakesFront.renderValue (w := w) d config
    (.of d width precision) written k₂ j₂ back [] (.inl rfl)
  rw [List.append_nil, List.append_nil] at hplace
  rw [List.nil_append] at hj₁ hj₂
  refine ⟨(d.renderValue config (.of d width precision) written (.sequential ⟨k₂, back⟩)).result,
    m, m', left, ?_, ?_⟩
  · rw [render_of_amounts hk₁ hk₂, ← hsource]
  · rw [render_of_amounts hj₁ hj₂, renderValue_unstarred, hlayout]
    exact hplace

theorem outcome_unstarred_alike (hwidth : Takes d.width widthArgs width)
    (hprecision : Takes d.precision precisionArgs precision) (config : Config)
    (written n n' offset offset' : Nat) (back : List Arg) :
    (renderPieces (w := w) config written
      (.sequential ⟨n, widthArgs ++ (precisionArgs ++ back)⟩)
      [⟨offset, .directive d⟩]).outcome.Alike
        (renderPieces config written (.sequential ⟨n', back⟩)
          [⟨offset', .directive (d.unstarred width precision)⟩]).outcome := by
  obtain ⟨result, m, m', left, hstars, hnumbers⟩ :=
    render_unstarred (w := w) hwidth hprecision config written n n' back
  rw [outcome_singleton, outcome_singleton, Located.render, Located.render]
  dsimp only
  rw [hstars, hnumbers]
  rcases result with e | actions
  · refine ⟨?_, rfl, rfl, rfl⟩
    cases e <;> rfl
  · exact ⟨rfl, rfl, rfl, rfl⟩

end Directive

/-- A directive that is spelled in a format string is rendered there. -/
theorem Parts.Spell.exists_piece {p : Parts} {d : Directive} (h : p.Spell .print d) (offset : Nat)
    (after : Text w) :
    ∃ piece : Located w,
      unitPieces .print offset (.ofAscii w '%' :: (Text.ofAscii w p.chars ++ after))
          = [piece] ++ unitPieces .print (offset + 1 + p.chars.length) after ∧
        ∀ config written source, (renderPieces config written source [piece]).outcome
          = (renderPieces config written source [⟨offset, .directive d⟩]).outcome := by
  by_cases hbare : p.fields = [] ∧ p.letter = '%'
  -- The bare percent sign is not looked at as a directive.
  · obtain ⟨hfields, hletter⟩ := hbare
    have hspells := h.spellsDirective
    rw [hfields, hletter] at hspells
    obtain ⟨hconversion, hwidth, hprecision⟩ := hspells.bare
    refine ⟨⟨offset, .percent⟩, ?_, fun config written source ↦ ?_⟩
    · rw [Parts.chars, hfields, hletter]
      exact unitPieces_percent
    · rw [outcome_singleton, outcome_singleton, Located.render, Located.render]
      dsimp only
      rw [Directive.render_percent hconversion hwidth hprecision]
  · refine ⟨⟨offset, .directive d⟩, ?_, fun config written source ↦ rfl⟩
    have hparse : Directive.parse .print (Text.ofAscii w p.chars ++ after)
        = .ok (d, p.chars.length) :=
      (Directive.parse_eq_ok_iff_parts.mpr ⟨p, h, List.take_left' (by simp), rfl⟩).1
    have hnext : percentNext (Text.ofAscii w p.chars ++ after) = false :=
      h.spellsDirective.percentNext_eq hbare after
    rw [unitPieces_directive hnext hparse, List.drop_left' (by simp)]
    rfl

namespace Config

variable (config : Config)

/-- **Stars and numbers agree.** A call with a directive that takes its width or its precision from
the arguments does what the call does that has them written out, on the arguments without them:
output, counts, result and the arguments left are the same, but an error may be at another place.
The arguments for the stars are reinterpreted as signed numbers of 32 bits. -/
theorem format_unstarred_alike (before after : Text w) {front widthArgs precisionArgs : List Arg}
    (back : List Arg) {p : Parts} {d : Directive} {width precision : Option Int} {n : Nat}
    (hbefore : (config.format before front).result = .ok n)
    (hfront : (config.format before front).source.cursor.remaining = [])
    (hp : p.Spell .print d) (hwidth : Takes d.width widthArgs width)
    (hprecision : Takes d.precision precisionArgs precision) (hmin : width ≠ some (-2 ^ 31)) :
    (config.format (before ++ .ofAscii w '%' :: (Text.ofAscii w p.chars ++ after))
      (front ++ (widthArgs ++ (precisionArgs ++ back)))).Alike
        (config.format
          (before ++
            .ofAscii w '%' :: (Text.ofAscii w (p.unstarred width precision).chars ++ after))
          (front ++ back)) := by
  have hunits (t : Text w) (args : List Arg) :
      config.format t args
        = (renderPieces config 0 (.sequential ⟨0, args⟩) (unitPieces .print 0 t)).outcome :=
    config.vformat_eq_units t (.ofArgs args)
  rw [hunits] at hbefore hfront
  have hwell := isMalformed_eq_false_of_ok hbefore
  -- The arguments behind make no difference to what comes in front.
  have hfirst (back : List Arg) : ∃ m,
      (renderPieces config 0 (.sequential ⟨0, front ++ back⟩)
        (unitPieces .print 0 before)).outcome
      = { (renderPieces config 0 (.sequential ⟨0, front⟩) (unitPieces .print 0 before)).outcome with
          source := .sequential ⟨m, back⟩ } := by
    obtain ⟨m, m', rest, hsource, hbehind⟩ :=
      outcome_of_front config 0 0 0 front back (unitPieces .print 0 before) (.inr ⟨n, hbefore⟩)
    rw [hsource] at hfront
    obtain rfl : rest = [] := hfront
    exact ⟨m', hbehind⟩
  obtain ⟨m, hstars⟩ := hfirst (widthArgs ++ (precisionArgs ++ back))
  obtain ⟨m', hnumbers⟩ := hfirst back
  obtain ⟨piece, hpieces, hpiece⟩ := hp.exists_piece (0 + before.length) after
  obtain ⟨piece', hpieces', hpiece'⟩ :=
    (hp.unstarred hwidth hprecision hmin).exists_piece (0 + before.length) after
  rw [hunits, hunits, unitPieces_append hwell, unitPieces_append hwell, outcome_append,
    outcome_append, hstars, hnumbers, hpieces, hpieces']
  refine .followedBy_of_ok (k := n) hbefore hbefore rfl rfl (outcome_append_alike ?_ _ _ after)
  rw [hpiece, hpiece']
  exact Directive.outcome_unstarred_alike hwidth hprecision config ..

/-- A width of 64 bits is cut to the number `-6`, which is written as a flag and a number. -/
theorem format_unstarred_alike_negative_width :
    let stars := Config.format {} (Text.ofAscii .utf8 "[%+*.*d]%n".toList)
      [.integer .int64 0x1FFFFFFFA, .integer .int32 3, .integer .int32 42, .count 0]
    let numbers := Config.format {} (Text.ofAscii .utf8 "[%+-6.3d]%n".toList)
      [.integer .int32 42, .count 0]
    stars.Alike numbers ∧ numbers.sink = Text.ofAscii .utf8 "[+042  ]".toList ∧
      numbers.counts = [(0, 8)] := by
  let p : Parts := ⟨[], ['+'], ['*'], ['.', '*'], [], 'd'⟩
  let d : Directive := ⟨.signedInt, false, { sign := true }, .none, some (.argument none),
    some (.argument none), none, none⟩
  have hstar : SpellsAmount .print ['*'] (some (.argument none)) := .star (.next (by decide))
  have hp : p.Spell .print d := {
    index := .absent (by decide)
    flags := .writer (by decide) (by simp [p, flagLetters])
    width := .writer (by decide) (by decide) hstar
    precision := .point (by decide) hstar
    length := by decide
    letter := by decide
    upper := rfl
    accepts := rfl
    set := rfl }
  have hwidth : Takes d.width [.integer .int64 0x1FFFFFFFA] (some (-6)) :=
    .next (v := 0x1FFFFFFFA) rfl
  have hprecision : Takes d.precision [.integer .int32 3] (some 3) := .next (v := 3) rfl
  have hbefore : (Config.format {} (Text.ofAscii .utf8 ['[']) []).result = .ok 1 := by
    decide +kernel
  have hchars : (p.unstarred (some (-6)) (some 3)).chars = "+-6.3d".toList := by decide +kernel
  have h := format_unstarred_alike {} (Text.ofAscii .utf8 ['['])
    (Text.ofAscii .utf8 [']', '%', 'n']) [.integer .int32 42, .count 0] hbefore (by decide +kernel)
    hp hwidth hprecision (by decide)
  rw [hchars] at h
  exact ⟨h, by decide +kernel, by decide +kernel⟩

end Config

end FormatString
