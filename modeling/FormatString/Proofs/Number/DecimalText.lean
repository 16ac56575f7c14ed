import Mathlib
import FormatString.Proofs.Number.FloatLiteral
import FormatString.Proofs.Number.Separation

/-!
# Number text is read back

The fixed and the scientific form, shortened or not, are digits, perhaps a point and digits behind
it, and perhaps an exponent. `SpellsDecimal` says of such a text which number `n · 10 ^ e` it is,
and both sides meet there: what is rendered spells its digits, and what is read is the number
spelled. Zeros may be written on either side of the digits, and shortening takes some away again, so
`n` and `e` differ from form to form, and only the number they make stays.
-/

namespace FormatString

/-! ## Spelling -/

/-- The text of an exponent; without one it is zero. -/
inductive SpellsExponent : List Char → Int → Prop where
  | absent : SpellsExponent [] 0
  | marked {mark : Char} {cs : List Char} {e : Int} (hmark : Decimal.isMark mark)
    (h : SpellsInt .decimal cs e) : SpellsExponent (mark :: cs) e

/-- Digits before the point, digits behind it and an exponent, which together are `n · 10 ^ e`. -/
inductive SpellsDecimal : List Char → Nat → Int → Prop where
  | intro {whole fraction : List Nat} {exponent : List Char} {e : Int} (hne : whole ≠ [])
    (hwhole : ∀ d ∈ whole, d < 10) (hfraction : ∀ d ∈ fraction, d < 10)
    (hexponent : SpellsExponent exponent e) (alt : Bool) :
    SpellsDecimal (whole.map (digitChar false) ++ Decimal.pointed fraction alt ++ exponent)
      (valueOf .decimal (whole ++ fraction)) (e - fraction.length)

/-! ## Reading -/

section Reading

variable {cs rest : List Char} {e : Int}

/-- No digit, point or mark comes next. -/
def EndsNumber (rest : List Char) : Prop :=
  NotNext (fun c ↦ c.isDigit || c == '.' || Decimal.isMark c) rest

theorem BlankNext.endsNumber (h : BlankNext rest) : EndsNumber rest := by
  intro c hc
  have hblank : isBlank c := by simpa using h c hc
  have hall : [' ', '\t', '\n', '\x0b', '\x0c', '\r'].all
      (fun c ↦ !(c.isDigit || c == '.' || Decimal.isMark c)) := by decide
  simpa using List.all_eq_true.mp hall c (isBlank_iff.mp hblank)

theorem toLower_eq_mark_iff {c : Char} : c.toLower = 'e' ↔ Decimal.isMark c := by
  rw [toLower_eq_iff (by decide) (by decide) (e := 'E') (by decide), Decimal.isMark,
    Bool.or_eq_true, beq_iff_eq, beq_iff_eq]

theorem readExponent_of_endsNumber (h : EndsNumber rest) : readExponent rest = (0, rest) := by
  cases rest with
  | nil => rfl
  | cons c rest =>
    have hmark : (c.toLower == 'e') = false := by
      rw [beq_eq_false_iff_ne, ne_eq, toLower_eq_mark_iff, Bool.not_eq_true]
      exact (Bool.or_eq_false_iff.mp (notNext_cons.mp h)).2
    rw [readExponent, hmark]
    rfl

theorem SpellsMark.eq_nil_of_decimal {mark : List Char} (h : SpellsMark .decimal mark) :
    mark = [] := by
  generalize hr : Radix.decimal = r at h
  cases h with
  | absent => rfl
  | hexadecimal => exact absurd hr (by decide)
  | binary => exact absurd hr (by decide)

/-- An integer behind a mark is read as an exponent. -/
theorem readExponent_of_spellsInt {mark : Char} (hmark : Decimal.isMark mark)
    (h : SpellsInt .decimal cs e) (hrest : NotNext Radix.decimal.isDigit rest) :
    readExponent (mark :: (cs ++ rest)) = (e, rest) := by
  obtain ⟨hsign, hnone, hne, hds⟩ := h
  rename_i sign none ds negative
  obtain rfl := hnone.eq_nil_of_decimal
  obtain ⟨c, tail, rfl, hc⟩ := exists_cons_of_digits hne hds
  have hsigned : readSign (sign ++ ([] ++ c :: tail) ++ rest) = (negative, c :: tail ++ rest) := by
    rw [List.nil_append, List.append_assoc]
    exact readSign_append hsign (ne_of_isDigit hc (by decide)) (ne_of_isDigit hc (by decide)) _
  have hrun := digitRun_append hds hrest
  have hlength := length_digitRun hds
  have hfound : (digitRun .decimal (c :: tail)).isEmpty = false := by
    rw [List.isEmpty_eq_false_iff, ← List.length_pos_iff, hlength]
    exact Nat.succ_pos _
  rw [readExponent, hsigned]
  dsimp only
  rw [hrun, hfound, beq_iff_eq.mpr (toLower_eq_mark_iff.mpr hmark), hlength, List.drop_left]
  rfl

theorem EndsNumber.notNext_isDigit (h : EndsNumber rest) : NotNext Radix.decimal.isDigit rest := by
  intro c hc
  rw [Radix.isDigit_decimal]
  exact (Bool.or_eq_false_iff.mp (Bool.or_eq_false_iff.mp (h c hc)).1).1

theorem EndsNumber.notNext_point (h : EndsNumber rest) : NotNext (· == '.') rest :=
  fun c hc ↦ (Bool.or_eq_false_iff.mp (Bool.or_eq_false_iff.mp (h c hc)).1).2

namespace SpellsExponent

theorem readExponent (h : SpellsExponent cs e) (hrest : EndsNumber rest) :
    readExponent (cs ++ rest) = (e, rest) := by
  cases h with
  | absent => exact readExponent_of_endsNumber hrest
  | marked hmark h => exact readExponent_of_spellsInt hmark h hrest.notNext_isDigit

/-- Neither digits nor a point come next. -/
theorem notNext (h : SpellsExponent cs e) (hrest : EndsNumber rest) :
    NotNext Radix.decimal.isDigit (cs ++ rest) ∧ NotNext (· == '.') (cs ++ rest) := by
  cases h with
  | absent => exact ⟨hrest.notNext_isDigit, hrest.notNext_point⟩
  | @marked mark _ _ hmark _ =>
    have hmark : mark = 'e' ∨ mark = 'E' := by simpa [Decimal.isMark] using hmark
    obtain rfl | rfl := hmark
    · exact ⟨notNext_cons.mpr (by decide), notNext_cons.mpr (by decide)⟩
    · exact ⟨notNext_cons.mpr (by decide), notNext_cons.mpr (by decide)⟩

end SpellsExponent

/-- The characters of decimal digits are read as the digits. -/
theorem digitRun_digits_append {ds : List Nat} (hds : ∀ d ∈ ds, d < 10)
    (hrest : NotNext Radix.decimal.isDigit rest) :
    digitRun .decimal (ds.map (digitChar false) ++ rest) = ds := by
  rw [digitRun_append _ hrest, digitRun_map_digitChar hds]
  intro c hc
  rw [Radix.isDigit_decimal]
  exact Decimal.isDigit_map_digitChar hds c hc

/-- The digits before the point end there. -/
theorem notNext_pointed (fraction : List Nat) (alt : Bool) :
    NotNext Radix.decimal.isDigit (Decimal.pointed fraction alt) := by
  by_cases hbare : (fraction.isEmpty && !alt) = true
  · obtain ⟨hnil, -⟩ := (Bool.and_eq_true _ _).mp hbare
    obtain rfl := List.isEmpty_iff.mp hnil
    rw [Decimal.pointed, if_pos hbare]
    exact notNext_nil
  · rw [Decimal.pointed, if_neg hbare]
    exact notNext_cons.mpr (by decide)

theorem readFraction_pointed {fraction : List Nat} (hfraction : ∀ d ∈ fraction, d < 10) (alt : Bool)
    (hdigit : NotNext Radix.decimal.isDigit rest) (hpoint : NotNext (· == '.') rest) :
    readFraction (Decimal.pointed fraction alt ++ rest) = (fraction, rest) := by
  by_cases hbare : (fraction.isEmpty && !alt) = true
  · obtain ⟨hnil, -⟩ := (Bool.and_eq_true _ _).mp hbare
    obtain rfl := List.isEmpty_iff.mp hnil
    rw [Decimal.pointed, if_pos hbare]
    change readFraction rest = _
    unfold readFraction
    split
    · exact absurd hpoint (by simp)
    · rfl
  · rw [Decimal.pointed, if_neg hbare]
    change readFraction ('.' :: (fraction.map (digitChar false) ++ rest)) = _
    rw [readFraction, digitRun_digits_append hfraction hdigit,
      List.drop_left' (List.length_map _)]

/-- The parts of a number are read one after another. -/
theorem readDecimal?_parts {whole fraction : List Nat} {exponent : List Char} (hne : whole ≠ [])
    (hwhole : ∀ d ∈ whole, d < 10) (hfraction : ∀ d ∈ fraction, d < 10)
    (hexponent : SpellsExponent exponent e) (alt : Bool) (hrest : EndsNumber rest) :
    readDecimal? (whole.map (digitChar false) ++ Decimal.pointed fraction alt ++ exponent ++ rest)
      = some (.decimal whole fraction e, rest) := by
  obtain ⟨hdigit, hpoint⟩ := hexponent.notNext hrest
  have hfront : NotNext Radix.decimal.isDigit
      (Decimal.pointed fraction alt ++ (exponent ++ rest)) :=
    (notNext_pointed fraction alt).append hdigit
  rw [readDecimal?, List.append_assoc, List.append_assoc, digitRun_digits_append hwhole hfront,
    List.drop_left' (List.length_map _), readFraction_pointed hfraction alt hdigit hpoint]
  dsimp only
  rw [hexponent.readExponent hrest, List.isEmpty_eq_false_iff.mpr hne]
  rfl

namespace SpellsDecimal

variable {n : Nat}

theorem readDecimal? (h : SpellsDecimal cs n e) (hrest : EndsNumber rest) :
    ∃ body, readDecimal? (cs ++ rest) = some (body, rest) ∧ body.isDecimal ∧
      ∀ F negative, body.value F negative = .ofDecimal F negative n e := by
  obtain ⟨hne, hwhole, hfraction, hexponent, alt⟩ := h
  rename_i whole fraction exponent e
  exact ⟨.decimal whole fraction e, readDecimal?_parts hne hwhole hfraction hexponent alt hrest, rfl,
    fun F negative ↦ rfl⟩

theorem ascii (h : SpellsDecimal cs n e) : ∀ c ∈ cs, c.toNat < 0x80 := by
  obtain ⟨-, hwhole, hfraction, hexponent, alt⟩ := h
  refine List.forall_mem_append.mpr ⟨List.forall_mem_append.mpr ⟨?_, ?_⟩, ?_⟩
  · exact ascii_map_digitChar hwhole false
  · exact Decimal.ascii_pointed hfraction alt
  · cases hexponent with
    | absent => simp
    | @marked mark _ _ hmark h =>
      have hmark : mark = 'e' ∨ mark = 'E' := by simpa [Decimal.isMark] using hmark
      refine List.forall_mem_cons.mpr ⟨?_, h.ascii⟩
      obtain rfl | rfl := hmark <;> decide

/-- A number starts with a digit. -/
theorem exists_cons (h : SpellsDecimal cs n e) : ∃ c tail, cs = c :: tail ∧ c.isDigit := by
  obtain ⟨hne, hwhole, -, -, -⟩ := h
  rename_i whole fraction exponent e alt
  obtain ⟨d, ds, rfl⟩ := List.exists_cons_of_ne_nil hne
  exact ⟨digitChar false d, _, rfl, isDigit_digitChar (hwhole d List.mem_cons_self) false⟩

end SpellsDecimal

/-! ## Floats -/

/-- The text of a float: a sign, and a number of the format or a word. -/
inductive SpellsFloat (F : BinaryFormat) : List Char → Binary F → Prop where
  | number {sign body : List Char} {negative : Bool} {n : Nat} {e : Int}
    (hsign : SpellsSign sign negative) (h : SpellsDecimal body n e)
    (hfinite : (Binary.ofDecimal F negative n e).isFinite) :
    SpellsFloat F (sign ++ body) (.ofDecimal F negative n e)
  | infinity {sign : List Char} {negative : Bool} (hsign : SpellsSign sign negative) :
    SpellsFloat F (sign ++ ['i', 'n', 'f']) (.infinity negative)
  | nan {sign : List Char} {negative : Bool} (hsign : SpellsSign sign negative) :
    SpellsFloat F (sign ++ ['n', 'a', 'n']) (.nan negative)

/-- A word does not start with a digit. -/
theorem readWord?_of_isDigit {c : Char} (hc : c.isDigit) {a b : Char} (ha : a.toLower = a)
    (hb : b.toLower = a) (hval : b.val = a.val - 32)
    (hdigit : a.isDigit = false ∧ b.isDigit = false) (word tail : List Char) :
    readWord? (a :: word) (c :: tail) = none := by
  have hne : (c.toLower == a) = false := by
    rw [beq_eq_false_iff_ne, ne_eq, toLower_eq_iff ha hb hval]
    rintro (rfl | rfl)
    · exact absurd hc (ne_true_of_eq_false hdigit.1)
    · exact absurd hc (ne_true_of_eq_false hdigit.2)
  rw [readWord?, hne]
  rfl

namespace FloatBody

theorem read?_of_isDigit {c : Char} (hc : c.isDigit) (tail : List Char) :
    read? (c :: tail) = FormatString.readDecimal? (c :: tail) := by
  have hi (word : List Char) : readWord? ('i' :: word) (c :: tail) = none :=
    readWord?_of_isDigit hc (b := 'I') (by decide) (by decide) (by decide) (by decide) word tail
  have hn (word : List Char) : readWord? ('n' :: word) (c :: tail) = none :=
    readWord?_of_isDigit hc (b := 'N') (by decide) (by decide) (by decide) (by decide) word tail
  have hinfinity : "infinity".toList = ['i', 'n', 'f', 'i', 'n', 'i', 't', 'y'] := rfl
  have hinf : "inf".toList = ['i', 'n', 'f'] := rfl
  have hnan : "nan".toList = ['n', 'a', 'n'] := rfl
  rw [read?, hinfinity, hi, hinf, hi, hnan, hn]

theorem read?_inf (hrest : BlankNext rest) :
    read? (['i', 'n', 'f'] ++ rest) = some (.infinity, rest) := by
  have hinfinity : readWord? "infinity".toList (['i', 'n', 'f'] ++ rest) = none := by
    change readWord? ['i', 'n', 'i', 't', 'y'] rest = none
    cases rest with
    | nil => rfl
    | cons c rest =>
      have hc : (c.toLower == 'i') = false := by
        refine toLower_ne_of_isDigit_or_isBlank (r := .decimal) (.inr ?_) (e := 'I') (by decide)
          (by decide) (by decide)
        simpa using notNext_cons.mp hrest
      rw [readWord?, hc]
      rfl
  rw [read?, hinfinity]
  rfl

theorem read?_nan (hrest : BlankNext rest) :
    read? (['n', 'a', 'n'] ++ rest) = some (.nan, rest) := by
  have htag : readNanTag rest = rest := by
    unfold readNanTag
    split
    · exact absurd (notNext_cons.mp hrest) (by decide)
    · rfl
  change some (FloatBody.nan, readNanTag rest) = _
  rw [htag]

end FloatBody

/-- There is no blank in front of a sign or behind it. -/
theorem SpellsSign.dropWhile_isBlank {sign : List Char} {negative : Bool}
    (h : SpellsSign sign negative) {c : Char} (hc : isBlank c = false) (tail : List Char) :
    (sign ++ c :: tail).dropWhile isBlank = sign ++ c :: tail := by
  cases h with
  | absent => exact List.dropWhile_cons_of_neg (ne_true_of_eq_false hc)
  | plus => rfl
  | minus => rfl

namespace SpellsFloat

variable {F : BinaryFormat} {y : Binary F}

/-- A sign, and a body that neither is a blank nor starts with a sign. -/
theorem exists_body (h : SpellsFloat F cs y) : ∃ sign c tail negative, cs = sign ++ c :: tail ∧
    SpellsSign sign negative ∧ isBlank c = false ∧ c ≠ '-' ∧ c ≠ '+' ∧ ∀ rest, BlankNext rest →
      ∃ body, FloatBody.read? (c :: tail ++ rest) = some (body, rest) ∧
        body.value F negative = y ∧ (body.isDecimal && y.isInfinite) = false := by
  cases h with
  | @number sign body negative n e hsign h hfinite =>
    obtain ⟨c, tail, rfl, hc⟩ := h.exists_cons
    have hdigit : Radix.decimal.isDigit c := by rwa [Radix.isDigit_decimal]
    refine ⟨sign, c, tail, negative, rfl, hsign, isBlank_eq_false_of_isDigit hdigit,
      ne_of_isDigit hdigit (by decide), ne_of_isDigit hdigit (by decide), fun rest hrest ↦ ?_⟩
    obtain ⟨body, hread, -, hvalue⟩ := h.readDecimal? hrest.endsNumber
    refine ⟨body, ?_, hvalue F negative, ?_⟩
    · rw [← hread]
      exact FloatBody.read?_of_isDigit hc _
    · rw [Bool.eq_false_of_not_eq_true (Binary.not_isInfinite hfinite), Bool.and_false]
  | @infinity sign negative hsign =>
    exact ⟨sign, 'i', _, negative, rfl, hsign, by decide, by decide, by decide, fun rest hrest ↦
      ⟨.infinity, FloatBody.read?_inf hrest, rfl, rfl⟩⟩
  | @nan sign negative hsign =>
    exact ⟨sign, 'n', _, negative, rfl, hsign, by decide, by decide, by decide, fun rest hrest ↦
      ⟨.nan, FloatBody.read?_nan hrest, rfl, rfl⟩⟩

theorem ascii (h : SpellsFloat F cs y) : ∀ c ∈ cs, c.toNat < 0x80 := by
  cases h with
  | number hsign h => exact List.forall_mem_append.mpr ⟨hsign.ascii, h.ascii⟩
  | infinity hsign => exact List.forall_mem_append.mpr ⟨hsign.ascii, by simp⟩
  | nan hsign => exact List.forall_mem_append.mpr ⟨hsign.ascii, by simp⟩

/-- The text of a float does not start with a blank. -/
theorem exists_cons (h : SpellsFloat F cs y) : ∃ c tail, cs = c :: tail ∧ isBlank c = false := by
  obtain ⟨sign, c, tail, negative, rfl, hsign, hblank, -⟩ := h.exists_body
  cases hsign with
  | absent => exact ⟨c, tail, rfl, hblank⟩
  | plus => exact ⟨'+', _, rfl, by decide⟩
  | minus => exact ⟨'-', _, rfl, by decide⟩

/-- **A float is read back** behind blanks, and nothing of it is left. -/
theorem readFloat_append (h : SpellsFloat F cs y) {blanks : List Char}
    (hblanks : ∀ c ∈ blanks, isBlank c) (hrest : BlankNext rest) :
    readFloat F (blanks ++ (cs ++ rest)) = ⟨y, (blanks ++ cs).length, false⟩ := by
  obtain ⟨sign, c, tail, negative, rfl, hsign, hblank, hminus, hplus, hbody⟩ := h.exists_body
  obtain ⟨body, hread, hvalue, hoverflow⟩ := hbody rest hrest
  have hskip : (blanks ++ (sign ++ c :: tail ++ rest)).dropWhile isBlank
      = sign ++ c :: (tail ++ rest) := by
    rw [List.dropWhile_append_of_pos hblanks, List.append_assoc, List.cons_append,
      hsign.dropWhile_isBlank hblank]
  rw [readFloat, hskip, readSign_append hsign hminus hplus]
  dsimp only
  rw [← List.cons_append, hread]
  dsimp only
  rw [hvalue, hoverflow]
  congr 1
  simp only [List.length_append]
  omega

end SpellsFloat

end Reading

end FormatString
