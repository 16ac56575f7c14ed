import Mathlib
import FormatString.Proofs.Number.DecimalText

/-!
# The grammar of floats

What can be read as a float, production by production, and without regard to what comes behind: a
number, with digits on one side of the point at least and perhaps an exponent, or a name in any
case, where `nan` may carry a tag in parentheses.

The parts of a number that may be missing are what makes the longest prefix hard to find: a lone
point is part of a number just if digits come before it, a mark just if digits follow it, and an
opening parenthesis just if it is closed. `TakesAtLeast` says of a reader that it does not stop
within a text it could take, and that it yields what this text spells if it stops right behind it.
Readers like this can be put one behind the other.
-/

namespace FormatString

/-! ## Productions -/

/-- Decimal digits with a point among them or without one: those before it and those behind. -/
inductive SpellsMantissa : List Char → List Nat → List Nat → Prop where
  | whole {ds : List Char} (hds : SpellsDigits .decimal ds) :
    SpellsMantissa ds (digitRun .decimal ds) []
  | pointed {ds fs : List Char} (hds : SpellsDigits .decimal ds)
    (hfs : ∀ c ∈ fs, Radix.decimal.isDigit c) :
    SpellsMantissa (ds ++ '.' :: fs) (digitRun .decimal ds) (digitRun .decimal fs)
  | bare {fs : List Char} (hfs : SpellsDigits .decimal fs) :
    SpellsMantissa ('.' :: fs) [] (digitRun .decimal fs)

/-- The characters of a tag. -/
def isTagChar (c : Char) : Bool := c.isAlphanum || c == '_'

/-- A float without its sign. -/
inductive SpellsBody : List Char → FloatBody → Prop where
  | number {mantissa exponent : List Char} {whole fraction : List Nat} {e : Int}
    (hmantissa : SpellsMantissa mantissa whole fraction) (hexponent : SpellsExponent exponent e) :
    SpellsBody (mantissa ++ exponent) (.decimal whole fraction e)
  | infinity {word : List Char}
    (hword : word.map Char.toLower = "inf".toList ∨ word.map Char.toLower = "infinity".toList) :
    SpellsBody word .infinity
  | nan {word : List Char} (hword : word.map Char.toLower = "nan".toList) : SpellsBody word .nan
  | tagged {word tag : List Char} (hword : word.map Char.toLower = "nan".toList)
    (htag : ∀ c ∈ tag, isTagChar c) : SpellsBody (word ++ '(' :: (tag ++ [')'])) .nan

/-- Blanks, and a float: the text behind the blanks, its sign and its body. -/
inductive SpellsFloatLiteral : List Char → List Char → Bool → FloatBody → Prop where
  | literal {blanks sign cs : List Char} {negative : Bool} {body : FloatBody}
    (hblanks : ∀ c ∈ blanks, isBlank c) (hsign : SpellsSign sign negative)
    (hbody : SpellsBody cs body) :
    SpellsFloatLiteral (blanks ++ (sign ++ cs)) (sign ++ cs) negative body

/-! ## Readers that take at least a text -/

section Greedy

variable {α β : Type} {cs ds rest : List Char} {a : α} {b : β}

/-- In front of `rest` the reader takes at least `cs`, and yields `a` if it takes no more. -/
structure TakesAtLeast (read : List Char → α × List Char) (cs : List Char) (a : α)
    (rest : List Char) : Prop where
  suffix : (read (cs ++ rest)).2 <:+ rest
  eq : (read (cs ++ rest)).2 = rest → (read (cs ++ rest)).1 = a

theorem TakesAtLeast.of_eq {read : List Char → α × List Char}
    (h : read (cs ++ rest) = (a, rest)) : TakesAtLeast read cs a rest :=
  ⟨by rw [h], fun _ ↦ by rw [h]⟩

/-- Reads with `f`, and with `g` what that leaves. -/
def readBoth (f : List Char → α × List Char) (g : List Char → β × List Char) (cs : List Char) :
    (α × β) × List Char :=
  (((f cs).1, (g (f cs).2).1), (g (f cs).2).2)

variable {f : List Char → α × List Char} {g : List Char → β × List Char}

/-- The second reader may take something, or nothing. -/
theorem TakesAtLeast.readBoth (hf : TakesAtLeast f cs a rest)
    (hg : ∀ rest, TakesAtLeast g [] b rest) : TakesAtLeast (readBoth f g) cs (a, b) rest := by
  have hsecond : (g (f (cs ++ rest)).2).2 <:+ (f (cs ++ rest)).2 := (hg (f (cs ++ rest)).2).suffix
  refine ⟨hsecond.trans hf.suffix, fun heq ↦ ?_⟩
  change (g (f (cs ++ rest)).2).2 = rest at heq
  have hfirst : (f (cs ++ rest)).2 = rest := by
    refine hf.suffix.eq_of_length_le ?_
    conv_lhs => rw [← heq]
    exact hsecond.length_le
  rw [hfirst] at heq
  exact Prod.ext (hf.eq hfirst) ((congrArg (fun t ↦ (g t).1) hfirst).trans ((hg rest).eq heq))

/-- The first reader has to stop where the text of the second one starts. -/
theorem TakesAtLeast.readBoth_append (hf : f (cs ++ (ds ++ rest)) = (a, ds ++ rest))
    (hg : TakesAtLeast g ds b rest) :
    TakesAtLeast (FormatString.readBoth f g) (cs ++ ds) (a, b) rest := by
  have hboth : FormatString.readBoth f g (cs ++ ds ++ rest)
      = ((a, (g (ds ++ rest)).1), (g (ds ++ rest)).2) := by
    rw [List.append_assoc, FormatString.readBoth, hf]
  refine ⟨?_, fun heq ↦ ?_⟩
  · rw [hboth]
    exact hg.suffix
  · rw [hboth] at heq ⊢
    rw [hg.eq heq]

end Greedy

/-! ## Digits, fractions and exponents -/

section Parts

variable {cs ds fs rest : List Char}

/-- Digits, and the text behind them. -/
def readDigits (cs : List Char) : List Nat × List Char :=
  (digitRun .decimal cs, cs.drop (digitRun .decimal cs).length)

theorem readDigits_of_notNext (hds : ∀ c ∈ ds, Radix.decimal.isDigit c)
    (hrest : NotNext Radix.decimal.isDigit rest) :
    readDigits (ds ++ rest) = (digitRun .decimal ds, rest) := by
  rw [readDigits, digitRun_append hds hrest, length_digitRun hds, List.drop_left]

theorem readDigits_sound (cs : List Char) : ∃ ds rest, cs = ds ++ rest ∧
    (∀ c ∈ ds, Radix.decimal.isDigit c) ∧ readDigits cs = (digitRun .decimal ds, rest) := by
  obtain ⟨ds, rest, rfl, hds, hrest⟩ := exists_digits_append .decimal cs
  exact ⟨ds, rest, rfl, hds, readDigits_of_notNext hds hrest⟩

theorem readDigits_takesAtLeast (hds : ∀ c ∈ ds, Radix.decimal.isDigit c) (rest : List Char) :
    TakesAtLeast readDigits ds (digitRun .decimal ds) rest := by
  obtain ⟨more, rest, rfl, hmore, hrest⟩ := exists_digits_append .decimal rest
  have hread : readDigits (ds ++ (more ++ rest)) = (digitRun .decimal (ds ++ more), rest) := by
    rw [← List.append_assoc]
    exact readDigits_of_notNext (List.forall_mem_append.mpr ⟨hds, hmore⟩) hrest
  refine ⟨?_, fun heq ↦ ?_⟩
  · rw [hread]
    exact List.suffix_append more rest
  · rw [hread] at heq ⊢
    have hnil : more = [] := List.self_eq_append_left.mp heq
    rw [hnil, List.append_nil]

/-- Where digits come next, digits are read. -/
theorem digitRun_append_ne_nil (hds : SpellsDigits .decimal ds) (rest : List Char) :
    digitRun .decimal (ds ++ rest) ≠ [] := by
  obtain ⟨c, tail, rfl, hc⟩ := exists_cons_of_digits hds.ne_nil hds.digits
  rw [ne_eq, digitRun_eq_nil_iff, List.cons_append, notNext_cons, hc]
  decide

theorem readFraction_point (cs : List Char) : readFraction ('.' :: cs) = readDigits cs := rfl

theorem readFraction_of_notNext (hrest : NotNext (· == '.') rest) :
    readFraction rest = ([], rest) := by
  unfold readFraction
  split
  · exact absurd hrest (by simp)
  · rfl

/-- There is a point, or none comes next. -/
theorem exists_point_or_notNext (cs : List Char) :
    (∃ tail, cs = '.' :: tail) ∨ NotNext (· == '.') cs := by
  cases cs with
  | nil => exact .inr notNext_nil
  | cons c tail =>
    by_cases hc : c = '.'
    · exact .inl ⟨tail, by rw [hc]⟩
    · exact .inr (notNext_cons.mpr (beq_eq_false_iff_ne.mpr hc))

/-- A fraction that is read behind nothing has taken its point. -/
theorem readFraction_takesAtLeast (rest : List Char) : TakesAtLeast readFraction [] [] rest := by
  obtain ⟨tail, rfl⟩ | hpoint := exists_point_or_notNext rest
  · have hsuffix : (readDigits tail).2 <:+ tail := List.drop_suffix _ _
    refine ⟨hsuffix.trans (List.suffix_cons '.' tail), fun heq ↦ ?_⟩
    rw [List.nil_append, readFraction_point] at heq
    have hle := hsuffix.length_le
    rw [heq, List.length_cons] at hle
    exact absurd hle (Nat.not_succ_le_self _)
  · exact .of_eq (readFraction_of_notNext hpoint)

/-- The exponent that is read is spelled, be it only by nothing. -/
theorem readExponent_sound (cs : List Char) :
    ∃ ex, cs = ex ++ (readExponent cs).2 ∧ SpellsExponent ex (readExponent cs).1 := by
  cases cs with
  | nil => exact ⟨[], rfl, .absent⟩
  | cons mark signed =>
    obtain ⟨⟨negative, body⟩, hsigned⟩ : ∃ p, readSign signed = p := ⟨_, rfl⟩
    obtain ⟨sign, rfl, hsign⟩ := readSign_sound hsigned
    obtain ⟨ds, rest, rfl, hds, hrest⟩ := exists_digits_append .decimal body
    by_cases h : Decimal.isMark mark ∧ ds ≠ []
    · have hint := SpellsInt.literal hsign .absent h.2 hds
      have hread := readExponent_of_spellsInt h.1 hint hrest
      rw [List.nil_append, List.append_assoc] at hread
      rw [hread]
      exact ⟨mark :: (sign ++ ds), by simp, .marked h.1 hint⟩
    · refine ⟨[], ?_⟩
      have hnone : (mark.toLower == 'e' && !(digitRun .decimal (ds ++ rest)).isEmpty) = false := by
        refine Bool.eq_false_of_not_eq_true fun htrue ↦ h ?_
        obtain ⟨hmark, hne⟩ := (Bool.and_eq_true _ _).mp htrue
        rw [digitRun_append hds hrest] at hne
        refine ⟨toLower_eq_mark_iff.mp (beq_iff_eq.mp hmark), ?_⟩
        rintro rfl
        exact absurd hne (by decide)
      rw [readExponent, hsigned]
      dsimp only
      rw [hnone]
      exact ⟨rfl, .absent⟩

theorem SpellsExponent.takesAtLeast {e : Int} (h : SpellsExponent cs e) (rest : List Char) :
    TakesAtLeast FormatString.readExponent cs e rest := by
  cases h with
  | absent =>
    obtain ⟨ex, hcs, hex⟩ := readExponent_sound rest
    refine ⟨⟨ex, hcs.symm⟩, fun heq ↦ ?_⟩
    change (FormatString.readExponent rest).2 = rest at heq
    rw [heq] at hcs
    rw [List.self_eq_append_left.mp hcs] at hex
    change (FormatString.readExponent rest).1 = 0
    generalize (FormatString.readExponent rest).1 = e at hex
    cases hex
    rfl
  | marked hmark h =>
    rename_i mark _
    obtain ⟨hsign, hnone, hne, hds⟩ := h
    rename_i sign none ds negative
    obtain ⟨more, rest, rfl, hmore, hrest⟩ := exists_digits_append .decimal rest
    -- With the digits that follow it is still an exponent.
    have hall : ∀ c ∈ ds ++ more, Radix.decimal.isDigit c :=
      List.forall_mem_append.mpr ⟨hds, hmore⟩
    have hint := SpellsInt.literal hsign hnone (List.append_ne_nil_of_left_ne_nil hne more) hall
    have hread := readExponent_of_spellsInt hmark hint hrest
    have hcs : mark :: (sign ++ (none ++ ds)) ++ (more ++ rest)
        = mark :: (sign ++ (none ++ (ds ++ more)) ++ rest) := by
      simp only [List.cons_append, List.append_assoc]
    refine ⟨?_, fun heq ↦ ?_⟩
    · rw [hcs, hread]
      exact List.suffix_append more rest
    · rw [hcs, hread] at heq ⊢
      have hnil : more = [] := List.self_eq_append_left.mp heq
      rw [hnil, List.append_nil]

end Parts

/-! ## Numbers -/

section Numbers

variable {cs rest : List Char} {whole fraction : List Nat}

/-- The digits of a number, before the point and behind it. -/
def readMantissa : List Char → (List Nat × List Nat) × List Char := readBoth readDigits readFraction

theorem readDecimal?_eq (cs : List Char) :
    readDecimal? cs =
      if (readMantissa cs).1.1.isEmpty && (readMantissa cs).1.2.isEmpty then none
      else
        let ((whole, fraction), e) := (readBoth readMantissa readExponent cs).1
        some (.decimal whole fraction e, (readBoth readMantissa readExponent cs).2) := rfl

namespace SpellsMantissa

theorem readMantissa_of_notNext (h : SpellsMantissa cs whole fraction)
    (hdigit : NotNext Radix.decimal.isDigit rest) (hpoint : NotNext (· == '.') rest) :
    readMantissa (cs ++ rest) = ((whole, fraction), rest) := by
  cases h with
  | whole hds =>
    rw [readMantissa, readBoth, readDigits_of_notNext hds.digits hdigit]
    dsimp only
    rw [readFraction_of_notNext hpoint]
  | pointed hds hfs =>
    rename_i ds fs
    rw [readMantissa, readBoth, List.append_assoc, List.cons_append,
      readDigits_of_notNext hds.digits (notNext_cons.mpr (by decide))]
    dsimp only
    rw [readFraction_point, readDigits_of_notNext hfs hdigit]
  | bare hfs =>
    rename_i fs
    have hnone : readDigits ('.' :: (fs ++ rest)) = ([], '.' :: (fs ++ rest)) :=
      readDigits_of_notNext (List.forall_mem_nil _) (notNext_cons.mpr (by decide))
    rw [readMantissa, readBoth, List.cons_append, hnone]
    dsimp only
    rw [readFraction_point, readDigits_of_notNext hfs.digits hdigit]

theorem takesAtLeast (h : SpellsMantissa cs whole fraction) (rest : List Char) :
    TakesAtLeast readMantissa cs (whole, fraction) rest := by
  have hpoint {fs : List Char} (hfs : ∀ c ∈ fs, Radix.decimal.isDigit c) :
      TakesAtLeast readFraction ('.' :: fs) (digitRun .decimal fs) rest :=
    ⟨(readDigits_takesAtLeast hfs rest).suffix, (readDigits_takesAtLeast hfs rest).eq⟩
  cases h with
  | whole hds => exact (readDigits_takesAtLeast hds.digits rest).readBoth readFraction_takesAtLeast
  | pointed hds hfs =>
    refine .readBoth_append ?_ (hpoint hfs)
    exact readDigits_of_notNext hds.digits (notNext_cons.mpr (by decide))
  | bare hfs =>
    have hnone (tail : List Char) : readDigits ([] ++ '.' :: tail) = ([], '.' :: tail) :=
      readDigits_of_notNext (List.forall_mem_nil _) (notNext_cons.mpr (by decide))
    exact .readBoth_append (hnone _) (hpoint hfs.digits)

/-- There are digits, whatever follows. -/
theorem readMantissa_ne_nil (h : SpellsMantissa cs whole fraction) (rest : List Char) :
    ((readMantissa (cs ++ rest)).1.1.isEmpty && (readMantissa (cs ++ rest)).1.2.isEmpty) = false := by
  rw [Bool.and_eq_false_iff, List.isEmpty_eq_false_iff, List.isEmpty_eq_false_iff]
  cases h with
  | whole hds => exact .inl (digitRun_append_ne_nil hds rest)
  | pointed hds hfs =>
    rw [List.append_assoc]
    exact .inl (digitRun_append_ne_nil hds _)
  | bare hfs => exact .inr (digitRun_append_ne_nil hfs rest)

end SpellsMantissa

theorem readMantissa_sound (cs : List Char) :
    ∃ front, cs = front ++ (readMantissa cs).2 ∧
      (((readMantissa cs).1.1.isEmpty && (readMantissa cs).1.2.isEmpty) = false →
        SpellsMantissa front (readMantissa cs).1.1 (readMantissa cs).1.2) := by
  obtain ⟨ds, tail, rfl, hds, hdigits⟩ := readDigits_sound cs
  rw [readMantissa, readBoth, hdigits]
  dsimp only
  obtain ⟨tail, rfl⟩ | hpoint := exists_point_or_notNext tail
  · obtain ⟨fs, rest, rfl, hfs, hfraction⟩ := readDigits_sound tail
    rw [readFraction_point, hfraction]
    refine ⟨ds ++ '.' :: fs, by simp, fun hne ↦ ?_⟩
    by_cases hnil : ds = []
    · subst hnil
      refine .bare ⟨?_, hfs⟩
      rintro rfl
      exact absurd hne (by simp [digitRun])
    · exact .pointed ⟨hnil, hds⟩ hfs
  · rw [readFraction_of_notNext hpoint]
    refine ⟨ds, rfl, fun hne ↦ .whole ⟨?_, hds⟩⟩
    rintro rfl
    exact absurd hne (by simp [digitRun])

/-- Numbers that are read are spelled. -/
theorem readDecimal?_sound {body : FloatBody} (h : readDecimal? cs = some (body, rest)) :
    ∃ front, cs = front ++ rest ∧ SpellsBody front body := by
  rw [readDecimal?_eq] at h
  split at h
  · exact absurd h (by simp)
  · next hne =>
    obtain ⟨mantissa, hcs, hmantissa⟩ := readMantissa_sound cs
    obtain ⟨exponent, htail, hexponent⟩ := readExponent_sound (readMantissa cs).2
    obtain ⟨rfl, rfl⟩ := Prod.mk.inj (Option.some.inj h)
    refine ⟨mantissa ++ exponent, ?_, .number (hmantissa (by simpa using hne)) hexponent⟩
    rw [List.append_assoc]
    exact hcs.trans (congrArg (mantissa ++ ·) htail)

/-- A number is taken, or more. -/
theorem SpellsMantissa.exists_readDecimal? {exponent : List Char} {e : Int}
    (h : SpellsMantissa cs whole fraction) (hexponent : SpellsExponent exponent e)
    (rest : List Char) :
    ∃ body rest', readDecimal? (cs ++ exponent ++ rest) = some (body, rest') ∧ rest' <:+ rest ∧
      (rest' = rest → body = .decimal whole fraction e) := by
  have htakes : TakesAtLeast (readBoth readMantissa FormatString.readExponent) (cs ++ exponent)
      ((whole, fraction), e) rest := by
    cases hexponent with
    | absent =>
      rw [List.append_nil]
      exact (h.takesAtLeast rest).readBoth SpellsExponent.absent.takesAtLeast
    | @marked mark _ _ hmark hint =>
      have hmark' : mark = 'e' ∨ mark = 'E' := by simpa [Decimal.isMark] using hmark
      refine .readBoth_append (h.readMantissa_of_notNext ?_ ?_)
        ((SpellsExponent.marked hmark hint).takesAtLeast rest)
      · obtain rfl | rfl := hmark' <;> exact notNext_cons.mpr (by decide)
      · obtain rfl | rfl := hmark' <;> exact notNext_cons.mpr (by decide)
  have hne := h.readMantissa_ne_nil (exponent ++ rest)
  rw [← List.append_assoc] at hne
  rw [readDecimal?_eq, hne]
  refine ⟨_, _, rfl, htakes.suffix, fun heq ↦ ?_⟩
  change (let ((whole, fraction), e) :=
    (readBoth readMantissa FormatString.readExponent (cs ++ exponent ++ rest)).1
    FloatBody.decimal whole fraction e) = _
  rw [htakes.eq heq]

end Numbers

/-! ## Bodies -/

section Bodies

variable {cs rest : List Char} {body : FloatBody}

theorem readNanTag_eq (cs : List Char) : readNanTag cs = cs ∨
    ∃ tag, cs = '(' :: (tag ++ ')' :: readNanTag cs) ∧ ∀ c ∈ tag, isTagChar c := by
  unfold readNanTag
  split
  · next tail =>
    split
    · next rest hrest =>
      refine .inr ⟨tail.takeWhile isTagChar, ?_, fun c hc ↦ List.mem_takeWhile_imp hc⟩
      conv_lhs => rw [← List.takeWhile_append_dropWhile (p := isTagChar) (l := tail)]
      exact congrArg (fun t ↦ '(' :: (tail.takeWhile isTagChar ++ t)) hrest
    · exact .inl rfl
  · exact .inl rfl

theorem readNanTag_tag {tag : List Char} (htag : ∀ c ∈ tag, isTagChar c) (rest : List Char) :
    readNanTag ('(' :: (tag ++ ')' :: rest)) = rest := by
  have hdrop : (tag ++ ')' :: rest).dropWhile (fun c ↦ c.isAlphanum || c == '_') = ')' :: rest :=
    List.dropWhile_append_of_pos htag
  simp only [readNanTag, hdrop]

theorem readWord?_append {word lower : List Char} (hword : word.map Char.toLower = lower)
    (rest : List Char) : readWord? lower (word ++ rest) = some rest :=
  readWord?_eq_some_iff.mpr ⟨word, rfl, hword⟩

/-- **What is read is spelled.** -/
theorem FloatBody.read?_sound (h : read? cs = some (body, rest)) :
    ∃ front, cs = front ++ rest ∧ SpellsBody front body := by
  rw [read?] at h
  split at h
  · next tail hread =>
    obtain ⟨rfl, rfl⟩ := Prod.mk.inj (Option.some.inj h)
    obtain ⟨word, hcs, hword⟩ := readWord?_eq_some_iff.mp hread
    exact ⟨word, hcs, .infinity (.inr hword)⟩
  split at h
  · next tail hread =>
    obtain ⟨rfl, rfl⟩ := Prod.mk.inj (Option.some.inj h)
    obtain ⟨word, hcs, hword⟩ := readWord?_eq_some_iff.mp hread
    exact ⟨word, hcs, .infinity (.inl hword)⟩
  split at h
  · next tail hread =>
    obtain ⟨rfl, rfl⟩ := Prod.mk.inj (Option.some.inj h)
    obtain ⟨word, rfl, hword⟩ := readWord?_eq_some_iff.mp hread
    obtain hnone | ⟨tag, htail, htag⟩ := readNanTag_eq tail
    · exact ⟨word, by rw [hnone], .nan hword⟩
    · refine ⟨word ++ '(' :: (tag ++ [')']), ?_, .tagged hword htag⟩
      conv_lhs => rw [htail]
      simp
  · exact readDecimal?_sound h

/-- A number starts with a digit or a point. -/
theorem SpellsMantissa.exists_cons {whole fraction : List Nat}
    (h : SpellsMantissa cs whole fraction) : ∃ c tail, cs = c :: tail ∧ (c.isDigit ∨ c = '.') := by
  have hfirst {ds : List Char} (hds : SpellsDigits .decimal ds) :
      ∃ c tail, ds = c :: tail ∧ c.isDigit := by
    obtain ⟨c, tail, rfl, hc⟩ := exists_cons_of_digits hds.ne_nil hds.digits
    exact ⟨c, tail, rfl, by rwa [Radix.isDigit_decimal] at hc⟩
  cases h with
  | whole hds =>
    obtain ⟨c, tail, rfl, hc⟩ := hfirst hds
    exact ⟨c, tail, rfl, .inl hc⟩
  | pointed hds =>
    obtain ⟨c, tail, rfl, hc⟩ := hfirst hds
    exact ⟨c, _, rfl, .inl hc⟩
  | bare => exact ⟨'.', _, rfl, .inr rfl⟩

namespace FloatBody

theorem read?_of_isDigit_or_point {c : Char} (hc : c.isDigit ∨ c = '.') (tail : List Char) :
    read? (c :: tail) = readDecimal? (c :: tail) := by
  obtain hc | rfl := hc
  · exact read?_of_isDigit hc tail
  · rfl

theorem read?_of_nan {word : List Char} (hword : word.map Char.toLower = "nan".toList)
    (rest : List Char) : read? (word ++ rest) = some (.nan, readNanTag rest) := by
  obtain ⟨c, tail, rfl, hc, -⟩ := List.map_eq_cons_iff.mp hword
  have hnone (lower : List Char) : readWord? ('i' :: lower) (c :: tail ++ rest) = none := by
    rw [List.cons_append, readWord?, hc]
    rfl
  rw [read?, show "infinity".toList = 'i' :: "nfinity".toList from rfl, hnone,
    show "inf".toList = 'i' :: "nf".toList from rfl, hnone, readWord?_append hword]

end FloatBody

/-- **What is spelled is taken**, or more. -/
theorem SpellsBody.exists_read? (h : SpellsBody cs body) (rest : List Char) :
    ∃ body' rest', FloatBody.read? (cs ++ rest) = some (body', rest') ∧ rest' <:+ rest ∧
      (rest' = rest → body' = body) := by
  cases h with
  | number hmantissa hexponent =>
    obtain ⟨c, tail, rfl, hc⟩ := hmantissa.exists_cons
    rw [List.cons_append, List.cons_append, FloatBody.read?_of_isDigit_or_point hc]
    exact hmantissa.exists_readDecimal? hexponent rest
  | infinity hword =>
    rw [FloatBody.read?]
    obtain hword | hword := hword
    · split
      · next tail hread =>
        -- The longer of the two names was read.
        obtain ⟨front, hcs, hfront⟩ := readWord?_eq_some_iff.mp hread
        have hlong : front.length = 8 := by simpa using congrArg List.length hfront
        have hshort : cs.length = 3 := by simpa using congrArg List.length hword
        have hlength := congrArg List.length hcs
        simp only [List.length_append] at hlength
        refine ⟨_, _, rfl, ?_, fun _ ↦ rfl⟩
        exact List.suffix_of_suffix_length_le ⟨front, hcs.symm⟩ (List.suffix_append cs rest)
          (by omega)
      · rw [readWord?_append hword]
        exact ⟨_, _, rfl, List.suffix_refl rest, fun _ ↦ rfl⟩
    · rw [readWord?_append hword]
      exact ⟨_, _, rfl, List.suffix_refl rest, fun _ ↦ rfl⟩
  | nan hword =>
    exact ⟨_, _, FloatBody.read?_of_nan hword rest, readNanTag_suffix rest, fun _ ↦ rfl⟩
  | @tagged word tag hword htag =>
    have hcs : word ++ '(' :: (tag ++ [')']) ++ rest
        = word ++ '(' :: (tag ++ ')' :: rest) := by simp
    rw [hcs, FloatBody.read?_of_nan hword, readNanTag_tag htag]
    exact ⟨_, _, rfl, List.suffix_refl rest, fun _ ↦ rfl⟩

/-- A body starts with neither a blank nor a sign. -/
theorem SpellsBody.exists_cons (h : SpellsBody cs body) :
    ∃ c tail, cs = c :: tail ∧ isBlank c = false ∧ c ≠ '-' ∧ c ≠ '+' := by
  have hname {word lower : List Char} (rest : List Char) {d : Char}
      (hword : word.map Char.toLower = d :: lower) (hd : d = 'i' ∨ d = 'n') :
      ∃ c tail, word ++ rest = c :: tail ∧ isBlank c = false ∧ c ≠ '-' ∧ c ≠ '+' := by
    obtain ⟨c, tail, rfl, hc, -⟩ := List.map_eq_cons_iff.mp hword
    refine ⟨c, tail ++ rest, rfl, Bool.eq_false_of_not_eq_true fun hblank ↦ ?_, ?_, ?_⟩
    · have hall : [' ', '\t', '\n', '\x0b', '\x0c', '\r'].all
          (fun c ↦ c.toLower != 'i' && c.toLower != 'n') := by decide
      have hne := List.all_eq_true.mp hall c (isBlank_iff.mp hblank)
      rw [hc] at hne
      obtain rfl | rfl := hd <;> exact absurd hne (by decide)
    · rintro rfl
      obtain rfl | rfl := hd <;> exact absurd hc (by decide)
    · rintro rfl
      obtain rfl | rfl := hd <;> exact absurd hc (by decide)
  cases h with
  | number hmantissa hexponent =>
    obtain ⟨c, tail, rfl, hc | rfl⟩ := hmantissa.exists_cons
    · have hdigit : Radix.decimal.isDigit c := by rwa [Radix.isDigit_decimal]
      exact ⟨c, _, rfl, isBlank_eq_false_of_isDigit hdigit, ne_of_isDigit hdigit (by decide),
        ne_of_isDigit hdigit (by decide)⟩
    · exact ⟨'.', _, rfl, by decide, by decide, by decide⟩
  | infinity hword =>
    obtain hword | hword := hword
    · simpa using hname [] hword (.inl rfl)
    · simpa using hname [] hword (.inl rfl)
  | nan hword => simpa using hname [] hword (.inr rfl)
  | tagged hword htag => exact hname _ hword (.inr rfl)

end Bodies

end FormatString
