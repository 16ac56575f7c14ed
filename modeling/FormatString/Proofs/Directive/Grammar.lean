import Mathlib
import FormatString.Directive.Parse
import FormatString.Proofs.Number.Digits

/-!
# The notation of a directive

The functions that read a directive say what they do with any text; the relations of this file say
what a well-formed directive looks like. `Spells…` relates the characters of a field to its value,
one constructor for each way of writing it.

## Reading and spelling

Every field has two lemmas. What is read off the front of a text was spelled there (`…_sound`), and
a field that is spelled at the front of a text is read back, provided that nothing follows that
could belong to it (`…_append`). No such proviso is left for a whole header: a conversion letter
comes behind it, and that can belong to no field.
-/

namespace FormatString

theorem bind_eq_ok_iff {ε α β : Type} {x : Except ε α} {f : α → Except ε β} {b : β} :
    x >>= f = .ok b ↔ ∃ a, x = .ok a ∧ f a = .ok b := by
  cases x <;> simp [bind, Except.bind]

/-! ## Numbers and slots -/

/-- A decimal numeral of a number within the limit. -/
structure Numeral (ds : List Char) (n : Nat) : Prop where
  ne_nil : ds ≠ []
  digits : ∀ c ∈ ds, Radix.decimal.isDigit c
  value : valueOf .decimal (digitRun .decimal ds) = n
  le : n ≤ numberLimit

/-- A numeral that may be left out. -/
inductive SpellsNumber : List Char → Option Nat → Prop where
  | absent : SpellsNumber [] none
  | numeral {ds : List Char} {n : Nat} (h : Numeral ds n) : SpellsNumber ds (some n)

/-- A slot: a numeral other than zero, and a colon. -/
inductive SpellsSlot : List Char → Nat → Prop where
  | numeral {ds : List Char} {n : Nat} (h : Numeral ds n) (hn : n ≠ 0) : SpellsSlot (ds ++ [':']) n

theorem readNumber_append {ds rest : List Char} {number : Option Nat}
    (h : SpellsNumber ds number) (hrest : NotNext Radix.decimal.isDigit rest) :
    readNumber (ds ++ rest) = .ok (number, rest) := by
  cases h with
  | absent =>
    rw [List.nil_append, readNumber, digitRun_eq_nil_iff.mpr hrest]
    rfl
  | @numeral _ n h =>
    have hlength := length_digitRun h.digits
    have hne : (digitRun .decimal ds).isEmpty = false := by
      rw [List.isEmpty_eq_false_iff, ← List.length_pos_iff, hlength, List.length_pos_iff]
      exact h.ne_nil
    rw [readNumber, digitRun_append h.digits hrest, hne, h.value, if_neg Bool.false_ne_true,
      if_pos h.le, hlength, List.drop_left]

theorem readNumber_sound {cs rest : List Char} {number : Option Nat}
    (h : readNumber cs = .ok (number, rest)) :
    ∃ ds, cs = ds ++ rest ∧ SpellsNumber ds number ∧ NotNext Radix.decimal.isDigit rest := by
  obtain ⟨ds, tail, rfl, hds, htail⟩ := exists_digits_append .decimal cs
  have hlength := length_digitRun hds
  rw [readNumber, digitRun_append hds htail, hlength, List.drop_left] at h
  split at h
  · next hempty =>
    obtain ⟨rfl, rfl⟩ := Prod.mk.inj (Except.ok.inj h)
    rw [List.isEmpty_iff_length_eq_zero, hlength, List.length_eq_zero_iff] at hempty
    exact ⟨[], rfl, .absent, by rwa [hempty]⟩
  · next hempty =>
    split at h
    · next hle =>
      obtain ⟨rfl, rfl⟩ := Prod.mk.inj (Except.ok.inj h)
      refine ⟨ds, rfl, .numeral ⟨?_, hds, rfl, hle⟩, htail⟩
      rintro rfl
      exact hempty rfl
    · exact absurd h (by simp)

theorem readSlot_append {cs : List Char} {slot : Nat} (h : SpellsSlot cs slot) (rest : List Char) :
    readSlot (cs ++ rest) = .ok (slot, rest) := by
  obtain ⟨h, hslot⟩ := h
  have hcolon : NotNext Radix.decimal.isDigit (':' :: rest) := notNext_cons.mpr (by decide)
  rw [List.append_assoc, List.singleton_append, readSlot,
    readNumber_append (.numeral h) hcolon]
  exact if_neg hslot

theorem readSlot_sound {cs rest : List Char} {slot : Nat} (h : readSlot cs = .ok (slot, rest)) :
    ∃ pre, cs = pre ++ rest ∧ SpellsSlot pre slot := by
  obtain ⟨⟨number, tail⟩, hnumber, hslot⟩ := bind_eq_ok_iff.mp h
  obtain ⟨ds, rfl, hds, -⟩ := readNumber_sound hnumber
  split at hslot
  · exact absurd hslot (by simp)
  · next n tail heq =>
    obtain ⟨rfl, rfl⟩ := Prod.mk.inj heq
    split at hslot
    · exact absurd hslot (by simp)
    · next hn =>
      obtain ⟨rfl, rfl⟩ := Prod.mk.inj (Except.ok.inj hslot)
      cases hds with
      | numeral hds =>
        exact ⟨ds ++ [':'], by rw [List.append_assoc, List.singleton_append], .numeral hds hn⟩
  · exact absurd hslot (by simp)

/-! ## Stars and amounts -/

/-- A `*`, which names a slot in the ordered dialect. -/
inductive SpellsStar : Dialect → List Char → Amount → Prop where
  | next {dialect : Dialect} (h : dialect ≠ .ordered) : SpellsStar dialect ['*'] (.argument none)
  | slot {cs : List Char} {n : Nat} (h : SpellsSlot cs n) :
    SpellsStar .ordered ('*' :: cs) (.argument (some n))

/-- A `*` or a numeral, or nothing. -/
inductive SpellsAmount (dialect : Dialect) : List Char → Option Amount → Prop where
  | absent : SpellsAmount dialect [] none
  | star {cs : List Char} {a : Amount} (h : SpellsStar dialect cs a) :
    SpellsAmount dialect cs (some a)
  | literal {ds : List Char} {n : Nat} (h : Numeral ds n) :
    SpellsAmount dialect ds (some (.literal n))

/-- A star comes next. -/
def isStar (c : Char) : Bool := c == '*'

theorem readStar_of_notNext {dialect : Dialect} {cs : List Char} (h : NotNext isStar cs) :
    readStar dialect cs = .ok (none, cs) := by
  unfold readStar
  split
  · exact absurd (notNext_cons.mp h) (by decide)
  · rfl

theorem readStar_append {dialect : Dialect} {cs : List Char} {a : Amount}
    (h : SpellsStar dialect cs a) (rest : List Char) :
    readStar dialect (cs ++ rest) = .ok (some a, rest) := by
  cases h with
  | next h => exact if_neg h
  | slot h =>
    rw [List.cons_append, readStar, if_pos rfl, readSlot_append h]
    rfl

theorem readStar_sound {dialect : Dialect} {cs rest : List Char} {star : Option Amount}
    (h : readStar dialect cs = .ok (star, rest)) :
    star = none ∧ rest = cs ∨
      ∃ pre a, star = some a ∧ cs = pre ++ rest ∧ SpellsStar dialect pre a := by
  unfold readStar at h
  split at h
  · next tail =>
    split at h
    · next hdialect =>
      obtain ⟨⟨slot, rest'⟩, hslot, heq⟩ := bind_eq_ok_iff.mp h
      obtain ⟨rfl, rfl⟩ := Prod.mk.inj (Except.ok.inj heq)
      obtain ⟨pre, rfl, hpre⟩ := readSlot_sound hslot
      exact .inr ⟨'*' :: pre, _, rfl, rfl, hdialect ▸ .slot hpre⟩
    · next hdialect =>
      obtain ⟨rfl, rfl⟩ := Prod.mk.inj (Except.ok.inj h)
      exact .inr ⟨['*'], _, rfl, rfl, .next hdialect⟩
  · obtain ⟨rfl, rfl⟩ := Prod.mk.inj (Except.ok.inj h)
    exact .inl ⟨rfl, rfl⟩

theorem Numeral.notNext_isStar {ds : List Char} {n : Nat} (h : Numeral ds n) (rest : List Char) :
    NotNext isStar (ds ++ rest) := by
  cases ds with
  | nil => exact absurd rfl h.ne_nil
  | cons c ds =>
    refine notNext_cons.mpr (beq_eq_false_iff_ne.mpr ?_)
    rintro rfl
    exact absurd (h.digits '*' List.mem_cons_self) (by decide)

theorem readAmount_append {dialect : Dialect} {cs rest : List Char} {amount : Option Amount}
    (h : SpellsAmount dialect cs amount) (hstar : NotNext isStar rest)
    (hdigit : NotNext Radix.decimal.isDigit rest) :
    readAmount dialect (cs ++ rest) = .ok (amount, rest) := by
  cases h with
  | absent =>
    rw [List.nil_append, readAmount, readStar_of_notNext hstar]
    change readNumber ([] ++ rest) >>= _ = _
    rw [readNumber_append .absent hdigit]
    rfl
  | star h =>
    rw [readAmount, readStar_append h]
    rfl
  | literal h =>
    rw [readAmount, readStar_of_notNext (h.notNext_isStar rest)]
    change readNumber (cs ++ rest) >>= _ = _
    rw [readNumber_append (.numeral h) hdigit]
    rfl

theorem readAmount_sound {dialect : Dialect} {cs rest : List Char} {amount : Option Amount}
    (h : readAmount dialect cs = .ok (amount, rest)) :
    ∃ pre, cs = pre ++ rest ∧ SpellsAmount dialect pre amount := by
  obtain ⟨⟨star, tail⟩, hstar, hamount⟩ := bind_eq_ok_iff.mp h
  obtain ⟨rfl, rfl⟩ | ⟨pre, a, rfl, rfl, hpre⟩ := readStar_sound hstar
  · obtain ⟨⟨number, tail⟩, hnumber, heq⟩ := bind_eq_ok_iff.mp hamount
    obtain ⟨rfl, rfl⟩ := Prod.mk.inj (Except.ok.inj heq)
    obtain ⟨ds, rfl, hds, -⟩ := readNumber_sound hnumber
    refine ⟨ds, rfl, ?_⟩
    cases hds with
    | absent => exact .absent
    | numeral hds => exact .literal hds
  · obtain ⟨rfl, rfl⟩ := Prod.mk.inj (Except.ok.inj hamount)
    exact ⟨pre, rfl, .star hpre⟩

/-! ## Index, flags, width and precision -/

/-- The slot in front of a directive of the ordered dialect. -/
inductive SpellsIndex : Dialect → List Char → Option Nat → Prop where
  | absent {dialect : Dialect} (h : dialect ≠ .ordered) : SpellsIndex dialect [] none
  | slot {cs : List Char} {n : Nat} (h : SpellsSlot cs n) : SpellsIndex .ordered cs (some n)

/-- Flags in any order, repeated or not, and for reading nothing but one `*`. -/
inductive SpellsFlags : Dialect → List Char → Flags → Prop where
  | writer {dialect : Dialect} {cs : List Char} {flags : Flags} (hdialect : dialect ≠ .scan)
    (h : cs.foldlM Flags.set? {} = some flags) : SpellsFlags dialect cs flags
  | absent : SpellsFlags .scan [] {}
  | suppress : SpellsFlags .scan ['*'] { suppress := true }

/-- The width: an amount that does not start with a zero, and for reading any numeral. -/
inductive SpellsWidth : Dialect → List Char → Option Amount → Prop where
  | writer {dialect : Dialect} {cs : List Char} {width : Option Amount} (hdialect : dialect ≠ .scan)
    (hzero : cs.head? ≠ some '0') (h : SpellsAmount dialect cs width) : SpellsWidth dialect cs width
  | reader {cs : List Char} {number : Option Nat} (h : SpellsNumber cs number) :
    SpellsWidth .scan cs (number.map .literal)

/-- The precision: a point and an amount, zero if there is none. -/
inductive SpellsPrecision (dialect : Dialect) : List Char → Option Amount → Prop where
  | absent : SpellsPrecision dialect [] none
  | point {cs : List Char} {amount : Option Amount} (hdialect : dialect ≠ .scan)
    (h : SpellsAmount dialect cs amount) :
    SpellsPrecision dialect ('.' :: cs) (some (amount.getD (.literal 0)))

theorem readIndex_append {dialect : Dialect} {cs : List Char} {index : Option Nat}
    (h : SpellsIndex dialect cs index) (rest : List Char) :
    readIndex dialect (cs ++ rest) = .ok (index, rest) := by
  cases h with
  | absent h => exact if_neg h
  | slot h =>
    rw [readIndex, if_pos rfl, readSlot_append h]
    rfl

theorem readIndex_sound {dialect : Dialect} {cs rest : List Char} {index : Option Nat}
    (h : readIndex dialect cs = .ok (index, rest)) :
    ∃ pre, cs = pre ++ rest ∧ SpellsIndex dialect pre index := by
  rw [readIndex] at h
  split at h
  · next hdialect =>
    obtain ⟨⟨slot, tail⟩, hslot, heq⟩ := bind_eq_ok_iff.mp h
    obtain ⟨rfl, rfl⟩ := Prod.mk.inj (Except.ok.inj heq)
    obtain ⟨pre, rfl, hpre⟩ := readSlot_sound hslot
    exact ⟨pre, rfl, hdialect ▸ .slot hpre⟩
  · next hdialect =>
    obtain ⟨rfl, rfl⟩ := Prod.mk.inj (Except.ok.inj h)
    exact ⟨[], rfl, .absent hdialect⟩

/-- The character is a flag. -/
def isFlag (c : Char) : Bool := (Flags.set? {} c).isSome

theorem isSome_set? (flags : Flags) (c : Char) : (flags.set? c).isSome = isFlag c := by
  rw [isFlag, Flags.set?.eq_def, Flags.set?.eq_def]
  split <;> rfl

theorem isFlag_iff {c : Char} : isFlag c ↔ c ∈ ['#', '0', '-', ' ', '+', '\''] := by
  rw [isFlag, Flags.set?.eq_def]
  split <;> simp_all

theorem readWriterFlags_append {flags flags' : Flags} {cs rest : List Char}
    (h : cs.foldlM Flags.set? flags = some flags') (hrest : NotNext isFlag rest) :
    readWriterFlags flags (cs ++ rest) = (flags', rest) := by
  induction cs generalizing flags with
  | nil =>
    obtain rfl := Option.some.inj h
    cases rest with
    | nil => rfl
    | cons c rest =>
      have hnone : flags.set? c = none := by
        rw [← Option.not_isSome_iff_eq_none, isSome_set?, notNext_cons.mp hrest]
        exact Bool.false_ne_true
      rw [List.nil_append, readWriterFlags, hnone]
  | cons c cs ih =>
    obtain ⟨next, hnext, h⟩ := Option.bind_eq_some_iff.mp h
    rw [List.cons_append, readWriterFlags, hnext]
    exact ih h

theorem readWriterFlags_sound {flags flags' : Flags} {cs rest : List Char}
    (h : readWriterFlags flags cs = (flags', rest)) :
    ∃ pre, cs = pre ++ rest ∧ pre.foldlM Flags.set? flags = some flags' ∧ NotNext isFlag rest := by
  induction cs generalizing flags with
  | nil =>
    obtain ⟨rfl, rfl⟩ := Prod.mk.inj h
    exact ⟨[], rfl, rfl, notNext_nil⟩
  | cons c cs ih =>
    rw [readWriterFlags] at h
    split at h
    · next next hnext =>
      obtain ⟨pre, rfl, hpre, hrest⟩ := ih h
      exact ⟨c :: pre, rfl, Option.bind_eq_some_iff.mpr ⟨next, hnext, hpre⟩, hrest⟩
    · next hnone =>
      obtain ⟨rfl, rfl⟩ := Prod.mk.inj h
      refine ⟨[], rfl, rfl, notNext_cons.mpr ?_⟩
      rw [← isSome_set? flags, hnone]
      rfl

theorem readFlags_append {dialect : Dialect} {cs rest : List Char} {flags : Flags}
    (h : SpellsFlags dialect cs flags) (hflag : dialect ≠ .scan → NotNext isFlag rest)
    (hstar : dialect = .scan → NotNext isStar rest) :
    readFlags dialect (cs ++ rest) = (flags, rest) := by
  cases h with
  | writer hdialect h =>
    unfold readFlags
    rw [if_neg hdialect]
    exact readWriterFlags_append h (hflag hdialect)
  | absent =>
    unfold readFlags
    rw [if_pos rfl, List.nil_append]
    split
    · exact absurd (notNext_cons.mp (hstar rfl)) (by decide)
    · rfl
  | suppress => rfl

theorem readFlags_sound {dialect : Dialect} {cs rest : List Char} {flags : Flags}
    (h : readFlags dialect cs = (flags, rest)) :
    ∃ pre, cs = pre ++ rest ∧ SpellsFlags dialect pre flags ∧
      (dialect ≠ .scan → NotNext isFlag rest) := by
  unfold readFlags at h
  split at h
  · next hdialect =>
    subst hdialect
    split at h
    · next tail =>
      obtain ⟨rfl, rfl⟩ := Prod.mk.inj h
      exact ⟨['*'], rfl, .suppress, fun hne ↦ absurd rfl hne⟩
    · obtain ⟨rfl, rfl⟩ := Prod.mk.inj h
      exact ⟨[], rfl, .absent, fun hne ↦ absurd rfl hne⟩
  · next hdialect =>
    obtain ⟨pre, rfl, hpre, hrest⟩ := readWriterFlags_sound h
    exact ⟨pre, rfl, .writer hdialect hpre, fun _ ↦ hrest⟩

theorem readWidth_append {dialect : Dialect} {cs rest : List Char} {width : Option Amount}
    (h : SpellsWidth dialect cs width) (hstar : NotNext isStar rest)
    (hdigit : NotNext Radix.decimal.isDigit rest) :
    readWidth dialect (cs ++ rest) = .ok (width, rest) := by
  cases h with
  | writer hdialect _ h =>
    rw [readWidth, if_neg hdialect]
    exact readAmount_append h hstar hdigit
  | reader h =>
    rw [readWidth, if_pos rfl, readNumber_append h hdigit]
    rfl

theorem readWidth_sound {dialect : Dialect} {cs rest : List Char} {width : Option Amount}
    (h : readWidth dialect cs = .ok (width, rest)) (hflag : dialect ≠ .scan → NotNext isFlag cs) :
    ∃ pre, cs = pre ++ rest ∧ SpellsWidth dialect pre width := by
  rw [readWidth] at h
  split at h
  · next hdialect =>
    obtain ⟨⟨number, tail⟩, hnumber, heq⟩ := bind_eq_ok_iff.mp h
    obtain ⟨rfl, rfl⟩ := Prod.mk.inj (Except.ok.inj heq)
    obtain ⟨ds, rfl, hds, -⟩ := readNumber_sound hnumber
    exact ⟨ds, rfl, hdialect ▸ .reader hds⟩
  · next hdialect =>
    obtain ⟨pre, rfl, hpre⟩ := readAmount_sound h
    refine ⟨pre, rfl, .writer hdialect (fun hzero ↦ ?_) hpre⟩
    have hnot := hflag hdialect '0' (by rw [List.head?_append, hzero]; rfl)
    exact absurd hnot (by decide)

/-- A precision starts with a point. -/
def isPoint (c : Char) : Bool := c == '.'

theorem readPrecision_append {dialect : Dialect} {cs rest : List Char} {precision : Option Amount}
    (h : SpellsPrecision dialect cs precision) (hpoint : NotNext isPoint rest)
    (hstar : NotNext isStar rest) (hdigit : NotNext Radix.decimal.isDigit rest) :
    readPrecision dialect (cs ++ rest) = .ok (precision, rest) := by
  cases h with
  | absent =>
    rw [List.nil_append]
    unfold readPrecision
    split
    · exact absurd (notNext_cons.mp hpoint) (by decide)
    · rfl
  | point hdialect h =>
    rw [List.cons_append, readPrecision, if_neg hdialect, readAmount_append h hstar hdigit]
    rfl

theorem readPrecision_sound {dialect : Dialect} {cs rest : List Char} {precision : Option Amount}
    (h : readPrecision dialect cs = .ok (precision, rest)) :
    ∃ pre, cs = pre ++ rest ∧ SpellsPrecision dialect pre precision := by
  unfold readPrecision at h
  split at h
  · split at h
    · obtain ⟨rfl, rfl⟩ := Prod.mk.inj (Except.ok.inj h)
      exact ⟨[], rfl, .absent⟩
    · next hdialect =>
      obtain ⟨⟨amount, tail⟩, hamount, heq⟩ := bind_eq_ok_iff.mp h
      obtain ⟨rfl, rfl⟩ := Prod.mk.inj (Except.ok.inj heq)
      obtain ⟨pre, rfl, hpre⟩ := readAmount_sound hamount
      exact ⟨'.' :: pre, rfl, .point hdialect hpre⟩
  · obtain ⟨rfl, rfl⟩ := Prod.mk.inj (Except.ok.inj h)
    exact ⟨[], rfl, .absent⟩

/-! ## Length modifiers and conversion letters -/

/-- The spellings of the length modifiers. -/
def lengthSpellings : List (List Char × LengthModifier) :=
  [([], .none), (['h', 'h'], .shorter), (['h'], .short), (['l', 'l'], .longer), (['l'], .long),
    (['q'], .longer), (['L'], .longDouble), (['j'], .longest), (['z'], .size), (['Z'], .size),
    (['t'], .ptrDiff), (['w'], .wide), (['I', '8'], .bits 8), (['I', '1', '6'], .bits 16),
    (['I', '3', '2'], .bits 32), (['I', '6', '4'], .bits 64), (['I'], .size)]

/-- The letters of the conversions. -/
def conversionLetters : List Char :=
  ['d', 'i', 'u', 'o', 'x', 'X', 'b', 'B', 'e', 'E', 'f', 'F', 'g', 'G', 'c', 's', '[', 'p', 'n',
    '%']

theorem mem_conversionLetters {c : Char} {k : Conversion} (h : Conversion.ofLetter? c = some k) :
    c ∈ conversionLetters := by
  rw [Conversion.ofLetter?.eq_def] at h
  split at h
  all_goals first | decide | exact absurd h (by simp)

/-- The characters that the end of a header or the conversion can start with. -/
def endLetters : List Char :=
  ['h', 'l', 'q', 'L', 'j', 'z', 'Z', 't', 'w', 'I'] ++ conversionLetters

theorem readLength_append {cs : List Char} {length : LengthModifier}
    (h : (cs, length) ∈ lengthSpellings) {c : Char} (hc : c ∈ conversionLetters)
    (rest : List Char) : readLength (cs ++ c :: rest) = (length, c :: rest) := by
  have hall : ∀ e ∈ lengthSpellings, ∀ c ∈ conversionLetters,
      readLength (e.1 ++ c :: rest) = (e.2, c :: rest) := by
    simp only [lengthSpellings, conversionLetters, List.forall_mem_cons]
    repeat' constructor
    all_goals exact fun _ hnil ↦ absurd hnil List.not_mem_nil
  exact hall _ h c hc

theorem readLength_sound {cs rest : List Char} {length : LengthModifier}
    (h : readLength cs = (length, rest)) :
    ∃ pre, cs = pre ++ rest ∧ (pre, length) ∈ lengthSpellings := by
  unfold readLength at h
  split at h <;> obtain ⟨rfl, rfl⟩ := Prod.mk.inj h
  exacts [⟨['h', 'h'], rfl, by decide⟩, ⟨['h'], rfl, by decide⟩, ⟨['l', 'l'], rfl, by decide⟩,
    ⟨['l'], rfl, by decide⟩, ⟨['q'], rfl, by decide⟩, ⟨['L'], rfl, by decide⟩,
    ⟨['j'], rfl, by decide⟩, ⟨['z'], rfl, by decide⟩, ⟨['Z'], rfl, by decide⟩,
    ⟨['t'], rfl, by decide⟩, ⟨['w'], rfl, by decide⟩, ⟨['I', '8'], rfl, by decide⟩,
    ⟨['I', '1', '6'], rfl, by decide⟩, ⟨['I', '3', '2'], rfl, by decide⟩,
    ⟨['I', '6', '4'], rfl, by decide⟩, ⟨['I'], rfl, by decide⟩, ⟨[], rfl, by decide⟩]

/-- In front of the conversion, only the characters of `endLetters` can come behind a precision. -/
theorem notNext_length_append {p : Char → Bool} (hp : endLetters.all fun a ↦ !p a)
    {cs : List Char} {length : LengthModifier} (h : (cs, length) ∈ lengthSpellings) {c : Char}
    (hc : c ∈ conversionLetters) (rest : List Char) : NotNext p (cs ++ c :: rest) := by
  have hend {a : Char} (ha : a ∈ endLetters) : p a = false := by
    simpa using List.all_eq_true.mp hp a ha
  have hheads : lengthSpellings.all fun e ↦ e.1.head?.all endLetters.contains := by decide
  refine NotNext.append (fun a ha ↦ hend ?_) (notNext_cons.mpr (hend ?_))
  · have hhead := List.all_eq_true.mp hheads _ h
    rw [Option.mem_def.mp ha] at hhead
    exact List.contains_iff_mem.mp hhead
  · exact List.mem_append_right _ hc

/-! ## Headers -/

/-- The fields of a header, one behind the other. -/
inductive SpellsHeader (dialect : Dialect) : List Char → Header → Prop where
  | fields {i f w p l : List Char} {header : Header} (hindex : SpellsIndex dialect i header.index)
    (hflags : SpellsFlags dialect f header.flags) (hwidth : SpellsWidth dialect w header.width)
    (hprecision : SpellsPrecision dialect p header.precision)
    (hlength : (l, header.length) ∈ lengthSpellings) :
    SpellsHeader dialect (i ++ (f ++ (w ++ (p ++ l)))) header

theorem SpellsPrecision.notNext {p : Char → Bool} (hp : p '.' = false) {dialect : Dialect}
    {cs rest : List Char} {precision : Option Amount} (h : SpellsPrecision dialect cs precision)
    (hrest : NotNext p rest) : NotNext p (cs ++ rest) := by
  cases h with
  | absent => exact hrest
  | point => exact notNext_cons.mpr hp

theorem SpellsStar.exists_cons {dialect : Dialect} {cs : List Char} {a : Amount}
    (h : SpellsStar dialect cs a) : ∃ tail, cs = '*' :: tail := by
  cases h with
  | next => exact ⟨[], rfl⟩
  | slot => exact ⟨_, rfl⟩

/-- A digit other than zero is no flag. -/
theorem isFlag_eq_false_of_isDigit {c : Char} (h : Radix.decimal.isDigit c) (hzero : c ≠ '0') :
    isFlag c = false := by
  refine Bool.eq_false_of_not_eq_true fun hflag ↦ ?_
  have hmem := isFlag_iff.mp hflag
  simp only [List.mem_cons, List.not_mem_nil, or_false] at hmem
  obtain rfl | rfl | rfl | rfl | rfl | rfl := hmem
  · exact absurd h (by decide)
  · exact hzero rfl
  all_goals exact absurd h (by decide)

theorem SpellsWidth.notNext_isFlag {dialect : Dialect} {cs rest : List Char}
    {width : Option Amount} (h : SpellsWidth dialect cs width) (hdialect : dialect ≠ .scan)
    (hrest : NotNext isFlag rest) : NotNext isFlag (cs ++ rest) := by
  cases h with
  | writer _ hzero h =>
    cases h with
    | absent => exact hrest
    | star h =>
      obtain ⟨tail, rfl⟩ := h.exists_cons
      exact notNext_cons.mpr (by decide)
    | literal h =>
      cases cs with
      | nil => exact absurd rfl h.ne_nil
      | cons c cs =>
        refine notNext_cons.mpr (isFlag_eq_false_of_isDigit (h.digits c List.mem_cons_self) ?_)
        rintro rfl
        exact hzero rfl
  | reader => exact absurd rfl hdialect

theorem SpellsWidth.notNext_isStar {cs rest : List Char} {width : Option Amount}
    (h : SpellsWidth .scan cs width) (hrest : NotNext isStar rest) :
    NotNext isStar (cs ++ rest) := by
  cases h with
  | writer hdialect => exact absurd rfl hdialect
  | reader h =>
    cases h with
    | absent => exact hrest
    | numeral h => exact h.notNext_isStar rest

/-- **A header is read back.** It ends where it was meant to, because the conversion behind it can
belong to none of its fields. -/
theorem Header.read_append {dialect : Dialect} {cs : List Char} {header : Header}
    (h : SpellsHeader dialect cs header) {c : Char} (hc : c ∈ conversionLetters)
    (rest : List Char) : Header.read dialect (cs ++ c :: rest) = .ok (header, c :: rest) := by
  obtain ⟨hindex, hflags, hwidth, hprecision, hlength⟩ := h
  rename_i i f w p l
  -- A field ends where the next one starts, and the last one in front of the length modifier.
  have hend {q : Char → Bool} (hq : endLetters.all fun a ↦ !q a) :
      NotNext q (l ++ c :: rest) := notNext_length_append hq hlength hc rest
  have hstar : NotNext isStar (p ++ (l ++ c :: rest)) :=
    hprecision.notNext (by decide) (hend (by decide))
  have hdigit : NotNext Radix.decimal.isDigit (p ++ (l ++ c :: rest)) :=
    hprecision.notNext (by decide) (hend (by decide))
  have hread : readFlags dialect (f ++ (w ++ (p ++ (l ++ c :: rest))))
      = (header.flags, w ++ (p ++ (l ++ c :: rest))) := by
    refine readFlags_append hflags (fun hdialect ↦ ?_) (fun hdialect ↦ ?_)
    · exact hwidth.notNext_isFlag hdialect (hprecision.notNext (by decide) (hend (by decide)))
    · subst hdialect
      exact hwidth.notNext_isStar hstar
  simp only [List.append_assoc]
  refine bind_eq_ok_iff.mpr ⟨_, readIndex_append hindex _, ?_⟩
  dsimp only
  rw [hread]
  refine bind_eq_ok_iff.mpr ⟨_, readWidth_append hwidth hstar hdigit, ?_⟩
  refine bind_eq_ok_iff.mpr ⟨_, readPrecision_append hprecision (hend (by decide))
    (hend (by decide)) (hend (by decide)), ?_⟩
  dsimp only
  rw [readLength_append hlength hc]

/-- What is read off as a header was spelled as one. -/
theorem Header.read_sound {dialect : Dialect} {cs rest : List Char} {header : Header}
    (h : Header.read dialect cs = .ok (header, rest)) :
    ∃ pre, cs = pre ++ rest ∧ SpellsHeader dialect pre header := by
  obtain ⟨⟨index, cs₁⟩, hindex, h₁⟩ := bind_eq_ok_iff.mp h
  obtain ⟨i, rfl, hi⟩ := readIndex_sound hindex
  rcases hflags : readFlags dialect cs₁ with ⟨flags, cs₂⟩
  dsimp only at h₁
  rw [hflags] at h₁
  obtain ⟨f, rfl, hf, hflag⟩ := readFlags_sound hflags
  obtain ⟨⟨width, cs₃⟩, hwidth, h₂⟩ := bind_eq_ok_iff.mp h₁
  obtain ⟨w, rfl, hw⟩ := readWidth_sound hwidth hflag
  obtain ⟨⟨precision, cs₄⟩, hprecision, h₃⟩ := bind_eq_ok_iff.mp h₂
  obtain ⟨p, rfl, hp⟩ := readPrecision_sound hprecision
  rcases hlength : readLength cs₄ with ⟨length, cs₅⟩
  dsimp only at h₃
  rw [hlength] at h₃
  obtain ⟨rfl, rfl⟩ := Prod.mk.inj (Except.ok.inj h₃)
  obtain ⟨l, rfl, hl⟩ := readLength_sound hlength
  refine ⟨i ++ (f ++ (w ++ (p ++ l))), ?_, .fields hi hf hw hp hl⟩
  simp only [List.append_assoc]

/-! ## Every field is ASCII -/

theorem Numeral.ascii {ds : List Char} {n : Nat} (h : Numeral ds n) : ∀ c ∈ ds, c.toNat < 0x80 := by
  intro c hc
  have hdigit := h.digits c hc
  rw [Radix.isDigit_decimal, Char.isDigit, Bool.and_eq_true, decide_eq_true_iff,
    decide_eq_true_iff] at hdigit
  have hle : c.toNat ≤ 57 := hdigit.2
  omega

theorem SpellsSlot.ascii {cs : List Char} {slot : Nat} (h : SpellsSlot cs slot) :
    ∀ c ∈ cs, c.toNat < 0x80 := by
  obtain ⟨h, -⟩ := h
  exact List.forall_mem_append.mpr ⟨h.ascii, by simp⟩

theorem SpellsAmount.ascii {dialect : Dialect} {cs : List Char} {amount : Option Amount}
    (h : SpellsAmount dialect cs amount) : ∀ c ∈ cs, c.toNat < 0x80 := by
  cases h with
  | absent => simp
  | star h =>
    cases h with
    | next => simp
    | slot h => exact List.forall_mem_cons.mpr ⟨by decide, h.ascii⟩
  | literal h => exact h.ascii

theorem SpellsIndex.ascii {dialect : Dialect} {cs : List Char} {index : Option Nat}
    (h : SpellsIndex dialect cs index) : ∀ c ∈ cs, c.toNat < 0x80 := by
  cases h with
  | absent => simp
  | slot h => exact h.ascii

theorem isFlag_of_foldlM {flags flags' : Flags} {cs : List Char}
    (h : cs.foldlM Flags.set? flags = some flags') : ∀ c ∈ cs, isFlag c := by
  induction cs generalizing flags with
  | nil => simp
  | cons c cs ih =>
    obtain ⟨next, hnext, h⟩ := Option.bind_eq_some_iff.mp h
    refine List.forall_mem_cons.mpr ⟨?_, ih h⟩
    rw [← isSome_set? flags, hnext]
    rfl

theorem SpellsFlags.ascii {dialect : Dialect} {cs : List Char} {flags : Flags}
    (h : SpellsFlags dialect cs flags) : ∀ c ∈ cs, c.toNat < 0x80 := by
  cases h with
  | writer _ h =>
    have hflags : ∀ c ∈ ['#', '0', '-', ' ', '+', '\''], c.toNat < 0x80 := by simp
    intro c hc
    exact hflags c (isFlag_iff.mp (isFlag_of_foldlM h c hc))
  | absent => simp
  | suppress => simp

theorem SpellsWidth.ascii {dialect : Dialect} {cs : List Char} {width : Option Amount}
    (h : SpellsWidth dialect cs width) : ∀ c ∈ cs, c.toNat < 0x80 := by
  cases h with
  | writer _ _ h => exact h.ascii
  | reader h =>
    cases h with
    | absent => simp
    | numeral h => exact h.ascii

theorem SpellsPrecision.ascii {dialect : Dialect} {cs : List Char} {precision : Option Amount}
    (h : SpellsPrecision dialect cs precision) : ∀ c ∈ cs, c.toNat < 0x80 := by
  cases h with
  | absent => simp
  | point _ h => exact List.forall_mem_cons.mpr ⟨by decide, h.ascii⟩

theorem SpellsHeader.ascii {dialect : Dialect} {cs : List Char} {header : Header}
    (h : SpellsHeader dialect cs header) : ∀ c ∈ cs, c.toNat < 0x80 := by
  obtain ⟨hindex, hflags, hwidth, hprecision, hlength⟩ := h
  have hl : ∀ e ∈ lengthSpellings, ∀ c ∈ e.1, c.toNat < 0x80 := by simp [lengthSpellings]
  simp only [List.forall_mem_append]
  exact ⟨hindex.ascii, hflags.ascii, hwidth.ascii, hprecision.ascii, hl _ hlength⟩

theorem ascii_of_mem_conversionLetters {c : Char} (h : c ∈ conversionLetters) : c.toNat < 0x80 := by
  have hletters : ∀ c ∈ conversionLetters, c.toNat < 0x80 := by simp [conversionLetters]
  exact hletters c h

end FormatString
