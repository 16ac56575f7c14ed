import Mathlib
import FormatString.Proofs.Number.Digits
import FormatString.Proofs.Number.IntType

/-!
# Integer literals

An integer literal is a sign, a mark of its radix and digits, the first two of which may be missing.
Read in its own radix, and with nothing but blanks behind it, it gives its value and is consumed
whole. What has to be shut out is that a mark is seen where there is none: `0` and a letter that
makes a mark with it, the letter being a digit or coming from behind.
-/

namespace FormatString

/-! ## Spelling -/

/-- A sign that may be missing; `true` is negative. -/
inductive SpellsSign : List Char → Bool → Prop where
  | absent : SpellsSign [] false
  | plus : SpellsSign ['+'] false
  | minus : SpellsSign ['-'] true

/-- A mark of the radix that may be missing. -/
inductive SpellsMark : Radix → List Char → Prop where
  | absent {r : Radix} : SpellsMark r []
  | hexadecimal {m : Char} (h : m = 'x' ∨ m = 'X') : SpellsMark .hexadecimal ['0', m]
  | binary {m : Char} (h : m = 'b' ∨ m = 'B') : SpellsMark .binary ['0', m]

/-- A sign, a mark and digits of an integer in radix `r`. -/
inductive SpellsInt (r : Radix) : List Char → Int → Prop where
  | literal {sign mark ds : List Char} {negative : Bool} (hsign : SpellsSign sign negative)
    (hmark : SpellsMark r mark) (hne : ds ≠ []) (hds : ∀ c ∈ ds, r.isDigit c) :
    SpellsInt r (sign ++ (mark ++ ds))
      (if negative then -(valueOf r (digitRun r ds) : Int) else valueOf r (digitRun r ds))

/-! ## The cap on magnitudes -/

/-- The number the literal stands for, without a cap. -/
def IntLiteral.exact (l : IntLiteral) : Int :=
  if l.negative then -(valueOf l.radix l.digits : Int) else valueOf l.radix l.digits

/-- The cap is out of range for every type, on either side. -/
theorem IntType.cap_out_of_range (t : IntType) :
    -(magnitudeCap : Int) < t.min ∧ t.max < magnitudeCap ∧ t.unsignedMax < magnitudeCap := by
  rcases t with ⟨width, _ | _⟩ <;> cases width <;> decide

/-- **The cap does not show** once the number is fitted into a type. -/
theorem IntType.clamp_value (t : IntType) (l : IntLiteral) :
    t.clamp l.radix l.value = t.clamp l.radix l.exact := by
  obtain ⟨hmin, hmax, hunsigned⟩ := t.cap_out_of_range
  rw [IntLiteral.value, IntLiteral.exact, cappedValueOf_eq_min]
  generalize valueOf l.radix l.digits = n
  by_cases hn : n ≤ magnitudeCap
  · rw [Nat.min_eq_left hn]
  rw [Nat.min_eq_right (by omega)]
  cases l.negative with
  | true =>
    have hn' : -(n : Int) < t.min := by omega
    rw [if_pos rfl, if_pos rfl, clamp, clamp, if_pos hmin, if_pos hn']
  | false =>
    have hzero := t.min_le_zero
    rw [if_neg Bool.false_ne_true, if_neg Bool.false_ne_true, clamp, clamp,
      if_neg (by omega), if_neg (by omega), if_neg (by omega), if_neg (by omega),
      if_neg (by omega), if_neg (by omega)]

/-- A blank comes next, if anything does. -/
def BlankNext (cs : List Char) : Prop := NotNext (fun c ↦ !isBlank c) cs

/-! ## Characters that are no digits -/

section Characters

variable {r : Radix} {c : Char}

theorem isBlank_iff : isBlank c ↔ c ∈ [' ', '\t', '\n', '\x0b', '\x0c', '\r'] := by
  simp only [isBlank, Bool.or_eq_true, beq_iff_eq, List.mem_cons, List.not_mem_nil, or_false,
    or_assoc]

theorem isDigit_eq_false_of_digitValue? (h : digitValue? c = none) : r.isDigit c = false := by
  rw [Radix.isDigit, Radix.digit?, h]
  rfl

theorem isDigit_eq_false_of_isBlank (h : isBlank c) : r.isDigit c = false := by
  have hblanks : [' ', '\t', '\n', '\x0b', '\x0c', '\r'].all (digitValue? · == none) := by decide
  have hc := List.all_eq_true.mp hblanks c (isBlank_iff.mp h)
  exact isDigit_eq_false_of_digitValue? (beq_iff_eq.mp hc)

theorem BlankNext.notNext_isDigit {cs : List Char} (h : BlankNext cs) : NotNext r.isDigit cs := by
  intro c hc
  exact isDigit_eq_false_of_isBlank (by simpa using h c hc)

theorem ne_of_isDigit (h : r.isDigit c) {d : Char} (hd : digitValue? d = none) : c ≠ d := by
  rintro rfl
  exact absurd h (ne_true_of_eq_false (isDigit_eq_false_of_digitValue? hd))

theorem isBlank_eq_false_of_isDigit (h : r.isDigit c) : isBlank c = false := by
  refine Bool.eq_false_of_not_eq_true fun hblank ↦ ?_
  rw [isDigit_eq_false_of_isBlank hblank] at h
  exact absurd h Bool.false_ne_true

theorem ascii_of_isDigit (h : r.isDigit c) : c.toNat < 0x80 := by
  have hvalue : digitValue? c ≠ none := by
    intro hnone
    rw [isDigit_eq_false_of_digitValue? hnone] at h
    exact absurd h Bool.false_ne_true
  unfold digitValue? at hvalue
  split at hvalue
  · next hc =>
    have hle : c.toNat ≤ 57 := (Char.isDigit_iff_toNat.mp hc).2
    omega
  split at hvalue
  · next hc =>
    have hle : c.toNat ≤ 122 := of_decide_eq_true ((Bool.and_eq_true _ _).mp hc).2
    omega
  split at hvalue
  · next hc =>
    have hle : c.toNat ≤ 90 := (of_decide_eq_true hc).2
    omega
  · exact absurd rfl hvalue

theorem eq_or_of_toLower_eq {d : Char} (h : c.toLower = d) : c = d ∨ c.val = d.val - 32 := by
  rw [Char.toLower] at h
  split at h
  · refine .inr ?_
    rw [← h]
    exact (UInt32.add_sub_cancel c.val 32).symm
  · exact .inl h

/-- Neither a digit of the radix nor a blank completes a mark. -/
theorem toLower_ne_of_isDigit_or_isBlank {d e : Char} (hc : r.isDigit c ∨ isBlank c)
    (hd : r.isDigit d = false ∧ isBlank d = false) (he : r.isDigit e = false ∧ isBlank e = false)
    (hde : e.val = d.val - 32) : (c.toLower == d) = false := by
  refine beq_eq_false_iff_ne.mpr fun h ↦ ?_
  obtain rfl | hval := eq_or_of_toLower_eq h
  · obtain hc | hc := hc
    · exact absurd (hc.symm.trans hd.1) (by decide)
    · exact absurd (hc.symm.trans hd.2) (by decide)
  · obtain rfl : c = e := Char.ext (hval.trans hde.symm)
    obtain hc | hc := hc
    · exact absurd (hc.symm.trans he.1) (by decide)
    · exact absurd (hc.symm.trans he.2) (by decide)

end Characters

/-! ## Signs and marks are told apart from digits -/

section Read

variable {r : Radix}

/-- The first character of a text that starts with digits. -/
theorem exists_cons_of_digits {ds : List Char} (hne : ds ≠ []) (hds : ∀ c ∈ ds, r.isDigit c) :
    ∃ c tail, ds = c :: tail ∧ r.isDigit c := by
  cases ds with
  | nil => exact absurd rfl hne
  | cons c tail => exact ⟨c, tail, rfl, hds c List.mem_cons_self⟩

theorem Base.allows_fixed (r r' : Radix) : (fixed r).allows r' = decide (r = r') := by
  by_cases h : r = r' <;> simp [allows, h]

/-- Without a mark none is seen. -/
theorem readMark_digits {ds : List Char} (hne : ds ≠ []) (hds : ∀ c ∈ ds, r.isDigit c)
    {rest : List Char} (hrest : BlankNext rest) :
    readMark (.fixed r) (ds ++ rest) = (r, ds ++ rest) := by
  unfold readMark
  split
  · next m tail heq =>
    -- What follows the zero is another digit or the blank behind the number.
    have hm : r.isDigit m ∨ isBlank m := by
      obtain ⟨c, ds, rfl, -⟩ := exists_cons_of_digits hne hds
      obtain ⟨-, htail⟩ := List.cons.inj heq
      cases ds with
      | nil =>
        subst htail
        exact .inr (by simpa [BlankNext] using hrest)
      | cons d ds =>
        obtain ⟨rfl, -⟩ := List.cons.inj htail
        exact .inl (hds d (by simp))
    have hx : ((Base.fixed r).allows .hexadecimal && m.toLower == 'x') = false := by
      by_cases hr : r = .hexadecimal
      · subst hr
        rw [toLower_ne_of_isDigit_or_isBlank hm (e := 'X') (by decide) (by decide) (by decide),
          Bool.and_false]
      · rw [Base.allows_fixed, decide_eq_false hr, Bool.false_and]
    have hb : ((Base.fixed r).allows .binary && m.toLower == 'b') = false := by
      by_cases hr : r = .binary
      · subst hr
        rw [toLower_ne_of_isDigit_or_isBlank hm (e := 'B') (by decide) (by decide) (by decide),
          Bool.and_false]
      · rw [Base.allows_fixed, decide_eq_false hr, Bool.false_and]
    rw [hx, hb, heq]
    rfl
  · rfl

/-- A mark in front of digits is seen and skipped. -/
theorem readMark_mark {mark : List Char} (hmark : SpellsMark r mark) {ds : List Char}
    (hne : ds ≠ []) (hds : ∀ c ∈ ds, r.isDigit c) {rest : List Char} (hrest : BlankNext rest) :
    readMark (.fixed r) (mark ++ (ds ++ rest)) = (r, ds ++ rest) := by
  have hstart : startsWithDigit r (ds ++ rest) = true := by
    obtain ⟨c, tail, rfl, hc⟩ := exists_cons_of_digits hne hds
    exact hc
  cases hmark with
  | absent => exact readMark_digits hne hds hrest
  | hexadecimal h =>
    rw [List.cons_append, List.singleton_append, readMark, hstart]
    obtain rfl | rfl := h <;> rfl
  | binary h =>
    rw [List.cons_append, List.singleton_append, readMark, hstart]
    obtain rfl | rfl := h <;> rfl

/-- What comes behind a sign is neither a sign nor a blank. -/
theorem exists_cons_of_mark {mark : List Char} (hmark : SpellsMark r mark) {ds : List Char}
    (hne : ds ≠ []) (hds : ∀ c ∈ ds, r.isDigit c) :
    ∃ c tail, mark ++ ds = c :: tail ∧ isBlank c = false ∧ c ≠ '-' ∧ c ≠ '+' := by
  obtain ⟨c, tail, rfl, hc⟩ := exists_cons_of_digits hne hds
  cases hmark with
  | absent =>
    exact ⟨c, tail, rfl, isBlank_eq_false_of_isDigit hc, ne_of_isDigit hc (by decide),
      ne_of_isDigit hc (by decide)⟩
  | hexadecimal => exact ⟨'0', _, rfl, by decide, by decide, by decide⟩
  | binary => exact ⟨'0', _, rfl, by decide, by decide, by decide⟩

theorem readSign_append {sign : List Char} {negative : Bool} (h : SpellsSign sign negative)
    {c : Char} (hminus : c ≠ '-') (hplus : c ≠ '+') (tail : List Char) :
    readSign (sign ++ c :: tail) = (negative, c :: tail) := by
  cases h with
  | absent =>
    rw [List.nil_append]
    unfold readSign
    split
    · next heq => exact absurd (List.cons.inj heq).1 hminus
    · next heq => exact absurd (List.cons.inj heq).1 hplus
    · rfl
  | plus => rfl
  | minus => rfl

theorem SpellsSign.ascii {sign : List Char} {negative : Bool} (h : SpellsSign sign negative) :
    ∀ c ∈ sign, c.toNat < 0x80 := by
  cases h <;> simp

theorem SpellsMark.ascii {mark : List Char} (h : SpellsMark r mark) :
    ∀ c ∈ mark, c.toNat < 0x80 := by
  cases h with
  | absent => simp
  | hexadecimal h => obtain rfl | rfl := h <;> simp
  | binary h => obtain rfl | rfl := h <;> simp

namespace SpellsInt

variable {cs : List Char} {v : Int}

/-- A sign, a mark, zeros and the magnitude. -/
theorem of_natAbs {sign mark : List Char} (hsign : SpellsSign sign (v < 0))
    (hmark : SpellsMark r mark) (upper : Bool) (k : Nat) :
    SpellsInt r (sign ++ (mark ++ (List.replicate k '0' ++ r.writeNat upper v.natAbs))) v := by
  have hliteral := SpellsInt.literal hsign hmark
    (List.append_ne_nil_of_right_ne_nil _ (Radix.writeNat_ne_nil upper v.natAbs))
    (Radix.isDigit_zeros_writeNat upper k v.natAbs)
  have hvalue : (if decide (v < 0) then -(v.natAbs : Int) else v.natAbs) = v := by
    split <;> rename_i hneg <;> simp only [decide_eq_true_eq] at hneg <;> omega
  rwa [Radix.valueOf_zeros_writeNat, hvalue] at hliteral

/-- A literal does not start with a blank. -/
theorem exists_cons (h : SpellsInt r cs v) : ∃ c tail, cs = c :: tail ∧ isBlank c = false := by
  obtain ⟨hsign, hmark, hne, hds⟩ := h
  obtain ⟨c, tail, hcons, hblank, -⟩ := exists_cons_of_mark hmark hne hds
  cases hsign with
  | absent => exact ⟨c, tail, hcons, hblank⟩
  | plus => exact ⟨'+', _, rfl, by decide⟩
  | minus => exact ⟨'-', _, rfl, by decide⟩

theorem ascii (h : SpellsInt r cs v) : ∀ c ∈ cs, c.toNat < 0x80 := by
  obtain ⟨hsign, hmark, -, hds⟩ := h
  refine List.forall_mem_append.mpr ⟨?_, List.forall_mem_append.mpr ⟨?_, ?_⟩⟩
  · exact hsign.ascii
  · exact hmark.ascii
  · exact fun c hc ↦ ascii_of_isDigit (hds c hc)

/-- **A literal is read back.** -/
theorem read?_append (h : SpellsInt r cs v) {rest : List Char} (hrest : BlankNext rest) :
    ∃ l, IntLiteral.read? (.fixed r) (cs ++ rest) = some l ∧ l.exact = v ∧
      l.consumed = cs.length := by
  have hskip : (cs ++ rest).dropWhile isBlank = cs ++ rest := by
    obtain ⟨c, tail, rfl, hblank⟩ := h.exists_cons
    exact List.dropWhile_cons_of_neg (ne_true_of_eq_false hblank)
  obtain ⟨hsign, hmark, hne, hds⟩ := h
  rename_i sign mark ds negative
  obtain ⟨c, tail, hcons, -, hminus, hplus⟩ := exists_cons_of_mark hmark hne hds
  have hsigned : readSign (sign ++ (mark ++ ds) ++ rest) = (negative, mark ++ (ds ++ rest)) := by
    rw [List.append_assoc, hcons, List.cons_append, readSign_append hsign hminus hplus,
      ← List.cons_append, ← hcons, List.append_assoc]
  have hrun := digitRun_append hds hrest.notNext_isDigit
  have hlength := length_digitRun hds
  obtain ⟨d, digits, hdigits⟩ : ∃ d digits, digitRun r ds = d :: digits := by
    refine List.exists_cons_of_ne_nil fun hnil ↦ hne ?_
    rw [hnil] at hlength
    exact List.length_eq_zero_iff.mp hlength.symm
  rw [IntLiteral.read?, hskip, hsigned]
  dsimp only
  rw [readMark_mark hmark hne hds hrest]
  dsimp only
  rw [hrun, hdigits]
  refine ⟨_, rfl, rfl, ?_⟩
  rw [hdigits] at hlength
  simp only [List.length_append, hlength]
  omega

end SpellsInt

/-- **An integer is read back** into a type it fits. -/
theorem IntType.read_append {cs : List Char} {v : Int} (h : SpellsInt r cs v) {t : IntType}
    (hmin : t.min ≤ v) (hmax : v ≤ t.max) {rest : List Char} (hrest : BlankNext rest) :
    t.read (.fixed r) (cs ++ rest) = ⟨v, cs.length, false⟩ := by
  obtain ⟨l, hread, hexact, hconsumed⟩ := h.read?_append hrest
  rw [IntType.read, hread]
  dsimp only
  rw [t.clamp_value, hexact, hconsumed, clamp, if_neg (not_lt.mpr hmin), if_pos hmax]

end Read

end FormatString
