import Mathlib
import FormatString.Proofs.Number.IntText
import FormatString.Proofs.Number.Parsed

/-!
# The longest literal

Reading an integer takes the longest literal at the front of a text. `SpellsLiteral` says what the
literals of a base are, one at a time, and without regard to what comes behind: so `0` is a literal
of the base 0 even in front of `x1f`, and only not the longest. The reader looks ahead instead, past
a mark to the digit behind it, and `read?_of_literal` shows that it never settles for less.

What is read is the number that the whole run of digits stands for, fitted into the type. The cap on
magnitudes does not show.
-/

namespace FormatString

/-! ## Literals of a base -/

/-- Digits of a radix, one at least. -/
structure SpellsDigits (r : Radix) (ds : List Char) : Prop where
  ne_nil : ds ≠ []
  digits : ∀ c ∈ ds, r.isDigit c

/-- A mark of two characters, and the radix it stands for in a base that has it. -/
inductive BaseMark (base : Nat) : Radix → List Char → Prop where
  | hexadecimal {m : Char} (hbase : base = 0 ∨ base = 16) (hm : m = 'x' ∨ m = 'X') :
    BaseMark base .hexadecimal ['0', m]
  | binary {m : Char} (hbase : base = 0 ∨ base = 2) (hm : m = 'b' ∨ m = 'B') :
    BaseMark base .binary ['0', m]

/-- The radix of digits without a mark. The base 0 leaves it to the first digit. -/
inductive UnmarkedRadix (base : Nat) : Radix → List Char → Prop where
  | plain {r : Radix} {ds : List Char} (hbase : r.value = base) : UnmarkedRadix base r ds
  | octal {ds : List Char} (hbase : base = 0) : UnmarkedRadix base .octal ('0' :: ds)
  | decimal {c : Char} {ds : List Char} (hbase : base = 0) (hc : c ≠ '0') :
    UnmarkedRadix base .decimal (c :: ds)

/-- The mark and the digits of a number in a base. -/
inductive SpellsNumeral (base : Nat) : Radix → List Char → List Char → Prop where
  | marked {r : Radix} {mark ds : List Char} (hmark : BaseMark base r mark)
    (hds : SpellsDigits r ds) : SpellsNumeral base r mark ds
  | unmarked {r : Radix} {ds : List Char} (hradix : UnmarkedRadix base r ds)
    (hds : SpellsDigits r ds) : SpellsNumeral base r [] ds

/-- Blanks, a sign, and a number in a base: the radix it is written in, and its value. -/
inductive SpellsLiteral (base : Nat) : List Char → Radix → Int → Prop where
  | literal {blanks sign mark ds : List Char} {negative : Bool} {r : Radix}
    (hblanks : ∀ c ∈ blanks, isBlank c) (hsign : SpellsSign sign negative)
    (hnumeral : SpellsNumeral base r mark ds) :
    SpellsLiteral base (blanks ++ (sign ++ (mark ++ ds))) r
      (if negative then -(valueOf r (digitRun r ds) : Int) else valueOf r (digitRun r ds))

/-- The longest literal at the front of a text. -/
structure LongestLiteral {w : Width} (base : Nat) (s : Text w) (cs : List Char) (r : Radix)
    (x : Int) : Prop where
  spelled : SpellsLiteral base cs r x
  front : Text.ofAscii w cs <+: s
  longest : ∀ cs' r' x', SpellsLiteral base cs' r' x' → Text.ofAscii w cs' <+: s →
    cs'.length ≤ cs.length

section Spelling

variable {base : Nat} {r : Radix} {mark ds cs : List Char} {x : Int}

theorem BaseMark.spellsMark (h : BaseMark base r mark) : SpellsMark r mark := by
  cases h with
  | hexadecimal _ hm => exact .hexadecimal hm
  | binary _ hm => exact .binary hm

theorem SpellsNumeral.spellsMark (h : SpellsNumeral base r mark ds) : SpellsMark r mark := by
  cases h with
  | marked hmark _ => exact hmark.spellsMark
  | unmarked => exact .absent

theorem SpellsNumeral.spellsDigits (h : SpellsNumeral base r mark ds) : SpellsDigits r ds := by
  cases h with
  | marked _ hds => exact hds
  | unmarked _ hds => exact hds

theorem SpellsLiteral.ascii (h : SpellsLiteral base cs r x) : ∀ c ∈ cs, c.toNat < 0x80 := by
  obtain ⟨hblanks, hsign, hnumeral⟩ := h
  have hds := hnumeral.spellsDigits
  refine List.forall_mem_append.mpr ⟨fun c hc ↦ ascii_of_isBlank (hblanks c hc), ?_⟩
  exact (SpellsInt.literal hsign hnumeral.spellsMark hds.ne_nil hds.digits).ascii

theorem Radix.value_inj {r r' : Radix} : r.value = r'.value ↔ r = r' := by
  refine ⟨fun h ↦ ?_, congrArg _⟩
  rcases r, r' with ⟨⟨value, _, _⟩, ⟨value', _, _⟩⟩
  obtain rfl : value = value' := h
  rfl

theorem Radix.value_ne_zero (r : Radix) : r.value ≠ 0 :=
  (Nat.zero_lt_of_lt r.two_le).ne'

theorem SpellsLiteral.ne_nil (h : SpellsLiteral base cs r x) : cs ≠ [] := by
  obtain ⟨-, -, hnumeral⟩ := h
  simp [hnumeral.spellsDigits.ne_nil]

/-- A digit without a mark does not make one with what follows it. -/
theorem BaseMark.isDigit_eq_false {r' : Radix} {m : Char} (hmark : BaseMark base r' ['0', m])
    (hradix : UnmarkedRadix base r ds) : r.isDigit m = false := by
  cases hmark with
  | hexadecimal hbase hm =>
    have hr : r = .hexadecimal ∨ r = .octal ∨ r = .decimal := by
      cases hradix with
      | plain hvalue =>
        obtain rfl | rfl := hbase
        · exact absurd hvalue r.value_ne_zero
        · exact .inl (Radix.value_inj.mp hvalue)
      | octal => exact .inr (.inl rfl)
      | decimal => exact .inr (.inr rfl)
    obtain rfl | rfl | rfl := hr <;> obtain rfl | rfl := hm <;> decide
  | binary hbase hm =>
    have hr : r = .binary ∨ r = .octal ∨ r = .decimal := by
      cases hradix with
      | plain hvalue =>
        obtain rfl | rfl := hbase
        · exact absurd hvalue r.value_ne_zero
        · exact .inl (Radix.value_inj.mp hvalue)
      | octal => exact .inr (.inl rfl)
      | decimal => exact .inr (.inr rfl)
    obtain rfl | rfl | rfl := hr <;> obtain rfl | rfl := hm <;> decide

end Spelling

/-! ## What the reader takes for a mark -/

section Mark

variable {b : Base} {r : Radix} {mark ds cs rest : List Char}

theorem Base.allows_iff : b.allows r ↔ b.value = 0 ∨ b.value = r.value := by
  cases b with
  | fromMark => simp [allows, value]
  | fixed r' => simp [allows, value, r'.value_ne_zero, Radix.value_inj]

theorem toLower_eq_iff {m d e : Char} (hd : d.toLower = d) (he : e.toLower = d)
    (hval : e.val = d.val - 32) : m.toLower = d ↔ m = d ∨ m = e := by
  constructor
  · intro h
    obtain h | h := eq_or_of_toLower_eq h
    · exact .inl h
    · exact .inr (Char.ext (h.trans hval.symm))
  · rintro (rfl | rfl)
    · exact hd
    · exact he

/-- A mark in front of a digit is seen. -/
theorem readMark_of_mark (hmark : BaseMark b.value r mark) (hrest : startsWithDigit r rest) :
    readMark b (mark ++ rest) = (r, rest) := by
  cases hmark with
  | hexadecimal hbase hm =>
    have hallows : b.allows .hexadecimal := Base.allows_iff.mpr hbase
    obtain rfl | rfl := hm <;> simp [readMark, hallows, hrest]
  | binary hbase hm =>
    have hallows : b.allows .binary := Base.allows_iff.mpr hbase
    obtain rfl | rfl := hm <;> simp [readMark, hallows, hrest]

/-- Where there is none, none is seen. -/
theorem readMark_of_forall (h : ∀ r mark rest, BaseMark b.value r mark → cs = mark ++ rest →
    startsWithDigit r rest = false) : readMark b cs = (readMark.unmarked b cs, cs) := by
  unfold readMark
  split
  · next m rest =>
    have hx : (b.allows .hexadecimal && m.toLower == 'x' && startsWithDigit .hexadecimal rest)
        = false := by
      refine Bool.eq_false_of_not_eq_true fun hx ↦ ?_
      simp only [Bool.and_eq_true, beq_iff_eq] at hx
      obtain ⟨⟨hallows, hm⟩, hstart⟩ := hx
      rw [toLower_eq_iff (by decide) (show 'X'.toLower = 'x' by decide) (by decide)] at hm
      have hnone := h _ _ rest (.hexadecimal (Base.allows_iff.mp hallows) hm) rfl
      exact absurd (hstart.symm.trans hnone) (by decide)
    have hb : (b.allows .binary && m.toLower == 'b' && startsWithDigit .binary rest) = false := by
      refine Bool.eq_false_of_not_eq_true fun hb ↦ ?_
      simp only [Bool.and_eq_true, beq_iff_eq] at hb
      obtain ⟨⟨hallows, hm⟩, hstart⟩ := hb
      rw [toLower_eq_iff (by decide) (show 'B'.toLower = 'b' by decide) (by decide)] at hm
      have hnone := h _ _ rest (.binary (Base.allows_iff.mp hallows) hm) rfl
      exact absurd (hstart.symm.trans hnone) (by decide)
    rw [hx, hb]
    rfl
  · rfl

theorem UnmarkedRadix.unmarked_eq (h : UnmarkedRadix b.value r ds) (hne : ds ≠ [])
    (rest : List Char) : readMark.unmarked b (ds ++ rest) = r := by
  cases b with
  | fromMark =>
    cases h with
    | plain hvalue => exact absurd hvalue r.value_ne_zero
    | octal => rfl
    | decimal _ hc => exact if_neg fun h ↦ hc (Option.some.inj h)
  | fixed r' =>
    cases h with
    | plain hvalue => exact (Radix.value_inj.mp hvalue).symm
    | octal hbase => exact absurd hbase r'.value_ne_zero
    | decimal hbase => exact absurd hbase r'.value_ne_zero

/-- Digits at the front of a text are without a mark in the radix the reader takes them for. -/
theorem unmarkedRadix_unmarked (hne : ds ≠ []) (rest : List Char) :
    UnmarkedRadix b.value (readMark.unmarked b (ds ++ rest)) ds := by
  cases b with
  | fromMark =>
    obtain ⟨c, ds, rfl⟩ := List.exists_cons_of_ne_nil hne
    by_cases hc : c = '0'
    · rw [hc]
      exact .octal rfl
    · rw [show readMark.unmarked .fromMark (c :: ds ++ rest) = .decimal from
        if_neg fun h ↦ hc (Option.some.inj h)]
      exact .decimal rfl hc
  | fixed r => exact .plain rfl

/-- **What the reader finds is a numeral**, if there are digits. -/
theorem readMark_sound {body : List Char} (h : readMark b cs = (r, body)) (hbody : body = ds ++ rest)
    (hds : SpellsDigits r ds) : ∃ mark, cs = mark ++ body ∧ SpellsNumeral b.value r mark ds := by
  by_cases hseen : ∃ r mark rest, BaseMark b.value r mark ∧ cs = mark ++ rest ∧
      startsWithDigit r rest
  · obtain ⟨r', mark, rest', hmark, rfl, hstart⟩ := hseen
    rw [readMark_of_mark hmark hstart] at h
    obtain ⟨rfl, rfl⟩ := Prod.mk.inj h
    exact ⟨mark, rfl, .marked hmark hds⟩
  · have hnone : readMark b cs = (readMark.unmarked b cs, cs) := by
      refine readMark_of_forall fun r mark rest hmark hcs ↦ Bool.eq_false_of_not_eq_true ?_
      exact fun hstart ↦ hseen ⟨r, mark, rest, hmark, hcs, hstart⟩
    rw [hnone] at h
    obtain ⟨rfl, rfl⟩ := Prod.mk.inj h
    refine ⟨[], rfl, .unmarked ?_ hds⟩
    rw [hbody]
    exact unmarkedRadix_unmarked hds.ne_nil rest

theorem startsWithDigit_of_digits (hds : SpellsDigits r ds) (rest : List Char) :
    startsWithDigit r (ds ++ rest) := by
  obtain ⟨c, tail, rfl, hc⟩ := exists_cons_of_digits hds.ne_nil hds.digits
  exact hc

/-- **A numeral is found**, unless it is the zero of a mark. -/
theorem readMark_of_numeral (h : SpellsNumeral b.value r mark ds) (rest : List Char) :
    readMark b (mark ++ (ds ++ rest)) = (r, ds ++ rest) ∨
      (mark ++ ds).length = 1 ∧ ∃ r' mark' rest', BaseMark b.value r' mark' ∧
        mark ++ (ds ++ rest) = mark' ++ rest' ∧ startsWithDigit r' rest' := by
  cases h with
  | marked hmark hds => exact .inl (readMark_of_mark hmark (startsWithDigit_of_digits hds rest))
  | unmarked hradix hds =>
    by_cases hseen : ∃ r mark rest', BaseMark b.value r mark ∧ ds ++ rest = mark ++ rest' ∧
        startsWithDigit r rest'
    · refine .inr ⟨?_, hseen⟩
      obtain ⟨r', mark, rest', hmark, heq, -⟩ := hseen
      obtain ⟨m, rfl⟩ : ∃ m, mark = ['0', m] := by cases hmark <;> exact ⟨_, rfl⟩
      obtain ⟨c, tail, rfl, -⟩ := exists_cons_of_digits hds.ne_nil hds.digits
      cases tail with
      | nil => rfl
      | cons d tail =>
        obtain ⟨-, htail⟩ := List.cons.inj heq
        obtain rfl : d = m := (List.cons.inj htail).1
        have hd := hds.digits d (by simp)
        exact absurd (hd.symm.trans (hmark.isDigit_eq_false hradix)) (by decide)
    · refine .inl ?_
      rw [List.nil_append, readMark_of_forall, hradix.unmarked_eq hds.ne_nil]
      intro r mark rest' hmark heq
      exact Bool.eq_false_of_not_eq_true fun hstart ↦ hseen ⟨r, mark, rest', hmark, heq, hstart⟩

/-- What is found is longer than a numeral at the front, or it is that numeral. -/
theorem SpellsNumeral.exists_readMark (h : SpellsNumeral b.value r mark ds) (rest : List Char) :
    ∃ r' front body, mark ++ (ds ++ rest) = front ++ body ∧
      readMark b (mark ++ (ds ++ rest)) = (r', body) ∧ digitRun r' body ≠ [] ∧
      ((mark ++ ds).length < front.length + (digitRun r' body).length ∨
        front.length + (digitRun r' body).length = (mark ++ ds).length ∧ r' = r ∧
          digitRun r' body = digitRun r ds) := by
  have hds := h.spellsDigits
  obtain hmark | ⟨hone, r', mark', rest', hmark', heq, hstart⟩ := readMark_of_numeral h rest
  · -- Further digits may follow those of the numeral.
    obtain ⟨more, rest', rfl, hmore, hrest'⟩ := exists_digits_append r rest
    have hall : ∀ c ∈ ds ++ more, r.isDigit c := List.forall_mem_append.mpr ⟨hds.digits, hmore⟩
    have hrun : digitRun r (ds ++ (more ++ rest')) = digitRun r (ds ++ more) := by
      rw [← List.append_assoc, digitRun_append hall hrest']
    have hlength := length_digitRun hall
    have hpos := List.length_pos_iff.mpr hds.ne_nil
    refine ⟨r, mark, _, rfl, hmark, ?_, ?_⟩
    · rw [hrun, ← List.length_pos_iff, hlength, List.length_append]
      omega
    · rw [hrun, hlength]
      rcases more with _ | ⟨e, more⟩
      · exact .inr ⟨by simp, rfl, by rw [List.append_nil]⟩
      · refine .inl ?_
        simp only [List.length_append, List.length_cons]
        omega
  · have hmark := readMark_of_mark hmark' hstart
    have hne : digitRun r' rest' ≠ [] := by
      rintro hnil
      rcases rest' with _ | ⟨d, rest'⟩
      · exact absurd hstart Bool.false_ne_true
      · exact absurd (hstart.symm.trans (notNext_cons.mp (digitRun_eq_nil_iff.mp hnil))) (by decide)
    have htwo : mark'.length = 2 := by cases hmark' <;> rfl
    rw [← heq] at hmark
    exact ⟨r', mark', rest', heq, hmark, hne, .inl (by omega)⟩

end Mark

/-! ## The reader finds the longest literal -/

section Read

variable {b : Base}

theorem readSign_sound {cs rest : List Char} {negative : Bool}
    (h : readSign cs = (negative, rest)) : ∃ sign, cs = sign ++ rest ∧ SpellsSign sign negative := by
  unfold readSign at h
  split at h
  all_goals obtain ⟨rfl, rfl⟩ := Prod.mk.inj h
  · exact ⟨['-'], rfl, .minus⟩
  · exact ⟨['+'], rfl, .plus⟩
  · exact ⟨[], rfl, .absent⟩

namespace IntLiteral

/-- The reader goes through the parts one by one. -/
theorem read?_parts {blanks sign u body : List Char} {negative : Bool} {r : Radix} {c : Char}
    {tail : List Char} (hblanks : ∀ c ∈ blanks, isBlank c) (hsign : SpellsSign sign negative)
    (hu : u = c :: tail) (hc : isBlank c = false ∧ c ≠ '-' ∧ c ≠ '+')
    (hmark : readMark b u = (r, body)) (hrun : digitRun r body ≠ []) :
    read? b (blanks ++ (sign ++ u)) = some ⟨negative, r, digitRun r body,
      (blanks ++ (sign ++ u)).length - body.length + (digitRun r body).length⟩ := by
  have hskip : (blanks ++ (sign ++ u)).dropWhile isBlank = sign ++ u := by
    rw [List.dropWhile_append_of_pos hblanks, hu]
    cases hsign with
    | absent => exact List.dropWhile_cons_of_neg (by simp [hc.1])
    | plus => rfl
    | minus => rfl
  have hsigned : readSign (sign ++ u) = (negative, u) := by
    rw [hu, readSign_append hsign hc.2.1 hc.2.2]
  rw [read?, hskip, hsigned]
  dsimp only
  rw [hmark]
  dsimp only
  split
  · next hnil => exact absurd hnil hrun
  · next hdigits => rw [hdigits]

/-- **What is read is a literal.** -/
theorem read?_sound {s : List Char} {l : IntLiteral} (h : read? b s = some l) :
    ∃ cs, SpellsLiteral b.value cs l.radix l.exact ∧ cs.length = l.consumed ∧ cs <+: s := by
  obtain ⟨u, hu⟩ : ∃ u, readSign (s.dropWhile isBlank) = ((readSign (s.dropWhile isBlank)).1, u) :=
    ⟨_, rfl⟩
  obtain ⟨sign, hs, hsign⟩ := readSign_sound hu
  obtain ⟨⟨r, body⟩, hmark⟩ : ∃ p, readMark b u = p := ⟨_, rfl⟩
  obtain ⟨ds, rest, hbody, hds, hrest⟩ := exists_digits_append r body
  have hrun : digitRun r body = digitRun r ds := by rw [hbody, digitRun_append hds hrest]
  rw [read?, hu] at h
  dsimp only at h
  rw [hmark] at h
  dsimp only at h
  split at h
  · exact absurd h (by simp)
  · next d digits hdigits =>
    obtain rfl := Option.some.inj h
    have hlength : ds.length = (d :: digits).length := by
      rw [← length_digitRun hds, ← hrun, hdigits]
    have hne : ds ≠ [] := by
      rintro rfl
      exact absurd hlength (by simp)
    obtain ⟨mark, hu, hnumeral⟩ := readMark_sound hmark hbody ⟨hne, hds⟩
    have hs : s = s.takeWhile isBlank ++ (sign ++ (mark ++ ds)) ++ rest := by
      conv_lhs => rw [← List.takeWhile_append_dropWhile (p := isBlank) (l := s), hs, hu, hbody]
      simp only [List.append_assoc]
    refine ⟨_, ?_, ?_, rest, hs.symm⟩
    · have hliteral := SpellsLiteral.literal
        (fun c hc ↦ List.mem_takeWhile_imp (p := isBlank) (l := s) hc) hsign hnumeral
      rwa [← hrun, hdigits] at hliteral
    · have htotal := congrArg List.length hs
      rw [hbody]
      simp only [List.length_append] at htotal ⊢
      omega

/-- **No literal at the front is longer** than what is read, and one that is as long is the one that
is read. -/
theorem read?_of_literal {cs : List Char} {r : Radix} {x : Int}
    (h : SpellsLiteral b.value cs r x) (rest : List Char) :
    ∃ l, read? b (cs ++ rest) = some l ∧ (cs.length < l.consumed ∨
      l.consumed = cs.length ∧ l.radix = r ∧ l.exact = x) := by
  obtain ⟨hblanks, hsign, hnumeral⟩ := h
  rename_i blanks sign mark ds negative
  have hds := hnumeral.spellsDigits
  obtain ⟨c, tail, hcons, hc⟩ := exists_cons_of_mark hnumeral.spellsMark hds.ne_nil hds.digits
  have hu : mark ++ (ds ++ rest) = c :: (tail ++ rest) := by
    rw [← List.append_assoc, hcons, List.cons_append]
  have hcs : blanks ++ (sign ++ (mark ++ ds)) ++ rest = blanks ++ (sign ++ (mark ++ (ds ++ rest))) := by
    simp only [List.append_assoc]
  obtain ⟨r', front, body, hfront, hmark, hne, hlonger⟩ := hnumeral.exists_readMark rest
  have hlength := congrArg List.length hfront
  refine ⟨_, hcs ▸ read?_parts hblanks hsign hu hc hmark hne, ?_⟩
  simp only [List.length_append] at hlength hlonger ⊢
  obtain hlonger | ⟨heq, rfl, hrun⟩ := hlonger
  · exact .inl (by omega)
  · refine .inr ⟨by omega, rfl, ?_⟩
    rw [exact, hrun]

end IntLiteral

end Read

/-! ## Reading into a type -/

/-- What becomes of the number `x`, written in radix `r`, in the type. -/
structure IntType.Fits (t : IntType) (r : Radix) (x value : Int) (overflow : Bool) : Prop where
  overflow_iff : overflow = true ↔ x < t.min ∨ t.max < x
  inside : t.min ≤ x → x ≤ t.max → value = x
  bits : t.max < x → t.signed → r ≠ .decimal → x ≤ 2 ^ t.bits - 1 → value = x - 2 ^ t.bits
  below : x < t.min → value = t.min
  above : t.max < x → ¬ (t.signed ∧ r ≠ .decimal ∧ x ≤ 2 ^ t.bits - 1) → value = t.max

theorem IntType.modulus_eq (t : IntType) : t.modulus = 2 ^ t.bits := by
  rcases t with ⟨width, signed⟩
  cases width <;> rfl

theorem IntType.clamp_fits (t : IntType) (r : Radix) (x : Int) :
    t.Fits r x (t.clamp r x).1 (t.clamp r x).2 := by
  have hzero := t.min_le_zero
  have hmax := t.zero_le_max
  rw [clamp, unsignedMax, modulus_eq]
  split
  · next hbelow =>
    exact ⟨by simp [hbelow], by omega, by omega, fun _ ↦ rfl, by omega⟩
  split
  · next hmin hmax =>
    exact ⟨by simp; omega, fun _ _ ↦ rfl, by omega, by omega, by omega⟩
  split
  · next hmin hmax hbits =>
    exact ⟨by simp; omega, by omega, fun _ _ _ _ ↦ rfl, by omega, fun _ h ↦ absurd hbits h⟩
  · next hmin hmax hbits =>
    exact ⟨by simp; omega, by omega, fun _ hsigned hr hx ↦ absurd ⟨hsigned, hr, hx⟩ hbits, by omega,
      fun _ _ ↦ rfl⟩

theorem Text.ofAscii_prefix_iff {w : Width} {cs : List Char} (hcs : ∀ c ∈ cs, c.toNat < 0x80)
    {s : Text w} : ofAscii w cs <+: s ↔ cs <+: asciiRun s := by
  constructor
  · rintro ⟨rest, rfl⟩
    exact ⟨asciiRun rest, (asciiRun_ofAscii_append hcs rest).symm⟩
  · rintro ⟨rest, h⟩
    exact ⟨s.drop cs.length, (eq_ofAscii_append h.symm).symm⟩

theorem Radix.ofNat?_value (r : Radix) : Radix.ofNat? r.value = some r :=
  dif_pos ⟨r.two_le, r.le⟩

theorem Base.ofNat?_value (b : Base) : Base.ofNat? b.value = some b := by
  cases b with
  | fromMark => rfl
  | fixed r =>
    rw [value, ofNat?, if_neg r.value_ne_zero, r.ofNat?_value]
    rfl

/-- The bases are those of the standard library: 0, and 2 to 36. -/
theorem Base.exists_ofNat? {base : Nat} (h : base = 0 ∨ 2 ≤ base ∧ base ≤ 36) :
    ∃ b, ofNat? base = some b ∧ b.value = base := by
  obtain rfl | h := h
  · exact ⟨.fromMark, rfl, rfl⟩
  · refine ⟨.fixed ⟨base, h.1, h.2⟩, ?_, rfl⟩
    rw [ofNat?, if_neg (by omega), Radix.ofNat?, dif_pos h]
    rfl

/-- **The longest literal** of the base is read, whatever the width of the text and however many
digits there are, and its exact number is fitted into the type. Without one nothing is read. -/
theorem readInt_longest_literal {w : Width} {base : Nat} (hbase : base = 0 ∨ 2 ≤ base ∧ base ≤ 36)
    (t : IntType) (s : Text w) :
    ∃ p, readInt base t (Text.asciiRun s) = .ok p ∧
      (p = ⟨0, 0, false⟩ ↔
        ¬ ∃ cs r x, SpellsLiteral base cs r x ∧ Text.ofAscii w cs <+: s) ∧
      ((∃ cs r x, SpellsLiteral base cs r x ∧ Text.ofAscii w cs <+: s) →
        ∃ cs r x, LongestLiteral base s cs r x) ∧
      ∀ cs r x, LongestLiteral base s cs r x →
        p.consumed = cs.length ∧ t.Fits r x p.value p.overflow := by
  obtain ⟨b, hb, rfl⟩ := Base.exists_ofNat? hbase
  have hread : readInt b.value t (Text.asciiRun s) = .ok (t.read b (Text.asciiRun s)) := by
    rw [readInt, hb]
  have hfind {cs : List Char} {r : Radix} {x : Int} (h : SpellsLiteral b.value cs r x)
      (hfront : Text.ofAscii w cs <+: s) :
      ∃ l, IntLiteral.read? b (Text.asciiRun s) = some l ∧ (cs.length < l.consumed ∨
        l.consumed = cs.length ∧ l.radix = r ∧ l.exact = x) := by
    obtain ⟨rest, hrest⟩ := (Text.ofAscii_prefix_iff h.ascii).mp hfront
    rw [← hrest]
    exact IntLiteral.read?_of_literal h rest
  refine ⟨_, hread, ?_⟩
  rw [IntType.read]
  cases hliteral : IntLiteral.read? b (Text.asciiRun s) with
  | none =>
    have hnone {cs : List Char} {r : Radix} {x : Int} (h : SpellsLiteral b.value cs r x)
        (hfront : Text.ofAscii w cs <+: s) : False := by
      obtain ⟨l, hl, -⟩ := hfind h hfront
      exact absurd (hliteral.symm.trans hl) (by simp)
    refine ⟨iff_of_true rfl ?_, ?_, ?_⟩
    · rintro ⟨cs, r, x, h, hfront⟩
      exact hnone h hfront
    · rintro ⟨cs, r, x, h, hfront⟩
      exact (hnone h hfront).elim
    · intro cs r x h
      exact (hnone h.spelled h.front).elim
  | some l =>
    obtain ⟨cs, hcs, hlength, hfront⟩ := l.read?_sound hliteral
    rw [← Text.ofAscii_prefix_iff hcs.ascii] at hfront
    have hlongest : LongestLiteral b.value s cs l.radix l.exact := by
      refine ⟨hcs, hfront, fun cs' r' x' h' hfront' ↦ ?_⟩
      obtain ⟨l', hl', hle⟩ := hfind h' hfront'
      obtain rfl := Option.some.inj (hliteral.symm.trans hl')
      omega
    refine ⟨?_, fun _ ↦ ⟨_, _, _, hlongest⟩, ?_⟩
    · refine iff_of_false (fun hnothing ↦ hcs.ne_nil ?_) (not_not_intro ⟨_, _, _, hcs, hfront⟩)
      exact List.length_eq_zero_iff.mp (hlength.trans (congrArg Parsed.consumed hnothing))
    · intro cs' r x h
      obtain ⟨l', hl', hconsumed⟩ := hfind h.spelled h.front
      obtain rfl := Option.some.inj (hliteral.symm.trans hl')
      have hle := h.longest cs l.radix l.exact hcs hfront
      obtain hlt | ⟨hconsumed, rfl, rfl⟩ := hconsumed
      · omega
      · refine ⟨hconsumed, ?_⟩
        dsimp only
        rw [t.clamp_value]
        exact t.clamp_fits l.radix l.exact

/-- The bits of `0x80` are those of the smallest 8-bit integer. The blank and the sign in front are
consumed too, and the letter behind is no digit. -/
theorem readInt_longest_literal_bits :
    let s := Text.ofAscii .utf16 [' ', '+', '0', 'x', '8', '0', 'g']
    (16 = 0 ∨ 2 ≤ 16 ∧ 16 ≤ 36) ∧
      ∃ cs r x, LongestLiteral 16 s cs r x ∧ cs.length = 6 ∧
        IntType.Fits ⟨.w8, true⟩ r x (-128) true := by
  intro s
  refine ⟨by decide, ?_⟩
  obtain ⟨p, hp, hnothing, hlongest, hfits⟩ :=
    readInt_longest_literal (show 16 = 0 ∨ 2 ≤ 16 ∧ 16 ≤ 36 by decide) ⟨.w8, true⟩ s
  have hrun : Text.asciiRun s = [' ', '+', '0', 'x', '8', '0', 'g'] :=
    Text.asciiRun_ofAscii (by simp)
  have hread : readInt 16 ⟨.w8, true⟩ (Text.asciiRun s) = .ok ⟨-128, 6, true⟩ := by
    rw [hrun]
    rfl
  obtain rfl := Except.ok.inj (hread.symm.trans hp)
  obtain ⟨cs, r, x, h⟩ := hlongest (not_not.mp (mt hnothing.mpr (by simp)))
  exact ⟨cs, r, x, h, (hfits cs r x h).1.symm, (hfits cs r x h).2⟩

end FormatString
