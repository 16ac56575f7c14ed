import Mathlib
import FormatString.Proofs.Number.Literal
import FormatString.Proofs.Number.Rounding

/-!
# Written integers

An integer is written in one way only. `IsNumeral` says what digits of a number have to be like in a
base, in terms of positional value and a table of characters, and two lists of digits that are like
this are equal. So it makes no difference whether the decimal base is left to a writer of its own:
whatever writes canonical decimals writes what repeated division does.

Read in the same base, what was written gives the number again, unless a digit or a letter follows:
that could be one more digit, or complete a mark behind a single zero. The base 0 recognises the
digits of four radices by what stands in front of them.
-/

namespace FormatString

/-! ## Canonical numerals -/

/-- The digit characters of one letter case, in the order of their values. -/
def digitTable (upper : Bool) : List Char :=
  if upper then "0123456789ABCDEFGHIJKLMNOPQRSTUVWXYZ".toList
  else "0123456789abcdefghijklmnopqrstuvwxyz".toList

/-- Digits of `n` in a base, the most significant one first, and the characters that write them. A
zero comes first in the number zero only. -/
structure IsNumeral (base : Nat) (upper : Bool) (n : Nat) (digits : List Nat) (cs : List Char) :
    Prop where
  ne_nil : digits ≠ []
  lt : ∀ d ∈ digits, d < base
  leading : digits.head? = some 0 → digits = [0]
  value : Nat.ofDigits base digits.reverse = n
  spelled : cs.map some = digits.map ((digitTable upper)[·]?)

/-- The canonical text of an integer: a `-` just for negative ones, and a numeral. -/
def IsCanonical (base : Nat) (upper : Bool) (v : Int) (text : List Char) : Prop :=
  ∃ digits cs, IsNumeral base upper v.natAbs digits cs ∧
    text = (if v < 0 then ['-'] else []) ++ cs

section Unique

variable {base n : Nat} {upper : Bool} {digits cs : List Nat} {v : Int}

/-- Digits without a leading zero are those of the standard library in reverse. -/
theorem IsNumeral.reverse_eq_digits {cs : List Char} (h : IsNumeral base upper n digits cs)
    (hbase : 1 < base) (hhead : digits.head? ≠ some 0) : digits.reverse = Nat.digits base n := by
  have hlast (hne : digits.reverse ≠ []) : digits.reverse.getLast hne ≠ 0 := by
    rw [List.getLast_reverse]
    intro hzero
    exact hhead (by rw [List.head?_eq_some_head h.ne_nil, hzero])
  rw [← h.value, Nat.digits_ofDigits base hbase _ (fun d hd ↦ h.lt d (List.mem_reverse.mp hd)) hlast]

/-- **One numeral for each number.** -/
theorem IsNumeral.unique {digits' : List Nat} {cs cs' : List Char}
    (h : IsNumeral base upper n digits cs) (h' : IsNumeral base upper n digits' cs')
    (hbase : 1 < base) : cs = cs' := by
  have hzero {ds : List Nat} {cs : List Char} (hds : IsNumeral base upper n ds cs) :
      ds.head? = some 0 ↔ n = 0 := by
    refine ⟨fun hhead ↦ ?_, fun hn ↦ ?_⟩
    · rw [← hds.value, hds.leading hhead]
      rfl
    · by_contra hhead
      have hnil := hds.reverse_eq_digits hbase hhead
      rw [hn, Nat.digits_zero] at hnil
      exact hds.ne_nil (List.reverse_eq_nil_iff.mp hnil)
  have hdigits : digits = digits' := by
    by_cases hn : n = 0
    · rw [h.leading ((hzero h).mpr hn), h'.leading ((hzero h').mpr hn)]
    · refine List.reverse_injective ?_
      rw [h.reverse_eq_digits hbase ((hzero h).not.mpr hn),
        h'.reverse_eq_digits hbase ((hzero h').not.mpr hn)]
  refine List.map_injective_iff.mpr (Option.some_injective Char) ?_
  rw [h.spelled, h'.spelled, hdigits]

theorem IsCanonical.unique {text text' : List Char} (h : IsCanonical base upper v text)
    (h' : IsCanonical base upper v text') (hbase : 1 < base) : text = text' := by
  obtain ⟨digits, cs, hcs, rfl⟩ := h
  obtain ⟨digits', cs', hcs', rfl⟩ := h'
  rw [hcs.unique hcs' hbase]

/-- In bases up to ten there is no letter, so the case is of no account. -/
theorem IsCanonical.of_le_ten {text : List Char} (h : IsCanonical base upper v text)
    (hbase : base ≤ 10) (upper' : Bool) : IsCanonical base upper' v text := by
  have htable : ∀ upper upper', ∀ d < 10, (digitTable upper)[d]? = (digitTable upper')[d]? := by
    decide
  obtain ⟨digits, cs, hcs, htext⟩ := h
  refine ⟨digits, cs, { hcs with spelled := ?_ }, htext⟩
  rw [hcs.spelled]
  exact List.map_congr_left fun d hd ↦ htable upper upper' d ((hcs.lt d hd).trans_le hbase)

end Unique

/-! ## Repeated division -/

section Division

variable {r : Radix} {n : Nat}

theorem valueOf_eq_ofDigits (r : Radix) (digits : List Nat) :
    valueOf r digits = Nat.ofDigits r.value digits.reverse := by
  rw [Nat.ofDigits_eq_foldr, List.foldr_reverse, valueOf]
  congr 1
  funext n d
  rw [Nat.mul_comm, Nat.add_comm]
  rfl

/-- Division goes on until nothing is left, so the last digit it puts in front is not zero. -/
theorem head?_digitsOf_ne_zero (r : Radix) (hn : n ≠ 0) : (digitsOf r n).head? ≠ some 0 := by
  induction n using Nat.strong_induction_on with
  | _ n ih =>
    by_cases hlt : n < r.value
    · rw [digitsOf_of_lt hlt, List.head?_cons]
      exact fun hzero ↦ hn (Option.some.inj hzero)
    · have hle := Nat.le_of_not_lt hlt
      have hr : 1 < r.value := r.two_le
      have hpos : n / r.value ≠ 0 := (Nat.div_pos hle (Nat.zero_lt_of_lt hr)).ne'
      have hless : n / r.value < n := Nat.div_lt_self (Nat.pos_of_ne_zero hn) hr
      have hne : digitsOf r (n / r.value) ≠ [] := digitsOnto_ne_nil r _ []
      rw [digitsOf_of_le hle, List.head?_append_of_ne_nil _ hne]
      exact ih _ hless hpos

theorem digitTable_getElem? (upper : Bool) {d : Nat} (hd : d < 36) :
    (digitTable upper)[d]? = some (digitChar upper d) := by
  have htable : ∀ upper, ∀ d < 36, (digitTable upper)[d]? = some (digitChar upper d) := by decide
  exact htable upper d hd

/-- **Division yields the numeral.** -/
theorem Radix.isNumeral_writeNat (r : Radix) (upper : Bool) (n : Nat) :
    IsNumeral r.value upper n (digitsOf r n) (r.writeNat upper n) where
  ne_nil := digitsOnto_ne_nil r n []
  lt := lt_of_mem_digitsOnto (by simp)
  leading hhead := by
    obtain rfl : n = 0 := not_not.mp fun hn ↦ head?_digitsOf_ne_zero r hn hhead
    exact digitsOf_of_lt (Nat.zero_lt_of_lt r.two_le)
  value := by rw [← valueOf_eq_ofDigits, valueOf_digitsOf]
  spelled := by
    rw [writeNat, List.map_map]
    refine List.map_congr_left fun d hd ↦ ?_
    have hlt : d < r.value := lt_of_mem_digitsOnto (by simp) d hd
    exact (digitTable_getElem? upper (hlt.trans_le r.le)).symm

theorem Radix.isCanonical_write (r : Radix) (upper : Bool) (v : Int) :
    IsCanonical r.value upper v (r.write upper v) :=
  ⟨_, _, r.isNumeral_writeNat upper v.natAbs, rfl⟩

end Division

/-! ## A writer of its own for the decimal base -/

/-- The text of an integer in the given base, where decimals are left to the writer `decimal`. -/
def writeIntWith (decimal : Int → List Char) (v : Int) (base : Nat) (upper : Bool) :
    Except NumberError (List Char) :=
  match Radix.ofNat? base with
  | some r => .ok (if r = .decimal then decimal v else r.write upper v)
  | none => .error (.invalidBase base)

/-- The same text in units. -/
def writeIntUnits (w : Width) (decimal : Int → List Char) (v : Int) (base : Nat) (upper : Bool) :
    Except NumberError (Text w) :=
  (writeIntWith decimal v base upper).map (Text.ofAscii w)

/-- In the base of a radix, numbers are written in that radix. -/
theorem writeInt_natCast (r : Radix) (upper : Bool) (n : Nat) :
    writeInt n r.value upper = .ok (r.writeNat upper n) := by
  have hn : ¬ (n : Int) < 0 := by omega
  rw [writeInt, r.ofNat?_value]
  dsimp only
  rw [Radix.write, if_neg hn, List.nil_append, Int.natAbs_natCast]

theorem writeInt_of_mem {base : Nat} (hbase : 2 ≤ base ∧ base ≤ 36) (v : Int) (upper : Bool) :
    writeInt v base upper = .ok (Radix.write ⟨base, hbase.1, hbase.2⟩ upper v) := by
  rw [writeInt, Radix.ofNat?, dif_pos hbase]

/-- A writer of canonical decimals is not told from division. -/
theorem writeIntWith_eq_writeInt {decimal : Int → List Char} {v : Int}
    (hdecimal : IsCanonical 10 false v (decimal v)) (base : Nat) (upper : Bool) :
    writeIntWith decimal v base upper = writeInt v base upper := by
  rw [writeIntWith, writeInt]
  cases Radix.ofNat? base with
  | none => rfl
  | some r =>
    by_cases hr : r = .decimal
    · subst hr
      have hupper := hdecimal.of_le_ten (Nat.le_refl 10) upper
      dsimp only
      rw [if_pos rfl, hupper.unique (Radix.decimal.isCanonical_write upper v) (by decide)]
    · exact congrArg Except.ok (if_neg hr)

theorem Radix.ascii_write (r : Radix) (upper : Bool) (v : Int) :
    ∀ c ∈ r.write upper v, c.toNat < 0x80 := by
  refine List.forall_mem_append.mpr ⟨by split <;> simp, fun c hc ↦ ?_⟩
  exact ascii_of_isDigit (isDigit_writeNat upper v.natAbs c hc)

/-- **Writing is canonical**, and the two ways of writing decimals agree, if that of its own writes
canonical ones. The units carry the text at every width. -/
theorem writeInt_canonical {decimal : Int → List Char}
    (hdecimal : ∀ v, -(2 ^ 127) ≤ v → v < 2 ^ 127 → IsCanonical 10 false v (decimal v))
    {v : Int} (hlow : -(2 ^ 127) ≤ v) (hhigh : v < 2 ^ 127) {base : Nat}
    (hbase : 2 ≤ base ∧ base ≤ 36) (upper : Bool) :
    ∃ text, writeIntWith decimal v base upper = .ok text ∧ writeInt v base upper = .ok text ∧
      IsCanonical base upper v text ∧
      (∀ other, IsCanonical base upper v other → other = text) ∧
      ∀ w, ∃ units, writeIntUnits w decimal v base upper = .ok units ∧
        units.map CodeUnit.value = text.map Char.toNat := by
  let r : Radix := ⟨base, hbase.1, hbase.2⟩
  have hwrite : writeInt v base upper = .ok (r.write upper v) := writeInt_of_mem hbase v upper
  have hcanonical : IsCanonical base upper v (r.write upper v) := r.isCanonical_write upper v
  have hwith := writeIntWith_eq_writeInt (hdecimal v hlow hhigh) base upper
  refine ⟨_, hwith.trans hwrite, hwrite, hcanonical,
    fun other hother ↦ hother.unique hcanonical hbase.1,
    fun w ↦ ⟨.ofAscii w (r.write upper v), ?_, ?_⟩⟩
  · rw [writeIntUnits, hwith, hwrite]
    rfl
  · rw [Text.ofAscii, List.map_map]
    exact List.map_congr_left fun c hc ↦ CodeUnit.value_ofAscii (r.ascii_write upper v c hc)

/-- Both ways of writing decimals write the least 128-bit integer. -/
theorem writeInt_canonical_least :
    let decimal := Radix.decimal.write false
    let least : Int := -(2 ^ 127)
    let text := "-170141183460469231731687303715884105728".toList
    (∀ v, -(2 ^ 127) ≤ v → v < 2 ^ 127 → IsCanonical 10 false v (decimal v)) ∧
      (-(2 ^ 127) ≤ least ∧ least < 2 ^ 127) ∧ (2 ≤ 10 ∧ 10 ≤ 36) ∧
      writeIntWith decimal least 10 true = .ok text ∧ writeInt least 10 true = .ok text := by
  intro decimal least text
  have hdecimal : ∀ v, -(2 ^ 127) ≤ v → v < 2 ^ 127 → IsCanonical 10 false v (decimal v) :=
    fun v _ _ ↦ Radix.decimal.isCanonical_write false v
  have hrange : -(2 ^ 127) ≤ least ∧ least < 2 ^ 127 := by decide
  obtain ⟨text', hwith, hwrite, -, hunique, -⟩ :=
    writeInt_canonical hdecimal hrange.1 hrange.2 (show 2 ≤ 10 ∧ 10 ≤ 36 by decide) true
  have htext : IsCanonical 10 true least text := by
    refine ⟨[1, 7, 0, 1, 4, 1, 1, 8, 3, 4, 6, 0, 4, 6, 9, 2, 3, 1, 7, 3, 1, 6, 8, 7, 3, 0, 3, 7, 1, 5,
      8, 8, 4, 1, 0, 5, 7, 2, 8], text.tail, ⟨by decide, by decide, by decide, by decide, by decide⟩,
      by decide⟩
  obtain rfl := hunique text htext
  exact ⟨hdecimal, hrange, by decide, hwith, hwrite⟩

/-! ## Reading back what was written -/

section Read

variable {b : Base} {r : Radix} {cs rest : List Char} {x : Int}

theorem isAlphanum_of_isDigit {c : Char} (h : r.isDigit c) : c.isAlphanum := by
  rw [Radix.isDigit, Radix.digit?, digitValue?] at h
  rw [Char.isAlphanum, Char.isAlpha]
  cases hdigit : c.isDigit <;> cases hlower : c.isLower <;> cases hupper : c.isUpper <;> simp_all

theorem notNext_isDigit_of_isAlphanum (h : NotNext Char.isAlphanum rest) :
    NotNext r.isDigit rest := by
  intro c hc
  refine Bool.eq_false_of_not_eq_true fun hdigit ↦ ?_
  exact absurd (isAlphanum_of_isDigit hdigit) (ne_true_of_eq_false (h c hc))

theorem BaseMark.exists_letter {base : Nat} {mark : List Char} (h : BaseMark base r mark) :
    ∃ m, mark = ['0', m] ∧ m.isAlphanum := by
  cases h with
  | hexadecimal _ hm => obtain rfl | rfl := hm <;> exact ⟨_, rfl, by decide⟩
  | binary _ hm => obtain rfl | rfl := hm <;> exact ⟨_, rfl, by decide⟩

/-- A mark is not completed by what follows. -/
theorem readMark_of_notNext {mark ds : List Char} (h : SpellsNumeral b.value r mark ds)
    (hrest : NotNext Char.isAlphanum rest) :
    readMark b (mark ++ (ds ++ rest)) = (r, ds ++ rest) := by
  obtain hmark | ⟨hone, r', mark', rest', hmark', heq, -⟩ := readMark_of_numeral h rest
  · exact hmark
  · obtain ⟨m, rfl, hm⟩ := hmark'.exists_letter
    obtain ⟨d, hd⟩ := List.length_eq_one_iff.mp hone
    rw [← List.append_assoc, hd] at heq
    have htail : rest = m :: rest' := (List.cons.inj heq).2
    rw [htail] at hrest
    exact absurd (hm.symm.trans (notNext_cons.mp hrest)) (by decide)

/-- **A literal is read back**, unless a digit or a letter follows. -/
theorem IntLiteral.read?_of_notNext (h : SpellsLiteral b.value cs r x)
    (hrest : NotNext Char.isAlphanum rest) :
    ∃ l, read? b (cs ++ rest) = some l ∧ l.consumed = cs.length ∧ l.exact = x := by
  obtain ⟨hblanks, hsign, hnumeral⟩ := h
  rename_i blanks sign mark ds negative
  have hds := hnumeral.spellsDigits
  obtain ⟨c, tail, hcons, hc⟩ := exists_cons_of_mark hnumeral.spellsMark hds.ne_nil hds.digits
  have hu : mark ++ (ds ++ rest) = c :: (tail ++ rest) := by
    rw [← List.append_assoc, hcons, List.cons_append]
  have hcs : blanks ++ (sign ++ (mark ++ ds)) ++ rest
      = blanks ++ (sign ++ (mark ++ (ds ++ rest))) := by
    simp only [List.append_assoc]
  have hrun : digitRun r (ds ++ rest) = digitRun r ds :=
    digitRun_append hds.digits (notNext_isDigit_of_isAlphanum hrest)
  have hlength : (digitRun r ds).length = ds.length := length_digitRun hds.digits
  have hne : digitRun r (ds ++ rest) ≠ [] := by
    rw [hrun, ← List.length_pos_iff, hlength]
    exact List.length_pos_iff.mpr hds.ne_nil
  have hread := read?_parts hblanks hsign hu hc (readMark_of_notNext hnumeral hrest) hne
  refine ⟨_, hcs ▸ hread, ?_, by rw [exact, hrun]⟩
  rw [hrun, hlength]
  simp only [List.length_append]
  omega

theorem IntType.read_of_literal {t : IntType} (h : SpellsLiteral b.value cs r x)
    (hmin : t.min ≤ x) (hmax : x ≤ t.max) (hrest : NotNext Char.isAlphanum rest) :
    t.read b (cs ++ rest) = ⟨x, cs.length, false⟩ := by
  obtain ⟨l, hread, hconsumed, hexact⟩ := IntLiteral.read?_of_notNext h hrest
  rw [read, hread]
  dsimp only
  rw [t.clamp_value, hexact, hconsumed, clamp, if_neg (not_lt.mpr hmin), if_pos hmax]

/-- What stands in front of the digits of a radix so that the base 0 takes them for such. -/
inductive RadixFront : Radix → List Char → Prop where
  | hexadecimal {m : Char} (hm : m = 'x' ∨ m = 'X') : RadixFront .hexadecimal ['0', m]
  | binary {m : Char} (hm : m = 'b' ∨ m = 'B') : RadixFront .binary ['0', m]
  | octal : RadixFront .octal ['0']
  | decimal : RadixFront .decimal []

theorem Radix.spellsDigits_writeNat (r : Radix) (upper : Bool) (n : Nat) :
    SpellsDigits r (r.writeNat upper n) :=
  ⟨writeNat_ne_nil upper n, isDigit_writeNat upper n⟩

/-- A text that does not go on with a digit or a letter. -/
theorem notNext_asciiRun {w : Width} {p : Char → Bool} {rest : Text w}
    (hrest : ∀ u ∈ rest.head?, ∀ c, u.ascii? = some c → p c = false) :
    NotNext p (Text.asciiRun rest) := by
  cases rest with
  | nil => exact notNext_nil
  | cons u rest =>
    rw [Text.asciiRun]
    split
    · next c hc => exact notNext_cons.mpr (hrest u rfl c hc)
    · exact notNext_nil

theorem SpellsSign.minus_if (negative : Bool) :
    SpellsSign (if negative then ['-'] else []) negative := by
  cases negative with
  | false => exact .absent
  | true => exact .minus

/-- What is written is a literal of the base. -/
theorem Radix.spellsLiteral_write (r : Radix) (upper : Bool) (v : Int) :
    SpellsLiteral r.value (r.write upper v) r v := by
  have hsign : SpellsSign (if v < 0 then ['-'] else []) (v < 0) := by
    simpa using SpellsSign.minus_if (v < 0)
  have hvalue : valueOf r (digitRun r (r.writeNat upper v.natAbs)) = v.natAbs :=
    r.valueOf_zeros_writeNat upper 0 v.natAbs
  have hliteral := SpellsLiteral.literal (List.forall_mem_nil _) hsign
    (.unmarked (.plain rfl) (r.spellsDigits_writeNat upper v.natAbs))
  have hsigned : (if decide (v < 0) then -(v.natAbs : Int) else v.natAbs) = v := by
    split <;> rename_i hneg <;> simp only [decide_eq_true_eq] at hneg <;> omega
  rwa [hvalue, hsigned] at hliteral

/-- A number other than zero is written without a zero in front. -/
theorem Radix.exists_cons_writeNat (r : Radix) (upper : Bool) {n : Nat} (hn : n ≠ 0) :
    ∃ c tail, r.writeNat upper n = c :: tail ∧ c ≠ '0' := by
  have hinj : ∀ upper, ∀ d < 36, digitChar upper d = '0' → d = 0 := by decide
  obtain ⟨d, tail, hdigits⟩ := List.exists_cons_of_ne_nil (digitsOnto_ne_nil r n [])
  have hd : d < r.value := lt_of_mem_digitsOnto (by simp) d (hdigits ▸ List.mem_cons_self)
  refine ⟨digitChar upper d, tail.map (digitChar upper), ?_, fun hzero ↦ ?_⟩
  · rw [writeNat, digitsOf, hdigits, List.map_cons]
  · refine head?_digitsOf_ne_zero r hn ?_
    rw [digitsOf, hdigits, hinj upper d (hd.trans_le r.le) hzero, List.head?_cons]

variable {front : List Char}

/-- In the base 0 the digits are those of the radix, or one zero, which is octal. -/
theorem RadixFront.exists_numeral (h : RadixFront r front) (upper : Bool) (n : Nat) :
    ∃ r' mark ds, front ++ r.writeNat upper n = mark ++ ds ∧ SpellsNumeral 0 r' mark ds ∧
      valueOf r' (digitRun r' ds) = n := by
  have hvalue (r : Radix) : valueOf r (digitRun r (r.writeNat upper n)) = n := by
    simpa using r.valueOf_zeros_writeNat upper 0 n
  cases h with
  | hexadecimal hm =>
    exact ⟨_, _, _, rfl, .marked (.hexadecimal (.inl rfl) hm) (Radix.spellsDigits_writeNat _ _ n),
      hvalue _⟩
  | binary hm =>
    exact ⟨_, _, _, rfl, .marked (.binary (.inl rfl) hm) (Radix.spellsDigits_writeNat _ _ n),
      hvalue _⟩
  | octal =>
    refine ⟨.octal, [], '0' :: Radix.octal.writeNat upper n, rfl, .unmarked (.octal rfl) ?_, ?_⟩
    · exact ⟨List.cons_ne_nil _ _, Radix.isDigit_zeros_writeNat upper 1 n⟩
    · exact Radix.octal.valueOf_zeros_writeNat upper 1 n
  | decimal =>
    by_cases hn : n = 0
    · subst hn
      have hzero : Radix.decimal.writeNat upper 0 = ['0'] := by
        rw [Radix.writeNat, digitsOf_of_lt (by decide)]
        cases upper <;> rfl
      have hdigit : ∀ c ∈ ['0'], Radix.octal.isDigit c := List.forall_mem_singleton.mpr rfl
      exact ⟨.octal, [], ['0'], hzero, .unmarked (.octal rfl) ⟨by simp, hdigit⟩, rfl⟩
    · obtain ⟨c, tail, hcons, hc⟩ := Radix.decimal.exists_cons_writeNat upper hn
      have hds := Radix.decimal.spellsDigits_writeNat upper n
      have hdecimal := hvalue .decimal
      rw [hcons] at hds hdecimal
      exact ⟨.decimal, [], c :: tail, hcons, .unmarked (.decimal rfl hc) hds, hdecimal⟩

end Read

/-- A literal in any text is read back. -/
theorem readInt_of_literal {w : Width} {b : Base} {r : Radix} {cs : List Char} {t : IntType}
    {x : Int} (h : SpellsLiteral b.value cs r x) (hmin : t.min ≤ x) (hmax : x ≤ t.max)
    {rest : Text w} (hrest : NotNext Char.isAlphanum (Text.asciiRun rest)) :
    readInt b.value t (Text.asciiRun (Text.ofAscii w cs ++ rest)) = .ok ⟨x, cs.length, false⟩ := by
  rw [Text.asciiRun_ofAscii_append h.ascii, readInt, b.ofNat?_value]
  exact congrArg Except.ok (IntType.read_of_literal h hmin hmax hrest)

/-- **Integers are read back** from what they are written as, whatever follows that is neither a
digit nor a letter: in the base they were written in, and in the base 0 from the digits of a radix
behind what it is told by. -/
theorem readInt_writeInt {w : Width} {t : IntType} {v : Int} (hmin : t.min ≤ v) (hmax : v ≤ t.max)
    {rest : Text w} (hrest : ∀ u ∈ rest.head?, ∀ c, u.ascii? = some c → c.isAlphanum = false) :
    (∀ base upper, 2 ≤ base → base ≤ 36 → ∃ text, writeInt v base upper = .ok text ∧
      readInt base t (Text.asciiRun (Text.ofAscii w text ++ rest))
        = .ok ⟨v, text.length, false⟩) ∧
    ∀ (r : Radix) front upper (negative : Bool), RadixFront r front →
      v = (if negative then -(v.natAbs : Int) else v.natAbs) →
      ∃ digits, writeInt v.natAbs r.value upper = .ok digits ∧
        let text := (if negative then ['-'] else []) ++ (front ++ digits)
        readInt 0 t (Text.asciiRun (Text.ofAscii w text ++ rest)) = .ok ⟨v, text.length, false⟩ := by
  have hnext := notNext_asciiRun hrest
  refine ⟨fun base upper hlow hhigh ↦ ?_, fun r front upper negative hfront hv ↦ ?_⟩
  · let r : Radix := ⟨base, hlow, hhigh⟩
    exact ⟨_, writeInt_of_mem ⟨hlow, hhigh⟩ v upper,
      readInt_of_literal (b := .fixed r) (r.spellsLiteral_write upper v) hmin hmax hnext⟩
  · refine ⟨_, writeInt_natCast r upper v.natAbs, ?_⟩
    obtain ⟨r', mark, ds, htext, hnumeral, hvalue⟩ := hfront.exists_numeral upper v.natAbs
    have hliteral := SpellsLiteral.literal (List.forall_mem_nil _) (.minus_if negative) hnumeral
    rw [hvalue, ← hv, ← htext] at hliteral
    exact readInt_of_literal (b := .fromMark) hliteral hmin hmax hnext

/-- The least 8-bit integer is read back from duodecimal digits, and behind a mark. -/
theorem readInt_writeInt_least :
    let t : IntType := ⟨.w8, true⟩
    let rest := Text.ofAscii .utf16 [';', '1']
    (t.min ≤ -128 ∧ -128 ≤ t.max) ∧
      (∀ u ∈ rest.head?, ∀ c, u.ascii? = some c → c.isAlphanum = false) ∧
      (∃ text, writeInt (-128) 12 true = .ok text ∧
        readInt 12 t (Text.asciiRun (Text.ofAscii .utf16 text ++ rest))
          = .ok ⟨-128, text.length, false⟩) ∧
      RadixFront .hexadecimal ['0', 'X'] ∧
      ∃ digits, writeInt 128 16 false = .ok digits ∧
        let text := ['-'] ++ (['0', 'X'] ++ digits)
        readInt 0 t (Text.asciiRun (Text.ofAscii .utf16 text ++ rest))
          = .ok ⟨-128, text.length, false⟩ := by
  intro t rest
  have hmin : t.min ≤ -128 := by decide
  have hmax : -128 ≤ t.max := by decide
  have hrest : ∀ u ∈ rest.head?, ∀ c, u.ascii? = some c → c.isAlphanum = false := by
    rintro u hu c hc
    obtain rfl : CodeUnit.ofAscii .utf16 ';' = u := Option.some.inj hu
    obtain rfl : ';' = c := Option.some.inj ((CodeUnit.ascii?_ofAscii (by decide)).symm.trans hc)
    decide
  have hfront : RadixFront .hexadecimal ['0', 'X'] := .hexadecimal (.inr rfl)
  obtain ⟨hbase, hzero⟩ := readInt_writeInt hmin hmax hrest
  exact ⟨⟨hmin, hmax⟩, hrest, hbase 12 true (by decide) (by decide), hfront,
    hzero .hexadecimal _ false true hfront rfl⟩

end FormatString
