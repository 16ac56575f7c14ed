import Mathlib
import FormatString.Proofs.Number.FloatGrammar
import FormatString.Proofs.Number.Overflow

/-!
# The longest float

Reading a float takes the longest text of the grammar at the front of a text. Where that is a
number, the characters behind the blanks are all there is to it: `Binary.parse?` is a parser of
whole texts, as libraries have it, which finds the parts of a number by splitting at the mark and at
the point and refuses what is no number. It never has to refuse what the reader hands over, and so a
number is an infinity only if its exact value is beyond the bound of the format.
-/

namespace FormatString

/-! ## Parsing whole texts -/

/-- A whole text as a decimal integer. -/
def parseInteger? (text : List Char) : Option Int :=
  let (negative, digits) := readSign text
  if digits ≠ [] ∧ digits.all Char.isDigit then
    let magnitude : Int := valueOf .decimal (digitRun .decimal digits)
    some (if negative then -magnitude else magnitude)
  else none

/-- A mark and an integer behind it, or nothing. -/
def parseExponent? : List Char → Option Int
  | [] => some 0
  | _ :: digits => parseInteger? digits

/-- A whole text as a float: a sign, and a name or a number with digits on one side of its point.
Nothing may be left over. -/
def Binary.parse? (F : BinaryFormat) (text : List Char) : Option (Binary F) := do
  let (negative, body) := readSign text
  let name := body.map Char.toLower
  if name = "inf".toList ∨ name = "infinity".toList then return .infinity negative
  if name = "nan".toList then return .nan negative
  let mantissa := body.takeWhile (!Decimal.isMark ·)
  let exponent ← parseExponent? (body.dropWhile (!Decimal.isMark ·))
  let whole := mantissa.takeWhile (· != '.')
  let fraction := (mantissa.dropWhile (· != '.')).drop 1
  let digits := whole ++ fraction
  if digits ≠ [] ∧ digits.all Char.isDigit then
    return .ofDecimal F negative (valueOf .decimal (digitRun .decimal digits))
      (exponent - fraction.length)
  none

section Parse

variable {F : BinaryFormat} {mantissa exponent sign : List Char} {whole fraction : List Nat}
  {e : Int} {negative : Bool}

theorem all_isDigit {ds : List Char} (hds : ∀ c ∈ ds, Radix.decimal.isDigit c) :
    ds.all Char.isDigit := by
  refine List.all_eq_true.mpr fun c hc ↦ ?_
  rw [← Radix.isDigit_decimal]
  exact hds c hc

theorem parseInteger?_of_spellsInt {cs : List Char} (h : SpellsInt .decimal cs e) :
    parseInteger? cs = some e := by
  obtain ⟨hsign, hnone, hne, hds⟩ := h
  rename_i sign none ds negative
  obtain rfl := hnone.eq_nil_of_decimal
  obtain ⟨c, tail, rfl, hc⟩ := exists_cons_of_digits hne hds
  rw [List.nil_append, parseInteger?, readSign_append hsign (ne_of_isDigit hc (by decide))
    (ne_of_isDigit hc (by decide))]
  dsimp only
  rw [if_pos ⟨hne, all_isDigit hds⟩]

theorem digitRun_digits {ds fs : List Char} (hds : ∀ c ∈ ds, Radix.decimal.isDigit c) :
    digitRun .decimal (ds ++ fs) = digitRun .decimal ds ++ digitRun .decimal fs := by
  induction ds with
  | nil => rfl
  | cons c ds ih =>
    obtain ⟨d, hd⟩ := Option.isSome_iff_exists.mp (hds c List.mem_cons_self)
    rw [List.cons_append, digitRun, digitRun, hd, List.cons_append,
      ih fun e he ↦ hds e (List.mem_cons_of_mem _ he)]

/-- A text is split where the first character comes that is not of the class. -/
theorem span_of_notNext {p : Char → Bool} {cs rest : List Char} (hcs : ∀ c ∈ cs, p c)
    (hrest : NotNext p rest) :
    (cs ++ rest).takeWhile p = cs ∧ (cs ++ rest).dropWhile p = rest := by
  rw [List.takeWhile_append_of_pos hcs, List.dropWhile_append_of_pos hcs]
  cases rest with
  | nil => exact ⟨List.append_nil cs, rfl⟩
  | cons c rest =>
    have hc : ¬ p c = true := ne_true_of_eq_false (notNext_cons.mp hrest)
    rw [List.takeWhile_cons_of_neg hc, List.dropWhile_cons_of_neg hc, List.append_nil]
    exact ⟨rfl, rfl⟩

theorem isDecimal_of_readDecimal? {cs rest : List Char} {body : FloatBody}
    (h : readDecimal? cs = some (body, rest)) : body.isDecimal = true := by
  rw [readDecimal?_eq] at h
  split at h
  · exact absurd h (by simp)
  · rw [← (Prod.mk.inj (Option.some.inj h)).1]
    rfl

namespace SpellsMantissa

/-- Splitting a mantissa at its point gives its digits. -/
theorem split (h : SpellsMantissa mantissa whole fraction) :
    ∃ ds fs, mantissa.takeWhile (· != '.') = ds ∧ (mantissa.dropWhile (· != '.')).drop 1 = fs ∧
      SpellsDigits .decimal (ds ++ fs) ∧ digitRun .decimal (ds ++ fs) = whole ++ fraction ∧
      fs.length = fraction.length := by
  have hspan {ds rest : List Char} (hds : ∀ c ∈ ds, Radix.decimal.isDigit c)
      (hrest : NotNext (· != '.') rest) : (ds ++ rest).takeWhile (· != '.') = ds ∧
        (ds ++ rest).dropWhile (· != '.') = rest :=
    span_of_notNext (fun c hc ↦ bne_iff_ne.mpr (ne_of_isDigit (hds c hc) (by decide))) hrest
  have hpoint (fs : List Char) : NotNext (· != '.') ('.' :: fs) := by simp
  cases h with
  | whole hds =>
    obtain ⟨htake, hdrop⟩ := hspan hds.digits notNext_nil
    rw [List.append_nil] at htake hdrop
    rw [htake, hdrop]
    refine ⟨_, [], rfl, rfl, ?_, ?_, rfl⟩
    · rwa [List.append_nil]
    · rw [List.append_nil, List.append_nil]
  | @pointed _ fs hds hfs =>
    obtain ⟨htake, hdrop⟩ := hspan hds.digits (hpoint fs)
    rw [htake, hdrop]
    exact ⟨_, fs, rfl, rfl, ⟨List.append_ne_nil_of_left_ne_nil hds.ne_nil _,
      List.forall_mem_append.mpr ⟨hds.digits, hfs⟩⟩, digitRun_digits hds.digits,
      (length_digitRun hfs).symm⟩
  | bare hfs => exact ⟨[], _, rfl, rfl, hfs, rfl, (length_digitRun hfs.digits).symm⟩

/-- The characters of a number are digits and points. -/
theorem isDigit_or_point (h : SpellsMantissa mantissa whole fraction) :
    ∀ c ∈ mantissa, Radix.decimal.isDigit c ∨ c = '.' := by
  cases h with
  | whole hdigits => exact fun c hc ↦ .inl (hdigits.digits c hc)
  | pointed hdigits hfraction =>
    refine List.forall_mem_append.mpr ⟨fun c hc ↦ .inl (hdigits.digits c hc), ?_⟩
    exact List.forall_mem_cons.mpr ⟨.inr rfl, fun c hc ↦ .inl (hfraction c hc)⟩
  | bare hfraction =>
    exact List.forall_mem_cons.mpr ⟨.inr rfl, fun c hc ↦ .inl (hfraction.digits c hc)⟩

theorem isMark_eq_false (h : SpellsMantissa mantissa whole fraction) :
    ∀ c ∈ mantissa, (!Decimal.isMark c) = true := by
  intro c hc
  obtain hdigit | rfl := h.isDigit_or_point c hc
  · rw [Radix.isDigit_decimal] at hdigit
    rw [Decimal.isMark_eq_false_of_isDigit hdigit]
    rfl
  · decide

/-- A number is none of the names. -/
theorem map_toLower_notMem (h : SpellsMantissa mantissa whole fraction)
    (hexponent : SpellsExponent exponent e) :
    (mantissa ++ exponent).map Char.toLower ∉ floatWords := by
  intro hword
  obtain ⟨body, rest, hread, -⟩ := h.exists_readDecimal? hexponent []
  have hnumber := isDecimal_of_readDecimal? hread
  obtain ⟨c, tail, rfl, hc⟩ := h.exists_cons
  rw [List.cons_append, List.cons_append, ← FloatBody.read?_of_isDigit_or_point hc] at hread
  exact absurd (hnumber.symm.trans (FloatBody.isDecimal_of_word hword hread)) (by decide)

end SpellsMantissa

namespace SpellsExponent

theorem notNext_isMark (h : SpellsExponent exponent e) :
    NotNext (!Decimal.isMark ·) exponent := by
  cases h with
  | absent => exact notNext_nil
  | marked hmark h => simp [hmark]

theorem parseExponent? (h : SpellsExponent exponent e) :
    FormatString.parseExponent? exponent = some e := by
  cases h with
  | absent => rfl
  | marked hmark h => exact parseInteger?_of_spellsInt h

end SpellsExponent

/-- **Numbers are parsed**, and have the value that is read. -/
theorem Binary.parse?_of_mantissa (hsign : SpellsSign sign negative)
    (hmantissa : SpellsMantissa mantissa whole fraction) (hexponent : SpellsExponent exponent e) :
    parse? F (sign ++ (mantissa ++ exponent))
      = some ((FloatBody.decimal whole fraction e).value F negative) := by
  obtain ⟨hfront, hback⟩ := span_of_notNext hmantissa.isMark_eq_false hexponent.notNext_isMark
  obtain ⟨ds, fs, hds, hfs, hdigits, hrun, hlength⟩ := hmantissa.split
  have hword := hmantissa.map_toLower_notMem hexponent
  have hinf : "inf".toList ∈ floatWords := by decide
  have hinfinity : "infinity".toList ∈ floatWords := by decide
  have hnan : "nan".toList ∈ floatWords := by decide
  have hsigned : readSign (sign ++ (mantissa ++ exponent)) = (negative, mantissa ++ exponent) := by
    obtain ⟨c, tail, hcons, -, hminus, hplus⟩ :=
      (SpellsBody.number hmantissa hexponent).exists_cons
    rw [hcons]
    exact readSign_append hsign hminus hplus tail
  rw [parse?, hsigned]
  dsimp only
  rw [if_neg (not_or.mpr ⟨ne_of_mem_of_not_mem hinf hword ∘ Eq.symm,
      ne_of_mem_of_not_mem hinfinity hword ∘ Eq.symm⟩),
    if_neg (ne_of_mem_of_not_mem hnan hword ∘ Eq.symm), hfront, hback, hexponent.parseExponent?,
    hds, hfs]
  dsimp only [Option.bind_eq_bind, Option.bind_some]
  rw [if_pos ⟨hdigits.ne_nil, all_isDigit hdigits.digits⟩, hrun, hlength]
  rfl

/-- What the reader must not hand over. -/
example : ["", "+", ".", "1e", "1e+", "1.2.3", " 1", "1 ", "nan(1)"].all
    (fun text ↦ (Binary.parse? .binary64 text.toList).isNone) := by decide +kernel

end Parse

/-! ## Literals at the front of a text -/

section Literals

variable {cs text tail rest sign word : List Char} {c : Char} {negative : Bool} {body : FloatBody}

theorem ascii_of_toLower (h : c.toLower.toNat < 0x80) : c.toNat < 0x80 := by
  rw [Char.toLower] at h
  split at h
  · next hupper =>
    have hle : c.toNat ≤ 90 := hupper.2
    omega
  · exact h

theorem ascii_of_floatWord (hword : word.map Char.toLower ∈ floatWords) :
    ∀ c ∈ word, c.toNat < 0x80 := by
  have hlower : ∀ lower ∈ floatWords, ∀ c ∈ lower, c.toNat < 0x80 := by simp [floatWords]
  exact fun c hc ↦ ascii_of_toLower (List.forall_mem_map.mp (hlower _ hword) c hc)

theorem ascii_of_isTagChar (h : isTagChar c) : c.toNat < 0x80 := by
  simp only [isTagChar, Char.isAlphanum, Char.isAlpha, Char.isUpper, Char.isLower, Char.isDigit,
    Bool.or_eq_true, Bool.and_eq_true, decide_eq_true_eq, beq_iff_eq, UInt32.le_iff_toNat_le,
    ge_iff_le] at h
  obtain ((⟨-, hle⟩ | ⟨-, hle⟩) | ⟨-, hle⟩) | rfl := h
  · exact Nat.lt_of_le_of_lt hle (by decide)
  · exact Nat.lt_of_le_of_lt hle (by decide)
  · exact Nat.lt_of_le_of_lt hle (by decide)
  · decide

theorem SpellsMantissa.ascii {whole fraction : List Nat} (h : SpellsMantissa cs whole fraction) :
    ∀ c ∈ cs, c.toNat < 0x80 := by
  intro c hc
  obtain hdigit | rfl := h.isDigit_or_point c hc
  · exact ascii_of_isDigit hdigit
  · decide

theorem SpellsExponent.ascii {e : Int} (h : SpellsExponent cs e) : ∀ c ∈ cs, c.toNat < 0x80 := by
  cases h with
  | absent => simp
  | @marked mark _ _ hmark h =>
    obtain rfl | rfl : mark = 'e' ∨ mark = 'E' := by simpa [Decimal.isMark] using hmark
    · exact List.forall_mem_cons.mpr ⟨by decide, h.ascii⟩
    · exact List.forall_mem_cons.mpr ⟨by decide, h.ascii⟩

theorem SpellsBody.ascii (h : SpellsBody cs body) : ∀ c ∈ cs, c.toNat < 0x80 := by
  cases h with
  | number hmantissa hexponent =>
    exact List.forall_mem_append.mpr ⟨hmantissa.ascii, hexponent.ascii⟩
  | infinity hword =>
    refine ascii_of_floatWord ?_
    obtain hword | hword := hword <;> rw [hword] <;> decide
  | nan hword => exact ascii_of_floatWord (by rw [hword]; decide)
  | tagged hword htag =>
    refine List.forall_mem_append.mpr ⟨ascii_of_floatWord (by rw [hword]; decide), ?_⟩
    refine List.forall_mem_cons.mpr ⟨by decide, List.forall_mem_append.mpr ⟨?_, by simp⟩⟩
    exact fun c hc ↦ ascii_of_isTagChar (htag c hc)

namespace SpellsFloatLiteral

theorem ascii (h : SpellsFloatLiteral cs text negative body) : ∀ c ∈ cs, c.toNat < 0x80 := by
  obtain ⟨hblanks, hsign, hbody⟩ := h
  exact List.forall_mem_append.mpr ⟨fun c hc ↦ ascii_of_isBlank (hblanks c hc),
    List.forall_mem_append.mpr ⟨hsign.ascii, hbody.ascii⟩⟩

theorem ne_nil (h : SpellsFloatLiteral cs text negative body) : cs ≠ [] := by
  obtain ⟨-, -, hbody⟩ := h
  obtain ⟨c, tail, rfl, -⟩ := hbody.exists_cons
  simp

/-- The text of the literal is what is behind the blanks. -/
theorem dropWhile_isBlank (h : SpellsFloatLiteral cs text negative body) (rest : List Char) :
    (cs ++ rest).dropWhile isBlank = text ++ rest := by
  obtain ⟨hblanks, hsign, hbody⟩ := h
  obtain ⟨c, tail, rfl, hblank, -⟩ := hbody.exists_cons
  rw [List.append_assoc, List.dropWhile_append_of_pos hblanks, List.append_assoc, List.cons_append,
    hsign.dropWhile_isBlank hblank]

end SpellsFloatLiteral

/-- The characters of a number are parsed as what it spells. -/
theorem SpellsFloatLiteral.parse? (F : BinaryFormat) {whole fraction : List Nat} {e : Int}
    (h : SpellsFloatLiteral cs text negative (.decimal whole fraction e)) :
    Binary.parse? F text = some ((FloatBody.decimal whole fraction e).value F negative) := by
  obtain ⟨-, hsign, hbody⟩ := h
  obtain ⟨hmantissa, hexponent⟩ := hbody
  exact Binary.parse?_of_mantissa hsign hmantissa hexponent

/-- What is read for a body. -/
def FloatBody.parsed (F : BinaryFormat) (negative : Bool) (body : FloatBody) (consumed : Nat) :
    Parsed (Binary F) :=
  ⟨body.value F negative, consumed, body.isDecimal && (body.value F negative).isInfinite⟩

/-- **What is read is a literal**, if anything is read. -/
theorem readFloat_sound (F : BinaryFormat) (s : List Char) :
    readFloat F s = ⟨.zero false, 0, false⟩ ∨ ∃ cs text negative body,
      SpellsFloatLiteral cs text negative body ∧ cs <+: s ∧
        readFloat F s = body.parsed F negative cs.length := by
  obtain ⟨⟨negative, unsigned⟩, hsigned⟩ : ∃ p, readSign (s.dropWhile isBlank) = p := ⟨_, rfl⟩
  obtain ⟨sign, hdrop, hsign⟩ := readSign_sound hsigned
  rw [readFloat, hsigned]
  dsimp only
  split
  · exact .inl rfl
  · next body rest hread =>
    obtain ⟨cs, rfl, hbody⟩ := FloatBody.read?_sound hread
    have hs : s = s.takeWhile isBlank ++ (sign ++ cs) ++ rest := by
      conv_lhs => rw [← List.takeWhile_append_dropWhile (p := isBlank) (l := s), hdrop]
      simp only [List.append_assoc]
    have hlength : s.length - rest.length = (s.takeWhile isBlank ++ (sign ++ cs)).length := by
      conv_lhs => rw [hs]
      rw [List.length_append, Nat.add_sub_cancel]
    refine .inr ⟨_, _, negative, body, .literal
      (fun c hc ↦ List.mem_takeWhile_imp (p := isBlank) (l := s) hc) hsign hbody,
      ⟨rest, hs.symm⟩, ?_⟩
    rw [hlength]
    rfl

/-- **No literal at the front is longer** than what is read, and one that is as long is the one that
is read. -/
theorem readFloat_of_literal (F : BinaryFormat) (h : SpellsFloatLiteral cs text negative body)
    (rest : List Char) : ∃ body' consumed,
      readFloat F (cs ++ rest) = body'.parsed F negative consumed ∧
        (cs.length < consumed ∨ consumed = cs.length ∧ body' = body) := by
  have hskip := h.dropWhile_isBlank rest
  obtain ⟨hblanks, hsign, hbody⟩ := h
  rename_i blanks sign cs
  obtain ⟨c, tail, rfl, -, hminus, hplus⟩ := hbody.exists_cons
  have hsigned : readSign (sign ++ c :: tail ++ rest) = (negative, c :: tail ++ rest) := by
    rw [List.append_assoc]
    exact readSign_append hsign hminus hplus _
  obtain ⟨body', rest', hread, hsuffix, heq⟩ := hbody.exists_read? rest
  rw [readFloat, hskip, hsigned]
  dsimp only
  rw [hread]
  refine ⟨body', _, rfl, ?_⟩
  have hle := hsuffix.length_le
  have hlength : (blanks ++ (sign ++ c :: tail) ++ rest).length
      = (blanks ++ (sign ++ c :: tail)).length + rest.length := List.length_append
  rw [hlength]
  obtain hlt | hlength := hle.lt_or_eq
  · exact .inl (by omega)
  · exact .inr ⟨by omega, heq (hsuffix.eq_of_length hlength)⟩

end Literals

/-! ## The longest literal -/

variable {w : Width}

/-- A literal at the front of a text, and no longer one is there. -/
structure LongestFloat (s : Text w) (cs text : List Char) (negative : Bool) (body : FloatBody) :
    Prop where
  spelled : SpellsFloatLiteral cs text negative body
  front : Text.ofAscii w cs <+: s
  longest : ∀ {cs' text' : List Char} {negative' : Bool} {body' : FloatBody},
    SpellsFloatLiteral cs' text' negative' body' → Text.ofAscii w cs' <+: s →
      cs'.length ≤ cs.length

/-- The characters of a text that come behind its blanks. -/
def Text.behindBlanks (s : Text w) : List Char :=
  (s.dropWhile (·.isBlank)).filterMap CodeUnit.ascii?

theorem Text.filterMap_ascii?_ofAscii {cs : List Char} (hcs : ∀ c ∈ cs, c.toNat < 0x80) :
    (ofAscii w cs).filterMap CodeUnit.ascii? = cs := by
  rw [ofAscii, List.filterMap_map]
  conv_rhs => rw [← List.filterMap_some (l := cs)]
  exact List.filterMap_congr fun c hc ↦ CodeUnit.ascii?_ofAscii (hcs c hc)

theorem Text.behindBlanks_ofAscii {cs : List Char} (hcs : ∀ c ∈ cs, c.toNat < 0x80) :
    (ofAscii w cs).behindBlanks = cs.dropWhile isBlank := by
  have hdrop : (ofAscii w cs).dropWhile (·.isBlank) = ofAscii w (cs.dropWhile isBlank) := by
    induction cs with
    | nil => rfl
    | cons c cs ih =>
      have hc := CodeUnit.isBlank_ofAscii (w := w) (hcs c List.mem_cons_self)
      rw [ofAscii, List.map_cons, List.dropWhile_cons, List.dropWhile_cons, hc]
      split
      · exact ih fun d hd ↦ hcs d (List.mem_cons_of_mem _ hd)
      · rfl
  rw [behindBlanks, hdrop]
  exact filterMap_ascii?_ofAscii fun c hc ↦ hcs c ((List.dropWhile_sublist isBlank).subset hc)

/-- A literal at the front is read, or a longer one with the same sign. -/
theorem exists_parsed_of_front (F : BinaryFormat) {s : Text w} {cs text : List Char}
    {negative : Bool} {body : FloatBody} (h : SpellsFloatLiteral cs text negative body)
    (hfront : Text.ofAscii w cs <+: s) : ∃ body' consumed,
      readFloat F (Text.asciiRun s) = body'.parsed F negative consumed ∧
        (cs.length < consumed ∨ consumed = cs.length ∧ body' = body) := by
  obtain ⟨rest, hrest⟩ := (Text.ofAscii_prefix_iff h.ascii).mp hfront
  rw [← hrest]
  exact readFloat_of_literal F h rest

/-- Nothing is read, or a longest literal. -/
theorem readFloat_eq_or (F : BinaryFormat) (s : Text w) :
    readFloat F (Text.asciiRun s) = ⟨.zero false, 0, false⟩ ∨ ∃ cs text negative body,
      LongestFloat s cs text negative body ∧
        readFloat F (Text.asciiRun s) = body.parsed F negative cs.length := by
  obtain hnothing | ⟨cs, text, negative, body, h, hfront, hread⟩ :=
    readFloat_sound F (Text.asciiRun s)
  · exact .inl hnothing
  · refine .inr ⟨cs, text, negative, body, ⟨h, (Text.ofAscii_prefix_iff h.ascii).mpr hfront, ?_⟩,
      hread⟩
    intro cs' text' negative' body' h' hfront'
    obtain ⟨body'', consumed, hread', hconsumed⟩ := exists_parsed_of_front F h' hfront'
    have hsame : cs.length = consumed := congrArg Parsed.consumed (hread.symm.trans hread')
    omega

/-- Only where there is no literal is nothing read. -/
theorem readFloat_ne_nothing (F : BinaryFormat) {s : Text w} {cs text : List Char}
    {negative : Bool} {body : FloatBody} (h : SpellsFloatLiteral cs text negative body)
    (hfront : Text.ofAscii w cs <+: s) :
    readFloat F (Text.asciiRun s) ≠ ⟨.zero false, 0, false⟩ := by
  intro hnothing
  obtain ⟨body', consumed, hread, hconsumed⟩ := exists_parsed_of_front F h hfront
  have hzero : 0 = consumed := congrArg Parsed.consumed (hnothing.symm.trans hread)
  have hpos := List.length_pos_iff.mpr h.ne_nil
  omega

theorem LongestFloat.readFloat (F : BinaryFormat) {s : Text w} {cs text : List Char}
    {negative : Bool} {body : FloatBody} (h : LongestFloat s cs text negative body) :
    readFloat F (Text.asciiRun s) = body.parsed F negative cs.length := by
  obtain ⟨body', consumed, hread, hconsumed⟩ := exists_parsed_of_front F h.spelled h.front
  obtain hlt | ⟨rfl, rfl⟩ := hconsumed
  · obtain hnothing | ⟨cs', text', negative', body'', h', hread'⟩ := readFloat_eq_or F s
    · exact absurd hnothing (readFloat_ne_nothing F h.spelled h.front)
    · have hsame : cs'.length = consumed := congrArg Parsed.consumed (hread'.symm.trans hread)
      have hle := h.longest h'.spelled h'.front
      omega
  · exact hread

/-- What a longest literal takes up, behind its blanks. -/
theorem LongestFloat.behindBlanks_take {s : Text w} {cs text : List Char} {negative : Bool}
    {body : FloatBody} (h : LongestFloat s cs text negative body) :
    Text.behindBlanks (s.take cs.length) = text := by
  obtain ⟨rest, hrest⟩ := h.front
  have htake : s.take cs.length = Text.ofAscii w cs := by
    rw [← hrest]
    exact List.take_left' (Text.length_ofAscii cs)
  have hdrop := h.spelled.dropWhile_isBlank []
  rw [List.append_nil, List.append_nil] at hdrop
  rw [htake, Text.behindBlanks_ofAscii h.spelled.ascii, hdrop]

/-- **The longest literal** is read, whatever the width of the text, and without one nothing is. The
characters behind the blanks of what is consumed are the literal's text. If the literal is a number
then the parser of whole texts accepts these characters and what is read is the value it yields. It
overflows when that value is an infinity, and just from half a spacing beyond the largest finite
value on. A name never overflows. -/
theorem readFloat_longest_literal (s : Text w) :
    let p := readFloat .binary64 (Text.asciiRun s)
    (p = ⟨.zero false, 0, false⟩ ↔ ¬ ∃ cs text negative body,
      SpellsFloatLiteral cs text negative body ∧ Text.ofAscii w cs <+: s) ∧
    ((∃ cs text negative body,
      SpellsFloatLiteral cs text negative body ∧ Text.ofAscii w cs <+: s) →
        ∃ cs text negative body, LongestFloat s cs text negative body) ∧
    ∀ cs text negative body, LongestFloat s cs text negative body →
      p.consumed = cs.length ∧ Text.behindBlanks (s.take p.consumed) = text ∧
        p.value = body.value .binary64 negative ∧
        (body.isDecimal = false → p.overflow = false) ∧
        ∀ whole fraction e, body = .decimal whole fraction e →
          Binary.parse? .binary64 text = some p.value ∧
          (p.overflow = true ↔ p.value.isInfinite) ∧
          (p.overflow = true ↔ (2 ^ 1024 - 2 ^ 970 : ℚ) ≤
            valueOf .decimal (whole ++ fraction) * 10 ^ (e - fraction.length)) := by
  intro p
  refine ⟨⟨?_, fun hnone ↦ ?_⟩, ?_, ?_⟩
  · rintro hnothing ⟨cs, text, negative, body, h, hfront⟩
    exact readFloat_ne_nothing .binary64 h hfront hnothing
  · obtain hnothing | ⟨cs, text, negative, body, h, -⟩ := readFloat_eq_or .binary64 s
    · exact hnothing
    · exact absurd ⟨_, _, _, _, h.spelled, h.front⟩ hnone
  · rintro ⟨cs, text, negative, body, h, hfront⟩
    obtain hnothing | ⟨cs, text, negative, body, h, -⟩ := readFloat_eq_or .binary64 s
    · exact absurd hnothing (readFloat_ne_nothing .binary64 h hfront)
    · exact ⟨_, _, _, _, h⟩
  · intro cs text negative body h
    have hp : p = body.parsed .binary64 negative cs.length := h.readFloat .binary64
    rw [hp]
    refine ⟨rfl, h.behindBlanks_take, rfl, fun hname ↦ ?_, ?_⟩
    · rw [FloatBody.parsed, hname, Bool.false_and]
    · rintro whole fraction e rfl
      refine ⟨h.spelled.parse? .binary64, by rfl, ?_⟩
      rw [← BinaryFormat.overflowBound_binary64]
      exact Binary.isInfinite_ofDecimal_iff (by decide) negative _ _

end FormatString
