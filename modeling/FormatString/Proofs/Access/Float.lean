import Mathlib
import FormatString.Proofs.Access.Directive
import FormatString.Proofs.Number.LongestFloat

/-!
# Floats read by position

Where a float ends is found by looking ahead: for the parenthesis that closes a tag, for a digit
behind a point, and for one behind the mark and the sign of an exponent. All of this may be behind
the end of the text, and then nothing is there. Sliced are the units that may be one of the words,
and the characters of a number, which go to a parser of whole texts. So there are two reasons why
the position where a number ends has to be right: from beyond the text nothing can be sliced, and
anywhere else the parser finds something that is no number.
-/

namespace FormatString

variable {w : Width}

/-! ## Runs of characters -/

section Runs

variable {s : Text w} {i : Nat} {cs : List Char} {p : Char → Bool}

theorem lt_of_asciiAt (h : (asciiAt s i).any p) : i < s.length := by
  by_contra hi
  rw [asciiAt, List.getElem?_eq_none (Nat.not_lt.mp hi)] at h
  exact absurd h Bool.false_ne_true

/-- The position behind the characters from `i` on that satisfy `p`. -/
def whileAt (p : Char → Bool) (s : Text w) (i : Nat) : Nat :=
  if _h : (asciiAt s i).any p then whileAt p s (i + 1) else i
termination_by s.length - i
decreasing_by
  have := lt_of_asciiAt _h
  omega

theorem Behind.run (h : Behind s i cs) : Behind s (whileAt p s i) (cs.dropWhile p) := by
  induction cs generalizing i with
  | nil =>
    rw [whileAt, h.asciiAt]
    exact h
  | cons c cs ih =>
    rw [whileAt, h.asciiAt, List.head?_cons, Option.any_some, List.dropWhile_cons]
    split
    · exact ih h.next
    · exact h

theorem blanksFrom_eq_whileAt (s : Text w) (i : Nat) : blanksFrom s i = whileAt isBlank s i := by
  fun_induction blanksFrom s i with
  | case1 i hlt hblank ih =>
    have hat : (asciiAt s i).any isBlank := by
      rwa [asciiAt, List.getElem?_eq_getElem hlt, Option.bind_some]
    rw [whileAt, dif_pos hat, ih]
  | case2 i hlt hblank =>
    have hat : ¬ (asciiAt s i).any isBlank := by
      rwa [asciiAt, List.getElem?_eq_getElem hlt, Option.bind_some]
    rw [whileAt, dif_neg hat]
  | case3 i hge =>
    rw [whileAt, asciiAt, List.getElem?_eq_none (Nat.not_lt.mp hge)]
    rfl

end Runs

/-! ## The parts of a float -/

section Parts

variable {s : Text w} {i : Nat} {cs : List Char}

/-- A sign at a position, and the position behind it. -/
def signAt (s : Text w) (i : Nat) : Bool × Nat :=
  match asciiAt s i with
  | some '-' => (true, i + 1)
  | some '+' => (false, i + 1)
  | _ => (false, i)

theorem Behind.sign (h : Behind s i cs) :
    (signAt s i).1 = (readSign cs).1 ∧ Behind s (signAt s i).2 (readSign cs).2 := by
  rw [signAt, h.asciiAt]
  cases cs with
  | nil => exact ⟨rfl, h⟩
  | cons c tail =>
    by_cases hminus : c = '-'
    · subst hminus
      exact ⟨rfl, h.next⟩
    by_cases hplus : c = '+'
    · subst hplus
      exact ⟨rfl, h.next⟩
    have hread : readSign (c :: tail) = (false, c :: tail) :=
      readSign_append .absent hminus hplus tail
    rw [hread, List.head?_cons]
    split
    · next heq => exact absurd (Option.some.inj heq) hminus
    · next heq => exact absurd (Option.some.inj heq) hplus
    · exact ⟨rfl, h⟩

/-- Whether a word, given in lower case, comes next in any case. -/
def wordAt? (s : Text w) (i : Nat) (word : List Char) : Option Bool :=
  if i + word.length ≤ s.length then do
    let units ← s.slice? i (i + word.length)
    some ((units.zip word).all fun (u, c) ↦ u.ascii?.map Char.toLower == some c)
  else some false

/-- The units of a word are in the ASCII run. -/
theorem isSome_readWord?_asciiRun (word : List Char) (t : Text w) :
    (readWord? word (Text.asciiRun t)).isSome = (decide (word.length ≤ t.length) &&
      ((t.take word.length).zip word).all fun (u, c) ↦ u.ascii?.map Char.toLower == some c) := by
  induction word generalizing t with
  | nil => simp [readWord?]
  | cons c word ih =>
    cases t with
    | nil => rfl
    | cons u t =>
      rw [Text.asciiRun]
      cases hu : u.ascii? with
      | none => simp [readWord?, hu]
      | some a =>
        rw [readWord?]
        by_cases ha : a.toLower = c
        · simp [ha, hu, ih]
        · simp [ha, hu]

theorem Behind.word (h : Behind s i cs) (word : List Char) :
    wordAt? s i word = some (readWord? word cs).isSome := by
  have hle := h.le_length
  rw [← h.asciiRun_drop, isSome_readWord?_asciiRun, List.length_drop, wordAt?]
  split
  · next hfits =>
    rw [Text.slice?_of_le (Nat.le_add_right _ _) hfits, Nat.add_sub_cancel_left,
      decide_eq_true (by omega), Bool.true_and]
    rfl
  · next hfits => rw [decide_eq_false (by omega), Bool.false_and]

theorem Behind.word_of_some (h : Behind s i cs) {word rest : List Char}
    (hword : readWord? word cs = some rest) : Behind s (i + word.length) rest := by
  obtain ⟨front, hcs, rfl⟩ := readWord?_eq_some_iff.mp hword
  rw [List.length_map]
  exact h.drop hcs

/-- The position behind a tag in parentheses, if the parentheses are closed. -/
def tagEnd (s : Text w) (i : Nat) : Nat :=
  if asciiAt s i = some '(' then
    let j := whileAt isTagChar s (i + 1)
    if asciiAt s j = some ')' then j + 1 else i
  else i

theorem Behind.tag (h : Behind s i cs) : Behind s (tagEnd s i) (readNanTag cs) := by
  rw [tagEnd, h.asciiAt]
  by_cases hopen : cs.head? = some '('
  · obtain ⟨tail, rfl⟩ := List.head?_eq_some_iff.mp hopen
    have hrun := h.next.run (p := isTagChar)
    rw [if_pos hopen]
    dsimp only
    rw [hrun.asciiAt]
    split
    · next hclose =>
      obtain ⟨rest, hrest⟩ := List.head?_eq_some_iff.mp hclose
      rw [hrest] at hrun
      have hread : readNanTag ('(' :: tail) = rest := by
        rw [← List.takeWhile_append_dropWhile (p := isTagChar) (l := tail), hrest]
        exact readNanTag_tag (fun c hc ↦ List.mem_takeWhile_imp hc) rest
      rw [hread]
      exact hrun.next
    · next hclose =>
      obtain hread | ⟨tag, hcs, htag⟩ := readNanTag_eq ('(' :: tail)
      · rw [hread]; exact h
      · refine absurd ?_ hclose
        rw [(List.cons.inj hcs).2, List.dropWhile_append_of_pos htag]
        rfl
  · rw [if_neg hopen]
    obtain hread | ⟨tag, hcs, -⟩ := readNanTag_eq cs
    · rw [hread]; exact h
    · exact absurd (by rw [hcs]; rfl) hopen

theorem Behind.digits (h : Behind s i cs) :
    Behind s (whileAt Char.isDigit s i) (readDigits cs).2 ∧
      whileAt Char.isDigit s i = i + (readDigits cs).1.length := by
  obtain ⟨ds, rest, rfl, hds, hrest⟩ := exists_digits_append .decimal cs
  have hisDigit : Radix.decimal.isDigit = Char.isDigit := funext fun c ↦ Radix.isDigit_decimal c
  have hrun := h.run (p := Char.isDigit)
  rw [← hisDigit, (span_of_notNext hds hrest).2] at hrun
  rw [readDigits_of_notNext hds hrest, length_digitRun hds, ← hisDigit]
  refine ⟨hrun, ?_⟩
  have hfrom := h.add_length
  have hto := hrun.add_length
  rw [List.length_append] at hfrom
  omega

/-- The position behind an exponent, if there are digits in it. -/
def exponentEnd (s : Text w) (i : Nat) : Nat :=
  if (asciiAt s i).any Decimal.isMark then
    let j := (signAt s (i + 1)).2
    if (asciiAt s j).any Char.isDigit then whileAt Char.isDigit s j else i
  else i

theorem Behind.exponent (h : Behind s i cs) :
    Behind s (exponentEnd s i) (readExponent cs).2 := by
  rw [exponentEnd, h.asciiAt]
  cases cs with
  | nil => exact h
  | cons mark signed =>
    obtain ⟨-, hsign⟩ := h.next.sign
    have hdigits := hsign.digits.1
    have hmark : (mark.toLower == 'e') = Decimal.isMark mark :=
      Bool.eq_iff_iff.mpr (beq_iff_eq.trans toLower_eq_mark_iff)
    have hdigit : (!(digitRun .decimal (readSign signed).2).isEmpty)
        = (readSign signed).2.head?.any Char.isDigit := by
      cases (readSign signed).2 with
      | nil => rfl
      | cons c tail =>
        rw [List.head?_cons, Option.any_some, ← Radix.isDigit_decimal, Radix.isDigit, digitRun]
        cases Radix.decimal.digit? c <;> rfl
    rw [List.head?_cons, Option.any_some, readExponent]
    dsimp only
    rw [hsign.asciiAt, hmark, hdigit]
    by_cases hm : Decimal.isMark mark
    · rw [if_pos hm, hm, Bool.true_and]
      split
      · exact hdigits
      · exact h
    · rw [if_neg hm, Bool.eq_false_of_not_eq_true hm, Bool.false_and]
      exact h

/-- The position behind digits with a point among them or without one, if there are digits. -/
def mantissaEnd? (s : Text w) (i : Nat) : Option Nat :=
  let point := whileAt Char.isDigit s i
  if asciiAt s point = some '.' then
    let j := whileAt Char.isDigit s (point + 1)
    if (point - i) + (j - (point + 1)) = 0 then none else some j
  else if point = i then none
  else some point

theorem Behind.mantissa (h : Behind s i cs) :
    if (readMantissa cs).1.1.length + (readMantissa cs).1.2.length = 0 then mantissaEnd? s i = none
    else ∃ j, mantissaEnd? s i = some j ∧ Behind s j (readMantissa cs).2 := by
  obtain ⟨hpoint, hwhole⟩ := h.digits
  rw [mantissaEnd?, readMantissa, readBoth]
  dsimp only
  rw [hpoint.asciiAt]
  obtain ⟨tail, htail⟩ | hnone := exists_point_or_notNext (readDigits cs).2
  · rw [htail] at hpoint ⊢
    obtain ⟨hend, hfraction⟩ := hpoint.next.digits
    rw [List.head?_cons, if_pos rfl, readFraction_point, hfraction, hwhole, Nat.add_sub_cancel_left,
      Nat.add_sub_cancel_left]
    rw [hfraction, hwhole] at hend
    split
    · rfl
    · exact ⟨_, rfl, hend⟩
  · have hhead : ¬ (readDigits cs).2.head? = some '.' := by
      intro hhead
      exact absurd (hnone _ hhead) (by decide)
    rw [if_neg hhead, readFraction_of_notNext hnone, hwhole, List.length_nil]
    split
    · next hempty => rw [if_pos (by omega)]
    · next hempty => exact ⟨_, if_neg (by omega), hwhole ▸ hpoint⟩

/-- The position behind a number. -/
def numberEnd? (s : Text w) (i : Nat) : Option Nat := (mantissaEnd? s i).map (exponentEnd s)

/-- A number is found by position where one is read. -/
theorem Behind.number (h : Behind s i cs) :
    (numberEnd? s i = none ∧ readDecimal? cs = none) ∨
      ∃ j body rest, numberEnd? s i = some j ∧ readDecimal? cs = some (body, rest) ∧
        Behind s j rest := by
  have hempty : ((readMantissa cs).1.1.isEmpty && (readMantissa cs).1.2.isEmpty) = true ↔
      (readMantissa cs).1.1.length + (readMantissa cs).1.2.length = 0 := by simp
  have hmantissa := h.mantissa
  rw [numberEnd?, readDecimal?_eq]
  split at hmantissa
  · next hzero =>
    rw [if_pos (hempty.mpr hzero), hmantissa]
    exact .inl ⟨rfl, rfl⟩
  · next hzero =>
    obtain ⟨j, hj, hend⟩ := hmantissa
    rw [if_neg (mt hempty.mp hzero), hj]
    exact .inr ⟨_, _, _, rfl, rfl, hend.exponent⟩

end Parts

/-! ## Whole floats -/

/-- Reads a float. -/
def Text.floatAt? (s : Text w) : Option (Parsed (Binary .binary64)) := do
  let start := blanksFrom s 0
  let (negative, i) := signAt s start
  if ← wordAt? s i "infinity".toList then some ⟨.infinity negative, i + 8, false⟩
  else if ← wordAt? s i "inf".toList then some ⟨.infinity negative, i + 3, false⟩
  else if ← wordAt? s i "nan".toList then some ⟨.nan negative, tagEnd s (i + 3), false⟩
  else
    match numberEnd? s i with
    | none => some ⟨.zero false, 0, false⟩
    | some j =>
      let literal ← s.slice? start j
      let value := (Binary.parse? .binary64 (literal.filterMap CodeUnit.ascii?)).getD (.zero false)
      some ⟨value, j, value.isInfinite⟩

section Whole

variable {s : Text w} {i : Nat} {front rest : List Char}

theorem Behind.slice? (h : Behind s i (front ++ rest)) :
    s.slice? i (i + front.length) = some (.ofAscii w front) := by
  have hle := (h.drop rfl).le_length
  rw [Text.slice?_of_le (Nat.le_add_right _ _) hle, Nat.add_sub_cancel_left,
    Text.eq_ofAscii_append h.asciiRun_drop, List.take_left' (Text.length_ofAscii front)]

/-- The characters of a number are sliced and parsed. -/
theorem Behind.literal {sign cs : List Char} {negative : Bool} {body : FloatBody}
    (h : Behind s i (sign ++ cs)) (hsign : SpellsSign sign negative)
    (hread : readDecimal? cs = some (body, rest)) {j : Nat} (hj : Behind s j rest) :
    ∃ literal, s.slice? i j = some literal ∧
      Binary.parse? .binary64 (literal.filterMap CodeUnit.ascii?)
        = some (body.value .binary64 negative) := by
  obtain ⟨front, rfl, hbody⟩ := readDecimal?_sound hread
  rw [← List.append_assoc] at h
  have hend : i + (sign ++ front).length = j := by
    have hfrom := (h.drop rfl).add_length
    have hto := hj.add_length
    omega
  have hascii : ∀ c ∈ sign ++ front, c.toNat < 0x80 :=
    List.forall_mem_append.mpr ⟨hsign.ascii, hbody.ascii⟩
  refine ⟨_, hend ▸ h.slice?, ?_⟩
  rw [Text.filterMap_ascii?_ofAscii hascii]
  cases body with
  | decimal whole fraction e =>
    exact (SpellsFloatLiteral.literal (List.forall_mem_nil _) hsign hbody).parse? .binary64
  | _ => exact absurd (isDecimal_of_readDecimal? hread) (by decide)

end Whole

/-- **A float is read in range**, and it is the one that is read off the ASCII run. -/
theorem Text.floatAt?_eq (s : Text w) : s.floatAt? = some (readFloat .binary64 (asciiRun s)) := by
  have hstart := (behind_zero s).run (p := isBlank)
  rw [← blanksFrom_eq_whileAt] at hstart
  obtain ⟨hnegative, hsign⟩ := hstart.sign
  have hconsumed {j : Nat} {rest : List Char} (h : Behind s j rest) :
      (asciiRun s).length - rest.length = j := Nat.sub_eq_of_eq_add h.add_length.symm
  rw [floatAt?, readFloat]
  dsimp only
  rw [hnegative, hsign.word, hsign.word, hsign.word]
  obtain ⟨⟨negative, cs⟩, hp⟩ : ∃ p, readSign ((asciiRun s).dropWhile isBlank) = p := ⟨_, rfl⟩
  obtain ⟨sign, hsplit, hspells⟩ := readSign_sound hp
  rw [hp] at hsign ⊢
  rw [hsplit] at hstart
  -- One word after the other is tried, as in `FloatBody.read?`.
  rw [FloatBody.read?]
  dsimp only [Option.bind_eq_bind, Option.bind_some]
  cases hinfinity : readWord? "infinity".toList cs with
  | some rest =>
    dsimp only
    rw [hconsumed (hsign.word_of_some hinfinity)]
    rfl
  | none =>
    cases hinf : readWord? "inf".toList cs with
    | some rest =>
      dsimp only
      rw [hconsumed (hsign.word_of_some hinf)]
      rfl
    | none =>
      cases hnan : readWord? "nan".toList cs with
      | some rest =>
        dsimp only
        rw [hconsumed (hsign.word_of_some hnan).tag]
        rfl
      | none =>
        dsimp only [Option.isSome]
        obtain ⟨hend, hread⟩ | ⟨j, body, rest, hend, hread, hj⟩ := hsign.number
        · rw [hend, hread]
          rfl
        · obtain ⟨literal, hslice, hparse⟩ := hstart.literal hspells hread hj
          rw [hend, hread]
          dsimp only
          rw [hslice, Option.bind_some, hparse, hconsumed hj, isDecimal_of_readDecimal? hread]
          rfl

end FormatString
