import Mathlib
import FormatString.Proofs.Number.Literal

/-!
# Words and numbers among the floats

A float literal is a word, for an infinity or a NaN, or a number. Only a number can be too large for
its format, so that what is read of one as an infinity was clamped, and what is read of a word was
not. `SpellsWord` tells the two apart by the text that was read.
-/

namespace FormatString

/-- The words for infinities and NaNs, in lower case. -/
def floatWords : List (List Char) :=
  [['i', 'n', 'f'], ['i', 'n', 'f', 'i', 'n', 'i', 't', 'y'], ['n', 'a', 'n']]

/-- A sign and a word for an infinity or a NaN, in any case, and the tag that may follow it. -/
inductive SpellsWord : List Char → Prop where
  | word {sign word tag : List Char} {negative : Bool} (hsign : SpellsSign sign negative)
    (hword : word.map Char.toLower ∈ floatWords) : SpellsWord (sign ++ (word ++ tag))

/-! ## Reading words -/

theorem readWord?_eq_some_iff {word cs rest : List Char} :
    readWord? word cs = some rest ↔
      ∃ front, cs = front ++ rest ∧ front.map Char.toLower = word := by
  induction word generalizing cs with
  | nil =>
    rw [readWord?]
    constructor
    · intro h
      exact ⟨[], Option.some.inj h, rfl⟩
    · rintro ⟨front, rfl, hfront⟩
      rw [List.map_eq_nil_iff.mp hfront]
      rfl
  | cons a word ih =>
    cases cs with
    | nil =>
      rw [readWord?]
      constructor
      · intro h
        exact absurd h (by simp)
      · rintro ⟨front, hnil, hfront⟩
        rw [(List.append_eq_nil_iff.mp hnil.symm).1] at hfront
        exact absurd hfront (by simp)
    | cons c cs =>
      rw [readWord?]
      constructor
      · intro h
        split at h
        · next hc =>
          obtain ⟨front, rfl, hfront⟩ := ih.mp h
          exact ⟨c :: front, rfl, congrArg₂ List.cons (beq_iff_eq.mp hc) hfront⟩
        · exact absurd h (by simp)
      · rintro ⟨front, hcs, hfront⟩
        obtain ⟨d, tail, rfl, hd, htail⟩ := List.map_eq_cons_iff.mp hfront
        obtain ⟨rfl, rfl⟩ := List.cons.inj hcs
        rw [if_pos (beq_iff_eq.mpr hd)]
        exact ih.mpr ⟨tail, rfl, htail⟩

theorem readNanTag_suffix (cs : List Char) : readNanTag cs <:+ cs := by
  unfold readNanTag
  split
  · next tag =>
    split
    · next rest hrest =>
      have hsuffix := List.dropWhile_suffix (fun c : Char ↦ c.isAlphanum || c == '_') (l := tag)
      rw [hrest] at hsuffix
      exact (List.suffix_cons _ _).trans (hsuffix.trans (List.suffix_cons _ _))
    · exact List.suffix_refl _
  · exact List.suffix_refl _

namespace FloatBody

variable {cs rest : List Char} {body : FloatBody}

theorem exists_word_of_readWord? {lower : List Char} (h : readWord? lower cs = some rest)
    (hlower : lower ∈ floatWords) :
    ∃ word, cs = word ++ rest ∧ word.map Char.toLower ∈ floatWords := by
  obtain ⟨word, hcs, rfl⟩ := readWord?_eq_some_iff.mp h
  exact ⟨word, hcs, hlower⟩

/-- What is no number was read off a word. -/
theorem exists_word_of_read? (h : read? cs = some (body, rest)) (hbody : body.isDecimal = false) :
    ∃ word tag, cs = word ++ (tag ++ rest) ∧ word.map Char.toLower ∈ floatWords := by
  rw [read?] at h
  split at h
  · next tail hread =>
    obtain ⟨-, rfl⟩ := Prod.mk.inj (Option.some.inj h)
    obtain ⟨word, hcs, hword⟩ := exists_word_of_readWord? hread (by decide)
    exact ⟨word, [], hcs, hword⟩
  split at h
  · next tail hread =>
    obtain ⟨-, rfl⟩ := Prod.mk.inj (Option.some.inj h)
    obtain ⟨word, hcs, hword⟩ := exists_word_of_readWord? hread (by decide)
    exact ⟨word, [], hcs, hword⟩
  split at h
  · next tail hread =>
    obtain ⟨-, rfl⟩ := Prod.mk.inj (Option.some.inj h)
    obtain ⟨word, hcs, hword⟩ := exists_word_of_readWord? hread (by decide)
    obtain ⟨tag, htag⟩ := readNanTag_suffix tail
    exact ⟨word, tag, by rw [htag, hcs], hword⟩
  · rw [readDecimal?] at h
    dsimp only at h
    split at h
    · exact absurd h (by simp)
    · obtain ⟨rfl, -⟩ := Prod.mk.inj (Option.some.inj h)
      exact absurd hbody (by simp [isDecimal])

/-- What starts with a word is no number. -/
theorem isDecimal_of_word {word tail : List Char} (hword : word.map Char.toLower ∈ floatWords)
    (h : read? (word ++ tail) = some (body, rest)) : body.isDecimal = false := by
  have hread : readWord? (word.map Char.toLower) (word ++ tail) = some tail :=
    readWord?_eq_some_iff.mpr ⟨word, rfl, rfl⟩
  rw [read?] at h
  split at h
  · rw [← (Prod.mk.inj (Option.some.inj h)).1]
    rfl
  next hinfinity =>
  split at h
  · rw [← (Prod.mk.inj (Option.some.inj h)).1]
    rfl
  next hinf =>
  split at h
  · rw [← (Prod.mk.inj (Option.some.inj h)).1]
    rfl
  next hnan =>
  -- One of the three words would have been read.
  simp only [floatWords, List.mem_cons, List.not_mem_nil, or_false] at hword
  obtain hword | hword | hword := hword <;> rw [hword] at hread
  · exact absurd (hinf.symm.trans hread) (by simp)
  · exact absurd (hinfinity.symm.trans hread) (by simp)
  · exact absurd (hnan.symm.trans hread) (by simp)

end FloatBody

/-- A word starts with a letter. -/
theorem exists_cons_of_floatWord {word : List Char} (hword : word.map Char.toLower ∈ floatWords) :
    ∃ c tail, word = c :: tail ∧ c ≠ '-' ∧ c ≠ '+' := by
  have hne : ∀ ws ∈ floatWords, ∃ d ds, ws = d :: ds ∧ d ≠ '-' ∧ d ≠ '+' := by
    simp [floatWords]
  obtain ⟨d, ds, hds, hminus, hplus⟩ := hne _ hword
  obtain ⟨c, tail, rfl, hc, -⟩ := List.map_eq_cons_iff.mp hds
  refine ⟨c, tail, rfl, ?_, ?_⟩
  · rintro rfl
    exact hminus (hc.symm.trans (by decide))
  · rintro rfl
    exact hplus (hc.symm.trans (by decide))

/-- **Words and numbers.** What is read has the value of its body, and the flag is for numbers that
became infinite; the body is that of a word just if the characters that were taken spell one. -/
theorem exists_body_of_readFloat {F : BinaryFormat} {cs : List Char}
    (hblank : cs.dropWhile isBlank = cs) (hne : (readFloat F cs).consumed ≠ 0) :
    ∃ (negative : Bool) (body : FloatBody), (readFloat F cs).value = body.value F negative ∧
      (readFloat F cs).overflow = (body.isDecimal && (body.value F negative).isInfinite) ∧
      (body.isDecimal = false ↔ SpellsWord (cs.take (readFloat F cs).consumed)) := by
  obtain ⟨⟨negative, unsigned⟩, hsigned⟩ : ∃ p, readSign cs = p := ⟨_, rfl⟩
  obtain ⟨sign, hcs, hsign⟩ := readSign_sound hsigned
  rw [readFloat, hblank, hsigned] at hne ⊢
  dsimp only at hne ⊢
  cases hbody : FloatBody.read? unsigned with
  | none =>
    rw [hbody] at hne
    exact absurd rfl hne
  | some p =>
    obtain ⟨body, rest⟩ := p
    refine ⟨negative, body, rfl, rfl, fun hword ↦ ?_, fun hword ↦ ?_⟩
    · obtain ⟨word, tag, rfl, hword⟩ := FloatBody.exists_word_of_read? hbody hword
      have hsplit : cs = sign ++ (word ++ tag) ++ rest := by simp [hcs]
      dsimp only
      rw [hsplit, List.length_append, Nat.add_sub_cancel, List.take_left]
      exact .word hsign hword
    · generalize htake : cs.take _ = front at hword
      obtain ⟨hsign', hword⟩ := hword
      obtain ⟨c, tail, rfl, hminus, hplus⟩ := exists_cons_of_floatWord hword
      rename_i sign' tag negative'
      obtain ⟨rest', hrest⟩ := List.take_prefix (cs.length - rest.length) cs
      rw [htake] at hrest
      have hread := readSign_append hsign' hminus hplus (tail ++ (tag ++ rest'))
      rw [show sign' ++ c :: (tail ++ (tag ++ rest')) = cs by rw [← hrest]; simp, hsigned] at hread
      obtain ⟨-, rfl⟩ := Prod.mk.inj hread
      rw [← List.cons_append] at hbody
      exact FloatBody.isDecimal_of_word hword hbody

end FormatString
