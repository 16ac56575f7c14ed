import Mathlib
import FormatString.Text.Transcode
import FormatString.Proofs.Text.AsciiRun

/-!
# Well-formed text

Text that was spelled from characters is read back as these characters, whatever follows, in each of
the three encodings; so it can be moved from one width to another. Its blanks are those of the
characters, because no other character has an ASCII unit in its spelling.
-/

namespace FormatString

variable {w : Width}

/-! ## One character -/

theorem toNat_lt (c : Char) : c.toNat < 0x110000 ∧ ¬ (0xD800 ≤ c.toNat ∧ c.toNat < 0xE000) := by
  have hvalid : c.toNat.isValidChar := c.valid
  simp only [Nat.isValidChar] at hvalid
  omega

/-- The units of a spelling hold its values. -/
theorem spelling_lt (c : Char) : ∀ n ∈ spelling w c.toNat, n < w.unitCount := by
  have hc := toNat_lt c
  cases w with
  | utf8 =>
    change ∀ n ∈ spelling .utf8 c.toNat, n < 256
    simp only [spelling]
    repeat' split
    all_goals
      simp only [List.forall_mem_cons, List.not_mem_nil, false_imp_iff, implies_true, and_true]
      omega
  | utf16 =>
    change ∀ n ∈ spelling .utf16 c.toNat, n < 65536
    simp only [spelling]
    split
    all_goals
      simp only [List.forall_mem_cons, List.not_mem_nil, false_imp_iff, implies_true, and_true]
      omega
  | utf32 =>
    change ∀ n ∈ [c.toNat], n < 4294967296
    simp only [List.forall_mem_cons, List.not_mem_nil, false_imp_iff, implies_true, and_true]
    omega

theorem map_value_encodeChar (c : Char) :
    (encodeChar w c).map CodeUnit.value = spelling w c.toNat := by
  rw [encodeChar, List.map_map]
  conv_rhs => rw [← List.map_id (spelling w c.toNat)]
  exact List.map_congr_left fun n hn ↦ CodeUnit.value_ofNat_of_lt (spelling_lt c n hn)

theorem unitAt_eq (s : Text w) (i : Nat) : unitAt s i = (s.map CodeUnit.value)[i]?.getD 0 := by
  rw [unitAt, List.getElem?_map]

/-- The guess is right where the values of a spelling come first. -/
theorem scalarGuess_spelling (w : Width) {n : Nat} (hlt : n < 0x110000)
    (hscalar : ¬ (0xD800 ≤ n ∧ n < 0xE000)) (vs : List Nat) :
    let value (i : Nat) := (spelling w n ++ vs)[i]?.getD 0
    scalarGuess w (value 0) (value 1) (value 2) (value 3) = n := by
  intro value
  -- The values are taken out of the list by equations: unfolding `n - 0x10000` would not end.
  have h₀ (a : Nat) (l : List Nat) : (a :: l)[0]?.getD 0 = a := rfl
  have h₁ (a b : Nat) (l : List Nat) : (a :: b :: l)[1]?.getD 0 = b := rfl
  have h₂ (a b c : Nat) (l : List Nat) : (a :: b :: c :: l)[2]?.getD 0 = c := rfl
  have h₃ (a b c d : Nat) (l : List Nat) : (a :: b :: c :: d :: l)[3]?.getD 0 = d := rfl
  dsimp only [value]
  cases w with
  | utf8 =>
    rw [spelling]
    split
    · rw [List.cons_append, h₀, scalarGuess, if_pos (by omega)]
    split
    · rw [List.cons_append, List.cons_append, h₀, h₁, scalarGuess, if_neg (by omega),
        if_pos (by omega)]
      omega
    split
    · rw [List.cons_append, List.cons_append, List.cons_append, h₀, h₁, h₂, scalarGuess,
        if_neg (by omega), if_neg (by omega), if_pos (by omega)]
      omega
    · rw [List.cons_append, List.cons_append, List.cons_append, List.cons_append, h₀, h₁, h₂, h₃,
        scalarGuess, if_neg (by omega), if_neg (by omega), if_neg (by omega)]
      omega
  | utf16 =>
    rw [spelling]
    split
    · rw [List.cons_append, h₀, scalarGuess, if_neg (by omega)]
    · rw [List.cons_append, List.cons_append, h₀, h₁, scalarGuess, if_pos (by omega)]
      omega
  | utf32 => rw [spelling, List.cons_append, h₀, scalarGuess]

theorem leadingChar?_encodeChar_append (c : Char) (rest : Text w) :
    leadingChar? (encodeChar w c ++ rest) = some c := by
  obtain ⟨hlt, hscalar⟩ := toNat_lt c
  have hguess := scalarGuess_spelling w hlt hscalar (rest.map CodeUnit.value)
  simp only [← map_value_encodeChar, ← List.map_append, ← unitAt_eq] at hguess
  rw [leadingChar?, hguess, Char.ofNat_toNat]
  exact if_pos ⟨c.valid, List.isPrefixOf_iff_prefix.mpr (List.prefix_append _ _)⟩

/-- **A character is read back**, whatever follows. -/
theorem decode?_encodeChar_append (c : Char) (rest : Text w) :
    decode? (encodeChar w c ++ rest) = some (c, (encodeChar w c).length) := by
  obtain ⟨u, tail, hcons⟩ := List.exists_cons_of_ne_nil (encodeChar_ne_nil w c)
  have hleading := leadingChar?_encodeChar_append c rest
  rw [hcons] at hleading ⊢
  rw [List.cons_append] at hleading ⊢
  rw [decode?, hleading]
  dsimp only
  rw [hcons]

/-! ## Whole texts -/

/-- **Text is read back** as the characters it was spelled from. -/
theorem characters_encode (cs : List Char) :
    (characters (encode w cs)).map Spelled.char = cs := by
  induction cs with
  | nil =>
    rw [encode, List.flatMap_nil, characters_nil]
    rfl
  | cons c cs ih =>
    rw [encode, List.flatMap_cons, ← encode,
      characters_of_decode? (decode?_encodeChar_append c (encode w cs)), List.drop_left,
      List.map_cons, ih]

/-- Moving well-formed text to another width spells its characters there. -/
theorem transcode_encode {v : Width} (cs : List Char) :
    transcode w (encode v cs) = encode w cs := by
  rw [transcode]
  split
  · next h =>
    subst h
    rfl
  · rw [characters_encode]

theorem encode_ne_nil {cs : List Char} (h : cs ≠ []) : encode w cs ≠ [] := by
  obtain ⟨c, tail, rfl⟩ := List.exists_cons_of_ne_nil h
  rw [encode, List.flatMap_cons]
  exact List.append_ne_nil_of_left_ne_nil (encodeChar_ne_nil w c) _

/-! ## Blanks -/

/-- Only ASCII characters have an ASCII unit in their spelling. -/
theorem eq_of_mem_spelling {n a : Nat} (ha : a ∈ spelling w n) (hlt : a < 0x80) : a = n := by
  cases w with
  | utf8 =>
    simp only [spelling] at ha
    split at ha
    · exact List.mem_singleton.mp ha
    split at ha
    · simp only [List.mem_cons, List.not_mem_nil, or_false] at ha
      omega
    split at ha
    all_goals
      simp only [List.mem_cons, List.not_mem_nil, or_false] at ha
      omega
  | utf16 =>
    simp only [spelling] at ha
    split at ha
    · exact List.mem_singleton.mp ha
    · simp only [List.mem_cons, List.not_mem_nil, or_false] at ha
      omega
  | utf32 => exact List.mem_singleton.mp ha

theorem isBlank_of_mem_encodeChar {c : Char} {u : CodeUnit w} (hu : u ∈ encodeChar w c)
    (hblank : u.isBlank) : isBlank c := by
  obtain ⟨d, hd, hd'⟩ := (Option.any_eq_true _ _).mp hblank
  obtain ⟨hlt, rfl⟩ := CodeUnit.ascii?_eq_some_iff.mp hd
  have hmem := List.mem_map_of_mem hu (f := CodeUnit.value)
  rw [map_value_encodeChar, CodeUnit.value_ofAscii hlt] at hmem
  obtain rfl := Char.toNat_inj.mp (eq_of_mem_spelling hmem hlt)
  exact hd'

/-- Text without blank characters has no blank units. -/
theorem isBlank_of_mem_encode {cs : List Char} (h : ∀ c ∈ cs, isBlank c = false) :
    ∀ u ∈ encode w cs, u.isBlank = false := by
  intro u hu
  obtain ⟨c, hc, hu⟩ := List.mem_flatMap.mp hu
  refine Bool.eq_false_of_not_eq_true fun hblank ↦ ?_
  have hc := h c hc
  rw [isBlank_of_mem_encodeChar hu hblank] at hc
  exact absurd hc (by decide)

end FormatString
