import Mathlib
import FormatString.Proofs.Text.Boundary

/-!
# Text and its characters

An operation on units that does not split a character is an operation on characters, and then it
does the same at every width. The lemmas below say so of the operations that readers and writers use
on the units of a well-formed text: taking the ASCII run, skipping a class of units, cutting after so
many characters, comparing with a character.
-/

namespace FormatString

variable {w : Width}

/-! ## Spelling strings -/

@[simp] theorem encode_nil : encode w [] = [] := rfl

theorem encode_cons (c : Char) (cs : List Char) :
    encode w (c :: cs) = encodeChar w c ++ encode w cs := rfl

theorem encode_singleton (c : Char) : encode w [c] = encodeChar w c := List.flatMap_singleton _ _

theorem encode_append (cs ds : List Char) : encode w (cs ++ ds) = encode w cs ++ encode w ds :=
  List.flatMap_append

theorem encode_eq_nil_iff {cs : List Char} : encode w cs = [] ↔ cs = [] := by
  refine ⟨fun h ↦ by_contra fun hne ↦ encode_ne_nil hne h, ?_⟩
  rintro rfl
  rfl

theorem isEmpty_encode (cs : List Char) : (encode w cs).isEmpty = cs.isEmpty := by
  rw [Bool.eq_iff_iff, List.isEmpty_iff, List.isEmpty_iff, encode_eq_nil_iff]

/-- An ASCII string is spelled by one unit for each character. -/
theorem encode_of_ascii {cs : List Char} (h : ∀ c ∈ cs, c.toNat < 0x80) :
    encode w cs = Text.ofAscii w cs := by
  induction cs with
  | nil => rfl
  | cons c cs ih =>
    obtain ⟨hc, hcs⟩ := List.forall_mem_cons.mp h
    rw [encode_cons, encodeChar_of_ascii hc, ih hcs]
    rfl

theorem length_encode_of_ascii {cs : List Char} (h : ∀ c ∈ cs, c.toNat < 0x80) :
    (encode w cs).length = cs.length := by
  rw [encode_of_ascii h, Text.length_ofAscii]

/-- The units have the values of the characters. -/
theorem map_value_encode_of_ascii {cs : List Char} (h : ∀ c ∈ cs, c.toNat < 0x80) :
    (encode w cs).map CodeUnit.value = cs.map Char.toNat := by
  rw [encode_of_ascii h, Text.ofAscii, List.map_map]
  exact List.map_congr_left fun c hc ↦ CodeUnit.value_ofAscii (h c hc)

/-! ## Units of a character -/

section Units

variable {c : Char} {u : CodeUnit w}

theorem value_of_mem_encodeChar (hu : u ∈ encodeChar w c) (hlt : u.value < 0x80) :
    u.value = c.toNat := by
  have hmem := List.mem_map_of_mem hu (f := CodeUnit.value)
  rw [map_value_encodeChar] at hmem
  exact eq_of_mem_spelling hmem hlt

/-- No unit of a character beyond ASCII is ASCII. -/
theorem ascii?_of_mem_encodeChar (hc : ¬ c.toNat < 0x80) (hu : u ∈ encodeChar w c) :
    u.ascii? = none := by
  refine if_neg fun hlt ↦ hc ?_
  rwa [← value_of_mem_encodeChar hu hlt]

/-- A string is ASCII if the units spelling it are. -/
theorem ascii_of_encode {cs : List Char} (h : ∀ u ∈ encode w cs, u.value < 0x80) :
    ∀ c ∈ cs, c.toNat < 0x80 := by
  intro c hc
  obtain ⟨u, tail, hcons⟩ := List.exists_cons_of_ne_nil (encodeChar_ne_nil w c)
  have hu : u ∈ encodeChar w c := hcons ▸ List.mem_cons_self
  have hlt := h u (List.mem_flatMap.mpr ⟨c, hc, hu⟩)
  rwa [← value_of_mem_encodeChar hu hlt]

theorem spells_of_mem_encodeChar {a : Char} (ha : a.toNat < 0x80) (hu : u ∈ encodeChar w c) :
    u.spells a = (c == a) := by
  rw [Bool.eq_iff_iff, CodeUnit.spells, beq_iff_eq, beq_iff_eq]
  constructor
  · intro h
    exact Char.toNat_inj.mp ((value_of_mem_encodeChar hu (by omega)).symm.trans h)
  · rintro rfl
    rw [encodeChar_of_ascii ha, List.mem_singleton] at hu
    rw [hu, CodeUnit.value_ofAscii ha]

/-- The units of a blank are blank, and those of other characters are not. -/
theorem isBlank_eq_of_mem_encodeChar (hu : u ∈ encodeChar w c) : u.isBlank = isBlank c := by
  rw [Bool.eq_iff_iff]
  refine ⟨isBlank_of_mem_encodeChar hu, fun hc ↦ ?_⟩
  have hascii := ascii_of_isBlank hc
  rw [encodeChar_of_ascii hascii, List.mem_singleton] at hu
  rwa [hu, CodeUnit.isBlank_ofAscii hascii]

end Units

/-! ## Classes of units -/

section Classes

variable {p : CodeUnit w → Bool} {q : Char → Bool}

/-- Where the units of a character belong to a class with the character, the units of the class at
the front of a text are those of the characters of the class. -/
theorem takeWhile_encode (h : ∀ c, ∀ u ∈ encodeChar w c, p u = q c) (cs : List Char) :
    (encode w cs).takeWhile p = encode w (cs.takeWhile q) := by
  induction cs with
  | nil => rfl
  | cons c cs ih =>
    rw [encode_cons, List.takeWhile_cons]
    cases hc : q c with
    | true =>
      rw [List.takeWhile_append_of_pos fun u hu ↦ (h c u hu).trans hc, ih]
      rfl
    | false =>
      obtain ⟨u, tail, hcons⟩ := List.exists_cons_of_ne_nil (encodeChar_ne_nil w c)
      have hu := (h c u (hcons ▸ List.mem_cons_self)).trans hc
      rw [hcons, List.cons_append, List.takeWhile_cons_of_neg (by simp [hu])]
      rfl

theorem dropWhile_encode (h : ∀ c, ∀ u ∈ encodeChar w c, p u = q c) (cs : List Char) :
    (encode w cs).dropWhile p = encode w (cs.dropWhile q) := by
  have hsplit := List.takeWhile_append_dropWhile (p := p) (l := encode w cs)
  rw [takeWhile_encode h] at hsplit
  refine List.append_cancel_left (hsplit.trans ?_)
  rw [← encode_append, List.takeWhile_append_dropWhile]

end Classes

/-- The ASCII run of a text is that of its characters. -/
theorem asciiRun_encode (cs : List Char) :
    Text.asciiRun (encode w cs) = cs.takeWhile (·.toNat < 0x80) := by
  induction cs with
  | nil => rfl
  | cons c cs ih =>
    by_cases hc : c.toNat < 0x80
    · rw [List.takeWhile_cons_of_pos (by simpa using hc), encode_cons, encodeChar_of_ascii hc,
        List.singleton_append, Text.asciiRun, CodeUnit.ascii?_ofAscii hc, ← ih]
    · obtain ⟨u, tail, hcons⟩ := List.exists_cons_of_ne_nil (encodeChar_ne_nil w c)
      have hu := ascii?_of_mem_encodeChar hc (hcons ▸ List.mem_cons_self (a := u) (l := tail))
      rw [List.takeWhile_cons_of_neg (by simpa using hc), encode_cons, hcons, List.cons_append,
        Text.asciiRun, hu]

/-! ## Cutting between characters -/

section Cut

variable (w) (cs : List Char) (k : Nat)

/-- ASCII characters at the front of a text are as many units. -/
theorem length_encode_take {cs : List Char} {k : Nat} (hk : k ≤ cs.length)
    (h : ∀ c ∈ cs.take k, c.toNat < 0x80) : (encode w (cs.take k)).length = k := by
  rw [length_encode_of_ascii h, List.length_take_of_le hk]

theorem drop_encode : (encode w cs).drop (encode w (cs.take k)).length = encode w (cs.drop k) := by
  conv_lhs => rw [← List.take_append_drop k cs, encode_append]
  rw [List.take_append_drop, List.drop_left]

/-- The characters of a text are those it was spelled from. -/
theorem characters_encode_eq :
    characters (encode w cs) = cs.map fun c ↦ ⟨c, encodeChar w c⟩ := by
  induction cs with
  | nil => exact characters_nil
  | cons c cs ih =>
    rw [encode_cons, characters_of_decode? (decode?_encodeChar_append c (encode w cs)),
      List.drop_left, List.take_left, ih]
    rfl

theorem unitsOf_map : (unitsOf (cs.map fun c ↦ ⟨c, encodeChar w c⟩) : Text w) = encode w cs := by
  rw [unitsOf, List.flatMap_map]
  rfl

theorem charPrefix_encode : charPrefix (encode w cs) k = encode w (cs.take k) := by
  rw [charPrefix, characters_encode_eq, ← List.map_take, unitsOf_map]

end Cut

/-- **Spellings do not start each other.** What starts with the spelling of a character starts with
that character. -/
theorem eq_of_encodeChar_prefix_append {c d : Char} {s : Text w}
    (h : encodeChar w c <+: encodeChar w d ++ s) : c = d :=
  Option.some.inj ((leadingChar?_eq_some_iff.mpr h).symm.trans (leadingChar?_encodeChar_append d s))

end FormatString
