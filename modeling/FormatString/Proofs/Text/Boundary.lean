import Mathlib
import FormatString.Proofs.Text.Encoding

/-!
# Boundaries between characters

Text that is not well-formed can become so by what is put behind it: a lead unit at its end may be
completed. The spelling of a character completes nothing, since its first unit is one that no
spelling goes on with. So the characters in front of it are those of the text in front of it,
whatever these units are, and they stay what they are whatever comes behind. An ASCII unit, being
all of its character, is a boundary on both sides.
-/

namespace FormatString

variable {w : Width}

/-! ## One character -/

theorem leadingChar?_eq_some_iff {s : Text w} {c : Char} :
    leadingChar? s = some c ↔ encodeChar w c <+: s := by
  refine ⟨encodeChar_prefix_of_leadingChar?, ?_⟩
  rintro ⟨rest, rfl⟩
  exact leadingChar?_encodeChar_append c rest

/-- A character is read the same from the front of the text once nothing is left of it but the
units that count. -/
theorem decode?_of_prefix {s t : Text w} {c : Char} {n : Nat} (h : decode? s = some (c, n))
    (hfront : t <+: s) (hn : n ≤ t.length) : decode? t = some (c, n) := by
  have hpos := decode?_pos h
  obtain ⟨rest, rfl⟩ := hfront
  rcases t with _ | ⟨u, t⟩
  · exact absurd hn (Nat.not_le.mpr hpos)
  rw [List.cons_append, decode?, ← List.cons_append] at h
  rw [decode?]
  cases hlong : leadingChar? (u :: t ++ rest) with
  | some d =>
    rw [hlong] at h
    obtain ⟨rfl, rfl⟩ := Prod.mk.inj (Option.some.inj h)
    have hspelled : encodeChar w d <+: u :: t :=
      List.prefix_of_prefix_length_le (leadingChar?_eq_some_iff.mp hlong)
        (List.prefix_append _ _) hn
    rw [leadingChar?_eq_some_iff.mpr hspelled]
  | none =>
    rw [hlong] at h
    have hshort : leadingChar? (u :: t) = none := by
      refine Option.eq_none_iff_forall_ne_some.mpr fun d hd ↦ ?_
      have hspelled := (leadingChar?_eq_some_iff.mp hd).trans (List.prefix_append _ rest)
      rw [leadingChar?_eq_some_iff.mpr hspelled] at hlong
      exact absurd hlong (by simp)
    rw [hshort]
    exact h

/-- What is read is spelled by the units it was read from, unless it stands for a stray unit. -/
theorem take_of_decode? {s : Text w} {c : Char} {n : Nat} (h : decode? s = some (c, n)) :
    s.take n = encodeChar w c ∨ c = replacementChar := by
  rcases s with _ | ⟨u, s⟩
  · exact absurd h (by simp [decode?])
  rw [decode?] at h
  split at h
  · next d hd =>
    obtain ⟨rfl, rfl⟩ := Prod.mk.inj (Option.some.inj h)
    exact .inl (List.prefix_iff_eq_take.mp (leadingChar?_eq_some_iff.mp hd)).symm
  · exact .inr (Prod.mk.inj (Option.some.inj h)).1.symm

/-! ## Units that go on -/

/-- A unit of this value stands behind others in the spelling of a character, and in front of
none. -/
def Width.IsTrailing : Width → Nat → Prop
  | utf8, n => 0x80 ≤ n ∧ n < 0xC0
  | utf16, n => 0xDC00 ≤ n ∧ n < 0xE000
  | utf32, _ => False

theorem exists_spelling_eq (w : Width) (c : Char) :
    ∃ n ns, spelling w c.toNat = n :: ns ∧ ¬ w.IsTrailing n ∧ ∀ m ∈ ns, w.IsTrailing m := by
  obtain ⟨hlt, hscalar⟩ := toNat_lt c
  generalize c.toNat = n at hlt hscalar
  cases w with
  | utf8 =>
    simp only [spelling, Width.IsTrailing]
    repeat' split
    all_goals
      refine ⟨_, _, rfl, ?_, fun m hm ↦ ?_⟩
      · omega
      · grind
  | utf16 =>
    simp only [spelling, Width.IsTrailing]
    split
    all_goals
      refine ⟨_, _, rfl, ?_, fun m hm ↦ ?_⟩
      · omega
      · grind
  | utf32 => exact ⟨n, [], rfl, id, by simp⟩

/-- The first unit of a character is followed by trailing units, and is none itself. -/
theorem exists_encodeChar_eq (w : Width) (c : Char) :
    ∃ u tail, encodeChar w c = u :: tail ∧ ¬ w.IsTrailing u.value ∧
      ∀ v ∈ tail, w.IsTrailing v.value := by
  obtain ⟨n, ns, hspelling, hn, hns⟩ := exists_spelling_eq w c
  rw [← map_value_encodeChar] at hspelling
  obtain ⟨u, tail, hcons, rfl, rfl⟩ := List.map_eq_cons_iff.mp hspelling
  exact ⟨u, tail, hcons, hn, List.forall_mem_map.mp hns⟩

/-- A spelling that starts in front of another ends in front of it. -/
theorem encodeChar_prefix_append_iff {c e : Char} {s : Text w} (hs : s ≠ []) (t : Text w) :
    encodeChar w e <+: s ++ (encodeChar w c ++ t) ↔ encodeChar w e <+: s := by
  refine ⟨fun h ↦ ?_, fun h ↦ h.trans (List.prefix_append _ _)⟩
  obtain hlong | hle := Nat.lt_or_ge s.length (encodeChar w e).length
  · obtain ⟨u, tail, hc, hu, -⟩ := exists_encodeChar_eq w c
    obtain ⟨v, more, he, -, hmore⟩ := exists_encodeChar_eq w e
    obtain ⟨a, s, rfl⟩ := List.exists_cons_of_ne_nil hs
    have hthrough : a :: s ++ [u] <+: encodeChar w e := by
      refine List.prefix_of_prefix_length_le ⟨tail ++ t, by simp [hc]⟩ h ?_
      rw [List.length_append]
      exact hlong
    -- The first unit of the other spelling would be one that goes on.
    rw [he, List.cons_append, List.cons_prefix_cons] at hthrough
    exact absurd (hmore u (hthrough.2.subset (by simp))) hu
  · exact List.prefix_of_prefix_length_le h (List.prefix_append _ _) hle

theorem decode?_append_encodeChar {s : Text w} (hs : s ≠ []) (c : Char) (t : Text w) :
    decode? (s ++ (encodeChar w c ++ t)) = decode? s := by
  have hleading : leadingChar? (s ++ (encodeChar w c ++ t)) = leadingChar? s :=
    Option.ext fun e ↦ by
      rw [leadingChar?_eq_some_iff, leadingChar?_eq_some_iff, encodeChar_prefix_append_iff hs]
  obtain ⟨u, s, rfl⟩ := List.exists_cons_of_ne_nil hs
  rw [List.cons_append, decode?, decode?, ← List.cons_append, hleading]

theorem encodeChar_of_ascii {a : Char} (ha : a.toNat < 0x80) :
    encodeChar w a = [.ofAscii w a] := by
  have hspelling : spelling w a.toNat = [a.toNat] := by
    cases w with
    | utf8 => exact if_pos ha
    | utf16 => exact if_pos (by omega)
    | utf32 => rfl
  rw [encodeChar, hspelling]
  rfl

/-! ## Texts -/

theorem characters_of_ne_nil {s : Text w} (hs : s ≠ []) :
    ∃ c n, decode? s = some (c, n) ∧ n ≤ s.length ∧
      characters s = ⟨c, s.take n⟩ :: characters (s.drop n) := by
  have hsome : decode? s ≠ none := by
    rcases s with _ | ⟨u, s⟩
    · exact absurd rfl hs
    · rw [decode?]
      split <;> exact Option.some_ne_none _
  obtain ⟨⟨c, n⟩, h⟩ := Option.ne_none_iff_exists'.mp hsome
  exact ⟨c, n, h, decode?_le h, characters_of_decode? h⟩

/-- **A character is a boundary.** What stands in front of its spelling and what stands behind it
are read independently of each other. -/
theorem characters_append_encodeChar (s : Text w) (a : Char) (t : Text w) :
    characters (s ++ (encodeChar w a ++ t))
      = characters s ++ ⟨a, encodeChar w a⟩ :: characters t := by
  fun_induction characters s with
  | case1 s h =>
    obtain rfl : s = [] := by
      by_contra hs
      obtain ⟨c, n, hsome, -⟩ := characters_of_ne_nil hs
      exact absurd (h.symm.trans hsome) (by simp)
    rw [List.nil_append, characters_of_decode? (decode?_encodeChar_append a t), List.take_left,
      List.drop_left, List.nil_append]
  | case2 s c n h ih =>
    have hs : s ≠ [] := by
      rintro rfl
      exact absurd h (by simp [decode?])
    have hle := decode?_le h
    rw [characters_of_decode? ((decode?_append_encodeChar hs a t).trans h),
      List.take_append_of_le_length hle, List.drop_append_of_le_length hle, ih]
    rfl

/-- The characters in front of an ASCII unit and behind it do not depend on each other. -/
theorem characters_append_ascii {a : Char} (ha : a.toNat < 0x80) (s t : Text w) :
    characters (s ++ .ofAscii w a :: t)
      = characters s ++ ⟨a, [.ofAscii w a]⟩ :: characters t := by
  have h := characters_append_encodeChar s a t
  rwa [encodeChar_of_ascii ha] at h

/-- The first of the characters of a text are those of the units they were read from. -/
theorem characters_unitsOf_of_append {s : Text w} {front back : List (Spelled w)}
    (h : characters s = front ++ back) : characters (unitsOf front) = front := by
  induction front generalizing s with
  | nil => exact characters_nil
  | cons p front ih =>
    have hs : s ≠ [] := by
      rintro rfl
      rw [characters_nil] at h
      exact absurd h (by simp)
    obtain ⟨c, n, hread, hle, hchars⟩ := characters_of_ne_nil hs
    rw [hchars, List.cons_append] at h
    obtain ⟨rfl, hrest⟩ := List.cons.inj h
    have hunits : s.drop n = unitsOf front ++ unitsOf back := by
      rw [← unitsOf_characters (s.drop n), hrest, unitsOf, List.flatMap_append]
      rfl
    have hwhole : s.take n ++ unitsOf front <+: s := by
      refine ⟨unitsOf back, ?_⟩
      rw [List.append_assoc, ← hunits, List.take_append_drop]
    have hlength : (s.take n).length = n := List.length_take_of_le hle
    have hfront : decode? (s.take n ++ unitsOf front) = some (c, n) :=
      decode?_of_prefix hread hwhole (by rw [List.length_append]; omega)
    change characters (s.take n ++ unitsOf front) = _
    rw [characters_of_decode? hfront, List.take_left' hlength, List.drop_left' hlength, ih hrest]

/-- The first characters of a text are the front of it. -/
theorem charPrefix_isPrefix (s : Text w) (k : Nat) : charPrefix s k <+: s := by
  refine ⟨unitsOf ((characters s).drop k), ?_⟩
  rw [charPrefix, unitsOf, unitsOf, ← List.flatMap_append, List.take_append_drop]
  exact unitsOf_characters s

/-- Some of the characters of a text take no more units than the whole. -/
theorem length_unitsOf_take_le (s : Text w) (k : Nat) :
    (unitsOf ((characters s).take k)).length ≤ s.length := (charPrefix_isPrefix s k).length_le

/-- **Cutting between characters** leaves the characters in front as they are. -/
theorem characters_charPrefix (s : Text w) (k : Nat) :
    characters (charPrefix s k) = (characters s).take k :=
  characters_unitsOf_of_append (List.take_append_drop k (characters s)).symm

/-- The characters of a text are spelled by their units, apart from those that stand for stray
units. -/
theorem units_of_mem_characters {s : Text w} :
    ∀ p ∈ characters s, p.units = encodeChar w p.char ∨ p.char = replacementChar := by
  fun_induction characters s with
  | case1 => simp
  | case2 s c n h ih => exact List.forall_mem_cons.mpr ⟨take_of_decode? h, ih⟩

/-- An ASCII character is spelled by its unit. -/
theorem eq_of_mem_characters {a : Char} (ha : a.toNat < 0x80) {s : Text w} {p : Spelled w}
    (hmem : p ∈ characters s) (hp : p.char = a) : p = ⟨a, [.ofAscii w a]⟩ := by
  obtain ⟨c, units⟩ := p
  obtain rfl : c = a := hp
  rcases units_of_mem_characters ⟨c, units⟩ hmem with hunits | hstray
  · exact congrArg (Spelled.mk c) (hunits.trans (encodeChar_of_ascii ha))
  · obtain rfl : c = replacementChar := hstray
    exact absurd ha (by decide)

/-- **The text up to an ASCII character** has the characters up to there, whatever is put behind
it. -/
theorem characters_cut {a : Char} (ha : a.toNat < 0x80) {s : Text w} {front back : List (Spelled w)}
    {p : Spelled w} (hp : p.char = a) (h : characters s = front ++ [p] ++ back) :
    s = unitsOf (front ++ [p]) ++ unitsOf back ∧
      ∀ r, characters (unitsOf (front ++ [p]) ++ r) = front ++ [p] ++ characters r := by
  have hspelled := eq_of_mem_characters ha (s := s) (by rw [h]; simp) hp
  have hunits : unitsOf (front ++ [p]) = unitsOf front ++ [.ofAscii w a] := by
    rw [hspelled, unitsOf, List.flatMap_append]
    rfl
  constructor
  · rw [← unitsOf_characters s, h, unitsOf, List.flatMap_append]
    rfl
  · intro r
    rw [List.append_assoc] at h
    rw [hunits, List.append_assoc, List.singleton_append, characters_append_ascii ha,
      characters_unitsOf_of_append h, hspelled, List.append_assoc, List.singleton_append]

end FormatString
