import Mathlib
import FormatString.Proofs.Text.Encoded

/-!
# Moving text between widths

Moving a text to another width reads it with the decoder of the one encoding, a character at a time,
and spells what was read in the other. `Decodes` is that reading, written as a relation between the
units of a text and the characters they yield. It is defined for every text, since the decoder
always advances, and it yields one list of characters only.

What has been moved once is well-formed, and it decodes to the characters it was spelled from. So a
second move has the same characters to spell as the first, whichever widths the two are to; units
that no character is spelled with are lost in the first, and nothing after it.
-/

namespace FormatString

variable {w v d : Width} {s : Text w} {c : Char} {n : Nat} {cs ds : List Char}

/-! ## Decoding a text -/

/-- Reading one character after the other until no unit is left yields these characters. -/
inductive Decodes : Text w → List Char → Prop where
  | nil : Decodes [] []
  | cons {s : Text w} {c : Char} {n : Nat} {cs : List Char} (front : decode? s = some (c, n))
      (rest : Decodes (s.drop n) cs) : Decodes s (c :: cs)

/-- Text that is the spelling of some characters. -/
def Text.WellFormed (s : Text w) : Prop := ∃ cs, encode w cs = s

/-- What is read is the character spelled at the front of the text, and a stray unit where none
is. -/
theorem decode?_eq_some_iff : decode? s = some (c, n) ↔
    encodeChar w c <+: s ∧ n = (encodeChar w c).length ∨
      s ≠ [] ∧ (∀ e, ¬ encodeChar w e <+: s) ∧ c = replacementChar ∧ n = 1 := by
  constructor
  · intro h
    have hs : s ≠ [] := fun hnil ↦ by simp [hnil, decode?] at h
    obtain ⟨u, rest, rfl⟩ := List.exists_cons_of_ne_nil hs
    rw [decode?] at h
    split at h
    · next e he =>
      obtain ⟨rfl, rfl⟩ := Prod.mk.inj (Option.some.inj h)
      exact .inl ⟨leadingChar?_eq_some_iff.mp he, rfl⟩
    · next hnone =>
      obtain ⟨rfl, rfl⟩ := Prod.mk.inj (Option.some.inj h)
      refine .inr ⟨hs, fun e he ↦ ?_, rfl, rfl⟩
      exact absurd (hnone.symm.trans (leadingChar?_eq_some_iff.mpr he)) (by simp)
  · rintro (⟨⟨rest, rfl⟩, rfl⟩ | ⟨hs, hstray, rfl, rfl⟩)
    · exact decode?_encodeChar_append c rest
    · obtain ⟨u, rest, rfl⟩ := List.exists_cons_of_ne_nil hs
      have hnone : leadingChar? (u :: rest) = none :=
        Option.eq_none_iff_forall_ne_some.mpr fun e he ↦
          hstray e (leadingChar?_eq_some_iff.mp he)
      rw [decode?, hnone]

/-- The decoder takes a unit at least, and none that is not there. -/
theorem exists_decode? (hs : s ≠ []) : ∃ c n, decode? s = some (c, n) ∧ 1 ≤ n ∧ n ≤ s.length := by
  obtain ⟨c, n, h, hle, -⟩ := characters_of_ne_nil hs
  exact ⟨c, n, h, decode?_pos h, hle⟩

theorem decodes_iff : Decodes s cs ↔ (characters s).map Spelled.char = cs := by
  constructor
  · intro h
    induction h with
    | nil => rw [characters_nil, List.map_nil]
    | cons front _ ih => rw [characters_of_decode? front, List.map_cons, ih]
  · rintro rfl
    fun_induction characters s with
    | case1 s h =>
      obtain rfl : s = [] := by
        by_contra hs
        obtain ⟨c, n, hsome, -⟩ := exists_decode? hs
        exact absurd (h.symm.trans hsome) (by simp)
      exact .nil
    | case2 s c n h ih => exact .cons h ih

/-- The reading of a text exists and is unique. -/
theorem existsUnique_decodes (s : Text w) : ∃! cs, Decodes s cs :=
  ⟨_, decodes_iff.mpr rfl, fun _ h ↦ (decodes_iff.mp h).symm⟩

theorem decodes_encode (cs : List Char) : Decodes (encode w cs) cs :=
  decodes_iff.mpr (characters_encode cs)

/-- Every character takes a unit at least. -/
theorem Decodes.length_le (h : Decodes s cs) : cs.length ≤ s.length := by
  induction h with
  | nil => exact Nat.le_refl 0
  | @cons s c n cs front _ ih =>
    have hpos := decode?_pos front
    have hle := decode?_le front
    rw [List.length_drop] at ih
    rw [List.length_cons]
    omega

/-! ## Moving a text -/

theorem transcode_self (s : Text w) : transcode w s = s := dif_pos rfl

theorem transcode_of_decodes {s : Text v} (hne : v ≠ d) (h : Decodes s cs) :
    transcode d s = encode d cs := by
  rw [transcode, dif_neg hne, decodes_iff.mp h]

/-- **Moving a text spells what the decoder reads in it.** So the result is well-formed and has the
same characters, a stop at any width on the way changes nothing, and well-formed text comes back
unit for unit. At its own width a text stays what it is, well-formed or not. The reading comes to
an end because every position of the text has a character and takes one of the units left or
more. -/
theorem transcode_respells (hne : v ≠ d) (s : Text v) :
    (∃ cs, Decodes s cs ∧ (∀ ds, Decodes s ds → ds = cs) ∧ cs.length ≤ s.length ∧
      transcode d s = encode d cs ∧ (transcode d s).WellFormed ∧ Decodes (transcode d s) cs) ∧
    (∀ t, transcode d (transcode t s) = transcode d s) ∧
    (s.WellFormed → transcode v (transcode d s) = s) ∧
    transcode v s = s ∧
    (∀ k < s.length, ∃ c n, decode? (s.drop k) = some (c, n) ∧ 1 ≤ n ∧ k + n ≤ s.length) := by
  obtain ⟨cs, hcs, hunique⟩ := existsUnique_decodes s
  have hmoved := transcode_of_decodes hne hcs
  refine ⟨⟨cs, hcs, hunique, hcs.length_le, hmoved, ?_, ?_⟩, fun t ↦ ?_, ?_, transcode_self s, ?_⟩
  · exact ⟨cs, hmoved.symm⟩
  · rw [hmoved]
    exact decodes_encode cs
  · by_cases ht : v = t
    · subst ht
      rw [transcode_self]
    · rw [transcode_of_decodes ht hcs, transcode_encode, hmoved]
  · rintro ⟨es, rfl⟩
    rw [transcode_encode, transcode_encode]
  · intro k hk
    have hleft : s.drop k ≠ [] := by
      rw [← List.length_pos_iff, List.length_drop]
      omega
    obtain ⟨c, n, h, hpos, hle⟩ := exists_decode? hleft
    rw [List.length_drop] at hle
    exact ⟨c, n, h, hpos, by omega⟩

/-- A lone high surrogate in front of a pair: the stray unit alone becomes U+FFFD. -/
theorem transcode_respells_lone_surrogate :
    let s : Text .utf16 := [.ofNat _ 0xD83D, .ofNat _ 0xD83D, .ofNat _ 0xDE00, .ofNat _ 0x61]
    transcode .utf8 s = encode .utf8 [replacementChar, '😀', 'a'] ∧
      transcode .utf8 (transcode .utf32 s) = transcode .utf8 s := by
  intro s
  have hread : Decodes s [replacementChar, '😀', 'a'] :=
    .cons (n := 1) (by decide +kernel) (.cons (n := 2) (by decide +kernel)
      (.cons (n := 1) (by decide +kernel) .nil))
  obtain ⟨⟨cs, -, hunique, -, hmoved, -⟩, hstop, -⟩ :=
    transcode_respells (d := .utf8) (by decide) s
  exact ⟨hmoved.trans (by rw [hunique _ hread]), hstop .utf32⟩

end FormatString
