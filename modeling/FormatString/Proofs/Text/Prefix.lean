import Mathlib
import FormatString.Proofs.Text.Transcode

/-!
# The first characters of a text

A text is cut after so many characters, not after so many units. Where the text is ill-formed the
cut takes away units that the decoder has looked at for the character in front of it, and still the
characters in front are what they were. So cutting and moving to another width may be done in either
order, and a cut never goes through a character.
-/

namespace FormatString

variable {w v d : Width} {s : Text w} {cs : List Char} {k : Nat}

theorem Decodes.charPrefix (h : Decodes s cs) : Decodes (charPrefix s k) (cs.take k) := by
  rw [decodes_iff] at h ⊢
  rw [characters_charPrefix, List.map_take, h]

/-- **Cutting and moving.** A text has the same first characters before and after it is moved to
another width. -/
theorem transcode_charPrefix (s : Text v) (k : Nat) :
    transcode d (charPrefix s k) = charPrefix (transcode d s) k := by
  by_cases hne : v = d
  · subst hne
    rw [transcode_self, transcode_self]
  · obtain ⟨cs, hcs, -⟩ := existsUnique_decodes s
    rw [transcode_of_decodes hne hcs, transcode_of_decodes hne hcs.charPrefix, charPrefix_encode]

/-- Moving a text keeps its characters. -/
theorem Decodes.transcode {s : Text v} (h : Decodes s cs) : Decodes (transcode d s) cs := by
  by_cases hne : v = d
  · subst hne
    rwa [transcode_self]
  · rw [transcode_of_decodes hne h]
    exact decodes_encode cs

/-! ## Cuts -/

/-- No character is spelled across the end of the first `n` units. -/
def Text.IsBoundary (s : Text w) (n : Nat) : Prop :=
  ∀ (front : Text w) (c : Char) (back : Text w), s = front ++ (encodeChar w c ++ back) →
    n ≤ front.length ∨ front.length + (encodeChar w c).length ≤ n

/-- **No character is split**, wherever it is spelled: units that stand in front of it do not keep
it from being read. -/
theorem isBoundary_charPrefix (s : Text w) (k : Nat) : s.IsBoundary (charPrefix s k).length := by
  rintro front c back rfl
  rw [charPrefix, characters_append_encodeChar]
  obtain hlt | hle := Nat.lt_or_ge (characters front).length k
  · obtain ⟨j, rfl⟩ := Nat.exists_eq_add_of_lt hlt
    right
    rw [Nat.add_assoc, List.take_length_add_append, List.take_succ_cons, unitsOf,
      List.flatMap_append, ← unitsOf, unitsOf_characters, List.flatMap_cons, List.length_append,
      List.length_append]
    exact Nat.add_le_add_left (Nat.le_add_right _ _) _
  · left
    rw [List.take_append_of_le_length hle]
    exact length_unitsOf_take_le front k

end FormatString
