import Mathlib
import FormatString.Text.CodeUnit

/-!
# What comes next

The notations of this library are read from left to right and a field ends where a character comes
that cannot belong to it. `NotNext` says so of a list of characters, and the lemmas on `asciiRun`
carry it over to texts: the ASCII view of a text is cut where the text is cut, and ASCII units can
be moved in and out of it.
-/

namespace FormatString

/-- No character of the class comes next. -/
def NotNext (p : Char → Bool) (cs : List Char) : Prop := ∀ c ∈ cs.head?, p c = false

section NotNext

variable {p q : Char → Bool} {c : Char} {cs ds : List Char}

@[simp] theorem notNext_nil : NotNext p [] := by simp [NotNext]

@[simp] theorem notNext_cons : NotNext p (c :: cs) ↔ p c = false := by simp [NotNext]

theorem NotNext.append (hcs : NotNext p cs) (hds : NotNext p ds) : NotNext p (cs ++ ds) := by
  cases cs with
  | nil => exact hds
  | cons c cs => exact notNext_cons.mpr (notNext_cons.mp hcs)

/-- A longest run of a class ends where none of the class comes next. -/
theorem notNext_dropWhile : NotNext p (cs.dropWhile p) := by
  intro c hc
  have hne : cs.dropWhile p ≠ [] := by
    intro hnil
    rw [hnil] at hc
    exact absurd hc (by simp)
  rw [List.head?_eq_some_head hne] at hc
  obtain rfl := Option.some.inj hc
  exact List.head_dropWhile_not _ hne

end NotNext

/-! ## Units that spell ASCII characters -/

section Units

variable {w : Width}

theorem ascii_of_isBlank {c : Char} (h : isBlank c) : c.toNat < 0x80 := by
  simp only [isBlank, Bool.or_eq_true, beq_iff_eq] at h
  obtain ((((rfl | rfl) | rfl) | rfl) | rfl) | rfl := h <;> decide

theorem CodeUnit.ascii?_eq_some_iff {u : CodeUnit w} {c : Char} :
    u.ascii? = some c ↔ c.toNat < 0x80 ∧ u = .ofAscii w c := by
  constructor
  · intro h
    rw [ascii?] at h
    split at h
    · next hlt =>
      obtain rfl := Option.some.inj h
      have hvalid : u.value.isValidChar := .inl (by omega)
      have htoNat : (Char.ofNat u.value).toNat = u.value := by
        rw [Char.ofNat, dif_pos hvalid]
        exact Char.toNat_ofNatAux hvalid
      refine ⟨by rw [htoNat]; exact hlt, ?_⟩
      rw [ofAscii, htoNat, ofNat_value]
    · exact absurd h (by simp)
  · rintro ⟨hlt, rfl⟩
    exact ascii?_ofAscii hlt

theorem CodeUnit.spells_ofAscii {c d : Char} (hc : c.toNat < 0x80) :
    (ofAscii w c).spells d = (c == d) := by
  rw [spells, value_ofAscii hc]
  by_cases h : c = d
  · rw [h, beq_self_eq_true, beq_self_eq_true]
  · rw [beq_eq_false_iff_ne.mpr h, beq_eq_false_iff_ne.mpr fun hn ↦ h (Char.toNat_inj.mp hn)]

theorem CodeUnit.isBlank_ofAscii {c : Char} (hc : c.toNat < 0x80) :
    (ofAscii w c).isBlank = FormatString.isBlank c := by
  rw [isBlank, ascii?_ofAscii hc]
  rfl

namespace Text

@[simp] theorem ofAscii_nil : ofAscii w [] = [] := rfl

@[simp] theorem ofAscii_replicate (n : Nat) (c : Char) :
    ofAscii w (List.replicate n c) = List.replicate n (.ofAscii w c) := List.map_replicate

@[simp] theorem ofAscii_append (cs ds : List Char) :
    ofAscii w (cs ++ ds) = ofAscii w cs ++ ofAscii w ds := List.map_append

@[simp] theorem length_ofAscii (cs : List Char) : (ofAscii w cs).length = cs.length :=
  List.length_map _

theorem asciiRun_ofAscii_append {cs : List Char} (h : ∀ c ∈ cs, c.toNat < 0x80) (s : Text w) :
    asciiRun (ofAscii w cs ++ s) = cs ++ asciiRun s := by
  induction cs with
  | nil => rfl
  | cons c cs ih =>
    rw [ofAscii, List.map_cons, List.cons_append, asciiRun, CodeUnit.ascii?_ofAscii
      (h c List.mem_cons_self), List.cons_append]
    exact congrArg (c :: ·) (ih fun d hd ↦ h d (List.mem_cons_of_mem _ hd))

theorem ofAscii_injective {cs ds : List Char} (hcs : ∀ c ∈ cs, c.toNat < 0x80)
    (hds : ∀ d ∈ ds, d.toNat < 0x80) (h : ofAscii w cs = ofAscii w ds) : cs = ds := by
  have hread := asciiRun_ofAscii_append hcs ([] : Text w)
  rw [h, asciiRun_ofAscii_append hds] at hread
  exact (List.append_cancel_right hread).symm

/-- A text is its ASCII run and what is behind it. -/
theorem ofAscii_asciiRun_append (s : Text w) :
    ofAscii w (asciiRun s) ++ s.drop (asciiRun s).length = s := by
  induction s with
  | nil => rfl
  | cons u rest ih =>
    rw [asciiRun]
    split
    · next c hc =>
      obtain ⟨-, rfl⟩ := CodeUnit.ascii?_eq_some_iff.mp hc
      exact congrArg (CodeUnit.ofAscii w c :: ·) ih
    · rfl

/-- Characters at the front of the ASCII run are units at the front of the text. -/
theorem eq_ofAscii_append {s : Text w} {cs rest : List Char} (h : asciiRun s = cs ++ rest) :
    s = ofAscii w cs ++ s.drop cs.length := by
  have hs := ofAscii_asciiRun_append s
  rw [h, ofAscii_append, List.append_assoc] at hs
  conv_rhs => rw [← hs, List.drop_left' (length_ofAscii cs)]
  exact hs.symm

end Text

end Units

end FormatString
