import FormatString.Text.Encoding

/-!
# Text as characters

`characters` cuts a whole text into the characters it holds, each with the units spelling it: the
pieces put together are the text again. Cutting after so many characters and moving a text to
another width are then operations on that list.
-/

namespace FormatString

variable {w : Width}

/-- A character together with the units it was read from. -/
structure Spelled (w : Width) where
  char : Char
  units : Text w

/-- The characters of a text, in order. -/
def characters (s : Text w) : List (Spelled w) :=
  match _h : decode? s with
  | none => []
  | some (c, n) => ⟨c, s.take n⟩ :: characters (s.drop n)
termination_by s.length
decreasing_by
  have := decode?_pos _h
  have := decode?_le _h
  simp only [List.length_drop]
  omega

/-- The units of consecutive characters. -/
def unitsOf (cs : List (Spelled w)) : Text w := cs.flatMap Spelled.units

theorem characters_nil : characters ([] : Text w) = [] := by
  rw [characters]
  rfl

theorem characters_of_decode? {s : Text w} {c : Char} {n : Nat} (h : decode? s = some (c, n)) :
    characters s = ⟨c, s.take n⟩ :: characters (s.drop n) := by
  rw [characters]
  split
  · next hn => exact absurd (hn.symm.trans h) (by simp)
  · next hs =>
    obtain ⟨rfl, rfl⟩ := Prod.mk.inj (Option.some.inj (hs.symm.trans h))
    rfl

/-- Cutting a text into characters loses nothing. -/
theorem unitsOf_characters (s : Text w) : unitsOf (characters s) = s := by
  fun_induction characters s with
  | case1 s h =>
    cases s with
    | nil => rfl
    | cons u rest =>
      rw [decode?] at h
      split at h <;> exact absurd h (by simp)
  | case2 s c n h ih => rw [unitsOf, List.flatMap_cons, ← unitsOf, ih, List.take_append_drop]

/-- The text holding the first `k` characters. -/
def charPrefix (s : Text w) (k : Nat) : Text w := unitsOf ((characters s).take k)

/-- Moves a text to another width. Text that is already of that width stays as it is, so stray units
survive; otherwise its characters are spelled anew. -/
def transcode {v : Width} (d : Width) (s : Text v) : Text d :=
  if h : v = d then h ▸ s else encode d ((characters s).map Spelled.char)

/-- Text of some width. -/
structure AnyText where
  width : Width
  units : Text width

/-- A string as UTF-8 text. -/
def AnyText.ofChars (cs : List Char) : AnyText := ⟨.utf8, encode .utf8 cs⟩

end FormatString
