import FormatString.Text.CodeUnit

/-!
# The three encodings

`encodeChar` spells a character in units, and `decode?` reads the character a text starts with.
Reading guesses the only scalar value the first units can stand for and accepts it when spelling it
again gives those units back; so overlong forms, surrogates, truncated sequences and values beyond
U+10FFFF all fail for the one reason that no character is spelled that way. Text is never rejected:
where no character is spelled, one unit is read as U+FFFD.
-/

namespace FormatString

/-- The character that stands for a unit no character is spelled with. -/
def replacementChar : Char := '\uFFFD'

/-! ## Spelling a character -/

/-- The unit values spelling the scalar value `n`. -/
def spelling : Width → Nat → List Nat
  | .utf8, n =>
    if n < 0x80 then [n]
    else if n < 0x800 then [0xC0 + n / 0x40, 0x80 + n % 0x40]
    else if n < 0x10000 then [0xE0 + n / 0x1000, 0x80 + n / 0x40 % 0x40, 0x80 + n % 0x40]
    else [0xF0 + n / 0x40000, 0x80 + n / 0x1000 % 0x40, 0x80 + n / 0x40 % 0x40, 0x80 + n % 0x40]
  | .utf16, n =>
    if n < 0x10000 then [n]
    else [0xD800 + (n - 0x10000) / 0x400, 0xDC00 + (n - 0x10000) % 0x400]
  | .utf32, n => [n]

/-- The units spelling a character. -/
def encodeChar (w : Width) (c : Char) : Text w := (spelling w c.toNat).map (CodeUnit.ofNat w)

/-- The text spelling a string of characters. -/
def encode (w : Width) (cs : List Char) : Text w := cs.flatMap (encodeChar w)

theorem spelling_ne_nil (w : Width) (n : Nat) : spelling w n ≠ [] := by
  cases w <;> simp only [spelling] <;> repeat' split
  all_goals exact List.cons_ne_nil _ _

theorem encodeChar_ne_nil (w : Width) (c : Char) : encodeChar w c ≠ [] := by
  simpa [encodeChar] using spelling_ne_nil w c.toNat

theorem length_encodeChar_pos (w : Width) (c : Char) : 0 < (encodeChar w c).length :=
  List.length_pos_iff.mpr (encodeChar_ne_nil w c)

/-! ## Reading a character -/

/-- The scalar value the units `a`, `b`, `c`, `d` can spell at the front of a text, judging by `a`
alone how many of them count. -/
def scalarGuess : Width → Nat → Nat → Nat → Nat → Nat
  | .utf8, a, b, c, d =>
    if a < 0x80 then a
    else if a < 0xE0 then (a - 0xC0) * 0x40 + (b - 0x80)
    else if a < 0xF0 then (a - 0xE0) * 0x1000 + (b - 0x80) * 0x40 + (c - 0x80)
    else (a - 0xF0) * 0x40000 + (b - 0x80) * 0x1000 + (c - 0x80) * 0x40 + (d - 0x80)
  | .utf16, a, b, _, _ =>
    if 0xD800 ≤ a ∧ a < 0xDC00 then 0x10000 + (a - 0xD800) * 0x400 + (b - 0xDC00) else a
  | .utf32, a, _, _, _ => a

variable {w : Width}

/-- The value of the unit at position `i`, zero past the end. -/
def unitAt (s : Text w) (i : Nat) : Nat := (s[i]?.map CodeUnit.value).getD 0

/-- The character spelled at the front of a text, if one is. -/
def leadingChar? (s : Text w) : Option Char :=
  let n := scalarGuess w (unitAt s 0) (unitAt s 1) (unitAt s 2) (unitAt s 3)
  if n.isValidChar ∧ (encodeChar w (Char.ofNat n)).isPrefixOf s then some (Char.ofNat n) else none

/-- The character at the front of a text and the number of units it takes; U+FFFD and one unit where
no character is spelled, and nothing for the empty text. -/
def decode? (s : Text w) : Option (Char × Nat) :=
  match s with
  | [] => none
  | _ :: _ =>
    match leadingChar? s with
    | some c => some (c, (encodeChar w c).length)
    | none => some (replacementChar, 1)

theorem encodeChar_prefix_of_leadingChar? {s : Text w} {c : Char} (h : leadingChar? s = some c) :
    encodeChar w c <+: s := by
  rw [leadingChar?] at h
  split at h
  · next hn =>
    obtain rfl := Option.some.inj h
    exact List.isPrefixOf_iff_prefix.mp hn.2
  · exact absurd h (by simp)

theorem decode?_pos {s : Text w} {c : Char} {n : Nat} (h : decode? s = some (c, n)) : 0 < n := by
  unfold decode? at h
  repeat' split at h
  · exact absurd h (by simp)
  · next d _ =>
    simp only [Option.some.injEq, Prod.mk.injEq] at h
    exact h.2 ▸ length_encodeChar_pos w d
  · simp only [Option.some.injEq, Prod.mk.injEq] at h; omega

theorem decode?_le {s : Text w} {c : Char} {n : Nat} (h : decode? s = some (c, n)) :
    n ≤ s.length := by
  unfold decode? at h
  repeat' split at h
  · exact absurd h (by simp)
  · next d hd =>
    simp only [Option.some.injEq, Prod.mk.injEq] at h
    exact h.2 ▸ (encodeChar_prefix_of_leadingChar? hd).length_le
  · simp only [Option.some.injEq, Prod.mk.injEq] at h; simp only [List.length_cons]; omega

end FormatString
