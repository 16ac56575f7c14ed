/-!
# Code units

Text is stored in code units of 8, 16 or 32 bits and holds UTF-8, UTF-16 or UTF-32. A text is a
plain list of units: nothing forces it to be well-formed, and everything built on it has to say what
it does with a stray unit.

All the punctuation of a format string is ASCII, and an ASCII character is one unit of the same
value in each of the three encodings. `CodeUnit.ascii?` is therefore the view through which the
grammars of this library look at a text, and `asciiRun` the longest stretch they can look at.
-/

namespace FormatString

/-- The encoding of a text, named after the form of Unicode its units hold. -/
inductive Width where
  | utf8
  | utf16
  | utf32
  deriving DecidableEq

namespace Width

/-- The number of bits of one unit. -/
def bits : Width → Nat
  | utf8 => 8
  | utf16 => 16
  | utf32 => 32

/-- The number of values of one unit. -/
def unitCount (w : Width) : Nat := Nat.pow 2 w.bits

theorem unitCount_pos (w : Width) : 0 < w.unitCount := Nat.two_pow_pos w.bits

/-- The values of every width include those of a byte. -/
theorem byte_le_unitCount (w : Width) : 0x100 ≤ w.unitCount := by cases w <;> decide

end Width

/-- One storage unit of a text. -/
structure CodeUnit (w : Width) where
  value : Nat
  value_lt : value < w.unitCount
  deriving DecidableEq

/-- Text as its units, well-formed or not. -/
abbrev Text (w : Width) := List (CodeUnit w)

namespace CodeUnit

variable {w : Width}

theorem ext_value {u v : CodeUnit w} (h : u.value = v.value) : u = v := by
  cases u; cases v; cases h; rfl

/-- The unit with the low bits of `n`. -/
def ofNat (w : Width) (n : Nat) : CodeUnit w :=
  ⟨n % w.unitCount, Nat.mod_lt n w.unitCount_pos⟩

/-- The zero unit, which ends a text stored in a buffer. -/
def nul (w : Width) : CodeUnit w := ofNat w 0

/-- The unit that spells an ASCII character, in every encoding. -/
def ofAscii (w : Width) (c : Char) : CodeUnit w := ofNat w c.toNat

/-- The ASCII character a unit spells by itself. -/
def ascii? (u : CodeUnit w) : Option Char :=
  if u.value < 0x80 then some (Char.ofNat u.value) else none

/-- The unit spells the ASCII character `c`. -/
def spells (u : CodeUnit w) (c : Char) : Bool := u.value == c.toNat

theorem value_ofNat_of_lt {n : Nat} (h : n < w.unitCount) : (ofNat w n).value = n :=
  Nat.mod_eq_of_lt h

@[simp] theorem ofNat_value (u : CodeUnit w) : ofNat w u.value = u :=
  ext_value (Nat.mod_eq_of_lt u.value_lt)

theorem value_ofAscii {c : Char} (h : c.toNat < 0x80) : (ofAscii w c).value = c.toNat := by
  have := w.byte_le_unitCount
  exact value_ofNat_of_lt (by omega)

theorem ascii?_ofAscii {c : Char} (h : c.toNat < 0x80) : (ofAscii w c).ascii? = some c := by
  rw [ascii?, value_ofAscii h, if_pos h, Char.ofNat_toNat]

end CodeUnit

/-! ## The ASCII view of a text -/

/-- Space, tab, line feed, vertical tab, form feed and carriage return: the blanks of every
locale. -/
def isBlank (c : Char) : Bool :=
  c == ' ' || c == '\t' || c == '\n' || c == '\x0b' || c == '\x0c' || c == '\r'

/-- The unit spells a blank. -/
def CodeUnit.isBlank {w : Width} (u : CodeUnit w) : Bool := u.ascii?.any FormatString.isBlank

namespace Text

variable {w : Width}

/-- ASCII characters as units. -/
def ofAscii (w : Width) (cs : List Char) : Text w := cs.map (CodeUnit.ofAscii w)

/-- The longest run of ASCII characters the text starts with. -/
def asciiRun : Text w → List Char
  | [] => []
  | u :: rest =>
    match u.ascii? with
    | some c => c :: asciiRun rest
    | none => []

theorem asciiRun_ofAscii {cs : List Char} (h : ∀ c ∈ cs, c.toNat < 0x80) :
    asciiRun (ofAscii w cs) = cs := by
  induction cs with
  | nil => rfl
  | cons c cs ih =>
    rw [ofAscii, List.map_cons, asciiRun, CodeUnit.ascii?_ofAscii (h c List.mem_cons_self)]
    exact congrArg (c :: ·) (ih fun d hd ↦ h d (List.mem_cons_of_mem _ hd))

theorem length_asciiRun_le (s : Text w) : (asciiRun s).length ≤ s.length := by
  induction s with
  | nil => exact Nat.le_refl 0
  | cons u rest ih =>
    rw [asciiRun]
    split
    · exact Nat.succ_le_succ ih
    · exact Nat.zero_le _

end Text

end FormatString
