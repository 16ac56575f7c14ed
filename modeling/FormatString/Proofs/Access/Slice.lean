import Mathlib
import FormatString.Proofs.Directive.Parse

/-!
# Texts read by position

Lists are taken apart from the front, and nothing can be taken from a list that is not there. Text
that lies in memory is read by position, and then it can: `slice?` is the stretch between two
positions, and nothing at all where the text does not reach that far. The modules below this one go
through the algorithms once more with positions in place of lists. That each of them comes to what
it came to before means that no position is ever out of range.

`Access` is a computation that reads this way. Being out of range is no error it could report: it
has no outcome then. `settled` is one that has, be it a result or an error.
-/

namespace FormatString

variable {w : Width}

/-! ## Slices -/

namespace Text

/-- The units from position `i` up to position `j`. -/
def slice? (s : Text w) (i j : Nat) : Option (Text w) :=
  if i ≤ j ∧ j ≤ s.length then some ((s.drop i).take (j - i)) else none

/-- The units from position `i` on. -/
def from? (s : Text w) (i : Nat) : Option (Text w) := s.slice? i s.length

/-- The position `i`, which may be the end of the text. -/
def position? (s : Text w) (i : Nat) : Option Nat := if i ≤ s.length then some i else none

variable {s : Text w} {i j : Nat}

theorem slice?_of_le (hij : i ≤ j) (hj : j ≤ s.length) :
    s.slice? i j = some ((s.drop i).take (j - i)) := if_pos ⟨hij, hj⟩

theorem from?_of_le (hi : i ≤ s.length) : s.from? i = some (s.drop i) := by
  rw [from?, slice?_of_le hi le_rfl, List.take_of_length_le (List.length_drop ..).le]

theorem position?_of_le (hi : i ≤ s.length) : s.position? i = some i := if_pos hi

theorem from?_eq_some_iff {rest : Text w} :
    s.from? i = some rest ↔ i ≤ s.length ∧ rest = s.drop i := by
  constructor
  · intro h
    have hi : i ≤ s.length := by
      by_contra hi
      rw [from?, slice?, if_neg fun hle ↦ hi hle.1] at h
      exact absurd h (by simp)
    rw [from?_of_le hi] at h
    exact ⟨hi, (Option.some.inj h).symm⟩
  · rintro ⟨hi, rfl⟩
    exact from?_of_le hi

end Text

/-! ## Blanks -/

/-- The position behind the blanks from position `i` on. -/
def blanksFrom (s : Text w) (i : Nat) : Nat :=
  if _h : i < s.length then
    if s[i].isBlank then blanksFrom s (i + 1) else i
  else i

theorem blanksFrom_eq (s : Text w) (i : Nat) :
    blanksFrom s i = i + ((s.drop i).takeWhile (·.isBlank)).length := by
  fun_induction blanksFrom s i with
  | case1 i hlt hblank ih =>
    rw [ih, List.drop_eq_getElem_cons hlt, List.takeWhile_cons_of_pos hblank]
    exact Nat.add_right_comm i 1 _
  | case2 i hlt hblank =>
    rw [List.drop_eq_getElem_cons hlt, List.takeWhile_cons_of_neg hblank]
    rfl
  | case3 i hge => rw [List.drop_of_length_le (Nat.not_lt.mp hge)]; rfl

/-! ## Computations that read by position -/

/-- A computation that has no outcome if it reads out of range. -/
abbrev Access (ε α : Type) := ExceptT ε Option α

section Access

variable {ε α β : Type}

/-- The computation with a given outcome. -/
def settled (x : Except ε α) : Access ε α := ExceptT.mk (some x)

theorem settled_ok_bind (a : α) (f : α → Access ε β) : settled (.ok a) >>= f = f a := rfl

/-- Once a slice is found to be in range, it is there. -/
theorem lift_some_bind (a : α) (f : α → Access ε β) :
    (liftM (some a) : Access ε α) >>= f = f a := rfl

end Access

/-! ## Characters -/

section Characters

variable {s rest : Text w} {c : Char} {i n : Nat}

/-- There are units where a character is read. -/
theorem lt_of_decode? (hfrom : s.from? i = some rest) (h : decode? rest = some (c, n)) :
    i < s.length ∧ i + n ≤ s.length ∧ 0 < n := by
  obtain ⟨-, rfl⟩ := Text.from?_eq_some_iff.mp hfrom
  have hpos := decode?_pos h
  have hle := decode?_le h
  rw [List.length_drop] at hle
  omega

theorem characters_of_decode?_eq_none (h : decode? s = none) : characters s = [] := by
  rw [characters]
  split
  · rfl
  · next hsome => exact absurd (h.symm.trans hsome) (by simp)

/-- Every character takes units. -/
theorem units_ne_nil : ∀ p ∈ characters s, p.units ≠ [] := by
  fun_induction characters s with
  | case1 => simp
  | case2 s c n h ih =>
    refine List.forall_mem_cons.mpr ⟨?_, ih⟩
    rw [← List.length_pos_iff, List.length_take_of_le (decode?_le h)]
    exact decode?_pos h

theorem unitsOf_eq_nil_iff {front : List (Spelled w)} (h : front <+: characters s) :
    unitsOf front = [] ↔ front = [] := by
  cases front with
  | nil => exact iff_of_true rfl rfl
  | cons p front =>
    refine iff_of_false (List.append_ne_nil_of_left_ne_nil ?_ _) (List.cons_ne_nil _ _)
    exact units_ne_nil p (h.subset List.mem_cons_self)

/-- One character more. -/
theorem characters_of_from? (hfrom : s.from? i = some rest) (h : decode? rest = some (c, n)) :
    ∃ units : Text w, units.length = n ∧
      characters (s.drop i) = ⟨c, units⟩ :: characters (s.drop (i + n)) := by
  obtain ⟨-, rfl⟩ := Text.from?_eq_some_iff.mp hfrom
  refine ⟨_, List.length_take_of_le (decode?_le h), ?_⟩
  rw [characters_of_decode? h, List.drop_drop]

/-- The position behind the characters from `i` on that satisfy `p`. -/
def runAt? (p : Char → Bool) (s : Text w) (i : Nat) : Option Nat :=
  match _hfrom : s.from? i with
  | none => none
  | some rest =>
    match _h : decode? rest with
    | none => some i
    | some (c, used) => if p c then runAt? p s (i + used) else some i
termination_by s.length - i
decreasing_by
  have := lt_of_decode? _hfrom _h
  omega

theorem runAt?_eq (p : Char → Bool) (hi : i ≤ s.length) :
    runAt? p s i
      = some (i + (unitsOf ((characters (s.drop i)).takeWhile (p ·.char))).length) := by
  fun_induction runAt? p s i with
  | case1 i hfrom => exact absurd ((Text.from?_of_le hi).symm.trans hfrom) (by simp)
  | case2 i rest hfrom h =>
    obtain ⟨-, rfl⟩ := Text.from?_eq_some_iff.mp hfrom
    rw [characters_of_decode?_eq_none h]
    rfl
  | case3 i rest hfrom c used h hp ih =>
    obtain ⟨units, rfl, hchars⟩ := characters_of_from? hfrom h
    rw [ih (lt_of_decode? hfrom h).2.1, hchars, List.takeWhile_cons, if_pos hp, unitsOf, unitsOf,
      List.flatMap_cons, List.length_append, Nat.add_assoc]
  | case4 i rest hfrom c used h hp =>
    obtain ⟨units, -, hchars⟩ := characters_of_from? hfrom h
    rw [hchars, List.takeWhile_cons, if_neg hp]
    rfl

/-- The position behind the first characters from `i` on, `count` of them if there are as many. -/
def prefixAt? (s : Text w) (count i : Nat) : Option Nat :=
  match count with
  | 0 => some i
  | count + 1 => do
    match decode? (← s.from? i) with
    | none => some i
    | some (_, used) => prefixAt? s count (i + used)

theorem prefixAt?_eq (count : Nat) (hi : i ≤ s.length) :
    prefixAt? s count i = some (i + (charPrefix (s.drop i) count).length) := by
  induction count generalizing i with
  | zero => rfl
  | succ count ih =>
    have hfrom := Text.from?_of_le hi
    rw [prefixAt?, hfrom, Option.bind_eq_bind, Option.bind_some, charPrefix]
    cases h : decode? (s.drop i) with
    | none =>
      rw [characters_of_decode?_eq_none h]
      rfl
    | some p =>
      obtain ⟨c, used⟩ := p
      obtain ⟨units, rfl, hchars⟩ := characters_of_from? hfrom h
      dsimp only
      rw [ih (lt_of_decode? hfrom h).2.1, hchars, List.take_succ_cons, unitsOf, List.flatMap_cons,
        List.length_append, Nat.add_assoc]
      rfl

/-- The characters of a text, each read off what the one in front of it has left. -/
def charactersAt? (s : Text w) : Option (List Char) :=
  match _h : decode? s with
  | none => some []
  | some (c, used) =>
    match _hfrom : s.from? used with
    | none => none
    | some rest => (charactersAt? rest).map (c :: ·)
termination_by s.length
decreasing_by
  obtain ⟨hle, rfl⟩ := Text.from?_eq_some_iff.mp _hfrom
  have := decode?_pos _h
  rw [List.length_drop]
  omega

theorem charactersAt?_eq (s : Text w) :
    charactersAt? s = some ((characters s).map Spelled.char) := by
  fun_induction charactersAt? s with
  | case1 s h =>
    rw [characters_of_decode?_eq_none h]
    rfl
  | case2 s c used h hfrom =>
    exact absurd ((Text.from?_of_le (decode?_le h)).symm.trans hfrom) (by simp)
  | case3 s c used h rest hfrom ih =>
    obtain ⟨-, rfl⟩ := Text.from?_eq_some_iff.mp hfrom
    rw [ih, characters_of_decode? h]
    rfl

end Characters

end FormatString
