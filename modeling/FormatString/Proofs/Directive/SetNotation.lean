import Mathlib
import FormatString.Proofs.Directive.Encoded

/-!
# Spelled scan sets

A scan set is written down as a list of items between brackets, an item being a character or two
with a dash between them. A bracket and a dash that stand for themselves have their own places, the
first and the last, and so the items are told apart although a dash can mean two things. What is
parsed from such a notation admits what the notation says.
-/

namespace FormatString

/-! ## Items -/

/-- A character, or two with a dash between them. -/
inductive SetItem where
  | single (c : Char)
  | range (lo hi : Char)

namespace SetItem

/-- The item as it is written. -/
def chars : SetItem → List Char
  | single c => [c]
  | range lo hi => [lo, '-', hi]

/-- The ranges it is parsed to. -/
def ranges : SetItem → List (Nat × Nat)
  | single c => [(c.toNat, c.toNat)]
  | range lo hi => rangesOf lo hi

/-- Brackets and dashes are no items and do not bound any. -/
def WellFormed : SetItem → Prop
  | single c => c ≠ ']' ∧ c ≠ '-'
  | range lo hi => (lo ≠ ']' ∧ lo ≠ '-') ∧ hi ≠ ']' ∧ hi ≠ '-'

/-- A range that runs backwards stands for its three characters. -/
def Contains (n : Nat) : SetItem → Prop
  | single c => n = c.toNat
  | range lo hi =>
    if lo.toNat ≤ hi.toNat then lo.toNat ≤ n ∧ n ≤ hi.toNat
    else n = lo.toNat ∨ n = hi.toNat ∨ n = '-'.toNat

variable {i : SetItem}

/-- An item starts with a character that is neither a bracket nor a dash. -/
theorem WellFormed.exists_chars_eq (h : i.WellFormed) :
    ∃ c rest, i.chars = c :: rest ∧ c ≠ ']' ∧ c ≠ '-' := by
  cases i with
  | single c => exact ⟨c, [], rfl, h⟩
  | range lo hi => exact ⟨lo, ['-', hi], rfl, h.1⟩

/-- The ranges of an item hold its members. -/
theorem contains_iff (i : SetItem) (n : Nat) :
    i.Contains n ↔ ∃ range ∈ i.ranges, range.1 ≤ n ∧ n ≤ range.2 := by
  have hsingle (m : Nat) : m ≤ n ∧ n ≤ m ↔ n = m := ⟨fun h ↦ Nat.le_antisymm h.2 h.1, by omega⟩
  cases i with
  | single c => simp [Contains, ranges, hsingle]
  | range lo hi =>
    rw [Contains, ranges, rangesOf]
    split
    · simp
    · simp only [List.map_cons, List.map_nil, List.mem_cons, List.not_mem_nil, or_false,
        exists_eq_or_imp, exists_eq_left, hsingle]
      tauto

end SetItem

/-- A set admits what is in one of its ranges, and a negated set what is in none of them. -/
theorem ScanSet.admits_iff (set : ScanSet) (n : Nat) :
    set.admits n ↔ ¬ ((∃ range ∈ set.ranges, range.1 ≤ n ∧ n ≤ range.2) ↔ set.negated) := by
  rw [admits, bne_iff_ne, ne_eq, Bool.eq_iff_iff, List.any_eq_true]
  simp

/-! ## Reading items -/

section Members

variable {rest : List Char}

/-- A dash that comes next is the last member. -/
def LastDash (cs : List Char) : Prop := ∀ hi rest, cs = '-' :: hi :: rest → hi = ']'

theorem lastDash_cons {c : Char} (hc : c ≠ '-') (rest : List Char) : LastDash (c :: rest) :=
  fun _ _ heq ↦ absurd (List.cons.inj heq).1 hc

/-- A character is a member of its own, unless a dash and another one come next. -/
theorem readMembers?_single {c : Char} (hc : c ≠ ']') (hrest : LastDash rest) :
    readMembers? (c :: rest)
      = (readMembers? rest).map (Prod.map ((c.toNat, c.toNat) :: ·) id) := by
  by_cases hdash : ∃ tail, rest = '-' :: ']' :: tail
  · obtain ⟨tail, rfl⟩ := hdash
    have hlast : readMembers? ('-' :: ']' :: tail) = some ([('-'.toNat, '-'.toNat)], tail) := by
      rw [readMembers?.eq_4 _ _ (by decide) (by simp), readMembers?.eq_2]
      rfl
    rw [readMembers?.eq_3 _ _ _ hc, if_pos rfl, hlast]
    rfl
  · refine readMembers?.eq_4 _ _ hc fun hi tail heq ↦ hdash ⟨tail, ?_⟩
    rw [heq, hrest hi tail heq]

theorem readMembers?_item {i : SetItem} (hi : i.WellFormed) (hrest : LastDash rest) :
    readMembers? (i.chars ++ rest) = (readMembers? rest).map (Prod.map (i.ranges ++ ·) id) := by
  cases i with
  | single c => exact readMembers?_single hi.1 hrest
  | range lo hi' =>
    change readMembers? (lo :: '-' :: hi' :: rest) = _
    rw [readMembers?.eq_3 _ _ _ hi.1.1, if_neg hi.2.1]
    rfl

/-- **The items** are read one by one, with a dash behind them and without. -/
theorem readMembers?_items {items : List SetItem} (hitems : ∀ i ∈ items, i.WellFormed)
    (dash : Bool) (rest : List Char) :
    let members := items.flatMap SetItem.chars ++ ((if dash then ['-'] else []) ++ ']' :: rest)
    LastDash members ∧ readMembers? members
      = some (items.flatMap SetItem.ranges ++
          (if dash then [('-'.toNat, '-'.toNat)] else []), rest) := by
  induction items with
  | nil =>
    cases dash with
    | true =>
      refine ⟨fun hi tail heq ↦ (List.cons.inj (List.cons.inj heq).2).1.symm, ?_⟩
      change readMembers? ('-' :: ']' :: rest) = _
      rw [readMembers?_single (by decide) (lastDash_cons (by decide) rest), readMembers?.eq_2]
      rfl
    | false => exact ⟨lastDash_cons (by decide) rest, readMembers?.eq_2 rest⟩
  | cons i items ih =>
    obtain ⟨hi, hitems⟩ := List.forall_mem_cons.mp hitems
    obtain ⟨hlast, hread⟩ := ih hitems
    dsimp only at hlast hread ⊢
    rw [List.flatMap_cons, List.append_assoc]
    constructor
    · obtain ⟨c, tail, hchars, -, hdash⟩ := hi.exists_chars_eq
      rw [hchars]
      exact lastDash_cons hdash _
    · rw [readMembers?_item hi hlast, hread, List.flatMap_cons, List.append_assoc]
      rfl

end Members

/-! ## Notations -/

/-- A scan set as it is written between its brackets: a caret, a bracket that is a member, items,
and a dash that is a member. -/
structure SetNotation where
  negated : Bool
  bracket : Bool
  items : List SetItem
  dash : Bool

namespace SetNotation

/-- What stands behind the caret and a bracket that is a member. -/
def members (x : SetNotation) : List Char :=
  x.items.flatMap SetItem.chars ++ if x.dash then ['-'] else []

/-- The notation with its brackets. -/
def chars (x : SetNotation) : List Char :=
  '[' :: ((if x.negated then ['^'] else []) ++ ((if x.bracket then [']'] else []) ++
    (x.members ++ [']'])))

/-- The set it is parsed to. -/
def set (x : SetNotation) : ScanSet :=
  ⟨x.negated, (if x.bracket then [(']'.toNat, ']'.toNat)] else []) ++
    (x.items.flatMap SetItem.ranges ++ if x.dash then [('-'.toNat, '-'.toNat)] else [])⟩

/-- There is a member, and no item is taken for a caret in front. -/
structure WellFormed (x : SetNotation) : Prop where
  items : ∀ i ∈ x.items, i.WellFormed
  nonempty : x.bracket ∨ x.items ≠ [] ∨ x.dash
  caret : x.negated = false → x.bracket = false → ∀ i ∈ x.items.head?, i.chars.head? ≠ some '^'

/-- The members, whatever the caret makes of them. -/
def Contains (x : SetNotation) (n : Nat) : Prop :=
  x.bracket ∧ n = ']'.toNat ∨ (∃ i ∈ x.items, i.Contains n) ∨ x.dash ∧ n = '-'.toNat

/-- A caret makes it the set of all that is not contained. -/
def Admits (x : SetNotation) (n : Nat) : Prop := ¬ (x.Contains n ↔ x.negated)

variable {x : SetNotation}

/-- **Membership.** -/
theorem admits_set_iff (x : SetNotation) (n : Nat) : x.set.admits n ↔ x.Admits n := by
  have hplace (b : Bool) (m : Nat) :
      (∃ range ∈ if b then [(m, m)] else [], range.1 ≤ n ∧ n ≤ range.2) ↔ b ∧ n = m := by
    cases b <;> simp
    omega
  have hitems : (∃ range ∈ x.items.flatMap SetItem.ranges, range.1 ≤ n ∧ n ≤ range.2)
      ↔ ∃ i ∈ x.items, i.Contains n := by
    simp only [SetItem.contains_iff, List.mem_flatMap]
    tauto
  have hcontains : (∃ range ∈ x.set.ranges, range.1 ≤ n ∧ n ≤ range.2) ↔ x.Contains n := by
    rw [set]
    simp only [List.mem_append, or_and_right, exists_or, hplace, hitems, Contains]
  rw [ScanSet.admits_iff, hcontains]
  rfl

/-- The first of the other members is not taken for one of the characters in front of them. -/
theorem WellFormed.members_ne (hx : x.WellFormed) (hbracket : x.bracket = false)
    (rest : List Char) : (∀ tail, x.members ++ rest ≠ ']' :: tail) ∧
      (x.negated = false → ∀ tail, x.members ++ rest ≠ '^' :: tail) := by
  rcases hitems : x.items with _ | ⟨i, items⟩
  · have hdash : x.dash := by
      obtain h | h | h := hx.nonempty
      · exact absurd h (ne_true_of_eq_false hbracket)
      · exact absurd hitems h
      · exact h
    rw [members, hitems, if_pos hdash]
    exact ⟨by simp, by simp⟩
  · obtain ⟨c, chars, hchars, hc, -⟩ := (hx.items i (by simp [hitems])).exists_chars_eq
    have hcaret (hnegated : x.negated = false) : c ≠ '^' := by
      have hfirst := hx.caret hnegated hbracket i (by simp [hitems])
      rw [hchars] at hfirst
      simpa using hfirst
    rw [members, hitems, List.flatMap_cons, hchars]
    exact ⟨fun tail heq ↦ hc (List.cons.inj heq).1,
      fun hnegated tail heq ↦ hcaret hnegated (List.cons.inj heq).1⟩

/-- **Reading.** -/
theorem WellFormed.read? (hx : x.WellFormed) (rest : List Char) :
    ScanSet.read? ((if x.negated then ['^'] else []) ++ ((if x.bracket then [']'] else []) ++
      (x.members ++ ']' :: rest))) = some (x.set, rest) := by
  have hmembers : readMembers? (x.members ++ ']' :: rest)
      = some (x.items.flatMap SetItem.ranges ++
          (if x.dash then [('-'.toNat, '-'.toNat)] else []), rest) := by
    rw [members, List.append_assoc]
    exact (readMembers?_items hx.items x.dash rest).2
  have hne (hbracket : x.bracket = false) := hx.members_ne hbracket (']' :: rest)
  rw [set]
  generalize x.members ++ ']' :: rest = body at hmembers hne
  cases hnegated : x.negated <;> cases hbracket : x.bracket
  · obtain ⟨hmember, hcaret⟩ := hne hbracket
    change ScanSet.read? body = _
    rw [ScanSet.read?.eq_4 _ (hcaret hnegated) hmember, hmembers]
    rfl
  · change ScanSet.read? (']' :: body) = _
    rw [ScanSet.read?.eq_3, hmembers]
    rfl
  · obtain ⟨hmember, -⟩ := hne hbracket
    change ScanSet.read? ('^' :: body) = _
    rw [ScanSet.read?.eq_2 _ hmember, hmembers]
    rfl
  · change ScanSet.read? ('^' :: ']' :: body) = _
    rw [ScanSet.read?.eq_1, hmembers]
    rfl

/-- **Parsing.** The directive spans its notation, whatever is behind it. -/
theorem WellFormed.parse (hx : x.WellFormed) (w : Width) (r : Text w) :
    Directive.parse .scan (encode w x.chars ++ r)
      = .ok ({ Directive.bare .charSet false with set := some x.set },
          (encode w x.chars).length) := by
  obtain ⟨body, hbody⟩ : ∃ body, x.chars = '[' :: body := ⟨_, rfl⟩
  have hread : ScanSet.read? body = some (x.set, []) :=
    (congrArg ScanSet.read? (List.cons.inj hbody).2.symm).trans (hx.read? [])
  have hbracket : encode w x.chars = Text.ofAscii w ['['] ++ encode w body := by
    rw [hbody, encode_cons, encodeChar_of_ascii (by decide)]
    rfl
  have hset : readSetOf .charSet (encode w body) = .ok (some x.set, (encode w body).length) := by
    refine bind_eq_ok_iff.mpr ⟨_, readScanSet_of_chars hread w, ?_⟩
    dsimp only
    rw [List.length_nil, Nat.sub_zero, List.take_length]
  have hparse : Directive.parse .scan (encode w x.chars)
      = .ok ({ Directive.bare .charSet false with set := some x.set },
          (encode w x.chars).length) := by
    refine Directive.parse_eq_ok_iff.mpr ⟨[], '[', encode w body, _, hbracket,
      ⟨spellsHeader_nil (by decide), rfl, rfl, fun _ ↦ rfl, rfl⟩, hset, ?_⟩
    rw [hbracket, List.length_append]
    rfl
  have hbehind := Directive.parse_take_append hparse r
  rwa [List.take_length] at hbehind

end SetNotation

end FormatString
