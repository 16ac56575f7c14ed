import Mathlib
import FormatString.Proofs.Directive.Parse
import FormatString.Proofs.Template.Malformed

/-!
# Sound directives

The fields of a `Directive` leave room for more than a format string can say: bit counts no integer
has, a slot zero, a `*` where nothing can be taken, a scan set without members. `Directive.Sound` is
what holds of the directives that are parsed, in each of the three dialects. It is what the engines
rely on, and it is read off the spelling of a directive field by field.
-/

namespace FormatString

variable {w : Width} {dialect : Dialect}

/-- A width or a precision that can be written in the dialect. -/
inductive Amount.Sound : Dialect → Amount → Prop where
  | literal {dialect : Dialect} {n : Nat} (hle : n ≤ numberLimit) : Sound dialect (.literal n)
  | next : Sound .print (.argument none)
  | slot {i : Nat} (hpos : 1 ≤ i) (hle : i ≤ numberLimit) : Sound .ordered (.argument (some i))

/-- A set with members, none of its ranges running backwards. -/
structure ScanSet.Sound (set : ScanSet) : Prop where
  ne_nil : set.ranges ≠ []
  le : ∀ r ∈ set.ranges, r.1 ≤ r.2

/-- A directive that can be written in the dialect. -/
structure Directive.Sound (dialect : Dialect) (d : Directive) : Prop where
  accepts : d.length.accepts d.conversion
  bits : ∀ n, d.length = .bits n → n ∈ [8, 16, 32, 64]
  width : ∀ a ∈ d.width, a.Sound dialect
  precision : ∀ a ∈ d.precision, a.Sound dialect ∧ dialect ≠ .scan
  index : d.index.isSome ↔ dialect = .ordered
  slot : ∀ i ∈ d.index, 1 ≤ i ∧ i ≤ numberLimit
  set : d.set.isSome ↔ d.conversion = .charSet
  members : ∀ set ∈ d.set, set.Sound
  scan : d.conversion = .charSet → dialect = .scan

/-! ## Numbers -/

section Fields

variable {cs : List Char}

theorem SpellsSlot.bounds {slot : Nat} (h : SpellsSlot cs slot) :
    1 ≤ slot ∧ slot ≤ numberLimit := by
  obtain ⟨h, hslot⟩ := h
  exact ⟨Nat.one_le_iff_ne_zero.mpr hslot, h.le⟩

theorem SpellsAmount.sound {amount : Option Amount} (hdialect : dialect ≠ .scan)
    (h : SpellsAmount dialect cs amount) : ∀ a ∈ amount, a.Sound dialect := by
  cases h with
  | absent => simp
  | star h =>
    rintro a ⟨⟩
    cases h with
    | next hordered =>
      cases dialect with
      | print => exact .next
      | ordered => exact absurd rfl hordered
      | scan => exact absurd rfl hdialect
    | slot h => exact .slot h.bounds.1 h.bounds.2
  | literal h =>
    rintro a ⟨⟩
    exact .literal h.le

theorem SpellsWidth.sound {width : Option Amount} (h : SpellsWidth dialect cs width) :
    ∀ a ∈ width, a.Sound dialect := by
  cases h with
  | writer hdialect _ h => exact h.sound hdialect
  | reader h =>
    cases h with
    | absent => simp
    | numeral h =>
      rintro a ⟨⟩
      exact .literal h.le

theorem SpellsPrecision.sound {precision : Option Amount}
    (h : SpellsPrecision dialect cs precision) :
    ∀ a ∈ precision, a.Sound dialect ∧ dialect ≠ .scan := by
  cases h with
  | absent => simp
  | @point _ amount hdialect h =>
    rintro a ⟨⟩
    refine ⟨?_, hdialect⟩
    cases amount with
    -- A point alone asks for no digits.
    | none => exact .literal (Nat.zero_le _)
    | some a => exact h.sound hdialect a rfl

theorem SpellsIndex.sound {index : Option Nat} (h : SpellsIndex dialect cs index) :
    (index.isSome ↔ dialect = .ordered) ∧ ∀ i ∈ index, 1 ≤ i ∧ i ≤ numberLimit := by
  cases h with
  | absent h => simp [h]
  | slot h =>
    refine ⟨by simp, ?_⟩
    rintro i ⟨⟩
    exact h.bounds

theorem bits_of_mem_lengthSpellings {n : Nat} (h : (cs, .bits n) ∈ lengthSpellings) :
    n ∈ [8, 16, 32, 64] := by
  simp only [lengthSpellings, List.mem_cons, List.not_mem_nil, or_false, Prod.mk.injEq,
    reduceCtorEq, and_false, false_or, LengthModifier.bits.injEq] at h
  obtain ⟨-, rfl⟩ | ⟨-, rfl⟩ | ⟨-, rfl⟩ | ⟨-, rfl⟩ := h <;> decide

end Fields

/-! ## Scan sets -/

theorem le_of_mem_rangesOf {lo hi : Char} : ∀ r ∈ rangesOf lo hi, r.1 ≤ r.2 := by
  rw [rangesOf]
  split
  · next hle => simpa using hle
  · simp

/-- No range runs backwards, and there are members unless the closing bracket comes first. -/
theorem readMembers?_ranges {cs rest : List Char} {ranges : List (Nat × Nat)}
    (h : readMembers? cs = some (ranges, rest)) :
    (∀ r ∈ ranges, r.1 ≤ r.2) ∧ (cs.head? ≠ some ']' → ranges ≠ []) := by
  fun_induction readMembers? cs generalizing ranges with
  | case1 => exact absurd h (by simp)
  | case2 tail =>
    obtain ⟨rfl, rfl⟩ := Prod.mk.inj (Option.some.inj h)
    simp
  | case3 lo tail hlo =>
    obtain ⟨rfl, rfl⟩ := Prod.mk.inj (Option.some.inj h)
    simp
  | case4 lo hi tail hlo hhi ih =>
    obtain ⟨⟨more, tail'⟩, hmore, heq⟩ := Option.map_eq_some_iff.mp h
    obtain ⟨rfl, rfl⟩ := Prod.mk.inj heq
    refine ⟨List.forall_mem_append.mpr ⟨le_of_mem_rangesOf, (ih hmore).1⟩, fun _ ↦ ?_⟩
    have hne : rangesOf lo hi ≠ [] := by
      rw [rangesOf]
      split <;> simp
    exact List.append_ne_nil_of_left_ne_nil hne _
  | case5 lo tail hlo hdash ih =>
    obtain ⟨⟨more, tail'⟩, hmore, heq⟩ := Option.map_eq_some_iff.mp h
    obtain ⟨rfl, rfl⟩ := Prod.mk.inj heq
    exact ⟨List.forall_mem_cons.mpr ⟨Nat.le_refl _, (ih hmore).1⟩, fun _ ↦ List.cons_ne_nil _ _⟩

/-- There is a member between the brackets: a closing bracket that comes first is one itself. -/
theorem ScanSet.sound_of_readMembers? {negated : Bool} {leading ranges : List (Nat × Nat)}
    {cs rest : List Char} (h : readMembers? cs = some (ranges, rest))
    (hleading : ∀ r ∈ leading, r.1 ≤ r.2) (hne : leading = [] → cs.head? ≠ some ']') :
    (⟨negated, leading ++ ranges⟩ : ScanSet).Sound := by
  obtain ⟨hle, hranges⟩ := readMembers?_ranges h
  refine ⟨fun hnil ↦ ?_, List.forall_mem_append.mpr ⟨hleading, hle⟩⟩
  obtain ⟨hnil, hnil'⟩ := List.append_eq_nil_iff.mp hnil
  exact hranges (hne hnil) hnil'

theorem ScanSet.sound_of_read? {cs rest : List Char} {set : ScanSet}
    (h : read? cs = some (set, rest)) : set.Sound := by
  unfold read? at h
  split at h
  all_goals
    dsimp only at h
    split at h
    all_goals
      obtain ⟨⟨ranges, tail⟩, hranges, heq⟩ := Option.map_eq_some_iff.mp h
      obtain ⟨rfl, rfl⟩ := Prod.mk.inj heq
    · exact sound_of_readMembers? hranges (by simp) (by simp)
    · next hbracket =>
      refine sound_of_readMembers? hranges (by simp) fun _ hhead ↦ ?_
      obtain ⟨members, hmembers⟩ := List.head?_eq_some_iff.mp hhead
      exact hbracket members hmembers

theorem readSetOf_sound {k : Conversion} {body : Text w} {set : Option ScanSet} {spanned : Nat}
    (h : readSetOf k body = .ok (set, spanned)) :
    (set.isSome ↔ k = .charSet) ∧ ∀ members ∈ set, members.Sound := by
  rw [readSetOf] at h
  split at h
  · next hk =>
    obtain ⟨⟨members, used⟩, hread, heq⟩ := bind_eq_ok_iff.mp h
    obtain ⟨rfl, rfl⟩ := Prod.mk.inj (Except.ok.inj heq)
    refine ⟨by simp [hk], ?_⟩
    rintro _ ⟨⟩
    rw [readScanSet] at hread
    split at hread
    · next hset =>
      obtain ⟨rfl, -⟩ := Prod.mk.inj (Except.ok.inj hread)
      exact ScanSet.sound_of_read? hset
    · exact absurd hread (by simp)
  · next hk =>
    obtain ⟨rfl, rfl⟩ := Prod.mk.inj (Except.ok.inj h)
    simp [hk]

/-! ## Directives -/

/-- **Parsed directives are sound.** -/
theorem Directive.sound_of_parse {s : Text w} {d : Directive} {n : Nat}
    (h : Directive.parse dialect s = .ok (d, n)) : d.Sound dialect := by
  obtain ⟨fields, letter, body, spanned, -, hspells, hread, -⟩ := parse_eq_ok_iff.mp h
  obtain ⟨hset, hmembers⟩ := readSetOf_sound hread
  obtain ⟨hindex, -, hwidth, hprecision, hlength⟩ := hspells.header
  exact {
    accepts := hspells.accepts
    bits := fun n hn ↦ by
      dsimp only at hlength
      rw [hn] at hlength
      exact bits_of_mem_lengthSpellings hlength
    width := hwidth.sound
    precision := hprecision.sound
    index := hindex.sound.1
    slot := hindex.sound.2
    set := hset
    members := hmembers
    scan := hspells.scan }

/-- The directives of a format string are sound. -/
theorem Directive.sound_of_mem_pieces {t : Text w} {p : Located w} {d : Directive}
    (hp : p ∈ pieces dialect t) (hd : p.piece = .directive d) : d.Sound dialect := by
  obtain ⟨s, n, hparse⟩ := exists_parse_of_mem_piecesFrom hp hd
  exact sound_of_parse hparse

end FormatString
