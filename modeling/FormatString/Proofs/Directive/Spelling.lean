import Mathlib
import FormatString.Proofs.Directive.Parse

/-!
# The grammar of directives

A directive without a scan set is a row of parts, and `Parts.Spell` says of each part on its own
what may be written there and what it stands for: flags are a set of characters, and length
modifiers and conversions are found in a table. The parser accepts exactly these rows.

That no part has to say where it ends is the point of the grammar. A width cannot start with a zero,
because that would be a flag, and no character of a field is a conversion letter; so of all the rows
that could be written, at most one is at the front of a text.
-/

namespace FormatString

variable {w : Width} {dialect : Dialect}

/-! ## Flags and letters -/

/-- The characters of the flags. -/
def flagLetters : List Char := ['#', '0', '-', ' ', '+', '\'']

/-- The flags among the characters, wherever and however often they are written. -/
def flagsAmong (cs : List Char) : Flags where
  alt := cs.contains '#'
  zero := cs.contains '0'
  left := cs.contains '-'
  space := cs.contains ' '
  sign := cs.contains '+'
  group := cs.contains '\''

/-- A run of flags, or when reading at most the star that suppresses. -/
inductive FlagRun : Dialect → List Char → Flags → Prop where
  | writer {dialect : Dialect} {cs : List Char} (hdialect : dialect ≠ .scan)
    (h : ∀ c ∈ cs, c ∈ flagLetters) : FlagRun dialect cs (flagsAmong cs)
  | absent : FlagRun .scan [] {}
  | suppress : FlagRun .scan ['*'] { suppress := true }

/-- The letters of the conversions, that of scan sets apart. -/
def letterSpellings : List (Char × Conversion) :=
  [('d', .signedInt), ('i', .autoInt), ('u', .unsignedInt), ('o', .octal), ('x', .hexLower),
    ('X', .hexUpper), ('b', .binary), ('B', .binary), ('e', .floatSci), ('E', .floatSci),
    ('f', .floatFixed), ('F', .floatFixed), ('g', .floatShortest), ('G', .floatShortest),
    ('c', .char), ('s', .string), ('p', .pointer), ('n', .countWritten), ('%', .percent)]

/-- One more flag character. -/
theorem set?_flagsAmong (cs : List Char) (c : Char) :
    (flagsAmong cs).set? c = if c ∈ flagLetters then some (flagsAmong (cs ++ [c])) else none := by
  rw [Flags.set?.eq_def]
  split
  case h_7 => rw [if_neg (by simp_all [flagLetters])]
  all_goals simp [flagLetters, flagsAmong]

theorem foldlM_set?_eq_some_iff {cs : List Char} {flags : Flags} :
    cs.foldlM Flags.set? {} = some flags ↔ (∀ c ∈ cs, c ∈ flagLetters) ∧ flags = flagsAmong cs := by
  induction cs using List.reverseRecOn generalizing flags with
  | nil => simp [flagsAmong, eq_comm]
  | append_singleton cs c ih =>
    rw [List.foldlM_append]
    simp only [Option.bind_eq_bind, Option.bind_eq_some_iff, ih, List.foldlM_cons, List.foldlM_nil,
      Option.pure_def, List.forall_mem_append, List.forall_mem_singleton]
    constructor
    · rintro ⟨_, ⟨hcs, rfl⟩, next, hnext, heq⟩
      rw [set?_flagsAmong] at hnext
      split at hnext
      · next hc =>
        obtain rfl := Option.some.inj hnext
        exact ⟨⟨hcs, hc⟩, (Option.some.inj heq).symm⟩
      · exact absurd hnext (by simp)
    · rintro ⟨⟨hcs, hc⟩, rfl⟩
      exact ⟨_, ⟨hcs, rfl⟩, _, by rw [set?_flagsAmong, if_pos hc], rfl⟩

theorem spellsFlags_iff {cs : List Char} {flags : Flags} :
    SpellsFlags dialect cs flags ↔ FlagRun dialect cs flags := by
  constructor
  · rintro (⟨hdialect, h⟩ | _ | _)
    · obtain ⟨hcs, rfl⟩ := foldlM_set?_eq_some_iff.mp h
      exact .writer hdialect hcs
    · exact .absent
    · exact .suppress
  · rintro (⟨hdialect, h⟩ | _ | _)
    · exact .writer hdialect (foldlM_set?_eq_some_iff.mpr ⟨h, rfl⟩)
    · exact .absent
    · exact .suppress

theorem mem_letterSpellings_iff {c : Char} {k : Conversion} :
    (c, k) ∈ letterSpellings ↔ Conversion.ofLetter? c = some k ∧ k ≠ .charSet := by
  constructor
  · have hall : ∀ e ∈ letterSpellings, Conversion.ofLetter? e.1 = some e.2 ∧ e.2 ≠ .charSet := by
      decide
    exact hall (c, k)
  · rintro ⟨h, hk⟩
    rw [Conversion.ofLetter?.eq_def] at h
    split at h
    case h_17 => exact absurd (Option.some.inj h).symm hk
    case h_21 => exact absurd h (by simp)
    all_goals
      obtain rfl := Option.some.inj h
      decide

/-! ## Rows of parts -/

/-- The parts of a directive in the order in which they are written. -/
structure Parts where
  index : List Char
  flags : List Char
  width : List Char
  precision : List Char
  length : List Char
  letter : Char

namespace Parts

/-- The parts in front of the letter, one behind the other. -/
def fields (p : Parts) : List Char :=
  p.index ++ (p.flags ++ (p.width ++ (p.precision ++ p.length)))

/-- The parts, one behind the other. -/
def chars (p : Parts) : List Char := p.fields ++ [p.letter]

/-- The parts spell the directive. -/
structure Spell (p : Parts) (dialect : Dialect) (d : Directive) : Prop where
  index : SpellsIndex dialect p.index d.index
  flags : FlagRun dialect p.flags d.flags
  width : SpellsWidth dialect p.width d.width
  precision : SpellsPrecision dialect p.precision d.precision
  length : (p.length, d.length) ∈ lengthSpellings
  letter : (p.letter, d.conversion) ∈ letterSpellings
  upper : d.upper = p.letter.isUpper
  accepts : d.length.accepts d.conversion
  set : d.set = none

theorem Spell.spellsDirective {p : Parts} {d : Directive} (h : p.Spell dialect d) :
    SpellsDirective dialect p.fields p.letter d := by
  obtain ⟨hletter, hne⟩ := mem_letterSpellings_iff.mp h.letter
  exact ⟨.fields h.index (spellsFlags_iff.mpr h.flags) h.width h.precision h.length, hletter,
    h.upper, fun hset ↦ absurd hset hne, h.accepts⟩

end Parts

theorem SpellsDirective.exists_parts {fields : List Char} {c : Char} {d : Directive}
    (h : SpellsDirective dialect fields c d) (hne : d.conversion ≠ .charSet) (hset : d.set = none) :
    ∃ p : Parts, p.chars = fields ++ [c] ∧ p.Spell dialect d := by
  obtain ⟨hheader, hletter, hupper, -, haccepts⟩ := h
  cases hheader with
  | @fields i f w p l _ hindex hflags hwidth hprecision hlength =>
    exact ⟨⟨i, f, w, p, l, c⟩, rfl, hindex, spellsFlags_iff.mp hflags, hwidth, hprecision, hlength,
      mem_letterSpellings_iff.mpr ⟨hletter, hne⟩, hupper, haccepts, hset⟩

/-! ## The parser and the grammar -/

/-- A text is parsed as a directive without a scan set if and only if it starts with parts that
spell the directive. -/
theorem Directive.parse_eq_ok_iff_parts {s : Text w} {d : Directive} {n : Nat} :
    Directive.parse dialect s = .ok (d, n) ∧ d.conversion ≠ .charSet ↔
      ∃ p : Parts, p.Spell dialect d ∧ s.take n = Text.ofAscii w p.chars ∧ n = p.chars.length := by
  constructor
  · rintro ⟨h, hne⟩
    obtain ⟨fields, letter, body, rfl, hspells, hset, rfl⟩ := (parse_eq_ok_iff_of_ne hne).mp h
    obtain ⟨p, hchars, hp⟩ := hspells.exists_parts hne hset
    refine ⟨p, hp, ?_, by rw [hchars, List.length_append, List.length_singleton]⟩
    rw [hchars, List.take_left' (by simp)]
  · rintro ⟨p, hp, htake, rfl⟩
    have hne := (mem_letterSpellings_iff.mp hp.letter).2
    refine ⟨(parse_eq_ok_iff_of_ne hne).mpr ⟨_, p.letter, s.drop p.chars.length, ?_,
      hp.spellsDirective, hp.set, by rw [Parts.chars, List.length_append, List.length_singleton]⟩,
      hne⟩
    conv_lhs => rw [← List.take_append_drop p.chars.length s, htake]
    rfl

/-- **The parser accepts exactly its grammar.** It yields a directive without a scan set and `n`
units if and only if the first `n` units are spelled by parts that spell the directive; and no
others are at the front of the text. -/
theorem parse_accepts_exactly_grammar (dialect : Dialect) (s : Text w) :
    (∀ d n, Directive.parse dialect s = .ok (d, n) ∧ d.conversion ≠ .charSet ↔
      ∃ p : Parts, p.Spell dialect d ∧ s.take n = Text.ofAscii w p.chars ∧ n = p.chars.length) ∧
      ∀ d d' (p p' : Parts), p.Spell dialect d → p'.Spell dialect d' →
        Text.ofAscii w p.chars <+: s → Text.ofAscii w p'.chars <+: s →
          p.chars = p'.chars ∧ d = d' := by
  refine ⟨fun d n ↦ Directive.parse_eq_ok_iff_parts, fun d d' p p' hp hp' hs hs' ↦ ?_⟩
  -- Both rows are what the parser reads at the front of the text.
  have hparse {d : Directive} {p : Parts} (hp : p.Spell dialect d)
      (hs : Text.ofAscii w p.chars <+: s) :
      Directive.parse dialect s = .ok (d, p.chars.length) := by
    refine (Directive.parse_eq_ok_iff_parts.mpr ⟨p, hp, ?_, rfl⟩).1
    rw [← Text.length_ofAscii (w := w) p.chars, ← List.prefix_iff_eq_take.mp hs]
  obtain ⟨hd, hlength⟩ := Prod.mk.inj (Except.ok.inj ((hparse hp hs).symm.trans (hparse hp' hs')))
  refine ⟨?_, hd⟩
  have hprefix : Text.ofAscii w p.chars <+: Text.ofAscii w p'.chars :=
    List.prefix_of_prefix_length_le hs hs' (by simp [hlength])
  have heq := hprefix.eq_of_length (by simp [hlength])
  have hrun := congrArg Text.asciiRun heq
  rwa [Parts.chars, Parts.chars, Text.asciiRun_ofAscii hp.spellsDirective.ascii,
    Text.asciiRun_ofAscii hp'.spellsDirective.ascii] at hrun

/-- A directive with a slot for its argument and one for its width. The first zero behind the colon
is a flag, those behind the point are digits. -/
theorem parse_accepts_exactly_grammar_slotted :
    Directive.parse .ordered (Text.ofAscii .utf8 "2:0-0*3:.005llx!".toList)
      = .ok (⟨.hexLower, false, { zero := true, left := true }, .longer,
          some (.argument (some 3)), some (.literal 5), some 2, none⟩, 15) := by
  have htwo : Numeral ['2'] 2 := ⟨by decide, by simp; decide, by decide, by decide⟩
  have hthree : Numeral ['3'] 3 := ⟨by decide, by simp; decide, by decide, by decide⟩
  have hfive : Numeral ['0', '0', '5'] 5 := ⟨by decide, by simp; decide, by decide, by decide⟩
  refine (((parse_accepts_exactly_grammar .ordered _).1 _ 15).mpr ⟨⟨['2', ':'], ['0', '-', '0'],
    ['*', '3', ':'], ['.', '0', '0', '5'], ['l', 'l'], 'x'⟩, ?_, rfl, rfl⟩).1
  exact {
    index := .slot (.numeral htwo (by decide))
    flags := .writer (by decide) (by simp [flagLetters])
    width := .writer (by decide) (by decide) (.star (.slot (.numeral hthree (by decide))))
    precision := .point (by decide) (.literal hfive)
    length := by decide
    letter := by decide
    upper := rfl
    accepts := rfl
    set := rfl }

end FormatString
