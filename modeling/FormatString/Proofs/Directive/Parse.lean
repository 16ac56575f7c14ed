import Mathlib
import FormatString.Proofs.Directive.Grammar
import FormatString.Proofs.Directive.ScanSet

/-!
# Parsed directives

Parsing succeeds exactly on the texts that start with a spelled header and a conversion letter.
Since the spelling is all that is asked for, the text behind a directive has no say in it. That
holds for scan sets too, whose members need not be ASCII: they end with a bracket, which is.
-/

namespace FormatString

variable {w : Width} {dialect : Dialect}

/-- The characters in front of a conversion letter and the letter spell the directive, except for
its scan set. -/
structure SpellsDirective (dialect : Dialect) (fields : List Char) (c : Char) (d : Directive) :
    Prop where
  header : SpellsHeader dialect fields ⟨d.index, d.flags, d.width, d.precision, d.length⟩
  letter : Conversion.ofLetter? c = some d.conversion
  upper : d.upper = c.isUpper
  /-- Only the reading dialect has scan sets. -/
  scan : d.conversion = .charSet → dialect = .scan
  accepts : d.length.accepts d.conversion

namespace SpellsDirective

variable {fields : List Char} {c : Char} {d : Directive}

theorem mem_conversionLetters (h : SpellsDirective dialect fields c d) : c ∈ conversionLetters :=
  FormatString.mem_conversionLetters h.letter

theorem letter_ascii (h : SpellsDirective dialect fields c d) : c.toNat < 0x80 :=
  ascii_of_mem_conversionLetters h.mem_conversionLetters

theorem ascii (h : SpellsDirective dialect fields c d) : ∀ a ∈ fields ++ [c], a.toNat < 0x80 :=
  List.forall_mem_append.mpr ⟨h.header.ascii, by simpa using h.letter_ascii⟩

end SpellsDirective

theorem readConversion?_eq_some_iff {u : CodeUnit w} {k : Conversion} {upper : Bool} :
    readConversion? dialect u = some (k, upper) ↔
      ∃ letter, u.ascii? = some letter ∧ Conversion.ofLetter? letter = some k ∧
        upper = letter.isUpper ∧ (k = .charSet → dialect = .scan) := by
  constructor
  · intro h
    obtain ⟨letter, hletter, h⟩ := Option.bind_eq_some_iff.mp h
    obtain ⟨k', hk, h⟩ := Option.bind_eq_some_iff.mp h
    split at h
    · exact absurd h (by simp)
    · next hset =>
      obtain ⟨rfl, rfl⟩ := Prod.mk.inj (Option.some.inj h)
      exact ⟨letter, hletter, hk, rfl, fun hk' ↦ by_contra fun hne ↦ hset ⟨hk', hne⟩⟩
  · rintro ⟨letter, hletter, hk, rfl, hset⟩
    have hnot : ¬ (k = .charSet ∧ dialect ≠ .scan) := fun ⟨hk', hne⟩ ↦ hne (hset hk')
    refine Option.bind_eq_some_iff.mpr ⟨letter, hletter, Option.bind_eq_some_iff.mpr ⟨k, hk, ?_⟩⟩
    exact if_neg hnot

theorem readSetOf_le {k : Conversion} {body : Text w} {set : Option ScanSet} {spanned : Nat}
    (h : readSetOf k body = .ok (set, spanned)) : spanned ≤ body.length := by
  rw [readSetOf] at h
  split at h
  · obtain ⟨⟨members, used⟩, hread, heq⟩ := bind_eq_ok_iff.mp h
    obtain ⟨-, rfl⟩ := Prod.mk.inj (Except.ok.inj heq)
    rw [readScanSet] at hread
    split at hread
    · next rest hset =>
      obtain ⟨-, rfl⟩ := Prod.mk.inj (Except.ok.inj hread)
      exact length_unitsOf_take_le _ _
    · exact absurd hread (by simp)
  · obtain ⟨-, rfl⟩ := Prod.mk.inj (Except.ok.inj h)
    exact Nat.zero_le _

theorem readSetOf_take_append {k : Conversion} {body : Text w} {set : Option ScanSet} {spanned : Nat}
    (h : readSetOf k body = .ok (set, spanned)) (r : Text w) :
    readSetOf k (body.take spanned ++ r) = .ok (set, spanned) := by
  rw [readSetOf] at h ⊢
  split at h
  · next hk =>
    obtain ⟨⟨members, used⟩, hread, heq⟩ := bind_eq_ok_iff.mp h
    obtain ⟨rfl, rfl⟩ := Prod.mk.inj (Except.ok.inj heq)
    rw [if_pos hk]
    exact bind_eq_ok_iff.mpr ⟨_, readScanSet_take_append hread r, rfl⟩
  · next hk => rw [if_neg hk, h]

namespace Directive

/-- **Parsing and spelling.** A text is parsed as a directive if and only if it starts with a
spelling of it. -/
theorem parse_eq_ok_iff {s : Text w} {d : Directive} {n : Nat} :
    Directive.parse dialect s = .ok (d, n) ↔
      ∃ fields letter body spanned, s = Text.ofAscii w (fields ++ [letter]) ++ body ∧
        SpellsDirective dialect fields letter d ∧
        readSetOf d.conversion body = .ok (d.set, spanned) ∧ n = fields.length + 1 + spanned := by
  constructor
  · intro h
    obtain ⟨⟨header, rest⟩, hheader, h⟩ := bind_eq_ok_iff.mp h
    obtain ⟨fields, hrun, hfields⟩ := Header.read_sound hheader
    -- The header is measured by how much shorter the ASCII run got.
    have hused : (Text.asciiRun s).length - rest.length = fields.length := by
      rw [hrun, List.length_append, Nat.add_sub_cancel]
    have hs := Text.eq_ofAscii_append hrun
    dsimp only at h
    rw [hused] at h
    split at h
    · exact absurd h (by simp)
    · next u body hdrop =>
      split at h
      · exact absurd h (by simp)
      · next k upper hk =>
        obtain ⟨letter, hascii, hletter, rfl, hscan⟩ := readConversion?_eq_some_iff.mp hk
        obtain ⟨-, rfl⟩ := CodeUnit.ascii?_eq_some_iff.mp hascii
        split at h
        · next haccepts =>
          obtain ⟨⟨set, spanned⟩, hset, h⟩ := bind_eq_ok_iff.mp h
          obtain ⟨rfl, rfl⟩ := Prod.mk.inj (Except.ok.inj h)
          refine ⟨fields, letter, body, spanned, ?_, ⟨hfields, hletter, rfl, hscan, haccepts⟩,
            hset, rfl⟩
          rw [Text.ofAscii_append, List.append_assoc]
          exact hs.trans (by rw [hdrop]; rfl)
        · exact absurd h (by simp)
  · rintro ⟨fields, letter, body, spanned, rfl, h, hset, rfl⟩
    have hrun : Text.asciiRun (Text.ofAscii w (fields ++ [letter]) ++ body)
        = fields ++ letter :: Text.asciiRun body := by
      rw [Text.asciiRun_ofAscii_append h.ascii, List.append_assoc, List.singleton_append]
    have hdrop : (Text.ofAscii w (fields ++ [letter]) ++ body).drop fields.length
        = .ofAscii w letter :: body := by
      rw [Text.ofAscii_append, List.append_assoc, List.drop_left' (Text.length_ofAscii fields)]
      rfl
    refine bind_eq_ok_iff.mpr ⟨_, by
      rw [hrun]
      exact Header.read_append h.header h.mem_conversionLetters _, ?_⟩
    have hused : (fields ++ letter :: Text.asciiRun body).length
        - (letter :: Text.asciiRun body).length = fields.length := by
      rw [List.length_append, Nat.add_sub_cancel]
    dsimp only
    rw [hrun, hused, hdrop]
    dsimp only
    rw [readConversion?_eq_some_iff.mpr
      ⟨letter, CodeUnit.ascii?_ofAscii h.letter_ascii, h.letter, rfl, h.scan⟩]
    dsimp only
    rw [if_pos h.accepts]
    refine bind_eq_ok_iff.mpr ⟨_, hset, ?_⟩
    rw [← h.upper]

/-- A directive without a scan set is spelled by ASCII characters alone. -/
theorem parse_eq_ok_iff_of_ne {s : Text w} {d : Directive} {n : Nat}
    (hd : d.conversion ≠ .charSet) :
    Directive.parse dialect s = .ok (d, n) ↔
      ∃ fields letter body, s = Text.ofAscii w (fields ++ [letter]) ++ body ∧
        SpellsDirective dialect fields letter d ∧ d.set = none ∧ n = fields.length + 1 := by
  have hread (body : Text w) : readSetOf d.conversion body = .ok (none, 0) := if_neg hd
  rw [parse_eq_ok_iff]
  constructor
  · rintro ⟨fields, letter, body, spanned, hs, h, hset, hn⟩
    rw [hread] at hset
    obtain ⟨hnone, rfl⟩ := Prod.mk.inj (Except.ok.inj hset)
    exact ⟨fields, letter, body, hs, h, hnone.symm, hn⟩
  · rintro ⟨fields, letter, body, hs, h, hset, hn⟩
    exact ⟨fields, letter, body, 0, hs, h, by rw [hread, hset], hn⟩

/-- A directive spans a letter at least, and no more than there is. -/
theorem parse_le {s : Text w} {d : Directive} {n : Nat}
    (h : Directive.parse dialect s = .ok (d, n)) : 0 < n ∧ n ≤ s.length := by
  obtain ⟨fields, letter, body, spanned, rfl, -, hset, rfl⟩ := parse_eq_ok_iff.mp h
  have hspanned : spanned ≤ body.length := readSetOf_le hset
  simp only [List.length_append, Text.length_ofAscii, List.length_singleton]
  omega

/-- There are no scan sets in the dialects for writing. -/
theorem conversion_ne_charSet {s : Text w} {d : Directive} {n : Nat} (hdialect : dialect ≠ .scan)
    (h : Directive.parse dialect s = .ok (d, n)) : d.conversion ≠ .charSet := by
  obtain ⟨_, _, _, _, _, hspells, -⟩ := parse_eq_ok_iff.mp h
  intro hset
  exact hdialect (hspells.scan hset)

/-- **What follows does not matter.** Only the units a directive spans decide how it is parsed. -/
theorem parse_take_append {s : Text w} {d : Directive} {n : Nat}
    (h : Directive.parse dialect s = .ok (d, n)) (r : Text w) :
    Directive.parse dialect (s.take n ++ r) = .ok (d, n) := by
  obtain ⟨fields, letter, body, spanned, rfl, hspells, hset, rfl⟩ := parse_eq_ok_iff.mp h
  have hlength : (Text.ofAscii w (fields ++ [letter])).length = fields.length + 1 := by simp
  refine parse_eq_ok_iff.mpr ⟨fields, letter, body.take spanned ++ r, spanned, ?_, hspells,
    readSetOf_take_append hset r, rfl⟩
  rw [← hlength, List.take_length_add_append, List.append_assoc]

/-- A directive is parsed the same from any number of units it is among. -/
theorem parse_take {s : Text w} {d : Directive} {n : Nat}
    (h : Directive.parse dialect s = .ok (d, n)) (k : Nat) :
    Directive.parse dialect (s.take (n + k)) = .ok (d, n) := by
  rw [List.take_add]
  exact parse_take_append h _

end Directive

/-! ## Bare directives -/

/-- The directive that is a conversion letter and nothing else. -/
def Directive.bare (k : Conversion) (upper : Bool) : Directive :=
  ⟨k, upper, {}, .none, none, none, none, none⟩

/-- No fields at all are the header of a bare directive. -/
theorem spellsHeader_nil (hdialect : dialect ≠ .ordered) :
    SpellsHeader dialect [] ⟨none, {}, none, none, .none⟩ := by
  have hfields : SpellsFlags dialect [] {} ∧ SpellsWidth dialect [] none := by
    by_cases hscan : dialect = .scan
    · subst hscan
      exact ⟨.absent, .reader .absent⟩
    · exact ⟨.writer hscan rfl, .writer hscan (by decide) .absent⟩
  exact .fields (i := []) (f := []) (w := []) (p := []) (l := []) (.absent hdialect) hfields.1
    hfields.2 .absent (by decide)

theorem SpellsHeader.eq_of_nil (hdialect : dialect ≠ .ordered) {header : Header}
    (h : SpellsHeader dialect [] header) : header = ⟨none, {}, none, none, .none⟩ := by
  have hread := Header.read_append h (c := '%') (by decide) []
  have hempty := Header.read_append (spellsHeader_nil hdialect) (c := '%') (by decide) []
  exact congrArg Prod.fst (Except.ok.inj (hread.symm.trans hempty))

/-- No header starts with a percent sign: the empty one would end there. -/
theorem SpellsHeader.ne_percent (hdialect : dialect ≠ .ordered) {a : Char} {cs : List Char}
    {header : Header} (h : SpellsHeader dialect (a :: cs) header) : a ≠ '%' := by
  rintro rfl
  have hlong := Header.read_append h (c := '%') (by decide) []
  have hshort := Header.read_append (spellsHeader_nil hdialect) (c := '%') (by decide) (cs ++ ['%'])
  have heq := congrArg Prod.snd (Except.ok.inj (hlong.symm.trans hshort))
  exact absurd (congrArg List.length heq) (by simp)

/-- A bare directive is parsed from its letter. -/
theorem Directive.parse_bare (hdialect : dialect ≠ .ordered) {c : Char} {k : Conversion}
    (hc : Conversion.ofLetter? c = some k) (hk : k ≠ .charSet) :
    Directive.parse dialect [CodeUnit.ofAscii w c] = .ok (.bare k c.isUpper, 1) :=
  (parse_eq_ok_iff_of_ne hk).mpr
    ⟨[], c, [], rfl, ⟨spellsHeader_nil hdialect, hc, rfl, fun h ↦ absurd h hk, rfl⟩, rfl, rfl⟩

/-! ## The span of a directive -/

namespace Directive

/-- **The span decides.** A directive spans a unit at least and no more than there are, and it is
parsed the same from these units whatever is put behind them, in each dialect and from ill-formed
text as well. -/
theorem parse_depends_on_span {s : Text w} {d : Directive} {n : Nat}
    (h : Directive.parse dialect s = .ok (d, n)) :
    1 ≤ n ∧ n ≤ s.length ∧ ∀ r, Directive.parse dialect (s.take n ++ r) = .ok (d, n) := by
  obtain ⟨hpos, hle⟩ := parse_le h
  exact ⟨hpos, hle, parse_take_append h⟩

/-- The last members of this set are the front of a character. The bracket is between them and the
unit that would complete it, so they are stray with or without that unit. -/
theorem parse_depends_on_span_stray_members :
    let s : Text .utf8 := Text.ofAscii _ "5[^a-z".toList ++ [.ofNat _ 0xE2, .ofNat _ 0x82] ++
      Text.ofAscii _ "]%d".toList
    let d : Directive := { bare .charSet false with
      width := some (.literal 5)
      set := some ⟨true, [(0x61, 0x7A), (0xFFFD, 0xFFFD), (0xFFFD, 0xFFFD)]⟩ }
    Directive.parse .scan s = .ok (d, 9) ∧
      Directive.parse .scan (s.take 9 ++ [.ofNat _ 0xAC]) = .ok (d, 9) := by
  intro s d
  have h : Directive.parse .scan s = .ok (d, 9) := by decide +kernel
  obtain ⟨-, -, hbehind⟩ := parse_depends_on_span h
  exact ⟨h, hbehind [.ofNat _ 0xAC]⟩

end Directive

end FormatString
