import Mathlib
import FormatString.Proofs.Reader.Encoded
import FormatString.Proofs.Reader.Moved
import FormatString.Proofs.Template.Joined
import FormatString.Proofs.Writer.Stars

/-!
# The width of a reading directive

The width of a directive is the number of units it may look at, behind the blanks that it skips. To
give a directive a width is therefore to cut the input off there: a number, a word or the characters
of a set end at the cut in the one way they end at the end of the input.

What is left of the input differs then, and nothing else does. A count of units behind the directive
does not look at the input, so it tells how far the directive went.
-/

namespace FormatString

variable {w : Width}

/-- The directive without its width. -/
def Directive.unlimited (d : Directive) : Directive := { d with width := none }

namespace ReadState

/-- The state without the input that is left. -/
def forget (s : ReadState w) : ReadState w := { s with rest := [] }

/-- The state with its input cut off behind the units the directive may look at. -/
def cut (s : ReadState w) (d : Directive) : ReadState w := { s with rest := s.field d }

variable {s s' : ReadState w} {d : Directive} {offset : Nat}

/-! ## Values -/

/-- Behind the same target, all is the same but the input that is left. -/
theorem map_forget_claim {f f' : Option Target → Except Halt (ReadState w)}
    (h : ∀ target, (f target).map forget = (f' target).map forget) :
    (s.nextTarget d >>= f).map forget = (s.nextTarget d >>= f').map forget := by
  cases s.nextTarget d with
  | ok target => exact h target
  | error halt => rfl

theorem forget_finish_settle (s : ReadState w) (d : Directive) (target : Option Target)
    (clamped : Bool) (n : Nat) :
    ((((s.cut d).settle target).noteClamped offset clamped).finish d.unlimited n).forget
      = (((s.settle target).noteClamped offset clamped).finish d n).forget := by
  cases target <;> cases clamped <;> rfl

theorem readInteger_cut (s : ReadState w) (d : Directive) (offset : Nat) :
    ((s.cut d).readInteger d.unlimited offset).map forget
      = (s.readInteger d offset).map forget := by
  refine map_forget_claim (s := s) (d := d) fun target ↦ ?_
  change ((s.cut d).takeInteger d.unlimited offset (Text.asciiRun (s.field d)) target).map forget
    = (s.takeInteger d offset (Text.asciiRun (s.field d)) target).map forget
  have htype : d.unlimited.integerType? target = d.integerType? target := rfl
  have hbase : d.unlimited.conversion = d.conversion := rfl
  rw [takeInteger, takeInteger, htype, hbase]
  cases d.integerType? target with
  | none => rfl
  | some type =>
    dsimp only
    split
    · rfl
    · exact congrArg Except.ok (s.forget_finish_settle d _ _ _)

theorem readFloat_cut (s : ReadState w) (d : Directive) (offset : Nat) :
    ((s.cut d).readFloat d.unlimited offset).map forget = (s.readFloat d offset).map forget := by
  refine map_forget_claim (s := s) (d := d) fun target ↦ ?_
  have hfield : (s.cut d).field d.unlimited = s.field d := rfl
  dsimp only
  rw [hfield]
  split
  · rfl
  · split
    · rfl
    · exact congrArg Except.ok (s.forget_finish_settle d _ _ _)

/-- What is stored lies within the field. -/
theorem storeUnits_cut (s : ReadState w) (d : Directive) {n : Nat} (hn : n ≤ (s.field d).length) :
    ((s.cut d).storeUnits d.unlimited n).map forget = (s.storeUnits d n).map forget := by
  have htake : (s.cut d).rest.take n = s.rest.take n := by
    obtain ⟨behind, hrest⟩ := s.field_prefix d
    rw [← hrest, List.take_append_of_le_length hn]
    rfl
  refine map_forget_claim (s := s) (d := d) fun target ↦ ?_
  cases target with
  | none => rfl
  | some t =>
    have hconversion : d.unlimited.conversion = d.conversion := rfl
    dsimp only
    rw [htake, hconversion]
    generalize (if d.conversion = .char then t.storeChar? (s.rest.take n)
      else t.storeText? (s.rest.take n)) = stored
    cases stored with
    | none => rfl
    | some t' => rfl

theorem readWord_cut (s : ReadState w) (d : Directive) :
    ((s.cut d).readWord d.unlimited).map forget = (s.readWord d).map forget :=
  s.storeUnits_cut d (List.takeWhile_sublist _).length_le

theorem readSet_cut (s : ReadState w) (d : Directive) :
    ((s.cut d).readSet d.unlimited).map forget = (s.readSet d).map forget := by
  have hset : d.unlimited.set = d.set := rfl
  have hfield : (s.cut d).field d.unlimited = s.field d := rfl
  rw [readSet, readSet, hset, hfield]
  cases d.set with
  | none => rfl
  | some set =>
    dsimp only
    split
    · rfl
    · refine s.storeUnits_cut d ?_
      rw [List.prefix_iff_eq_take.mp
        (List.takeWhile_prefix fun c : Spelled w ↦ set.admits c.char.toNat)]
      exact length_unitsOf_take_le _ _

/-- A field is empty only where no input is left. -/
theorem isEmpty_field (s : ReadState w) (d : Directive) :
    (s.field d).isEmpty = s.rest.isEmpty := by
  rw [field]
  split
  · next n hn =>
    have hpos : n ≠ 0 := by
      rw [Directive.fieldWidth?.eq_def] at hn
      split at hn
      · split at hn
        · exact absurd hn (by simp)
        · next hne => exact Option.some.inj hn ▸ hne
      · exact absurd hn (by simp)
    rw [Bool.eq_iff_iff, List.isEmpty_iff, List.isEmpty_iff, List.take_eq_nil_iff,
      or_iff_right hpos]
  · rfl

/-- **A value within its width.** A directive reads what it reads without its width where the input
ends behind its field. -/
theorem readValue_cut (s : ReadState w) (hchar : d.conversion ≠ .char) (offset : Nat) :
    ((s.cut d).readValue d.unlimited offset).map forget = (s.readValue d offset).map forget := by
  have hempty : (s.cut d).rest.isEmpty = s.rest.isEmpty := s.isEmpty_field d
  have hconversion : d.unlimited.conversion = d.conversion := rfl
  rw [readValue, readValue, hempty, hconversion]
  split
  · rfl
  · cases hk : d.conversion with
    | char => exact absurd hk hchar
    | floatSci | floatFixed | floatShortest => exact s.readFloat_cut d offset
    | string => exact s.readWord_cut d
    | charSet => exact s.readSet_cut d
    | _ => exact s.readInteger_cut d offset

/-! ## Directives -/

/-- The blanks in front of its field that a directive skips. -/
def skipped (s : ReadState w) (d : Directive) : Text w :=
  if d.conversion = .charSet then [] else s.rest.takeWhile (·.isBlank)

/-- The state with its input cut off behind the blanks the directive skips and its field. -/
def cutBehind (s : ReadState w) (d : Directive) : ReadState w :=
  { s with rest := s.skipped d ++ (s.consume (s.skipped d).length).field d }

theorem skipBlanks_cutBehind (s : ReadState w) (hd : d.conversion ≠ .charSet) :
    (s.cutBehind d).skipBlanks = s.skipBlanks.cut d := by
  have hskipped : s.skipped d = s.rest.takeWhile (·.isBlank) := if_neg hd
  have hrest : (s.cutBehind d).rest = s.rest.takeWhile (·.isBlank) ++ s.skipBlanks.field d := by
    rw [cutBehind, hskipped]
    rfl
  have hfield : (s.skipBlanks.field d).takeWhile (·.isBlank) = [] := by
    obtain ⟨behind, hbehind⟩ := s.skipBlanks.field_prefix d
    have hnone := s.takeWhile_rest_skipBlanks
    rw [← hbehind] at hnone
    cases hfield : s.skipBlanks.field d with
    | nil => rfl
    | cons u rest =>
      rw [hfield, List.cons_append, List.takeWhile_cons] at hnone
      rw [List.takeWhile_cons]
      split at hnone
      · exact absurd hnone (List.cons_ne_nil _ _)
      · next hu => rw [if_neg hu]
  have hblanks : (s.cutBehind d).rest.takeWhile (·.isBlank) = s.rest.takeWhile (·.isBlank) := by
    rw [hrest, List.takeWhile_append_of_pos fun u hu ↦ List.mem_takeWhile_imp hu, hfield,
      List.append_nil]
  rw [skipBlanks, hblanks, consume, hrest, List.drop_left]
  rfl

/-- **A directive within its width**, the blanks in front of its field not counted. -/
theorem matchDirective_cut (s : ReadState w)
    (hd : d.conversion ∉ [.char, .countWritten, .percent]) (offset : Nat) :
    ((s.cutBehind d).matchDirective d.unlimited offset).map forget
      = (s.matchDirective d offset).map forget := by
  have hconversion : d.unlimited.conversion = d.conversion := rfl
  have hchar : d.conversion ≠ .char := by
    rintro hk
    exact hd (hk ▸ List.mem_cons_self)
  rw [matchDirective, matchDirective, hconversion]
  by_cases hset : d.conversion = .charSet
  · have hcut : s.cutBehind d = s.cut d := by
      rw [cutBehind, skipped, if_pos hset]
      rfl
    rw [hset, hcut]
    exact s.readValue_cut hchar offset
  · rw [s.skipBlanks_cutBehind hset]
    have hvalue := s.skipBlanks.readValue_cut hchar offset
    cases hk : d.conversion with
    | charSet => exact absurd hk hset
    | char | countWritten | percent => exact absurd hd (by rw [hk]; decide)
    | _ => exact hvalue

/-- Only where no input is left none is left behind the cut. -/
theorem isEmpty_cutBehind (s : ReadState w) (d : Directive) :
    (s.cutBehind d).rest.isEmpty = s.rest.isEmpty := by
  have hfront : s.skipped d <+: s.rest := by
    rw [skipped]
    split
    · exact List.nil_prefix
    · exact List.takeWhile_prefix _
  obtain ⟨behind, hbehind⟩ := hfront
  have hdrop : (s.consume (s.skipped d).length).rest = behind := by
    rw [consume, ← hbehind, List.drop_left]
  have hfield := (s.consume (s.skipped d).length).isEmpty_field d
  rw [hdrop, Bool.eq_iff_iff, List.isEmpty_iff, List.isEmpty_iff] at hfield
  change (s.skipped d ++ _).isEmpty = s.rest.isEmpty
  rw [← hbehind, Bool.eq_iff_iff, List.isEmpty_iff, List.isEmpty_iff, List.append_eq_nil_iff,
    List.append_eq_nil_iff, hfield]

/-! ## Counts and calls -/

/-- A count does not look at the input. -/
theorem readCount_forget (s : ReadState w) (d : Directive) :
    (s.readCount d).map forget = s.forget.readCount d := by
  have hnext : s.forget.nextTarget d = s.nextTarget d := rfl
  rw [readCount, readCount, hnext]
  cases s.nextTarget d with
  | error halt => rfl
  | ok target =>
    cases target with
    | none => rfl
    | some t =>
      dsimp only [bind, Except.bind]
      cases t.intType? <;> rfl

/-- A call tells nothing of the input that is left. -/
theorem readingOf_forget (inputEmpty : Bool) (s : ReadState w) (halt : Option (Nat × Halt)) :
    readingOf inputEmpty s.forget halt = readingOf inputEmpty s halt := rfl

theorem call_congr {p p' : Located w} {ps : List (Located w)} {inputEmpty : Bool}
    (hs : s'.forget = s.forget) (hoffset : p'.offset = p.offset)
    (hp : (s'.matchPiece p').map forget = (s.matchPiece p).map forget)
    (hps : ∀ r r' : ReadState w, r'.forget = r.forget →
      r'.call inputEmpty ps = r.call inputEmpty ps) :
    s'.call inputEmpty (p' :: ps) = s.call inputEmpty (p :: ps) := by
  rw [call, call, matchPieces, matchPieces, hoffset]
  cases hr : s.matchPiece p with
  | ok r =>
    cases hr' : s'.matchPiece p' with
    | ok r' =>
      rw [hr, hr'] at hp
      exact hps r r' (Except.ok.inj hp)
    | error halt => exact absurd hp (by simp [hr, hr', Except.map])
  | error halt =>
    cases hr' : s'.matchPiece p' with
    | ok r' => exact absurd hp (by simp [hr, hr', Except.map])
    | error halt' =>
      rw [hr, hr'] at hp
      obtain rfl : halt' = halt := Except.error.inj hp
      dsimp only
      rw [← readingOf_forget, hs, readingOf_forget]

/-- **A directive and a count behind it**: the count is the same, and so is all the call tells. -/
theorem call_cut (s : ReadState w) (hd : d.conversion ∉ [.char, .countWritten, .percent])
    (inputEmpty : Bool) (offset place : Nat) :
    let count : Located w := ⟨place, .directive (.bare .countWritten false)⟩
    (s.cutBehind d).call inputEmpty [⟨offset, .directive d.unlimited⟩, count]
      = s.call inputEmpty [⟨offset, .directive d⟩, count] := by
  intro count
  refine call_congr rfl rfl (s.matchDirective_cut hd offset) fun r r' hr ↦ ?_
  refine call_congr hr rfl ?_ fun r r' hr ↦ ?_
  · change (r'.readCount _).map forget = (r.readCount _).map forget
    rw [readCount_forget, readCount_forget, hr]
  · change readingOf _ r' none = readingOf _ r none
    rw [← readingOf_forget, hr, readingOf_forget]

end ReadState

/-! ## A width in a directive -/

/-- The star of a directive that is suppressed. -/
def starText (suppress : Bool) : List Char := if suppress then ['*'] else []

section Spelling

variable {k : Text w} {d : Directive} {n : Nat}

/-- For reading there is nothing in front of the width but a star. -/
theorem SpellsHeader.exists_width {fields : List Char} {header : Header}
    (h : SpellsHeader .scan fields header) (hwidth : header.width = none) (hn : n ≤ numberLimit) :
    ∃ l, fields = starText header.flags.suppress ++ l ∧
      SpellsHeader .scan (starText header.flags.suppress ++ (decimalText n ++ l))
        { header with width := some (.literal n) } := by
  obtain ⟨index, flags, width, precision, length⟩ := header
  obtain ⟨hindex, hflags, hamount, hprecision, hlength⟩ := h
  dsimp only at *
  have hnumeral : SpellsWidth .scan (decimalText n) (some (.literal n)) :=
    .reader (.numeral (numeral_decimalText hn))
  rename_i l
  cases hindex with
  | absent hdialect =>
    cases hprecision with
    | point hscan => exact absurd rfl hscan
    | absent =>
      cases hamount with
      | writer hscan => exact absurd rfl hscan
      | reader hnumber =>
        cases hnumber with
        | numeral => exact absurd hwidth (by simp)
        | absent =>
          refine ⟨l, ?_, .fields (i := []) (p := []) (.absent hdialect) ?_ hnumeral .absent hlength⟩
          · cases hflags with
            | writer hscan => exact absurd rfl hscan
            | absent | suppress => rfl
          · cases hflags with
            | writer hscan => exact absurd rfl hscan
            | absent => exact .absent
            | suppress => exact .suppress

/-- A directive without a width is one with it when the width is put behind its star. -/
theorem IsDirective.withWidth
    (h : IsDirective .scan (Text.ofAscii w (starText d.flags.suppress) ++ k) d)
    (hwidth : d.width = none) (hn : n ≤ numberLimit) :
    IsDirective .scan
      (Text.ofAscii w (starText d.flags.suppress) ++ (Text.ofAscii w (decimalText n) ++ k))
      { d with width := some (.literal n) } := by
  obtain ⟨fields, letter, body, spanned, hs, hspells, hset, hlength⟩ :=
    Directive.parse_eq_ok_iff.mp h.parse
  obtain ⟨l, hfields, hheader⟩ := hspells.header.exists_width hwidth hn
  dsimp only at hfields hheader
  generalize starText d.flags.suppress = star at hs hlength hfields hheader ⊢
  subst hfields
  obtain rfl : k = Text.ofAscii w (l ++ [letter]) ++ body := by
    rw [List.append_assoc, Text.ofAscii_append, List.append_assoc] at hs
    exact List.append_cancel_left hs
  have hspells' : SpellsDirective .scan (star ++ (decimalText n ++ l)) letter
      { d with width := some (.literal n) } :=
    ⟨hheader, hspells.letter, hspells.upper, hspells.scan, hspells.accepts⟩
  have htext : Text.ofAscii w star ++
      (Text.ofAscii w (decimalText n) ++ (Text.ofAscii w (l ++ [letter]) ++ body))
      = Text.ofAscii w (star ++ (decimalText n ++ l) ++ [letter]) ++ body := by
    simp only [Text.ofAscii_append, List.append_assoc]
  rw [htext]
  refine ⟨Directive.parse_eq_ok_iff.mpr ⟨_, letter, body, spanned, rfl, hspells', hset, ?_⟩, ?_⟩
  · simp only [List.length_append, Text.length_ofAscii] at hlength ⊢
    omega
  · refine hspells'.percentNext_of_ne_ordered (by decide) ?_ body
    rintro ⟨hnil, -⟩
    exact (numeral_decimalText hn).ne_nil (List.append_eq_nil_iff.mp
      (List.append_eq_nil_iff.mp hnil).2).1

end Spelling

/-! ## The law -/

/-- A count of units, as it stands in a format string. -/
def countText (w : Width) : Text w := Text.ofAscii w ['%', 'n']

theorem piecesFrom_countText (offset : Nat) :
    piecesFrom .scan offset (countText w) = [⟨offset, .directive (.bare .countWritten false)⟩] := by
  have hcount : IsDirective .scan [CodeUnit.ofAscii w 'n'] (.bare .countWritten false) :=
    ⟨Directive.parse_bare (by decide) rfl (by decide), by
      rw [percentNext, List.head?_cons, Option.any_some, CodeUnit.spells_ofAscii (by decide)]
      rfl⟩
  have hpieces := hcount.piecesFrom_append offset []
  rwa [piecesFrom_nil] at hpieces

/-- A directive and a count behind it are two pieces. -/
theorem IsDirective.pieces_append_count {spec : Text w} {d : Directive}
    (h : IsDirective .scan spec d) : pieces .scan (.ofAscii w '%' :: (spec ++ countText w))
      = [⟨0, .directive d⟩, ⟨0 + 1 + spec.length, .directive (.bare .countWritten false)⟩] := by
  rw [pieces, h.piecesFrom_append, piecesFrom_countText]

/-- **A width is a cut in the input.** Whatever a directive reads, be it suppressed or not, with a
width it reads what it reads without it from the blanks in front and so many units behind them; and
a count behind it tells the same number of units. Only the count itself stands further on in the
format string, by the digits of the width. -/
theorem scan_width {k : Text w} {d : Directive} {n : Nat}
    (h : IsDirective .scan (Text.ofAscii w (starText d.flags.suppress) ++ k) d)
    (hwidth : d.width = none) (hd : d.conversion ∉ [.char, .countWritten, .percent]) (hpos : 1 ≤ n)
    (hn : n ≤ numberLimit) (input : Text w) (targets : List Target) :
    let star := Text.ofAscii w (starText d.flags.suppress)
    let digits := Text.ofAscii w (decimalText n)
    let blanks := if d.conversion = .charSet then [] else input.takeWhile (·.isBlank)
    let behind := input.drop blanks.length
    scan input (.ofAscii w '%' :: (star ++ (digits ++ k) ++ countText w)) targets
      = (scan (blanks ++ behind.take n) (.ofAscii w '%' :: (star ++ k ++ countText w))
          targets).moved fun offset ↦ if offset = 0 then 0 else offset + digits.length := by
  intro star digits blanks behind
  generalize hf : (fun offset ↦ if offset = 0 then 0 else offset + digits.length) = f
  let capped : Directive := { d with width := some (.literal n) }
  have hcapped : IsDirective .scan (star ++ (digits ++ k)) capped := h.withWidth hwidth hn
  have hunlimited : d = capped.unlimited := by
    change d = { d with width := none }
    rw [← hwidth]
  let fresh : ReadState w := { rest := input, pending := targets }
  have hcut : ({ rest := blanks ++ behind.take n, pending := targets } : ReadState w)
      = fresh.cutBehind capped := by
    have hfield (s : ReadState w) : s.field capped = s.rest.take n := by
      have hlimit : capped.fieldWidth? = some n := if_neg (Nat.one_le_iff_ne_zero.mp hpos)
      rw [ReadState.field, hlimit]
    rw [ReadState.cutBehind, hfield]
    rfl
  have hempty : (blanks ++ behind.take n).isEmpty = input.isEmpty :=
    (congrArg (·.rest.isEmpty) hcut).trans (fresh.isEmpty_cutBehind capped)
  have hscan (input t : Text w) : scan input t targets = ReadState.call
      { rest := input, pending := targets } input.isEmpty (pieces .scan t) := rfl
  have hplace : f (0 + 1 + (star ++ k).length) = 0 + 1 + (star ++ (digits ++ k)).length := by
    rw [← hf]
    simp only [List.length_append]
    rw [if_neg (by omega)]
    omega
  have hzero : f 0 = 0 := hf ▸ if_pos rfl
  rw [hscan, hscan, hcapped.pieces_append_count, h.pieces_append_count, hempty, hcut,
    ← ReadState.call_moved, List.map_cons, List.map_singleton, Located.moved, Located.moved]
  dsimp only
  rw [hplace, hzero, hunlimited]
  exact (fresh.call_cut (d := capped) hd input.isEmpty 0 _).symm

/-- ` -12345` by `%3d%n`: the blank in front is not counted, so four units are consumed and what is
read is `-12`. -/
theorem scan_width_three :
    let input := Text.ofAscii .utf8 [' ', '-', '1', '2', '3', '4', '5']
    let targets := [Target.integer ⟨.w32, true⟩ 0, .integer ⟨.w32, true⟩ 0]
    let template := Text.ofAscii .utf8 ['%', '3', 'd', '%', 'n']
    IsDirective .scan (Text.ofAscii .utf8 ['d']) (.bare .signedInt false) ∧
      (scan input template targets).result = .ok 1 ∧
      (scan input template targets).targets.map (·.integer?) = [some (-12), some 4] := by
  intro input targets template
  have hd : IsDirective .scan (Text.ofAscii .utf8 ['d']) (.bare .signedInt false) :=
    ⟨by decide +kernel, by decide +kernel⟩
  have hwidth := scan_width (k := .ofAscii .utf8 ['d']) (d := .bare .signedInt false) (n := 3) hd
    rfl (by decide) (by decide) (by decide) input targets
  have htemplate : template = .ofAscii .utf8 '%' :: (Text.ofAscii .utf8 (starText false)
      ++ (Text.ofAscii .utf8 (decimalText 3) ++ Text.ofAscii .utf8 ['d']) ++ countText .utf8) := by
    decide +kernel
  rw [htemplate]
  refine ⟨hd, (congrArg Reading.result hwidth).trans ?_,
    (congrArg (fun r ↦ r.targets.map (·.integer?)) hwidth).trans ?_⟩
  · decide +kernel
  · decide +kernel

/-- Two things tell a directive with a width from one without it on the input cut off there. No
width is greater than the largest number there is, so with one the directive is malformed; and a
count that has no target is reported where it stands. -/
theorem scan_width_not_literal :
    let input := Text.ofAscii .utf8 ['7']
    let target := Target.integer ⟨.w32, true⟩ 0
    (scan input (Text.ofAscii .utf8 "%2147483648d%n".toList) [target, target]).result
        = .error (.malformed 0 .numberTooLarge 0) ∧
      (scan (input.take 2147483648) (Text.ofAscii .utf8 "%d%n".toList) [target, target]).result
        = .ok 1 ∧
      (scan input (Text.ofAscii .utf8 "%1d%n".toList) [target]).result
        = .error (.missingTarget 3 1) ∧
      (scan (input.take 1) (Text.ofAscii .utf8 "%d%n".toList) [target]).result
        = .error (.missingTarget 2 1) := by
  decide +kernel

end FormatString
