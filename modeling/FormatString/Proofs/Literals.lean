import Mathlib
import FormatString.Proofs.Reader.FieldWidth
import FormatString.Proofs.Reader.Blanks
import FormatString.Proofs.Writer.Split

/-!
# Literal text

Any text can be written literally: with its percent signs doubled it is a format string that takes
no arguments and is written as the text. The same format string matches the text, to its end.

It is not that each unit matches itself there. A blank of the format string skips all the blanks
that come next, so behind it the call may be further on in the text than in the format string, and
percent signs skip blanks as well. But it is further on by blanks only (`ReadState.StandsAt`). The
format string then goes on with the very same blanks, and these find nothing left to skip.
-/

namespace FormatString

variable {w : Width} {dialect : Dialect}

/-! ## Escaping -/

/-- A unit as it stands in a format string: a percent sign twice. -/
def CodeUnit.escape (u : CodeUnit w) : Text w := if u.spells '%' then [u, u] else [u]

/-- A text as it stands in a format string. -/
def Text.escape (s : Text w) : Text w := s.flatMap CodeUnit.escape

/-- The piece that stands for a unit. -/
def CodeUnit.piece (u : CodeUnit w) : Piece w := if u.spells '%' then .percent else .literal [u]

theorem Text.escape_cons (u : CodeUnit w) (s : Text w) : escape (u :: s) = u.escape ++ escape s :=
  List.flatMap_cons

/-- An escaped unit is a piece of its own, whatever follows it. -/
theorem unitPieces_escape_append (u : CodeUnit w) (offset : Nat) (t : Text w) :
    unitPieces dialect offset (u.escape ++ t)
      = ⟨offset, u.piece⟩ :: unitPieces dialect (offset + u.escape.length) t := by
  rw [CodeUnit.escape, CodeUnit.piece]
  cases hu : u.spells '%' with
  | true =>
    obtain rfl := (CodeUnit.spells_iff (by decide)).mp hu
    exact unitPieces_percent
  | false => exact unitPieces_literal hu

/-! ## Writing -/

theorem outcome_piece (config : Config) (written : Nat) (source : ArgSource) (offset : Nat)
    (u : CodeUnit w) :
    (renderPieces config written source [⟨offset, u.piece⟩]).outcome
      = ⟨.ok 1, [u], [], source⟩ := by
  rw [CodeUnit.piece]
  cases hu : u.spells '%' with
  | true =>
    obtain rfl := (CodeUnit.spells_iff (by decide)).mp hu
    rfl
  | false => rfl

/-- Escaped text is written as it was. -/
theorem outcome_escape (config : Config) (written : Nat) (source : ArgSource) (offset : Nat)
    (s : Text w) :
    (renderPieces config written source (unitPieces dialect offset s.escape)).outcome
      = ⟨.ok s.length, s, [], source⟩ := by
  induction s generalizing written offset with
  | nil =>
    rw [Text.escape, List.flatMap_nil, unitPieces, piecesFrom_nil]
    rfl
  | cons u s ih =>
    rw [Text.escape_cons, unitPieces_escape_append,
      outcome_cons_of_ok (outcome_piece config written source offset u), ih,
      Outcome.followedBy_ok rfl, List.length_cons, Nat.add_comm s.length]
    rfl

/-! ## Reading -/

namespace ReadState

variable {s : ReadState w}

/-- What is left of the input is the text, or all of it but the blanks in front. -/
def StandsAt (s : ReadState w) (t : Text w) : Prop :=
  s.rest = t ∨ s.rest = t.dropWhile (·.isBlank)

/-- In front of a unit that is no blank, nothing has been skipped. -/
theorem StandsAt.rest_eq {u : CodeUnit w} {t : Text w} (h : s.StandsAt (u :: t))
    (hu : u.isBlank = false) : s.rest = u :: t := by
  obtain h | h := h
  · exact h
  · rw [h, List.dropWhile_cons_of_neg (ne_true_of_eq_false hu)]

theorem StandsAt.rest_skipBlanks {t : Text w} (h : s.StandsAt t) :
    s.skipBlanks.rest = t.dropWhile (·.isBlank) := by
  rw [ReadState.rest_skipBlanks]
  obtain h | h := h
  · rw [h]
  · rw [h, List.dropWhile_idempotent]

/-- In front of a unit that is no blank there is nothing to skip. -/
theorem skipBlanks_of_not_blank {u : CodeUnit w} {t : Text w} (h : s.rest = u :: t)
    (hu : u.isBlank = false) : s.skipBlanks = s := by
  have hnone : s.rest.takeWhile (·.isBlank) = [] := by
    rw [h, List.takeWhile_cons_of_neg (ne_true_of_eq_false hu)]
  rw [skipBlanks, hnone]
  exact (s.consume_eq_apply 0 0).trans (s.apply_plain_zero 0)

theorem matchUnit_of_rest {u : CodeUnit w} {t : Text w} (h : s.rest = u :: t) :
    s.matchUnit u = .ok (s.apply 0 (.plain 1 true)) := by
  rw [matchUnit, h]
  dsimp only
  rw [if_pos rfl]
  simp [apply, consume, Effect.plain]

/-- A unit that is no blank is matched by itself, be it a percent sign or not. -/
theorem matchPiece_piece_of_not_blank {u : CodeUnit w} {t : Text w} (h : s.rest = u :: t)
    (hu : u.isBlank = false) (offset : Nat) :
    s.matchPiece ⟨offset, u.piece⟩ = .ok (s.apply 0 (.plain 1 true)) := by
  rw [CodeUnit.piece]
  cases hpercent : u.spells '%' with
  | true =>
    obtain rfl := (CodeUnit.spells_iff (by decide)).mp hpercent
    change s.skipBlanks.matchUnit _ = _
    rw [skipBlanks_of_not_blank h hu, matchUnit_of_rest h]
  | false =>
    rw [if_neg Bool.false_ne_true, matchPiece_literal_singleton, matchLiteral, hu,
      if_neg Bool.false_ne_true, matchUnit_of_rest h]

/-- A blank skips all that come next. -/
theorem matchPiece_piece_of_blank {u : CodeUnit w} (hu : u.isBlank = true) (offset : Nat) :
    s.matchPiece ⟨offset, u.piece⟩ = .ok s.skipBlanks := by
  rw [CodeUnit.piece, spells_percent_of_isBlank hu, if_neg Bool.false_ne_true,
    matchPiece_literal_singleton, matchLiteral, if_pos hu]

/-- **One unit** is matched where the input stands at it, and then the input stands behind it. -/
theorem matchPiece_piece {u : CodeUnit w} {t : Text w} (h : s.StandsAt (u :: t)) (offset : Nat) :
    ∃ n matched, s.matchPiece ⟨offset, u.piece⟩ = .ok (s.apply 0 (.plain n matched)) ∧
      n ≤ s.rest.length ∧ (s.apply 0 (.plain n matched)).StandsAt t := by
  cases hu : u.isBlank with
  | false =>
    have hrest := h.rest_eq hu
    refine ⟨1, true, matchPiece_piece_of_not_blank hrest hu offset, ?_, .inl ?_⟩
    · rw [hrest]
      exact Nat.le_add_left 1 _
    · exact congrArg (List.drop 1) hrest
  | true =>
    have hskip : s.skipBlanks = _ := s.consume_eq_apply 0 _
    refine ⟨_, false, (matchPiece_piece_of_blank hu offset).trans (congrArg Except.ok hskip),
      s.length_takeWhile_isBlank_le, .inr ?_⟩
    rw [← hskip, h.rest_skipBlanks, List.dropWhile_cons_of_pos hu]

/-- **A run by escaped text** uses up the input that stands at it. -/
theorem matchPieces_escape {text : Text w} (h : s.StandsAt text) (offset : Nat) (t : Text w) :
    ∃ matched, matchPieces s (unitPieces .scan offset (text.escape ++ t))
      = matchPieces (s.apply 0 (.plain s.rest.length matched))
          (unitPieces .scan (offset + text.escape.length) t) := by
  induction text generalizing s offset with
  | nil =>
    have hrest : s.rest = [] := h.elim id id
    refine ⟨false, ?_⟩
    rw [hrest, List.length_nil, apply_plain_zero]
    rfl
  | cons u text ih =>
    obtain ⟨n, matched, hmatch, hle, hstands⟩ := matchPiece_piece h offset
    obtain ⟨matched', hrun⟩ := ih hstands (offset + u.escape.length)
    have hrest : (s.apply 0 (.plain n matched)).rest.length = s.rest.length - n := List.length_drop
    refine ⟨matched || matched', ?_⟩
    rw [Text.escape_cons, List.append_assoc, unitPieces_escape_append, matchPieces, hmatch]
    dsimp only
    rw [hrun, hrest, apply_plain_plain, Nat.add_sub_cancel' hle, List.length_append, Nat.add_assoc]

end ReadState

/-- A count stores the number of units consumed, clamped to the type of its target, in whatever holds
integers. -/
theorem ReadState.call_countText (s : ReadState w) {t : Target} {type : IntType}
    (htype : t.intType? = some type) (hpending : s.pending = [t]) (inputEmpty : Bool)
    (offset : Nat) :
    s.call inputEmpty (unitPieces .scan offset (countText w))
      = readingOf inputEmpty ((s.keep (t.storeInt (min (s.position : Int) type.max))).finish
          (.bare .countWritten false) 0) none := by
  have hpieces : unitPieces .scan offset (countText w)
      = [⟨offset, .directive (.bare .countWritten false)⟩] := by
    rw [unitPieces, piecesFrom_countText]
    rfl
  have hcount := readCount_of_pending (d := .bare .countWritten false) rfl hpending
  rw [htype] at hcount
  change s.matchPiece ⟨offset, .directive (.bare .countWritten false)⟩ = _ at hcount
  rw [hpieces, call, FormatString.matchPieces, hcount]
  rfl

/-! ## The law -/

/-- **Literal text makes the round trip.** With its percent signs doubled, any text, well-formed or
not, is a format string that is written as the text. The text is matched by it to its end: nothing
is assigned or reported, and a count behind it stores the length of the text in an address. No text
in memory is longer than the largest address. -/
theorem literal_round_trip (config : Config) (s : Text w) (args : List Arg) (old : Int) :
    (config.format s.escape args).result = .ok s.length ∧
      (config.format s.escape args).sink = s ∧
      let reading := scan s (s.escape ++ countText w) [.address old]
      reading.result = .ok 0 ∧ reading.diagnostics = [] ∧
        ((s.length : Int) ≤ IntType.address.max →
          reading.targets = [.address s.length]) := by
  refine ⟨?_, ?_, ?_⟩
  · rw [Config.format, config.vformat_eq_units, outcome_escape]
  · rw [Config.format, config.vformat_eq_units, outcome_escape]
  · intro reading
    let fresh : ReadState w := { rest := s, pending := [.address old] }
    obtain ⟨matched, hrun⟩ := ReadState.matchPieces_escape (s := fresh) (.inl rfl) 0 (countText w)
    let behind := fresh.apply 0 (.plain s.length matched)
    have hposition : behind.position = s.length := Nat.zero_add _
    have hcount := behind.call_countText (t := .address old) rfl rfl s.isEmpty (0 + s.escape.length)
    have hreading : reading = behind.call s.isEmpty (unitPieces .scan (0 + s.escape.length)
        (countText w)) := by
      rw [ReadState.call, ← hrun]
      exact scan_eq_call_units _ _ _
    rw [hreading, hcount, hposition]
    refine ⟨rfl, rfl, fun hlength ↦ ?_⟩
    have hvalue : IntType.address.reinterpret s.length = s.length :=
      IntType.reinterpret_of_mem (Int.natCast_nonneg _) hlength
    rw [min_eq_left hlength, Target.storeInt, hvalue]
    rfl

/-- Two blanks, `5%` and two blanks again: each time the first blank of the format string skips what
the second one stands for. -/
theorem literal_round_trip_blanks :
    let s := Text.ofAscii .utf16 [' ', '\t', '5', '%', ' ', ' ']
    s.escape = Text.ofAscii .utf16 [' ', '\t', '5', '%', '%', ' ', ' '] ∧
      (s.length : Int) ≤ IntType.address.max ∧
      (Config.format {} s.escape []).sink = s ∧
      (scan s (s.escape ++ countText .utf16) [.address 99]).targets = [.address 6] := by
  intro s
  have hlength : (s.length : Int) ≤ IntType.address.max := by decide
  obtain ⟨-, hsink, -, -, htargets⟩ := literal_round_trip {} s [] 99
  exact ⟨by decide +kernel, hlength, hsink, htargets hlength⟩

end FormatString
