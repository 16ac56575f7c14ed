import Mathlib
import FormatString.Proofs.Reader.Assignment
import FormatString.Proofs.Template.Pieces

/-!
# Literal runs taken apart

The pieces of joined format strings can be listed one after the other once their literal runs are
taken apart into units (`unitPieces_append`). For a reading call that makes no difference. A run is
matched to the same state unit by unit; if it halts within a run, the call may have gone some units
further, but a halt in a run is no error that says where it was.
-/

namespace FormatString

variable {w : Width}

namespace ReadState

variable {s s' : ReadState w} {u : CodeUnit w}

theorem skipBlanks_of_nil (h : s.rest = []) : s.skipBlanks = s := by
  rw [skipBlanks, consume, h]
  cases s
  cases h
  rfl

/-- What comes of a unit of a literal run. -/
theorem matchLiteral_cases (s : ReadState w) (u : CodeUnit w) :
    (∃ n matched, s.matchLiteral u = .ok (s.apply 0 (.plain n matched)) ∧
      (s.rest = [] → s.apply 0 (.plain n matched) = s)) ∨
    s.matchLiteral u = .error .mismatch ∨ s.matchLiteral u = .error .exhausted := by
  rw [matchLiteral]
  split
  · refine .inl ⟨(s.rest.takeWhile (·.isBlank)).length, false, ?_, ?_⟩
    · rw [skipBlanks, s.consume_eq_apply 0]
    · intro hnil
      rw [← consume_eq_apply]
      exact skipBlanks_of_nil hnil
  · rw [matchUnit]
    cases hrest : s.rest with
    | nil => exact .inr (.inr rfl)
    | cons v rest =>
      dsimp only
      split
      · refine .inl ⟨1, true, ?_, fun hnil ↦ absurd hnil (List.cons_ne_nil _ _)⟩
        simp [apply, consume, Effect.plain]
      · exact .inr (.inl rfl)

theorem matchPiece_literal_singleton (offset : Nat) :
    s.matchPiece ⟨offset, .literal [u]⟩ = s.matchLiteral u := by
  change [u].foldlM matchLiteral s = _
  rw [List.foldlM_cons]
  exact bind_pure _

end ReadState

/-- **A literal run unit by unit.** It is matched to the same end; if it halts, the state may have
gone some units further, of which a call tells nothing. -/
theorem matchPieces_literalUnits (s : ReadState w) (offset : Nat) (run : Text w) :
    (∃ s', run.foldlM ReadState.matchLiteral s = .ok s' ∧ ∀ qs,
      matchPieces s (literalUnits offset run ++ qs) = matchPieces s' qs ∧
        storeSteps s (literalUnits offset run ++ qs) = storeSteps s' qs) ∨
    ∃ halt place n matched, run.foldlM ReadState.matchLiteral s = .error halt ∧
      (halt = .mismatch ∨ halt = .exhausted) ∧
      (s.rest = [] → s.apply 0 (.plain n matched) = s) ∧ ∀ qs,
      matchPieces s (literalUnits offset run ++ qs)
          = (s.apply 0 (.plain n matched), some (place, halt)) ∧
        storeSteps s (literalUnits offset run ++ qs) = [] := by
  induction run generalizing s offset with
  | nil => exact .inl ⟨s, rfl, fun qs ↦ ⟨rfl, rfl⟩⟩
  | cons u run ih =>
    rw [List.foldlM_cons, literalUnits_cons]
    simp only [List.cons_append, matchPieces, storeSteps, ReadState.matchPiece_literal_singleton]
    obtain ⟨n, matched, hu, hnil⟩ | hu := s.matchLiteral_cases u
    · rw [hu]
      change (∃ s', run.foldlM _ _ = _ ∧ _) ∨ ∃ halt place m matched', run.foldlM _ _ = _ ∧ _
      obtain ⟨s', hrun, hqs⟩ | ⟨halt, place, n', matched', hrun, hhalt, hnil', hqs⟩ :=
        ih (s.apply 0 (.plain n matched)) (offset + 1)
      · exact .inl ⟨s', hrun, hqs⟩
      · -- The unit in front is one more by which the state has gone further.
        refine .inr ⟨halt, place, n + n', matched || matched', hrun, hhalt, ?_, ?_⟩
        · intro hrest
          have hsame := hnil hrest
          rw [← ReadState.apply_plain_plain, hnil' (by rw [hsame, hrest]), hsame]
        · intro qs
          rw [← ReadState.apply_plain_plain]
          exact hqs qs
    · obtain ⟨halt, hhalt, hu⟩ : ∃ halt, (halt = .mismatch ∨ halt = .exhausted) ∧
          s.matchLiteral u = .error halt := by
        obtain hu | hu := hu
        · exact ⟨_, .inl rfl, hu⟩
        · exact ⟨_, .inr rfl, hu⟩
      rw [hu]
      refine .inr ⟨halt, offset, 0, false, rfl, hhalt, ?_, ?_⟩
      · intro _
        exact s.apply_plain_zero 0
      · intro qs
        rw [s.apply_plain_zero 0]
        exact ⟨rfl, rfl⟩

/-- Some units more do not show in the outcome of a call that halts in a literal run. -/
theorem readingOf_plain {s : ReadState w} {inputEmpty matched : Bool} {n : Nat} {halt : Halt}
    (hhalt : halt = .mismatch ∨ halt = .exhausted)
    (hempty : inputEmpty = true → s.apply 0 (.plain n matched) = s) (place place' : Nat) :
    readingOf inputEmpty (s.apply 0 (.plain n matched)) (some (place, halt))
      = readingOf inputEmpty s (some (place', halt)) := by
  cases inputEmpty with
  | true =>
    rw [hempty rfl]
    obtain rfl | rfl := hhalt <;> rfl
  | false =>
    obtain rfl | rfl := hhalt <;>
      simp [readingOf, Halt.result, ReadState.apply, ReadState.targets, Effect.plain]

/-- **A piece and its units.** -/
theorem Located.matchPieces_units (s : ReadState w) (p : Located w) :
    (∃ s', s.matchPiece p = .ok s' ∧ ∀ qs, matchPieces s (p.units ++ qs) = matchPieces s' qs ∧
      storeSteps s (p.units ++ qs)
        = (p.piece.storing?.map (StoreStep.mk s)).toList ++ storeSteps s' qs) ∨
    ∃ halt r place, s.matchPiece p = .error halt ∧
      (∀ qs, matchPieces s (p.units ++ qs) = (r, some (place, halt)) ∧
        storeSteps s (p.units ++ qs) = []) ∧
      ∀ inputEmpty : Bool, (inputEmpty = true → s.rest = []) →
        readingOf inputEmpty r (some (place, halt))
          = readingOf inputEmpty s (some (p.offset, halt)) := by
  by_cases hliteral : p.piece.isLiteral
  · rcases p with ⟨offset, run | _ | d | fault⟩
    case literal =>
      obtain ⟨s', hrun, hqs⟩ | ⟨halt, place, n, matched, hrun, hhalt, hnil, hqs⟩ :=
        matchPieces_literalUnits s offset run
      · exact .inl ⟨s', hrun, hqs⟩
      · refine .inr ⟨halt, _, place, hrun, hqs, ?_⟩
        intro inputEmpty hempty
        exact readingOf_plain hhalt (fun he ↦ hnil (hempty he)) place offset
    all_goals exact absurd hliteral Bool.false_ne_true
  · have hunits : p.units = [p] := by
      rcases p with ⟨offset, run | _ | d | fault⟩
      · exact absurd rfl hliteral
      all_goals rfl
    rw [hunits]
    cases hp : s.matchPiece p with
    | ok s' =>
      refine .inl ⟨s', rfl, fun qs ↦ ?_⟩
      rw [List.singleton_append, matchPieces, storeSteps, hp]
      exact ⟨rfl, rfl⟩
    | error halt =>
      refine .inr ⟨halt, s, p.offset, rfl, fun qs ↦ ?_, fun _ _ ↦ rfl⟩
      rw [List.singleton_append, matchPieces, storeSteps, hp]
      exact ⟨rfl, rfl⟩

section Units

variable {s r : ReadState w} {ps : List (Located w)}

theorem matchPieces_units_of_none (h : matchPieces s ps = (r, none)) :
    matchPieces s (ps.flatMap Located.units) = (r, none) := by
  refine matched_induction (motive := fun s ps ↦ matchPieces s (ps.flatMap Located.units)
    = (r, none)) rfl ?_ h
  intro s s' p ps hp ih
  rw [List.flatMap_cons]
  obtain ⟨s₁, hp₁, hqs⟩ | ⟨halt, _, _, hp₁, -⟩ := p.matchPieces_units s
  · obtain rfl : s₁ = s' := Except.ok.inj (hp₁.symm.trans hp)
    rw [(hqs _).1, ih]
  · exact absurd (hp₁.symm.trans hp) (by simp)

theorem storeSteps_units (s : ReadState w) (ps : List (Located w)) :
    storeSteps s (ps.flatMap Located.units) = storeSteps s ps := by
  induction ps generalizing s with
  | nil => rfl
  | cons p ps ih =>
    rw [List.flatMap_cons, storeSteps]
    obtain ⟨s', hp, hqs⟩ | ⟨halt, _, _, hp, hqs, -⟩ := p.matchPieces_units s
    · rw [hp, (hqs _).2, ih]
    · rw [hp, (hqs _).2]

theorem ReadState.rest_of_matchPiece {s' : ReadState w} {p : Located w}
    (hp : s.matchPiece p = .ok s') (h : s.rest = []) : s'.rest = [] := by
  obtain ⟨e, -, rfl⟩ := matchPiece_eq_ok hp
  change s.rest.drop e.used = []
  rw [h, List.drop_nil]

/-- The outcome of a call that goes on from a state. -/
def ReadState.call (s : ReadState w) (inputEmpty : Bool) (ps : List (Located w)) : Reading :=
  readingOf inputEmpty (matchPieces s ps).1 (matchPieces s ps).2

/-- **A call tells nothing of literal runs.** If it may report the end of the input, the input has
to be empty. -/
theorem ReadState.call_units {inputEmpty : Bool} (h : inputEmpty = true → s.rest = [])
    (ps : List (Located w)) :
    s.call inputEmpty (ps.flatMap Located.units) = s.call inputEmpty ps := by
  induction ps generalizing s with
  | nil => rfl
  | cons p ps ih =>
    rw [List.flatMap_cons, call, call, matchPieces]
    obtain ⟨s', hp, hqs⟩ | ⟨halt, r, place, hp, hqs, hreading⟩ := p.matchPieces_units s
    · rw [hp, (hqs _).1]
      exact ih fun hempty ↦ rest_of_matchPiece hp (h hempty)
    · rw [hp, (hqs _).1]
      exact hreading inputEmpty h

end Units

end FormatString
