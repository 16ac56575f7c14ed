import Mathlib
import FormatString.Proofs.Reader.Split

/-!
# The end of the input

A reading call that fails for the end of the input finds that out last, from three things: that it
was halted there, that it had matched nothing, and that the input was empty. On empty input all this
can be told from the format string alone. The blanks in front of it match no input as well as any,
and the first thing behind them has to need some (`NeedsInput`). A count of units needs none, and
once it is matched the end of the input is no error any more.

Besides blanks, counts are all that empty input ever matches, and so nothing else is stored.
-/

namespace FormatString

variable {w : Width}

/-- The format string starts with something that only input can match: a unit that is no blank, an
escaped percent sign, or a directive other than a count of units. -/
inductive NeedsInput : Text w → Prop where
  | literal {u : CodeUnit w} (t : Text w) (hblank : u.isBlank = false)
    (hpercent : u.spells '%' = false) : NeedsInput (u :: t)
  | percent (t : Text w) : NeedsInput (.ofAscii w '%' :: .ofAscii w '%' :: t)
  | directive {s : Text w} {d : Directive} {n : Nat} (hparse : Directive.parse .scan s = .ok (d, n))
    (hd : d.conversion ≠ .countWritten) : NeedsInput (.ofAscii w '%' :: s)

theorem not_needsInput_nil : ¬ NeedsInput ([] : Text w) := nofun

/-- Behind a percent sign that is not escaped it takes a directive. -/
theorem NeedsInput.exists_parse {s : Text w} (h : NeedsInput (.ofAscii w '%' :: s))
    (hs : percentNext s = false) :
    ∃ d n, Directive.parse .scan s = .ok (d, n) ∧ d.conversion ≠ .countWritten := by
  cases h with
  | literal _ _ hpercent => exact absurd (hpercent.symm.trans CodeUnit.spells_percent) (by decide)
  | percent t => exact absurd (hs.symm.trans CodeUnit.spells_percent) (by decide)
  | directive hparse hd => exact ⟨_, _, hparse, hd⟩

namespace ReadState

variable {s s' : ReadState w} {p : Located w} {ps : List (Located w)} {inputEmpty : Bool}

/-! ## The verdict -/

theorem call_of_ok (h : s.matchPiece p = .ok s') :
    s.call inputEmpty (p :: ps) = s'.call inputEmpty ps := by
  rw [call, matchPieces, h]
  rfl

theorem call_of_error {halt : Halt} (h : s.matchPiece p = .error halt) :
    s.call inputEmpty (p :: ps) = readingOf inputEmpty s (some (p.offset, halt)) := by
  rw [call, matchPieces, h]

theorem matched_of_matchPiece_of_matched (h : s.matched = true) (hp : s.matchPiece p = .ok s') :
    s'.matched = true := by
  obtain ⟨e, -, rfl⟩ := matchPiece_eq_ok hp
  change (s.matched || e.matched) = true
  rw [h, Bool.true_or]

/-- Only on empty input, and only where nothing was matched, the end of the input is reported. -/
theorem call_ne_eof (h : inputEmpty = false ∨ s.matched = true) :
    (s.call inputEmpty ps).result ≠ .error .eof := by
  have hend : (inputEmpty && !(matchPieces s ps).1.matched) = false := by
    obtain rfl | h := h
    · rfl
    · have hmatched := matchPieces_invariant (P := fun s : ReadState w ↦ s.matched = true)
        (fun _ _ _ hs hp ↦ matched_of_matchPiece_of_matched hs hp) h ps
      rw [hmatched, Bool.not_true, Bool.and_false]
  rw [call]
  generalize matchPieces s ps = run at hend
  obtain ⟨r, _ | ⟨offset, _ | _ | _ | _ | _⟩⟩ := run
  case some.exhausted =>
    change (if inputEmpty && !r.matched then _ else _) ≠ _
    rw [hend]
    simp
  all_goals simp [readingOf, Halt.result]

/-- Counts are not halted by the end of the input. -/
theorem readCount_ne_exhausted (s : ReadState w) (d : Directive) :
    s.readCount d ≠ .error .exhausted := by
  cases hsuppress : d.flags.suppress with
  | true =>
    rw [readCount, nextTarget_of_suppress hsuppress]
    simp [bind, Except.bind]
  | false =>
    cases hpending : s.pending with
    | nil =>
      rw [readCount, nextTarget_of_nil hsuppress hpending]
      simp [bind, Except.bind]
    | cons t rest =>
      rw [readCount_of_pending hsuppress hpending]
      cases t.intType? <;> simp

/-- Behind a count the end of the input is not reported, and neither is it by the count. -/
theorem call_count_ne_eof {d : Directive} (hd : d.conversion = .countWritten) {offset : Nat}
    (hrest : s.rest = []) :
    (s.call inputEmpty (⟨offset, .directive d⟩ :: ps)).result ≠ .error .eof := by
  cases hp : s.matchPiece ⟨offset, .directive d⟩ with
  | ok s' =>
    have hcount : (Piece.directive (w := w) d).isCount = true := decide_eq_true hd
    rw [call_of_ok hp]
    refine call_ne_eof (.inr ?_)
    rw [matched_of_matchPiece hp hrest, hcount, Bool.or_true]
  | error halt =>
    have hmatch : s.matchPiece ⟨offset, .directive d⟩ = s.readCount d := by
      rw [matchPiece]
      dsimp only
      rw [matchDirective, hd]
    have hne := s.readCount_ne_exhausted d
    rw [← hmatch, hp] at hne
    rw [call_of_error hp]
    cases halt with
    | exhausted => exact absurd rfl hne
    | _ => simp [readingOf, Halt.result]

theorem call_eq_eof (hmatched : s.matched = false) (hp : s.matchPiece p = .error .exhausted) :
    (s.call true (p :: ps)).result = .error .eof := by
  rw [call_of_error hp]
  change (if true && !s.matched then _ else _) = _
  rw [hmatched]
  rfl

/-- **The verdict on empty input** is told by what comes first in the format string. -/
theorem call_eq_eof_iff (hrest : s.rest = []) (hmatched : s.matched = false) (offset : Nat)
    (t : Text w) :
    (s.call true (unitPieces .scan offset t)).result = .error .eof ↔
      NeedsInput (t.dropWhile (·.isBlank)) := by
  have hpercent (t : Text w) : (CodeUnit.ofAscii w '%' :: t).dropWhile (·.isBlank)
      = .ofAscii w '%' :: t :=
    List.dropWhile_cons_of_neg (by rw [CodeUnit.isBlank_ofAscii (by decide)]; decide)
  induction t using template_induction .scan generalizing offset with
  | nil =>
    refine iff_of_false ?_ not_needsInput_nil
    rw [unitPieces, piecesFrom_nil]
    exact fun h ↦ absurd h (by simp [call, matchPieces, readingOf])
  | literal u t hu ih =>
    have hmatch : s.matchPiece ⟨offset, .literal [u]⟩ = s.matchLiteral u :=
      matchPiece_literal_singleton offset
    rw [unitPieces_literal hu]
    cases hblank : u.isBlank with
    | true =>
      -- The blank is matched by nothing.
      rw [matchLiteral, if_pos hblank, skipBlanks_of_nil hrest] at hmatch
      rw [List.dropWhile_cons_of_pos hblank, call_of_ok hmatch]
      exact ih _
    | false =>
      rw [matchLiteral, if_neg (ne_true_of_eq_false hblank), matchUnit, hrest] at hmatch
      rw [List.dropWhile_cons_of_neg (ne_true_of_eq_false hblank)]
      exact iff_of_true (call_eq_eof hmatched hmatch) (.literal t hblank hu)
  | percent t ih =>
    rw [hpercent, unitPieces_percent]
    exact iff_of_true (call_eq_eof hmatched (matchPercent_of_nil hrest)) (.percent t)
  | directive spec d n hs hparse ih =>
    rw [hpercent, unitPieces_directive hs hparse]
    by_cases hd : d.conversion = .countWritten
    · refine iff_of_false (call_count_ne_eof hd hrest) fun h ↦ ?_
      obtain ⟨d', n', hparse', hd'⟩ := h.exists_parse hs
      obtain ⟨rfl, -⟩ := Prod.mk.inj (Except.ok.inj (hparse.symm.trans hparse'))
      exact hd' hd
    · exact iff_of_true (call_eq_eof hmatched (matchDirective_of_nil hd offset hrest))
        (.directive hparse hd)
  | malformed spec e hs hparse =>
    rw [hpercent, unitPieces_malformed hs hparse]
    refine iff_of_false ?_ fun h ↦ ?_
    · have hhalt : s.matchPiece ⟨offset, .malformed e⟩ = .error (.malformed e) := rfl
      rw [call_of_error hhalt]
      simp [readingOf, Halt.result]
    · obtain ⟨d, n, hparse', -⟩ := h.exists_parse hs
      exact absurd (hparse.symm.trans hparse') (by simp)

/-! ## What is stored -/

/-- On empty input only counts store anything. -/
theorem isCount_of_storing? {d : Directive} (hp : s.matchPiece p = .ok s') (hrest : s.rest = [])
    (hd : p.piece.storing? = some d) : d.conversion = .countWritten := by
  by_contra hne
  have hhalt := matchDirective_of_nil hne p.offset hrest
  have hmatch : s.matchPiece p = s.matchDirective d p.offset := by
    rw [matchPiece, Piece.eq_of_storing? hd]
  exact absurd ((hmatch.trans hhalt).symm.trans hp) (by simp)

end ReadState

/-- Targets of a kind that hold the same number are the same. -/
theorem Target.eq_of_integer? {t t' : Target} {v : Int} (hkind : t.kind = t'.kind)
    (h : t.integer? = some v) (h' : t'.integer? = some v) : t = t' := by
  cases t <;> cases t' <;> simp_all [Target.kind, Target.integer?]

/-- At the beginning of the input a count stores zero. -/
theorem StoreStep.Stores.eq_storeInt_zero {step : StoreStep w} {old new : Target}
    (h : step.Stores old new) (hcount : step.isCount) (hposition : step.before.position = 0) :
    new = old.storeInt 0 := by
  obtain ⟨type, htype, hvalue⟩ := h.count (of_decide_eq_true hcount)
  rw [hposition, Nat.cast_zero, min_eq_left type.zero_le_max] at hvalue
  exact Target.eq_of_integer? (h.kind.trans (old.kind_storeInt 0).symm) hvalue
    (Target.integer?_storeInt htype type.min_le_zero type.zero_le_max)

/-- **A run on empty input** stores by counts alone, zero in one target each, and leaves the other
targets as they are. -/
theorem matchPieces_of_empty {s : ReadState w} (h : s.AtInput []) (ps : List (Located w)) :
    (∀ step ∈ storeSteps s ps, step.isCount) ∧
      (matchPieces s ps).1.targets
        = s.stored ++ ((s.pending.take (storeSteps s ps).length).map (·.storeInt 0)
            ++ s.pending.drop (storeSteps s ps).length) := by
  induction ps generalizing s with
  | nil => exact ⟨by simp [storeSteps], by simp [storeSteps, matchPieces, ReadState.targets]⟩
  | cons p ps ih =>
    rw [storeSteps, matchPieces]
    cases hp : s.matchPiece p with
    | error halt => exact ⟨by simp, by simp [ReadState.targets]⟩
    | ok s' =>
      obtain ⟨hcounts, htargets⟩ := ih (h.matchPiece hp)
      obtain ⟨hnone, hstored, hpending, -⟩ | ⟨d, old, new, hd, hpending, hstored, hstores, -⟩ :=
        s.matchPiece_cases hp
      · rw [hstored, hpending] at htargets
        rw [hnone]
        exact ⟨hcounts, htargets⟩
      · have hrest : s.rest = [] := h.rest.trans List.drop_nil
        have hcount : (StoreStep.mk s d).isCount :=
          decide_eq_true (ReadState.isCount_of_storing? hp hrest hd)
        rw [hd, hpending]
        refine ⟨List.forall_mem_cons.mpr ⟨hcount, hcounts⟩, ?_⟩
        rw [htargets, hstored, hstores.eq_storeInt_zero hcount (Nat.le_zero.mp h.position_le),
          List.append_assoc]
        rfl

/-! ## The law -/

/-- **The end of the input.** A call reports it just if the input is empty and the format string,
behind the blanks in front of it, starts with something that only input can match; on input that is
not empty it never does. On empty input all that is stored is stored by counts: each of them stores
zero, in the first targets, and the other targets are not changed. -/
theorem scan_eof_iff (input template : Text w) (targets : List Target) :
    ((scan input template targets).result = .error .eof ↔
      input = [] ∧ NeedsInput (template.dropWhile (·.isBlank))) ∧
    let steps := scanSteps [] template targets
    (∀ step ∈ steps, step.isCount) ∧
      (scan [] template targets).targets
        = (targets.take steps.length).map (·.storeInt 0) ++ targets.drop steps.length := by
  refine ⟨?_, matchPieces_of_empty ⟨Nat.zero_le _, rfl⟩ (pieces .scan template)⟩
  rw [scan_eq_call_units]
  cases input with
  | nil =>
    rw [and_iff_right rfl]
    exact ReadState.call_eq_eof_iff rfl rfl 0 template
  | cons u input =>
    exact iff_of_false (ReadState.call_ne_eof (.inl rfl)) fun h ↦ absurd h.1 (List.cons_ne_nil _ _)

/-- Empty input by ` %d` and by ` %n%d`: the count is matched, and after it the end of the input is
not reported. -/
theorem scan_eof_iff_behind_count :
    let number := Text.ofAscii .utf8 [' ', '%', 'd']
    let counted := Text.ofAscii .utf8 [' ', '%', 'n', '%', 'd']
    let targets := [Target.integer .int32 99, .integer .int32 99]
    (scan [] number targets).result = .error .eof ∧
      (scan [] counted targets).result ≠ .error .eof ∧
      (∃ step, (scanSteps [] counted targets)[0]? = some step ∧ step.isCount) ∧
      (scan [] counted targets).targets.map (·.integer?) = [some 0, some 99] := by
  intro number counted targets
  have hnumber : NeedsInput (number.dropWhile (·.isBlank)) :=
    .directive (s := Text.ofAscii .utf8 ['d']) (d := .bare .signedInt false) (n := 1)
      (by decide +kernel) (by decide)
  have hcounted : ¬ NeedsInput (counted.dropWhile (·.isBlank)) := by
    intro h
    obtain ⟨d, n, hparse, hd⟩ :=
      h.exists_parse (s := Text.ofAscii .utf8 ['n', '%', 'd']) (by decide +kernel)
    have hcount : Directive.parse .scan (Text.ofAscii .utf8 ['n', '%', 'd'])
        = .ok (.bare .countWritten false, 1) := by decide +kernel
    obtain ⟨rfl, -⟩ := Prod.mk.inj (Except.ok.inj (hcount.symm.trans hparse))
    exact hd rfl
  obtain ⟨hverdict, -⟩ := scan_eof_iff [] number targets
  obtain ⟨hverdict', hcounts, htargets⟩ := scan_eof_iff [] counted targets
  have hlength : (scanSteps [] counted targets).length = 1 := by decide +kernel
  refine ⟨hverdict.mpr ⟨rfl, hnumber⟩, fun h ↦ hcounted (hverdict'.mp h).2, ?_, ?_⟩
  · have hlt : 0 < (scanSteps [] counted targets).length := by rw [hlength]; decide
    exact ⟨_, List.getElem?_eq_getElem hlt, hcounts _ (List.getElem_mem hlt)⟩
  · rw [htargets, hlength]
    rfl

end FormatString
