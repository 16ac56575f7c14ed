import Mathlib
import FormatString.Proofs.Reader.Resume
import FormatString.Proofs.Reader.Units
import FormatString.Proofs.Template.Cut

/-!
# Reading by joined format strings

A call that goes through its format string can be followed by another that goes on in the input and
the targets where the first one stopped; the two read what one call by the joined format string
reads. A literal run may go on across the seam, so the pieces are compared with the runs taken
apart.

The end of the input is the exception. A call reports it only if its input was empty and nothing was
matched. The second call may find its input empty that the first one used up, and on empty input
counts are all that is ever matched.
-/

namespace FormatString

variable {w : Width}

/-! ## Empty input -/

section Empty

variable {s s' r : ReadState w} {p : Located w} {ps : List (Located w)}

namespace ReadState

theorem foldlM_matchLiteral_of_nil {run : Text w} (hrun : run.foldlM matchLiteral s = .ok s')
    (h : s.rest = []) : s' = s := by
  induction run with
  | nil => exact (Except.ok.inj hrun).symm
  | cons u run ih =>
    rw [List.foldlM_cons] at hrun
    obtain ⟨n, matched, hu, hnil⟩ | hu | hu := s.matchLiteral_cases u
    · rw [hu, hnil h] at hrun
      exact ih hrun
    all_goals
      rw [hu] at hrun
      exact absurd hrun (by simp [bind, Except.bind])

theorem matchPercent_of_nil (h : s.rest = []) : s.matchPercent = .error .exhausted := by
  rw [matchPercent, skipBlanks_of_nil h, matchUnit, h]

theorem matchDirective_of_nil {d : Directive} (hd : d.conversion ≠ .countWritten) (offset : Nat)
    (h : s.rest = []) : s.matchDirective d offset = .error .exhausted := by
  have hvalue : s.readValue d offset = .error .exhausted := by
    rw [readValue, h]
    rfl
  rw [matchDirective, skipBlanks_of_nil h]
  cases hk : d.conversion with
  | countWritten => exact absurd hk hd
  | percent => exact matchPercent_of_nil h
  | _ => exact hvalue

/-- On empty input only a count is matched. -/
theorem matched_of_matchPiece (hp : s.matchPiece p = .ok s') (h : s.rest = []) :
    s'.matched = (s.matched || p.piece.isCount) := by
  rcases p with ⟨offset, run | _ | d | fault⟩
  · rw [foldlM_matchLiteral_of_nil hp h]
    exact (Bool.or_false _).symm
  · exact absurd ((matchPercent_of_nil h).symm.trans hp) (by simp)
  · by_cases hd : d.conversion = .countWritten
    · obtain ⟨e, he, rfl⟩ := matchPiece_eq_ok hp
      have hcount : (Piece.directive (w := w) d).isCount = true := decide_eq_true hd
      change (s.matched || e.matched) = _
      rw [Directive.Does.matched he, hcount]
    · exact absurd ((matchDirective_of_nil hd offset h).symm.trans hp) (by simp)
  · exact absurd hp (by simp [matchPiece])

end ReadState

theorem matched_of_matchPieces (h : matchPieces s ps = (r, none)) (hrest : s.rest = []) :
    r.matched = (s.matched || ps.any (·.piece.isCount)) := by
  revert hrest
  refine matched_induction (motive := fun s ps ↦ s.rest = [] →
    r.matched = (s.matched || ps.any (·.piece.isCount))) ?_ ?_ h
  · intro _
    exact (Bool.or_false _).symm
  · intro s s' p ps hp ih hrest
    rw [ih (ReadState.rest_of_matchPiece hp hrest), ReadState.matched_of_matchPiece hp hrest,
      List.any_cons, Bool.or_assoc]

end Empty

/-! ## More targets -/

section More

variable {s s' r : ReadState w} {p : Located w} {ps : List (Located w)}

/-- The state with more targets to come. -/
def ReadState.withMore (s : ReadState w) (more : List Target) : ReadState w :=
  { s with pending := s.pending ++ more }

/-- What is matched is matched whatever targets follow. -/
theorem ReadState.matchPiece_withMore (h : s.matchPiece p = .ok s') (more : List Target) :
    (s.withMore more).matchPiece p = .ok (s'.withMore more) := by
  have hagrees : s.Agrees (s.withMore more) := ⟨rfl, List.prefix_append _ _⟩
  have halike := matchPiece_alike (p := p) rfl hagrees fun _ ↦ rfl
  rw [h] at halike
  generalize hx : Except.ok s' = x at halike
  generalize (s.withMore more).matchPiece p = y at halike ⊢
  cases halike with
  | missing | halt => exact absurd hx (by simp)
  | go e he =>
    rw [Except.ok.inj hx]
    have hdrop : (s.pending ++ more).drop e.stored.toList.length
        = s.pending.drop e.stored.toList.length ++ more :=
      List.drop_append_of_le_length he.length_stored_le
    simp only [apply, withMore, hdrop]

theorem matchPieces_withMore (h : matchPieces s ps = (r, none)) (more : List Target) :
    matchPieces (s.withMore more) ps = (r.withMore more, none) := by
  refine matched_induction (motive := fun s ps ↦ matchPieces (s.withMore more) ps
    = (r.withMore more, none)) rfl ?_ h
  intro s s' p ps hp ih
  rw [matchPieces, ReadState.matchPiece_withMore hp]
  exact ih

/-- A piece that is malformed is not matched. -/
theorem isMalformed_eq_false_of_matchPieces (h : matchPieces s ps = (r, none)) :
    ∀ p ∈ ps, p.isMalformed = false := by
  refine matched_induction (motive := fun _ ps ↦ ∀ p ∈ ps, p.isMalformed = false) (by simp) ?_ h
  intro s s' p ps hp ih
  refine List.forall_mem_cons.mpr ⟨?_, ih⟩
  rcases p with ⟨offset, run | _ | d | fault⟩
  case malformed => exact absurd hp (by simp [ReadState.matchPiece])
  all_goals rfl

end More

/-! ## Resumed calls -/

/-- The error so much further on in the format string, behind so many assignments more. -/
def ScanError.shift (offset assigned : Nat) : ScanError → ScanError
  | eof => eof
  | malformed o e n => malformed (o + offset) e (n + assigned)
  | missingTarget o n => missingTarget (o + offset) (n + assigned)
  | badType o n => badType (o + offset) (n + assigned)

/-- What a call returns that made so many assignments before it was resumed so far on in its format
string; `atEnd` if the one that resumed it reports the end of the input. -/
def resumedResult (offset assigned : Nat) (atEnd : Except ScanError Nat) :
    Except ScanError Nat → Except ScanError Nat
  | .ok m => .ok (assigned + m)
  | .error .eof => atEnd
  | .error e => .error (e.shift offset assigned)

namespace Resumes

variable {a s s' : ReadState w} {steps : List (StoreStep w)}

theorem targets (h : Resumes a steps s s') :
    s'.targets = a.stored ++ (List.zipWith (StoreStep.raise a.position) steps s.targets
      ++ s.targets.drop steps.length) := by
  have hzip : List.zipWith (StoreStep.raise a.position) steps (s.stored ++ s.pending)
      = List.zipWith (StoreStep.raise a.position) steps s.stored := by
    have happend : List.zipWith (StoreStep.raise a.position) (steps ++ []) (s.stored ++ s.pending)
        = _ := List.zipWith_append h.length_eq
    rwa [List.append_nil, List.zipWith_nil_left, List.append_nil] at happend
  rw [ReadState.targets, ReadState.targets, hzip, List.drop_left' h.length_eq.symm, h.stored,
    h.pending, List.append_assoc]

/-- What the call that goes on returns, from what the one that started afresh does. -/
theorem result (h : Resumes a steps s s') {inputEmpty inputEmpty' : Bool}
    (hempty : inputEmpty' = true → inputEmpty = true)
    (hassigned : s.matched = false → s.assigned = 0) (halt : Option (Nat × Halt)) (k : Nat) :
    (readingOf inputEmpty' s' (halt.map fun (o, h) ↦ (o + k, h))).result
      = resumedResult k a.assigned
          (if inputEmpty' && !a.matched then .error .eof else .ok a.assigned)
          (readingOf inputEmpty s halt).result := by
  have hsum := h.assigned
  rcases halt with _ | ⟨offset, _ | _ | fault | _ | _⟩
  case none | some.mismatch => exact congrArg Except.ok hsum
  case some.exhausted =>
    change (if inputEmpty' && !s'.matched then .error .eof else .ok s'.assigned)
      = resumedResult k a.assigned _
          (if inputEmpty && !s.matched then .error .eof else .ok s.assigned)
    rw [h.matched]
    by_cases heof : (inputEmpty && !s.matched) = true
    · have hmatched : s.matched = false := by simpa using (Bool.and_eq_true_iff.mp heof).2
      rw [if_pos heof, hsum, hassigned hmatched, hmatched, Bool.or_false]
      rfl
    · have hne : ¬ (inputEmpty' && !(a.matched || s.matched)) = true := by
        simp only [Bool.and_eq_true, Bool.not_eq_true', Bool.or_eq_false_iff] at heof ⊢
        rintro ⟨hempty', -, hmatched⟩
        exact heof ⟨hempty hempty', hmatched⟩
      rw [if_neg heof, if_neg hne, hsum]
      rfl
  all_goals
    rw [Nat.add_comm] at hsum
    simp only [readingOf, Option.map, Halt.result, resumedResult, ScanError.shift, hsum]

end Resumes

/-- **A call and the one that resumes it**, if the first may report the end of the input only where
the second may. -/
theorem resumes_call (a : ReadState w) {inputEmpty inputEmpty' : Bool}
    (hempty : inputEmpty' = true → inputEmpty = true) (k : Nat) (ps : List (Located w)) :
    let fresh : ReadState w := { rest := a.rest, pending := a.pending }
    let second := fresh.call inputEmpty ps
    let joined := a.call inputEmpty' (ps.map (Located.shift k))
    joined.targets = a.stored ++
        (List.zipWith (StoreStep.raise a.position) (storeSteps fresh ps) second.targets
          ++ second.targets.drop (storeSteps fresh ps).length) ∧
      joined.result = resumedResult k a.assigned
        (if inputEmpty' && !a.matched then .error .eof else .ok a.assigned) second.result := by
  intro fresh second joined
  obtain ⟨hresumes, hhalt⟩ := (Resumes.start a).matchPieces k ps
  have hjoined : joined = readingOf inputEmpty' _ _ := rfl
  rw [hjoined, hhalt]
  exact ⟨hresumes.targets, hresumes.result hempty (assigned_eq_zero_of_not_matched _ _ _) _ k⟩

/-! ## The law -/

theorem scan_eq_call_units (input t : Text w) (targets : List Target) :
    scan input t targets = ReadState.call { rest := input, pending := targets } input.isEmpty
      (unitPieces .scan 0 t) :=
  (ReadState.call_units (fun he ↦ List.isEmpty_iff.mp he) _).symm

/-- Reading by joined format strings goes on by the second where the first is done. -/
theorem scan_append_eq_call {input t₁ : Text w} {targets : List Target} {a : ReadState w}
    (h : matchPieces { rest := input, pending := targets } (pieces .scan t₁) = (a, none))
    (t₂ : Text w) :
    scan input (t₁ ++ t₂) targets
      = a.call input.isEmpty ((unitPieces .scan 0 t₂).map (Located.shift t₁.length)) := by
  have hunits : matchPieces { rest := input, pending := targets } (unitPieces .scan 0 t₁)
      = (a, none) := matchPieces_units_of_none h
  have hwell := isMalformed_eq_false_of_matchPieces hunits
  rw [scan_eq_call_units, unitPieces_append hwell, unitPieces_add, ReadState.call,
    matchPieces_append_of_none hunits]
  rfl

/-- The call comes to a piece of its format string, and there its state is `s`. -/
def Reaches (input template : Text w) (targets : List Target) (p : Located w) (s : ReadState w) :
    Prop :=
  ∃ before after, pieces .scan template = before ++ p :: after ∧
    matchPieces { rest := input, pending := targets } before = (s, none)

/-- To come to a count behind a format string is to go through the format string. -/
theorem Reaches.matchPieces {input t : Text w} {targets : List Target} {p : Piece w}
    {rest : Text w} {s : ReadState w}
    (h : Reaches input (t ++ rest) targets ⟨t.length, p⟩ s) :
    FormatString.matchPieces { rest := input, pending := targets } (pieces .scan t) = (s, none) := by
  obtain ⟨before, after, hpieces, hrun⟩ := h
  have hcut := (pieces_take hpieces).1
  rw [List.take_left] at hcut
  rwa [hcut]

/-- A call that has gone through a format string may still report the end of the input if its input
is empty and the format string contains no count. -/
theorem atEnd_iff {input t : Text w} {targets : List Target} {s : ReadState w}
    (h : matchPieces { rest := input, pending := targets } (pieces .scan t) = (s, none)) :
    (input.isEmpty && !s.matched) = true ↔
      input = [] ∧ ∀ p ∈ pieces .scan t, p.piece.isCount = false := by
  rw [Bool.and_eq_true_iff, List.isEmpty_iff, Bool.not_eq_true']
  refine and_congr_right fun hnil ↦ ?_
  rw [matched_of_matchPieces h hnil, Bool.false_or, List.any_eq_false]
  simp only [Bool.not_eq_true]

/-- **Split law.** Suppose that a call comes to a count of units behind its format string, and has
used all its targets. Then to read by the format string followed by another is to read by the one
and then, in the input and the targets left, by the other: with the counts of the second raised by
the units in front, and with its errors further on in the format string and behind the assignments
of the first. If the second finds its input empty and reports that, the joined call succeeds, unless
its input is empty as well and the first format string contains no count. -/
theorem scan_append (input t₁ t₂ : Text w) (targets₁ targets₂ : List Target) {s : ReadState w}
    (hreach : Reaches input (t₁ ++ Text.ofAscii w ['%', 'n']) targets₁
      ⟨t₁.length, .directive (.bare .countWritten false)⟩ s)
    (hused : s.pending = []) :
    let first := scan input t₁ targets₁
    let second := scan (input.drop s.position) t₂ targets₂
    let steps := scanSteps (input.drop s.position) t₂ targets₂
    let joined := scan input (t₁ ++ t₂) (targets₁ ++ targets₂)
    first.result = .ok s.assigned ∧
      first.targets.length = targets₁.length ∧
      joined.targets = first.targets ++
        (List.zipWith (StoreStep.raise s.position) steps second.targets
          ++ second.targets.drop steps.length) ∧
      (∀ m, second.result = .ok m → joined.result = .ok (s.assigned + m)) ∧
      (∀ e, second.result = .error e → e ≠ .eof →
        joined.result = .error (e.shift t₁.length s.assigned)) ∧
      (second.result = .error .eof →
        (input ≠ [] ∨ ∃ p ∈ pieces .scan t₁, p.piece.isCount = true) →
          joined.result = .ok s.assigned) ∧
      (second.result = .error .eof → input = [] →
        (∀ p ∈ pieces .scan t₁, p.piece.isCount = false) → joined.result = .error .eof) := by
  intro first second steps joined
  have hrun := hreach.matchPieces
  have hinput : s.AtInput input := by
    have hat := atInput_matchPieces input targets₁ (pieces .scan t₁)
    rwa [hrun] at hat
  have hfirst : first = readingOf input.isEmpty s none := by
    rw [show first = scan _ _ _ from rfl, scan, hrun]
  have htargets : first.targets = s.stored := by
    rw [hfirst]
    exact (congrArg (s.stored ++ ·) hused).trans (List.append_nil _)
  -- With the targets of both, the first format string is gone through in the same way.
  have hmore := matchPieces_withMore hrun targets₂
  have hfresh : ({ rest := input.drop s.position, pending := targets₂ } : ReadState w)
      = { rest := (s.withMore targets₂).rest, pending := (s.withMore targets₂).pending } := by
    rw [← hinput.rest, ReadState.withMore, hused, List.nil_append]
  have hempty : input.isEmpty = true → (input.drop s.position).isEmpty = true := by
    intro h
    rw [List.isEmpty_iff.mp h, List.drop_nil]
    rfl
  have hcall := resumes_call (s.withMore targets₂) hempty t₁.length (unitPieces .scan 0 t₂)
  dsimp only at hcall
  rw [← hfresh, ← scan_eq_call_units, ← scan_append_eq_call hmore,
    show storeSteps _ (unitPieces .scan 0 t₂) = steps from storeSteps_units _ _] at hcall
  obtain ⟨hjoined, hresult⟩ := hcall
  replace hresult : joined.result = resumedResult t₁.length s.assigned
    (if input.isEmpty && !s.matched then .error .eof else .ok s.assigned) second.result := hresult
  refine ⟨?_, ?_, ?_, ?_, ?_, ?_, ?_⟩
  · rw [hfirst]
    rfl
  · have hkind := (fills_storeSteps { rest := input, pending := targets₁ } (pieces .scan t₁)).kind
    rw [hrun] at hkind
    have hlength := congrArg List.length hkind
    rw [List.length_map, List.length_map] at hlength
    rw [hfirst]
    exact hlength
  · rw [htargets]
    exact hjoined
  · intro m hm
    rw [hresult, hm]
    rfl
  · intro e he hne
    rw [hresult, he]
    cases e with
    | eof => exact absurd rfl hne
    | _ => rfl
  · intro heof hsome
    rw [hresult, heof]
    refine if_neg fun hend ↦ ?_
    obtain ⟨hnil, hnone⟩ := (atEnd_iff hrun).mp hend
    obtain hne | ⟨p, hp, hcount⟩ := hsome
    · exact hne hnil
    · exact Bool.false_ne_true ((hnone p hp).symm.trans hcount)
  · intro heof hnil hnone
    rw [hresult, heof]
    exact if_pos ((atEnd_iff hrun).mpr ⟨hnil, hnone⟩)

/-- `12 7x` by `%d`, and what is left of it by ` %d%n`: the second call counts two units, and the
joined call four. -/
theorem scan_append_behind_number :
    let input := Text.ofAscii .utf8 ['1', '2', ' ', '7', 'x']
    let t₁ := Text.ofAscii .utf8 ['%', 'd']
    let t₂ := Text.ofAscii .utf8 [' ', '%', 'd', '%', 'n']
    let targets₁ := [Target.integer .int32 0]
    let targets₂ := [Target.integer .int32 0, .integer ⟨.w8, false⟩ 0]
    ∃ s : ReadState .utf8, s.position = 2 ∧ s.assigned = 1 ∧
      Reaches input (t₁ ++ Text.ofAscii .utf8 ['%', 'n']) targets₁
        ⟨t₁.length, .directive (.bare .countWritten false)⟩ s ∧ s.pending = [] ∧
      (scan (input.drop s.position) t₂ targets₂).result = .ok 1 ∧
      (scan (input.drop s.position) t₂ targets₂).targets.map (·.integer?) = [some 7, some 2] ∧
      (scan input (t₁ ++ t₂) (targets₁ ++ targets₂)).result = .ok 2 ∧
      (scan input (t₁ ++ t₂) (targets₁ ++ targets₂)).targets.map (·.integer?)
        = [some 12, some 7, some 4] := by
  intro input t₁ t₂ targets₁ targets₂
  let number : Located .utf8 := ⟨0, .directive (.bare .signedInt false)⟩
  let start : ReadState .utf8 := { rest := input, pending := targets₁ }
  have hsummary : (matchPieces start [number]).2 = none ∧
      (matchPieces start [number]).1.position = 2 ∧
      (matchPieces start [number]).1.assigned = 1 ∧
      (matchPieces start [number]).1.pending.length = 0 := by decide +kernel
  generalize hrun : matchPieces start [number] = run at hsummary
  obtain ⟨s, halt⟩ := run
  obtain ⟨rfl, hposition, hassigned, hlength⟩ := hsummary
  have hpending : s.pending = [] := List.length_eq_zero_iff.mp hlength
  have hreach : Reaches input (t₁ ++ Text.ofAscii .utf8 ['%', 'n']) targets₁
      ⟨t₁.length, .directive (.bare .countWritten false)⟩ s := by
    refine ⟨[number], [], ?_, hrun⟩
    have hnumber : Directive.parse .scan (Text.ofAscii .utf8 ['d', '%', 'n'])
        = .ok (.bare .signedInt false, 1) := by decide +kernel
    have hcount : Directive.parse .scan (Text.ofAscii .utf8 ['n'])
        = .ok (.bare .countWritten false, 1) := by decide +kernel
    have htail : piecesFrom .scan 2 (Text.ofAscii .utf8 ['%', 'n'])
        = [⟨2, .directive (.bare .countWritten false)⟩] :=
      (piecesFrom_directive (by decide +kernel) hcount).trans (congrArg _ piecesFrom_nil)
    exact (piecesFrom_directive (by decide +kernel) hnumber).trans (congrArg (number :: ·) htail)
  have hsecond : (scan (input.drop 2) t₂ targets₂).result = .ok 1 := by decide +kernel
  have htargets : (scan (input.drop 2) t₂ targets₂).targets.map (·.integer?)
      = [some 7, some 2] := by decide +kernel
  obtain ⟨-, -, hstored, hok, -⟩ := scan_append input t₁ t₂ targets₁ targets₂ hreach hpending
  rw [hposition] at hstored hok
  rw [hassigned] at hok
  refine ⟨s, hposition, hassigned, hreach, hpending, ?_, ?_, hok 1 hsecond, ?_⟩
  · rw [hposition, hsecond]
  · rw [hposition, htargets]
  · rw [hstored]
    decide +kernel

end FormatString
