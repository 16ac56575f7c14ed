import Mathlib
import FormatString.Proofs.Reader.Run

/-!
# Which target holds what

A reading call stores in its targets from left to right, and in each once. The directives that store
are those that are matched and not suppressed; a count of units is one of them though it is no
assignment, and a percent sign is none of them. What each of them leaves in its target depends on
the state in front of it, so a run is described by the list of its `StoreStep`s.
-/

namespace FormatString

variable {w : Width}

/-! ## Directives that store -/

/-- A directive that stored something, and the state in front of it. -/
structure StoreStep (w : Width) where
  before : ReadState w
  directive : Directive

namespace StoreStep

variable (step : StoreStep w)

/-- The directive counts the units consumed. -/
def isCount : Bool := step.directive.conversion = .countWritten

/-- What the directive may make of a target where it stands. -/
def Stores (old new : Target) : Prop :=
  step.directive.Stores (step.before.skipBlanks.field step.directive) step.before.position old new

end StoreStep

/-- The directives of a run that stored something, in order. -/
def storeSteps (s : ReadState w) : List (Located w) → List (StoreStep w)
  | [] => []
  | p :: rest =>
    match s.matchPiece p with
    | .ok s' => (p.piece.storing?.map (StoreStep.mk s)).toList ++ storeSteps s' rest
    | .error _ => []

section Step

variable {s s' : ReadState w} {p : Located w}

theorem Directive.assignments_eq (d : Directive) :
    d.assignments + (if d.stores ∧ d.conversion = .countWritten then 1 else 0)
      = if d.stores then 1 else 0 := by
  rw [assignments, stores]
  cases d.flags.suppress <;> cases d.conversion <;> rfl

/-- **A step stores nothing, or it fills the next target.** -/
theorem ReadState.matchPiece_cases (h : s.matchPiece p = .ok s') :
    (p.piece.storing? = none ∧ s'.stored = s.stored ∧ s'.pending = s.pending ∧
      s'.assigned = s.assigned) ∨
    ∃ d old new, p.piece.storing? = some d ∧ s.pending = old :: s'.pending ∧
      s'.stored = s.stored ++ [new] ∧ (StoreStep.mk s d).Stores old new ∧
      s'.assigned + (if d.conversion = .countWritten then 1 else 0) = s.assigned + 1 := by
  obtain ⟨e, he, rfl⟩ := matchPiece_eq_ok h
  obtain ⟨hnone, n, matched, rfl, -⟩ | ⟨d, hd, hdoes⟩ := he.plain_or_directive
  · exact .inl ⟨hnone, List.append_nil _, rfl, rfl⟩
  · have hstoring : p.piece.storing? = if d.stores then some d else none := by
      rw [hd]
      rfl
    have hassigned := d.assignments_eq
    rw [← hdoes.assigned] at hassigned
    cases hstores : d.stores with
    | false =>
      have hnone : e.stored = none := by
        rw [← Option.not_isSome_iff_eq_none, hdoes.isSome_stored, hstores]
        exact Bool.false_ne_true
      simp only [hstores, Bool.false_eq_true, false_and, if_false, Nat.add_zero] at hassigned
      refine .inl ⟨by rw [hstoring, hstores]; rfl, ?_, ?_, ?_⟩
      · simp [apply, hnone]
      · simp [apply, hnone]
      · simp [apply, hassigned]
    | true =>
      obtain ⟨new, hnew⟩ := Option.isSome_iff_exists.mp (hdoes.isSome_stored.trans hstores)
      obtain ⟨old, hold, hdirective⟩ := hdoes.stores new hnew
      obtain ⟨rest, hrest⟩ := List.head?_eq_some_iff.mp hold
      simp only [hstores, true_and, if_true] at hassigned
      refine .inr ⟨d, old, new, by rw [hstoring, if_pos hstores], ?_, ?_, hdirective, ?_⟩
      · simp [apply, hnew, hrest]
      · simp [apply, hnew]
      · change s.assigned + e.assigned + _ = _
        rw [Nat.add_assoc, hassigned]

end Step

/-! ## Runs -/

/-- From the first state to the second the steps fill the next targets, one each. -/
inductive Fills : ReadState w → List (StoreStep w) → ReadState w → Prop where
  | refl (s : ReadState w) : Fills s [] s
  | skip {s s' r : ReadState w} {steps : List (StoreStep w)} (hstored : s'.stored = s.stored)
    (hpending : s'.pending = s.pending) (hassigned : s'.assigned = s.assigned)
    (h : Fills s' steps r) : Fills s steps r
  | fill {s s' r : ReadState w} {steps : List (StoreStep w)} {d : Directive} {old new : Target}
    {offset : Nat} (hmatch : s.matchDirective d offset = .ok s')
    (hpending : s.pending = old :: s'.pending) (hstored : s'.stored = s.stored ++ [new])
    (hassigned : s'.assigned + (if d.conversion = .countWritten then 1 else 0) = s.assigned + 1)
    (hstores : (StoreStep.mk s d).Stores old new) (h : Fills s' steps r) :
    Fills s (⟨s, d⟩ :: steps) r

/-- **Every run fills targets by the directives that store.** -/
theorem fills_storeSteps (s : ReadState w) (ps : List (Located w)) :
    Fills s (storeSteps s ps) (matchPieces s ps).1 := by
  induction ps generalizing s with
  | nil => exact .refl s
  | cons p ps ih =>
    rw [storeSteps, matchPieces]
    cases hp : s.matchPiece p with
    | error => exact .refl s
    | ok s' =>
      dsimp only
      obtain ⟨hnone, hstored, hpending, hassigned⟩ | ⟨d, old, new, hd, hpending, hstored, hstores,
        hassigned⟩ := s.matchPiece_cases hp
      · rw [hnone]
        exact .skip hstored hpending hassigned (ih s')
      · rw [hd]
        have hmatch : s.matchDirective d p.offset = .ok s' := by
          rw [ReadState.matchPiece, Piece.eq_of_storing? hd] at hp
          exact hp
        exact .fill hmatch hpending hstored hassigned hstores (ih s')

namespace Fills

variable {s r : ReadState w} {steps : List (StoreStep w)}

theorem stored_take (h : Fills s steps r) : r.stored.take s.stored.length = s.stored := by
  induction h with
  | refl => exact List.take_length
  | skip hstored _ _ _ ih => rwa [hstored] at ih
  | @fill s s' r steps d old new _ _ _ hstored _ _ _ ih =>
    have htake := congrArg (List.take s.stored.length) ih
    rw [hstored, List.take_take, List.take_left] at htake
    rwa [List.length_append, min_eq_left (Nat.le_add_right _ _)] at htake

theorem length_stored (h : Fills s steps r) :
    r.stored.length = s.stored.length + steps.length := by
  induction h with
  | refl => rfl
  | skip hstored _ _ _ ih => rw [ih, hstored]
  | fill _ _ hstored _ _ _ ih =>
    rw [ih, hstored, List.length_append, List.length_singleton, List.length_cons]
    omega

theorem pending (h : Fills s steps r) : r.pending = s.pending.drop steps.length := by
  induction h with
  | refl => rfl
  | skip _ hpending _ _ ih => rw [ih, hpending]
  | fill _ hpending _ _ _ _ ih => rw [ih, hpending, List.length_cons, List.drop_succ_cons]

theorem length_le (h : Fills s steps r) : steps.length ≤ s.pending.length := by
  induction h with
  | refl => exact Nat.zero_le _
  | skip _ hpending _ _ ih => rwa [← hpending]
  | fill _ hpending _ _ _ _ ih => exact hpending ▸ Nat.succ_le_succ ih

/-- Every step that is not a count of units is an assignment. -/
theorem assigned (h : Fills s steps r) :
    r.assigned + steps.countP (·.isCount) = s.assigned + steps.length := by
  induction h with
  | refl => rfl
  | skip _ _ hassigned _ ih => rw [ih, hassigned]
  | @fill s s' r steps d _ _ _ _ _ _ hassigned _ _ ih =>
    have hcount : (StoreStep.mk s d).isCount = decide (d.conversion = .countWritten) := rfl
    rw [List.countP_cons, List.length_cons, hcount]
    by_cases hd : d.conversion = .countWritten
    · simp only [hd, if_true, decide_true] at hassigned ⊢
      omega
    · simp only [hd, if_false, decide_false, Bool.false_eq_true] at hassigned ⊢
      omega

/-- The kinds of all targets are what they were. -/
theorem kind (h : Fills s steps r) : r.targets.map (·.kind) = s.targets.map (·.kind) := by
  induction h with
  | refl => rfl
  | skip hstored hpending _ _ ih =>
    rw [ih, ReadState.targets, ReadState.targets, hstored, hpending]
  | fill _ hpending hstored _ hstores _ ih =>
    rw [ih, ReadState.targets, ReadState.targets, hstored, hpending]
    simp only [List.map_append, List.map_cons, List.append_assoc,
      List.singleton_append, hstores.kind]

/-- **The step with number `i`** stands where the targets in front of number `i` hold what they hold
in the end, and the others what they held at the beginning. It stores in target number `i`, and
behind it this one holds what it holds in the end as well. -/
theorem step (h : Fills s steps r) {i : Nat} {step : StoreStep w} (hi : steps[i]? = some step) :
    ∃ old new, s.pending[i]? = some old ∧ r.stored[s.stored.length + i]? = some new ∧
      step.Stores old new ∧ step.before.stored = r.stored.take (s.stored.length + i) ∧
      step.before.pending = s.pending.drop i ∧
      ∃ offset after, step.before.matchDirective step.directive offset = .ok after ∧
        after.stored = r.stored.take (s.stored.length + (i + 1)) ∧
        after.pending = s.pending.drop (i + 1) := by
  induction h generalizing i with
  | refl => exact absurd hi (by simp)
  | skip hstored hpending _ _ ih =>
    rw [← hstored, ← hpending]
    exact ih hi
  | @fill s s' r steps d old new offset hmatch hpending hstored _ hstores h ih =>
    have hlength : s'.stored.length = s.stored.length + 1 := by
      rw [hstored, List.length_append, List.length_singleton]
    -- What this step has stored is not touched by those behind it.
    have htake := h.stored_take
    rw [hlength] at htake
    cases i with
    | zero =>
      obtain rfl := Option.some.inj hi
      refine ⟨old, new, by rw [hpending]; rfl, ?_, hstores, ?_, rfl, offset, s', hmatch, htake.symm,
        by rw [hpending]; rfl⟩
      · rw [Nat.add_zero, ← List.getElem?_take_of_lt (Nat.lt_succ_self _), htake, hstored]
        exact List.getElem?_concat_length
      · rw [hstored] at htake
        have hs := congrArg (List.take s.stored.length) htake
        rw [List.take_take, min_eq_left (Nat.le_succ _), List.take_left] at hs
        exact hs.symm
    | succ i =>
      have hstep := ih hi
      have hplace (j : Nat) : s'.stored.length + j = s.stored.length + (j + 1) := by omega
      rw [hplace, hplace] at hstep
      rw [hpending]
      exact hstep

end Fills

/-! ## What holds in front of a step -/

/-- What every step preserves, holds in front of all that stores. -/
theorem storeSteps_invariant {P : ReadState w → Prop}
    (hstep : ∀ s s' p, P s → s.matchPiece p = .ok s' → P s') {s : ReadState w} (h : P s)
    (ps : List (Located w)) : ∀ step ∈ storeSteps s ps, P step.before := by
  induction ps generalizing s with
  | nil => exact fun _ hstep ↦ absurd hstep List.not_mem_nil
  | cons p ps ih =>
    rw [storeSteps]
    cases hp : s.matchPiece p with
    | error => exact fun _ hstep ↦ absurd hstep List.not_mem_nil
    | ok s' =>
      intro step hmem
      obtain hmem | hmem := List.mem_append.mp hmem
      · obtain ⟨d, -, rfl⟩ := Option.map_eq_some_iff.mp (Option.mem_toList.mp hmem)
        exact h
      · exact ih (hstep s s' p h hp) step hmem

/-- The state in front of a step, read off the input. -/
structure ReadState.AtInput (input : Text w) (s : ReadState w) : Prop where
  position_le : s.position ≤ input.length
  rest : s.rest = input.drop s.position

section Invariants

variable {s s' : ReadState w} {p : Located w} {input : Text w}

theorem ReadState.AtInput.matchPiece (h : s.AtInput input) (hp : s.matchPiece p = .ok s') :
    s'.AtInput input := by
  obtain ⟨e, he, rfl⟩ := ReadState.matchPiece_eq_ok hp
  have hused := he.used_le
  rw [h.rest, List.length_drop] at hused
  refine ⟨?_, ?_⟩
  · have hle := h.position_le
    change s.position + e.used ≤ _
    omega
  · change s.rest.drop e.used = _
    rw [h.rest, List.drop_drop]
    rfl

theorem ReadState.position_le_of_matchPiece (hp : s.matchPiece p = .ok s') :
    s.position ≤ s'.position := by
  obtain ⟨e, -, rfl⟩ := ReadState.matchPiece_eq_ok hp
  exact Nat.le_add_right _ _

/-- Where nothing has been matched, nothing has been assigned. -/
theorem ReadState.assigned_eq_zero_of_matchPiece (hp : s.matchPiece p = .ok s')
    (h : s.matched = false → s.assigned = 0) : s'.matched = false → s'.assigned = 0 := by
  obtain ⟨e, he, rfl⟩ := ReadState.matchPiece_eq_ok hp
  intro hmatched
  obtain ⟨hs, hematched⟩ := Bool.or_eq_false_iff.mp hmatched
  have hassigned : e.assigned = 0 := by
    obtain ⟨-, n, matched, rfl, -⟩ | ⟨d, -, hdoes⟩ := he.plain_or_directive
    · rfl
    · exact absurd (hematched.symm.trans hdoes.matched) Bool.false_ne_true
  change s.assigned + e.assigned = 0
  rw [h hs, hassigned]

theorem assigned_eq_zero_of_not_matched (input : Text w) (targets : List Target)
    (ps : List (Located w)) :
    let r := (matchPieces { rest := input, pending := targets } ps).1
    r.matched = false → r.assigned = 0 :=
  matchPieces_invariant (P := fun s : ReadState w ↦ s.matched = false → s.assigned = 0)
    (fun _ _ _ h hp ↦ ReadState.assigned_eq_zero_of_matchPiece hp h) (fun _ ↦ rfl) ps

theorem atInput_matchPieces (input : Text w) (targets : List Target) (ps : List (Located w)) :
    (matchPieces { rest := input, pending := targets } ps).1.AtInput input :=
  matchPieces_invariant (fun _ _ _ h hp ↦ h.matchPiece hp) ⟨Nat.zero_le _, rfl⟩ ps

/-- The positions never go back. -/
theorem pairwise_storeSteps (s : ReadState w) (ps : List (Located w)) :
    (storeSteps s ps).Pairwise fun a b ↦ a.before.position ≤ b.before.position := by
  induction ps generalizing s with
  | nil => exact .nil
  | cons p ps ih =>
    rw [storeSteps]
    cases hp : s.matchPiece p with
    | error => exact .nil
    | ok s' =>
      refine List.pairwise_append.mpr ⟨?_, ih s', ?_⟩
      · cases p.piece.storing? with
        | none => exact .nil
        | some d => exact List.pairwise_singleton _ _
      · intro step hstep later hlater
        obtain ⟨d, -, rfl⟩ := Option.map_eq_some_iff.mp (Option.mem_toList.mp hstep)
        refine (ReadState.position_le_of_matchPiece hp).trans ?_
        exact storeSteps_invariant (P := fun t ↦ s'.position ≤ t.position)
          (fun _ _ _ h hp ↦ h.trans (ReadState.position_le_of_matchPiece hp)) (Nat.le_refl _) ps
          later hlater

end Invariants

/-! ## Calls -/

/-- The directives of a call that stored something, in order. -/
def scanSteps (input template : Text w) (targets : List Target) : List (StoreStep w) :=
  storeSteps { rest := input, pending := targets } (pieces .scan template)

/-- The number of assignments a call reports, whether it failed or not. -/
def Reading.assigned (r : Reading) : Nat :=
  match r.result with
  | .ok n => n
  | .error e => e.assigned

/-- A call reports the assignments of its last state. Only the end of the input says nothing about
them, and there are none then. -/
theorem assigned_readingOf {inputEmpty : Bool} {s : ReadState w} {halt : Option (Nat × Halt)}
    (h : s.matched = false → s.assigned = 0) :
    (readingOf inputEmpty s halt).assigned = s.assigned := by
  rcases halt with _ | ⟨offset, _ | _ | _ | _ | _⟩
  case some.exhausted =>
    have hresult : (readingOf inputEmpty s (some (offset, .exhausted))).result =
        if inputEmpty && !s.matched then .error .eof else .ok s.assigned := rfl
    rw [Reading.assigned, hresult]
    by_cases heof : (inputEmpty && !s.matched) = true
    · obtain ⟨-, hmatched⟩ := Bool.and_eq_true_iff.mp heof
      rw [if_pos heof]
      exact (h (by simpa using hmatched)).symm
    · rw [if_neg heof]
  all_goals rfl

/-- **A reading call stores in the first of its targets, in each once and in order**, and leaves the
others as they are. The step with number `i` finds the targets in front of number `i` as they are in
the end and the others as they were given, and behind it number `i` is as it is in the end, too. It
leaves a target of the same kind there: if it reads an integer or an address the value read into the
type of the target, if it counts the units the number of units consumed or the largest number of the
type. These positions are in the input and never go back. The call reports as many assignments as
there are steps, less the counts. -/
theorem scan_stores_in_order (input template : Text w) (targets : List Target) :
    let reading := scan input template targets
    let steps := scanSteps input template targets
    steps.length ≤ targets.length ∧
      reading.targets.drop steps.length = targets.drop steps.length ∧
      reading.assigned + steps.countP (·.isCount) = steps.length ∧
      reading.targets.map (·.kind) = targets.map (·.kind) ∧
      (∀ i step, steps[i]? = some step → ∃ old new, targets[i]? = some old ∧
        reading.targets[i]? = some new ∧ step.Stores old new ∧
        step.before.targets = reading.targets.take i ++ targets.drop i ∧
        ∃ offset after, step.before.matchDirective step.directive offset = .ok after ∧
          after.targets = reading.targets.take (i + 1) ++ targets.drop (i + 1)) ∧
      (∀ step ∈ steps, step.before.position ≤ input.length ∧
        step.before.rest = input.drop step.before.position) ∧
      steps.Pairwise fun a b ↦ a.before.position ≤ b.before.position := by
  intro reading steps
  let start : ReadState w := { rest := input, pending := targets }
  have hfills : Fills start steps (matchPieces start (pieces .scan template)).1 :=
    fills_storeSteps _ _
  have hmatched := assigned_eq_zero_of_not_matched input targets (pieces .scan template)
  have hreading : reading = readingOf input.isEmpty (matchPieces start (pieces .scan template)).1
      (matchPieces start (pieces .scan template)).2 := rfl
  generalize matchPieces start (pieces .scan template) = run at hfills hmatched hreading
  obtain ⟨r, halt⟩ := run
  have htargets : reading.targets = r.stored ++ targets.drop steps.length := by
    rw [hreading]
    exact congrArg (r.stored ++ ·) hfills.pending
  have hlength : r.stored.length = steps.length :=
    hfills.length_stored.trans (Nat.zero_add _)
  refine ⟨hfills.length_le, ?_, ?_, ?_, ?_, ?_, pairwise_storeSteps _ _⟩
  · rw [htargets, ← hlength, List.drop_left]
  · rw [hreading, assigned_readingOf hmatched]
    exact hfills.assigned.trans (Nat.zero_add _)
  · rw [hreading]
    exact hfills.kind
  · intro i step hi
    obtain ⟨old, new, hold, hnew, hstores, hstored, hpending, offset, after, hmatch, hstored',
      hpending'⟩ := hfills.step hi
    have hzero (j : Nat) : start.stored.length + j = j := Nat.zero_add j
    rw [hzero] at hnew hstored hstored'
    have hlt : i < r.stored.length := by
      rw [hlength]
      exact (List.getElem?_eq_some_iff.mp hi).1
    refine ⟨old, new, hold, ?_, hstores, ?_, offset, after, hmatch, ?_⟩
    · rw [htargets, List.getElem?_append_left hlt, hnew]
    · rw [ReadState.targets, hstored, hpending, htargets,
        List.take_append_of_le_length (Nat.le_of_lt hlt)]
    · rw [ReadState.targets, hstored', hpending', htargets, List.take_append_of_le_length hlt]
  · intro step hstep
    have hinput := storeSteps_invariant (P := ReadState.AtInput input)
      (fun _ _ _ h hp ↦ h.matchPiece hp) (s := start) ⟨Nat.zero_le _, rfl⟩ _ step hstep
    exact ⟨hinput.position_le, hinput.rest⟩

/-- `12 7` by `%*d %d%n`: what is suppressed stores nothing, and the second step is the count, which
finds four units consumed. -/
theorem scan_stores_in_order_behind_suppressed :
    let input := Text.ofAscii .utf8 ['1', '2', ' ', '7']
    let t := Text.ofAscii .utf8 ['%', '*', 'd', ' ', '%', 'd', '%', 'n']
    let targets := [Target.integer .int32 0, .integer .int32 0]
    (scanSteps input t targets).map (fun step ↦ (step.before.position, step.isCount))
        = [(3, false), (4, true)] ∧
      (scan input t targets).assigned = 1 ∧
      ∃ new, (scan input t targets).targets[1]? = some new ∧ new.integer? = some 4 := by
  intro input t targets
  obtain ⟨-, -, hassigned, -, hsteps, -, -⟩ := scan_stores_in_order input t targets
  have hmap : (scanSteps input t targets).map (fun step ↦ (step.before.position, step.isCount))
      = [(3, false), (4, true)] := by decide +kernel
  have hlength : (scanSteps input t targets).length = 2 := by decide +kernel
  have hcount : (scanSteps input t targets).countP (·.isCount) = 1 := by decide +kernel
  refine ⟨hmap, ?_, ?_⟩
  · rw [hlength, hcount] at hassigned
    omega
  · have hsecond := congrArg (·[1]?) hmap
    simp only [List.getElem?_map] at hsecond
    obtain ⟨step, hstep, hpair⟩ := Option.map_eq_some_iff.mp hsecond
    obtain ⟨hposition, hisCount⟩ := Prod.mk.inj hpair
    obtain ⟨old, new, hold, hnew, hstores, -, -⟩ := hsteps 1 step hstep
    obtain ⟨type, htype, hvalue⟩ := hstores.count (of_decide_eq_true hisCount)
    obtain rfl : Target.integer .int32 0 = old := Option.some.inj hold
    obtain rfl : IntType.int32 = type := Option.some.inj htype
    refine ⟨new, hnew, ?_⟩
    rw [hvalue, hposition]
    decide +kernel

end FormatString
