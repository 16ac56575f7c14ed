import Mathlib
import FormatString.Proofs.Reader.Assignment

/-!
# Resuming a reading call

A call can be taken up by another one, which is given the input and the targets that are left. Step
by step the second call does what the first would have gone on to do. It has its own position, so its
counts of units fall short by the units in front, and only there do the targets differ.

`Resumes` relates the two states, the one that goes on and the one that starts afresh. A step
preserves it (`Resumes.matchPiece`), and so does a run.
-/

namespace FormatString

variable {w : Width}

/-! ## Raised counts -/

namespace Target

/-- The target with its number raised by `k`, or to the largest number of its type. -/
def raise (k : Nat) : Target → Target
  | integer type v => integer type (min (v + k) type.max)
  | address v => address (min (v + k) IntType.address.max)
  | other => other

/-- A count that starts `k` units later is raised by `k`, for all that both are cut at the largest
number of the type. -/
theorem storeInt_add {t : Target} {type : IntType} (h : t.intType? = some type) (k n : Nat) :
    t.storeInt (min ((k + n : Nat) : Int) type.max)
      = (t.storeInt (min (n : Int) type.max)).raise k := by
  have hmin := type.min_le_zero
  have hmax := type.zero_le_max
  have hstored (m : Nat) : type.reinterpret (min (m : Int) type.max) = min (m : Int) type.max :=
    IntType.reinterpret_of_mem (by omega) (by omega)
  have hsum : min ((k + n : Nat) : Int) type.max
      = min (min (n : Int) type.max + k) type.max := by omega
  cases t with
  | integer | address =>
    obtain rfl := Option.some.inj h
    simp only [storeInt, raise, hstored, ← hsum]
  | _ => exact absurd h (by simp [intType?])

end Target

/-- What the directive makes of its target `k` units further on. -/
def StoreStep.raise (k : Nat) (step : StoreStep w) (t : Target) : Target :=
  if step.isCount then t.raise k else t

/-- The effect of a piece `k` units further on. -/
def Piece.raise (k : Nat) (p : Piece w) (e : Effect) : Effect :=
  if p.isCount then { e with stored := e.stored.map (Target.raise k) } else e

/-! ## Two positions -/

namespace ReadState

variable {s s' : ReadState w} {offset offset' k : Nat} {d : Directive} {p p' : Located w}

/-- Two states with the same targets to come are missing one alike. -/
theorem Alike.both {P Q : Effect → Prop} {x y : Except Halt (ReadState w)}
    (h : Alike s s' offset offset' P x y) (h' : Alike s' s offset' offset Q y x) :
    (∃ halt, x = .error halt ∧ y = .error halt) ∨
      ∃ e, x = .ok (s.apply offset e) ∧ y = .ok (s'.apply offset' e) := by
  cases h with
  | missing =>
    cases h' with
    | missing => exact .inl ⟨_, rfl, rfl⟩
    | halt => exact .inl ⟨_, rfl, rfl⟩
  | halt halt => exact .inl ⟨halt, rfl, rfl⟩
  | go e => exact .inr ⟨e, rfl, rfl⟩

/-- A count that has a target stores in it, if it is an integer. -/
theorem readCount_of_pending (hsuppress : d.flags.suppress = false) {t : Target}
    {rest : List Target} (h : s.pending = t :: rest) :
    s.readCount d = t.intType?.elim (.error .badType) fun type ↦
      .ok ((s.keep (t.storeInt (min (s.position : Int) type.max))).finish d 0) := by
  rw [readCount, nextTarget_of_cons hsuppress h]
  dsimp only [bind, Except.bind]
  cases t.intType? <;> rfl

theorem readCount_behind (hpending : s'.pending = s.pending)
    (hposition : s'.position = k + s.position) (d : Directive) :
    (∃ halt, s.readCount d = .error halt ∧ s'.readCount d = .error halt) ∨
      ∃ e, s.readCount d = .ok (s.apply offset e) ∧
        s'.readCount d = .ok (s'.apply offset' { e with stored := e.stored.map (Target.raise k) }) := by
  cases hsuppress : d.flags.suppress with
  | true =>
    rw [readCount, readCount, nextTarget_of_suppress hsuppress, nextTarget_of_suppress hsuppress]
    refine .inr ⟨⟨0, none, false, d.assignments, true⟩, ?_, ?_⟩
    · exact congrArg Except.ok (s.finish_eq_apply offset d 0)
    · exact congrArg Except.ok (s'.finish_eq_apply offset' d 0)
  | false =>
    cases hs : s.pending with
    | nil =>
      rw [readCount, readCount, nextTarget_of_nil hsuppress hs,
        nextTarget_of_nil hsuppress (hpending.trans hs)]
      exact .inl ⟨.missingTarget, rfl, rfl⟩
    | cons t rest =>
      rw [readCount_of_pending hsuppress hs, readCount_of_pending hsuppress (hpending.trans hs),
        hposition]
      cases htype : t.intType? with
      | none => exact .inl ⟨.badType, rfl, rfl⟩
      | some type =>
        have hraise := Target.storeInt_add htype k s.position
        refine .inr ⟨⟨0, some (t.storeInt (min (s.position : Int) type.max)), false, d.assignments,
          true⟩, ?_, ?_⟩
        · exact congrArg Except.ok (s.finish_keep_eq_apply offset _ d 0)
        · dsimp only [Option.elim, Option.map]
          rw [hraise]
          exact congrArg Except.ok (s'.finish_keep_eq_apply offset' _ d 0)

/-- **One step further on.** A piece halts in both states for the same reason, or in both it has the
same effect but for a count. -/
theorem matchPiece_behind (hpiece : p'.piece = p.piece) (hrest : s'.rest = s.rest)
    (hpending : s'.pending = s.pending) (hposition : s'.position = k + s.position) :
    (∃ halt, s.matchPiece p = .error halt ∧ s'.matchPiece p' = .error halt) ∨
      ∃ e, s.matchPiece p = .ok (s.apply p.offset e) ∧
        s'.matchPiece p' = .ok (s'.apply p'.offset (p.piece.raise k e)) := by
  by_cases hcount : p.piece.isCount
  · simp only [Piece.raise, if_pos hcount]
    rcases p with ⟨offset, run | _ | d | fault⟩
    case directive =>
      rcases p' with ⟨offset', piece'⟩
      obtain rfl : piece' = .directive d := hpiece
      have hd : d.conversion = .countWritten := of_decide_eq_true hcount
      have hmatch (s : ReadState w) (offset : Nat) :
          s.matchPiece ⟨offset, .directive d⟩ = s.readCount d := by
        rw [matchPiece]
        dsimp only
        rw [matchDirective, hd]
      rw [hmatch, hmatch]
      exact readCount_behind hpending hposition d
    all_goals exact absurd hcount Bool.false_ne_true
  · -- Nothing else looks at the position, so each state has whatever effect the other has.
    have hagrees : s.Agrees s' := ⟨hrest, hpending ▸ List.prefix_refl _⟩
    have hagrees' : s'.Agrees s := ⟨hrest.symm, hpending ▸ List.prefix_refl _⟩
    simp only [Piece.raise, if_neg hcount]
    refine (matchPiece_alike hpiece hagrees fun h ↦ absurd h hcount).both
      (matchPiece_alike hpiece.symm hagrees' fun h ↦ absurd (hpiece ▸ h) hcount)

end ReadState

/-! ## Runs -/

/-- Behind the state `a` a call has gone on to `s'` and another, that started there, to `s`, where
the steps of the second are `steps`. -/
structure Resumes (a : ReadState w) (steps : List (StoreStep w)) (s s' : ReadState w) : Prop where
  rest : s'.rest = s.rest
  position : s'.position = a.position + s.position
  pending : s'.pending = s.pending
  length_eq : steps.length = s.stored.length
  stored : s'.stored = a.stored ++ List.zipWith (StoreStep.raise a.position) steps s.stored
  assigned : s'.assigned = a.assigned + s.assigned
  matched : s'.matched = (a.matched || s.matched)

namespace Resumes

variable {a s s' : ReadState w} {steps : List (StoreStep w)} {p p' : Located w}

/-- A call resumes itself. -/
theorem start (a : ReadState w) : Resumes a [] { rest := a.rest, pending := a.pending } a where
  rest := rfl
  position := rfl
  pending := rfl
  length_eq := rfl
  stored := (List.append_nil _).symm
  assigned := rfl
  matched := (Bool.or_false _).symm

/-- Two effects that differ in what they store. -/
theorem apply (h : Resumes a steps s s') {offset offset' : Nat} {e e' : Effect}
    {more : List (StoreStep w)} (hused : e'.used = e.used) (hassigned : e'.assigned = e.assigned)
    (hmatched : e'.matched = e.matched) (hlength : more.length = e.stored.toList.length)
    (hstored : e'.stored.toList
      = List.zipWith (StoreStep.raise a.position) more e.stored.toList) :
    Resumes a (steps ++ more) (s.apply offset e) (s'.apply offset' e') where
  rest := by rw [ReadState.apply, ReadState.apply, h.rest, hused]
  position := by
    change s'.position + e'.used = a.position + (s.position + e.used)
    rw [h.position, hused, Nat.add_assoc]
  pending := by
    have hcount : e'.stored.toList.length = e.stored.toList.length := by
      rw [hstored, List.length_zipWith, hlength, min_self]
    rw [ReadState.apply, ReadState.apply, h.pending, hcount]
  length_eq := by
    change (steps ++ more).length = (s.stored ++ e.stored.toList).length
    rw [List.length_append, List.length_append, h.length_eq, hlength]
  stored := by
    change s'.stored ++ e'.stored.toList
      = a.stored ++ List.zipWith _ (steps ++ more) (s.stored ++ e.stored.toList)
    rw [List.zipWith_append h.length_eq, h.stored, hstored, List.append_assoc]
  assigned := by
    change s'.assigned + e'.assigned = a.assigned + (s.assigned + e.assigned)
    rw [h.assigned, hassigned, Nat.add_assoc]
  matched := by
    change (s'.matched || e'.matched) = (a.matched || (s.matched || e.matched))
    rw [h.matched, hmatched, Bool.or_assoc]

/-- **A step.** The call that goes on and the one that started afresh halt for the same reason, or
both go on. -/
theorem matchPiece (h : Resumes a steps s s') (hpiece : p'.piece = p.piece) :
    (∃ halt, s.matchPiece p = .error halt ∧ s'.matchPiece p' = .error halt) ∨
      ∃ t t', s.matchPiece p = .ok t ∧ s'.matchPiece p' = .ok t' ∧
        Resumes a (steps ++ (p.piece.storing?.map (StoreStep.mk s)).toList) t t' := by
  obtain hhalt | ⟨e, hs, hs'⟩ := ReadState.matchPiece_behind hpiece h.rest h.pending h.position
  · exact .inl hhalt
  · refine .inr ⟨_, _, hs, hs', ?_⟩
    have hsame : (p.piece.raise a.position e).used = e.used ∧
        (p.piece.raise a.position e).assigned = e.assigned ∧
        (p.piece.raise a.position e).matched = e.matched := by
      rw [Piece.raise]
      split <;> exact ⟨rfl, rfl, rfl⟩
    obtain ⟨hused, hassigned, hmatched⟩ := hsame
    obtain ⟨hnone, hstored, -⟩ | ⟨d, old, new, hd, -, hstored, -⟩ := s.matchPiece_cases hs
    · have hnothing : e.stored = none := by
        have hnil : s.stored ++ e.stored.toList = s.stored := hstored
        simpa using hnil
      refine h.apply hused hassigned hmatched ?_ ?_
      · rw [hnone, hnothing]
        rfl
      · rw [hnone, hnothing, Piece.raise, hnothing]
        split <;> simp [hnothing]
    · have hnew : e.stored = some new := by
        have hone : s.stored ++ e.stored.toList = s.stored ++ [new] := hstored
        simpa [Option.toList_eq_singleton_iff] using List.append_cancel_left hone
      have hcount : p.piece.isCount = (StoreStep.mk s d).isCount := by
        rw [Piece.eq_of_storing? hd]
        rfl
      refine h.apply hused hassigned hmatched ?_ ?_
      · rw [hd, hnew]
        rfl
      · rw [hd, hnew, Piece.raise, hnew, hcount]
        change _ = [StoreStep.raise a.position ⟨s, d⟩ new]
        rw [StoreStep.raise]
        split
        · rfl
        · rw [hnew]
          rfl

/-- **A run.** What halts the one halts the other, so much further on in the format string. -/
theorem matchPieces (h : Resumes a steps s s') (k : Nat) (ps : List (Located w)) :
    Resumes a (steps ++ storeSteps s ps) (FormatString.matchPieces s ps).1
        (FormatString.matchPieces s' (ps.map (Located.shift k))).1 ∧
      (FormatString.matchPieces s' (ps.map (Located.shift k))).2
        = (FormatString.matchPieces s ps).2.map fun (offset, halt) ↦ (offset + k, halt) := by
  induction ps generalizing s s' steps with
  | nil =>
    rw [storeSteps, List.append_nil]
    exact ⟨h, rfl⟩
  | cons p ps ih =>
    rw [List.map_cons, storeSteps, FormatString.matchPieces, FormatString.matchPieces]
    have hpiece : (p.shift k).piece = p.piece := rfl
    obtain ⟨halt, hs, hs'⟩ | ⟨t, t', hs, hs', hstep⟩ := h.matchPiece hpiece
    · rw [hs, hs']
      dsimp only
      rw [List.append_nil]
      exact ⟨h, rfl⟩
    · rw [hs, hs']
      dsimp only
      rw [← List.append_assoc]
      exact ih hstep

end Resumes

end FormatString
