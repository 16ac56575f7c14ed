import Mathlib
import FormatString.Proofs.Access.Directive
import FormatString.Proofs.Template.Pieces

/-!
# Format strings walked by position

The walker keeps two positions, that of the unit to look at and that of the literal run it is in,
and a directive tells it how far to go on. `piecesAt?` is the walk: it slices a run out when the
run is over, and what a directive may be parsed from when a percent sign comes. `piecesAt?_eq` says
that the two positions are where the pieces are.
-/

namespace FormatString

variable {w : Width} {dialect : Dialect} {s : Text w} {run i : Nat}

/-- The literal run between two positions, if it is not empty. -/
def literalAt? (s : Text w) (run i : Nat) : Option (List (Located w)) :=
  if run < i then (s.slice? run i).map fun units ↦ [⟨run, .literal units⟩] else some []

/-- The pieces of a format string from the position `run` on, where a literal run has started that
goes up to the position `i` at least. -/
def piecesAt? (dialect : Dialect) (s : Text w) (run i : Nat) : Option (List (Located w)) :=
  if _h : i < s.length then
    if s[i].spells '%' then do
      let front ← literalAt? s run i
      if s[i + 1]?.any (·.spells '%') then
        let rest ← piecesAt? dialect s (i + 2) (i + 2)
        some (front ++ ⟨i, .percent⟩ :: rest)
      else
        match ← (Directive.parseAt? dialect (← s.from? (i + 1))).run with
        | .ok (d, used) =>
          let rest ← piecesAt? dialect s (i + 1 + used) (i + 1 + used)
          some (front ++ ⟨i, .directive d⟩ :: rest)
        | .error e => some (front ++ [⟨i, .malformed e⟩])
    else piecesAt? dialect s run (i + 1)
  else do literalAt? s run (← s.position? i)
termination_by s.length - i

/-- Where a run is over its literal comes in front of the other pieces. -/
theorem literalAt?_eq (dialect : Dialect) (hrun : run ≤ i) (hi : i ≤ s.length)
    (hliteral : ∀ u ∈ (s.drop run).take (i - run), u.spells '%' = false)
    (hover : s.drop i = [] ∨ percentNext (s.drop i) = true) :
    ∃ front, literalAt? s run i = some front ∧
      piecesFrom dialect run (s.drop run) = front ++ piecesFrom dialect i (s.drop i) := by
  rw [literalAt?]
  split
  · next hlt =>
    have hlength : ((s.drop run).take (i - run)).length = i - run := by
      rw [List.length_take, List.length_drop]
      omega
    have hsplit : (s.drop run).take (i - run) ++ s.drop i = s.drop run := by
      conv_rhs => rw [← List.take_append_drop (i - run) (s.drop run), List.drop_drop,
        Nat.add_sub_cancel' hrun]
    refine ⟨_, by rw [Text.slice?_of_le hrun hi]; rfl, ?_⟩
    have hne : (s.drop run).take (i - run) ≠ [] := by
      rw [← List.length_pos_iff, hlength]
      omega
    have hpiece : piecesFrom dialect run ((s.drop run).take (i - run) ++ s.drop i) = _ :=
      piecesFrom_run hne hliteral hover
    rw [hsplit, hlength, Nat.add_sub_cancel' hrun] at hpiece
    exact hpiece
  · next hle =>
    obtain rfl : run = i := Nat.le_antisymm hrun (Nat.not_lt.mp hle)
    exact ⟨[], rfl, rfl⟩

/-- A literal run goes on up to the next unit. -/
theorem forall_mem_run_succ {p : CodeUnit w → Prop} (hrun : run ≤ i) (hi : i < s.length)
    (h : ∀ u ∈ (s.drop run).take (i - run), p u) (hu : p s[i]) :
    ∀ u ∈ (s.drop run).take (i + 1 - run), p u := by
  have hget : (s.drop run)[i - run]? = some s[i] := by
    rw [List.getElem?_drop, Nat.add_sub_cancel' hrun, List.getElem?_eq_getElem hi]
  rw [Nat.sub_add_comm hrun, List.take_add_one, hget, List.forall_mem_append]
  exact ⟨h, by simpa using hu⟩

/-- **The walk stays in range.** -/
theorem piecesAt?_eq (hrun : run ≤ i) (hi : i ≤ s.length)
    (hliteral : ∀ u ∈ (s.drop run).take (i - run), u.spells '%' = false) :
    piecesAt? dialect s run i = some (piecesFrom dialect run (s.drop run)) := by
  induction hk : s.length - i using Nat.strong_induction_on generalizing run i with
  | _ k ih =>
    subst hk
    -- Behind a piece there is no literal run yet.
    have hfresh {j : Nat} (hlt : i < j) (hj : j ≤ s.length) :
        piecesAt? dialect s j j = some (piecesFrom dialect j (s.drop j)) :=
      ih _ (by omega) le_rfl hj (by simp) rfl
    rw [piecesAt?]
    by_cases hlt : i < s.length
    · rw [dif_pos hlt]
      have hdrop : s.drop i = s[i] :: s.drop (i + 1) := List.drop_eq_getElem_cons hlt
      cases hu : s[i].spells '%' with
      | false =>
        rw [if_neg Bool.false_ne_true]
        exact ih _ (by omega) (Nat.le_succ_of_le hrun) hlt
          (forall_mem_run_succ hrun hlt hliteral hu) rfl
      | true =>
        rw [CodeUnit.spells_iff (by decide)] at hu
        rw [hu] at hdrop
        obtain ⟨front, hfront, hpieces⟩ := literalAt?_eq dialect hrun hi hliteral
          (.inr (by rw [hdrop]; exact CodeUnit.spells_percent))
        have hnext : s[i + 1]?.any (·.spells '%') = percentNext (s.drop (i + 1)) := by
          rw [percentNext, List.head?_drop]
        rw [if_pos rfl, hfront, hpieces, hdrop, hnext, Option.bind_eq_bind, Option.bind_some]
        split
        · next hpercent =>
          obtain ⟨t, ht⟩ := percentNext_iff.mp hpercent
          have hle : i + 2 ≤ s.length := by
            have hlength := congrArg List.length ht
            rw [List.length_drop, List.length_cons] at hlength
            omega
          have hrest : s.drop (i + 2) = t := by
            rw [← List.drop_drop (i := 1), ht]
            rfl
          rw [hfresh (by omega) hle, hrest, ht, piecesFrom_percent]
          rfl
        · next hpercent =>
          rw [Text.from?_of_le hlt, Option.bind_eq_bind, Option.bind_some,
            Directive.parseAt?_eq]
          change (match Directive.parse dialect (s.drop (i + 1)) with
            | .ok (d, used) => _
            | .error e => _) = _
          have hpercent := Bool.eq_false_of_not_eq_true hpercent
          cases hparse : Directive.parse dialect (s.drop (i + 1)) with
          | error e =>
            rw [piecesFrom_malformed hpercent hparse]
          | ok p =>
            obtain ⟨d, used⟩ := p
            have hle := (Directive.parse_le hparse).2
            rw [List.length_drop] at hle
            dsimp only
            rw [hfresh (by omega) (by omega), piecesFrom_directive hpercent hparse, List.drop_drop]
            rfl
    · obtain rfl : i = s.length := Nat.le_antisymm hi (Nat.not_lt.mp hlt)
      obtain ⟨front, hfront, hpieces⟩ :=
        literalAt?_eq dialect hrun le_rfl hliteral (.inl (List.drop_length ..))
      rw [dif_neg hlt, Text.position?_of_le le_rfl, hpieces, List.drop_length, piecesFrom_nil,
        List.append_nil]
      exact hfront

end FormatString
