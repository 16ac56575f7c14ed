import Mathlib
import FormatString.Proofs.Template.Cut

/-!
# The first malformed directive

A malformed directive ends the list of pieces, so there is at most one, and it is the first one of
the format string: everything in front of it is well-formed, and what stands behind its percent sign
is no directive. `FirstMalformed` says so without the pieces, and `mem_pieces_malformed_iff` that
these find it.
-/

namespace FormatString

variable {w : Width} {dialect : Dialect}

/-- The format string is well-formed up to a percent sign at `offset` which starts no directive, and
`e` is what is wrong with it. -/
structure FirstMalformed (dialect : Dialect) (t : Text w) (offset : Nat) (e : DirectiveError) :
    Prop where
  front : ∀ p ∈ pieces dialect (t.take offset), p.isMalformed = false
  percent : t[offset]? = some (.ofAscii w '%')
  unescaped : percentNext (t.drop (offset + 1)) = false
  parse : Directive.parse dialect (t.drop (offset + 1)) = .error e

/-- The directives among the pieces are those that were parsed. -/
theorem exists_parse_of_mem_piecesFrom {offset : Nat} {t : Text w} {p : Located w} {d : Directive}
    (hp : p ∈ piecesFrom dialect offset t) (hd : p.piece = .directive d) :
    ∃ (s : Text w) (n : Nat), Directive.parse dialect s = .ok (d, n) := by
  fun_induction piecesFrom dialect offset t with
  | case1 => exact absurd hp List.not_mem_nil
  | case2 offset u rest hu hrest ih =>
    obtain rfl | hp := List.mem_cons.mp hp
    · exact absurd hd (by simp)
    · exact ih hp
  | case3 offset u rest hu hrest d' n hparse ih =>
    obtain rfl | hp := List.mem_cons.mp hp
    · obtain rfl := Piece.directive.inj hd
      exact ⟨rest, n, hparse⟩
    · exact ih hp
  | case4 offset u rest hu hrest e hparse =>
    obtain rfl := List.mem_singleton.mp hp
    exact absurd hd (by simp)
  | case5 offset u rest hu run ih =>
    obtain rfl | hp := List.mem_cons.mp hp
    · exact absurd hd (by simp)
    · exact ih hp

/-- Only the last piece can be malformed. -/
theorem isMalformed_eq_false_of_mem_dropLast {offset : Nat} {t : Text w} :
    ∀ p ∈ (piecesFrom dialect offset t).dropLast, p.isMalformed = false := by
  -- A piece that is well-formed may be the last one, and if it is not, the others are in front too.
  have hcons {p : Located w} {ps : List (Located w)} (hp : p.isMalformed = false)
      (hps : ∀ q ∈ ps.dropLast, q.isMalformed = false) :
      ∀ q ∈ (p :: ps).dropLast, q.isMalformed = false := by
    cases ps with
    | nil => simp
    | cons q ps =>
      rw [List.dropLast_cons_of_ne_nil (List.cons_ne_nil _ _)]
      exact List.forall_mem_cons.mpr ⟨hp, hps⟩
  fun_induction piecesFrom dialect offset t with
  | case1 => simp
  | case2 offset u rest hu hrest ih => exact hcons rfl ih
  | case3 offset u rest hu hrest d n hparse ih => exact hcons rfl ih
  | case4 offset u rest hu hrest e hparse => simp
  | case5 offset u rest hu run ih => exact hcons rfl ih

theorem mem_units_of_isMalformed {p q : Located w} (hp : p.isMalformed = true) :
    p ∈ q.units ↔ p = q := by
  have hrun (offset : Nat) (run : Text w) : p ∉ literalUnits offset run := by
    induction run generalizing offset with
    | nil => exact List.not_mem_nil
    | cons u run ih =>
      rw [literalUnits_cons, List.mem_cons, not_or]
      refine ⟨?_, ih _⟩
      rintro rfl
      exact absurd hp Bool.false_ne_true
  rcases q with ⟨offset, run | _ | d | e⟩
  · refine ⟨fun h ↦ absurd h (hrun offset run), ?_⟩
    rintro rfl
    exact absurd hp Bool.false_ne_true
  all_goals exact List.mem_singleton

/-- Taking the literal runs apart neither adds nor removes a malformed directive. -/
theorem mem_unitPieces_of_isMalformed {offset : Nat} {t : Text w} {p : Located w}
    (hp : p.isMalformed = true) :
    p ∈ unitPieces dialect offset t ↔ p ∈ piecesFrom dialect offset t := by
  rw [unitPieces, List.mem_flatMap]
  simp only [mem_units_of_isMalformed hp, exists_eq_right']

theorem forall_mem_unitPieces_iff {offset : Nat} {t : Text w} :
    (∀ p ∈ unitPieces dialect offset t, p.isMalformed = false) ↔
      ∀ p ∈ piecesFrom dialect offset t, p.isMalformed = false := by
  simp only [Bool.eq_false_iff]
  refine forall_congr' fun p ↦ ⟨?_, ?_⟩
  · intro h hp hmalformed
    exact h ((mem_unitPieces_of_isMalformed hmalformed).mpr hp) hmalformed
  · intro h hp hmalformed
    exact h ((mem_unitPieces_of_isMalformed hmalformed).mp hp) hmalformed

/-- The first piece is malformed only if no directive stands behind the percent sign. -/
theorem parse_of_piecesFrom_malformed {offset : Nat} {s : Text w} {p : Located w}
    {after : List (Located w)} {e : DirectiveError} (hp : p.piece = .malformed e)
    (h : piecesFrom dialect offset (.ofAscii w '%' :: s) = p :: after) :
    percentNext s = false ∧ Directive.parse dialect s = .error e := by
  have hnext : percentNext s = false := by
    refine Bool.eq_false_of_not_eq_true fun hnext ↦ ?_
    rcases s with _ | ⟨v, s⟩
    · exact absurd hnext Bool.false_ne_true
    · obtain rfl := (CodeUnit.spells_iff (by decide)).mp hnext
      rw [piecesFrom_percent] at h
      rw [← (List.cons.inj h).1] at hp
      exact absurd hp (by simp)
  refine ⟨hnext, ?_⟩
  cases hparse : Directive.parse dialect s with
  | ok parsed =>
    rw [piecesFrom_directive hnext hparse] at h
    rw [← (List.cons.inj h).1] at hp
    exact absurd hp (by simp)
  | error e' =>
    rw [piecesFrom_malformed hnext hparse] at h
    rw [← (List.cons.inj h).1] at hp
    rw [Piece.malformed.inj hp]

theorem firstMalformed_of_mem {t : Text w} {offset : Nat} {e : DirectiveError}
    (h : ⟨offset, .malformed e⟩ ∈ pieces dialect t) : FirstMalformed dialect t offset e := by
  obtain ⟨before, after, hsplit⟩ := List.append_of_mem h
  obtain ⟨k, hcut⟩ := exists_cutAt hsplit
  obtain rfl : offset = k := hcut.offset_eq.trans (Nat.zero_add k)
  obtain ⟨u, s, hdrop⟩ : ∃ u s, t.drop offset = u :: s :=
    ⟨_, _, List.drop_eq_getElem_cons hcut.lt_length⟩
  have hs : t.drop (offset + 1) = s := by
    rw [← List.drop_drop, hdrop]
    rfl
  have hu : u.spells '%' := by
    have hpercent := hcut.percentNext rfl
    rwa [hdrop] at hpercent
  obtain rfl := (CodeUnit.spells_iff (by decide)).mp hu
  have hback := hcut.back
  rw [hdrop] at hback
  obtain ⟨hnext, hparse⟩ := parse_of_piecesFrom_malformed rfl hback
  refine ⟨?_, ?_, by rw [hs, hnext], by rw [hs, hparse]⟩
  · rw [pieces, hcut.front]
    intro p hp
    have hdrop : p ∈ (piecesFrom dialect 0 t).dropLast := by
      rw [← pieces, hsplit, List.dropLast_append_cons]
      exact List.mem_append_left _ hp
    exact isMalformed_eq_false_of_mem_dropLast p hdrop
  · rw [← List.head?_drop, hdrop]
    rfl

theorem FirstMalformed.mem {t : Text w} {offset : Nat} {e : DirectiveError}
    (h : FirstMalformed dialect t offset e) : ⟨offset, .malformed e⟩ ∈ pieces dialect t := by
  have hsplit : t = t.take offset ++ .ofAscii w '%' :: t.drop (offset + 1) := by
    obtain ⟨hlt, hu⟩ := List.getElem?_eq_some_iff.mp h.percent
    rw [← hu, ← List.drop_eq_getElem_cons hlt, List.take_append_drop]
  have hlength : (t.take offset).length = offset :=
    List.length_take_of_le (List.getElem?_eq_some_iff.mp h.percent).1.le
  have happend := unitPieces_append (forall_mem_unitPieces_iff.mpr h.front)
    (.ofAscii w '%' :: t.drop (offset + 1))
  rw [← hsplit, hlength, Nat.zero_add, unitPieces_malformed h.unescaped h.parse] at happend
  have hmem : ⟨offset, .malformed e⟩ ∈ unitPieces dialect 0 t := by
    rw [happend]
    exact List.mem_append_right _ (List.mem_singleton_self _)
  exact (mem_unitPieces_of_isMalformed rfl).mp hmem

/-- **The malformed piece is the first malformed directive.** -/
theorem mem_pieces_malformed_iff {t : Text w} {offset : Nat} {e : DirectiveError} :
    ⟨offset, .malformed e⟩ ∈ pieces dialect t ↔ FirstMalformed dialect t offset e :=
  ⟨firstMalformed_of_mem, FirstMalformed.mem⟩

end FormatString
