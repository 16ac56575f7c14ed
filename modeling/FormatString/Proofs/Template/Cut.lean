import Mathlib
import FormatString.Proofs.Template.Pieces

/-!
# Cutting a format string between two pieces

A format string can be cut wherever a piece starts. What is in front of the cut has the pieces it
had, the last literal run included, because what follows a run is a percent sign or nothing; what is
behind the cut has the pieces that come from there on.
-/

namespace FormatString

variable {w : Width} {dialect : Dialect}

theorem percentNext_take_succ (s : Text w) (k : Nat) :
    percentNext (s.take (k + 1)) = percentNext s := by
  cases s <;> rfl

def Piece.isLiteral : Piece w → Bool
  | .literal _ => true
  | _ => false

/-- The piece `p` of a format string that starts at `offset` comes `k` units behind its beginning:
the pieces in front of there are `before`, and those behind it are `after`. -/
structure CutAt (dialect : Dialect) (offset : Nat) (t : Text w) (before : List (Located w))
    (p : Located w) (after : List (Located w)) (k : Nat) : Prop where
  offset_eq : p.offset = offset + k
  lt_length : k < t.length
  front : piecesFrom dialect offset (t.take k) = before
  back : piecesFrom dialect p.offset (t.drop k) = p :: after
  percentNext : p.piece.isLiteral = false → percentNext (t.drop k)

section

variable {offset k : Nat} {t : Text w} {before after rest : List (Located w)} {p : Located w}

/-- A format string that ends, or goes on with a percent sign, does so wherever it is cut. -/
theorem percentNext_take (h : t = [] ∨ percentNext t) (k : Nat) :
    t.take k = [] ∨ percentNext (t.take k) := by
  obtain rfl | h := h
  · exact .inl List.take_nil
  · cases k with
    | zero => exact .inl List.take_zero
    | succ k => exact .inr (by rwa [percentNext_take_succ])

/-- **The first piece.** It starts where the format string does. If it is not the last one, it spans
some units, and no others have a say in it. -/
theorem piecesFrom_eq_cons (h : piecesFrom dialect offset t = p :: rest) :
    p.offset = offset ∧ (p.piece.isLiteral = false → percentNext t) ∧
      (rest ≠ [] → ∃ m, piecesFrom dialect (offset + m) (t.drop m) = rest ∧
        ∀ k, piecesFrom dialect offset (t.take (m + k))
          = p :: piecesFrom dialect (offset + m) ((t.drop m).take k)) := by
  rcases t with _ | ⟨u, s⟩
  · exact absurd h (by simp)
  cases hu : u.spells '%' with
  | false =>
    rw [piecesFrom_literal hu] at h
    obtain ⟨rfl, rfl⟩ := List.cons.inj h
    refine ⟨rfl, fun hp ↦ absurd hp (by simp [Piece.isLiteral]), fun _ ↦ ?_⟩
    have hsplit : (u :: s.takeWhile (!·.spells '%')) ++ s.dropWhile (!·.spells '%') = u :: s :=
      congrArg (u :: ·) List.takeWhile_append_dropWhile
    have hdrop : (u :: s).drop ((s.takeWhile (!·.spells '%')).length + 1)
        = s.dropWhile (!·.spells '%') := by
      rw [← hsplit]
      exact List.drop_left
    have hrun : ∀ v ∈ u :: s.takeWhile (!·.spells '%'), v.spells '%' = false := by
      refine List.forall_mem_cons.mpr ⟨hu, ?_⟩
      intro v hv
      simpa using List.mem_takeWhile_imp hv
    refine ⟨_, by rw [hdrop], ?_⟩
    intro k
    rw [hdrop, ← hsplit, ← List.length_cons, List.take_length_add_append]
    exact piecesFrom_run (List.cons_ne_nil _ _) hrun (percentNext_take (percentNext_dropWhile s) k)
  | true =>
    obtain rfl := (CodeUnit.spells_iff (by decide)).mp hu
    cases hs : percentNext s with
    | true =>
      rcases s with _ | ⟨v, s⟩
      · exact absurd hs Bool.false_ne_true
      obtain rfl := (CodeUnit.spells_iff (by decide)).mp hs
      rw [piecesFrom_percent] at h
      obtain ⟨rfl, rfl⟩ := List.cons.inj h
      refine ⟨rfl, fun _ ↦ hu, fun _ ↦ ⟨2, rfl, ?_⟩⟩
      intro k
      rw [Nat.add_comm 2 k]
      exact piecesFrom_percent
    | false =>
      cases hparse : Directive.parse dialect s with
      | error e =>
        rw [piecesFrom_malformed hs hparse] at h
        obtain ⟨rfl, rfl⟩ := List.cons.inj h
        exact ⟨rfl, fun _ ↦ hu, fun hne ↦ absurd rfl hne⟩
      | ok parsed =>
        obtain ⟨d, n⟩ := parsed
        rw [piecesFrom_directive hs hparse] at h
        obtain ⟨rfl, rfl⟩ := List.cons.inj h
        refine ⟨rfl, fun _ ↦ hu, fun _ ↦ ⟨1 + n, ?_, ?_⟩⟩
        · rw [Nat.add_comm 1 n, List.drop_succ_cons, Nat.add_right_comm, Nat.add_assoc]
        · intro k
          obtain ⟨hpos, hle⟩ := Directive.parse_le hparse
          have hdrop : (s.take (n + k)).drop n = (s.drop n).take k := by
            rw [List.take_add, List.drop_left' (List.length_take_of_le hle)]
          have hnext : percentNext (s.take (n + k)) = false := by
            obtain ⟨m, rfl⟩ := Nat.exists_eq_succ_of_ne_zero hpos.ne'
            rw [Nat.succ_add, percentNext_take_succ, hs]
          have htake : (CodeUnit.ofAscii w '%' :: s).take (1 + n + k)
              = .ofAscii w '%' :: s.take (n + k) := by
            rw [Nat.add_assoc, Nat.add_comm 1, List.take_succ_cons]
          rw [htake, piecesFrom_directive hnext (Directive.parse_take hparse k), hdrop,
            Nat.add_comm 1 n, List.drop_succ_cons, Nat.add_right_comm, Nat.add_assoc]

/-- **Every piece is a place to cut.** -/
theorem exists_cutAt (h : piecesFrom dialect offset t = before ++ p :: after) :
    ∃ k, CutAt dialect offset t before p after k := by
  induction before generalizing offset t with
  | nil =>
    obtain ⟨rfl, hpercent, -⟩ := piecesFrom_eq_cons h
    have hne : t ≠ [] := by
      rintro rfl
      exact absurd h (by simp)
    exact ⟨0, rfl, List.length_pos_iff.mpr hne, piecesFrom_nil, h, hpercent⟩
  | cons q before ih =>
    obtain ⟨-, -, hfirst⟩ := piecesFrom_eq_cons h
    obtain ⟨m, hrest, htake⟩ := hfirst (by simp)
    obtain ⟨k, hcut⟩ := ih hrest
    have hlt := hcut.lt_length
    rw [List.length_drop] at hlt
    refine ⟨m + k, ?_, by omega, ?_, ?_, ?_⟩
    · rw [hcut.offset_eq, Nat.add_assoc]
    · rw [htake, hcut.front]
    · rw [← List.drop_drop]
      exact hcut.back
    · rw [← List.drop_drop]
      exact hcut.percentNext

end

/-- **Cutting a format string in front of a piece** leaves the pieces in front of it. Unless it is a
literal run, it starts with a percent sign. -/
theorem pieces_take {t : Text w} {before after : List (Located w)} {p : Located w}
    (h : pieces dialect t = before ++ p :: after) :
    pieces dialect (t.take p.offset) = before ∧
      (p.piece.isLiteral = false → t[p.offset]? = some (.ofAscii w '%')) := by
  obtain ⟨k, hcut⟩ := exists_cutAt h
  have hk : p.offset = k := hcut.offset_eq.trans (Nat.zero_add k)
  rw [hk]
  refine ⟨hcut.front, ?_⟩
  intro hp
  obtain ⟨u, hu, hspells⟩ := (Option.any_eq_true _ _).mp (hcut.percentNext hp)
  obtain rfl := (CodeUnit.spells_iff (by decide)).mp hspells
  rw [← hu, List.head?_drop]

end FormatString
