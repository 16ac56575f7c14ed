import Mathlib
import FormatString.Proofs.Directive.Encoded
import FormatString.Proofs.Template.Pieces

/-!
# Pieces of strings

The pieces of a format string that is the spelling of a string are those of the string, located by
the characters in front of them. Literal runs end where a percent sign comes, which is a unit of its
own at every width, so no run ends within a character.
-/

namespace FormatString

variable {w : Width} {dialect : Dialect}

/-- A piece of a string. -/
inductive StringPiece where
  | literal (run : List Char)
  | percent
  | directive (d : Directive)
  | malformed (f : DirectiveFault)

/-- The piece as it is spelled in a width. -/
def StringPiece.at (w : Width) : StringPiece → Piece w
  | literal run => .literal (encode w run)
  | percent => .percent
  | directive d => .directive d
  | malformed f => .malformed (f.at w)

/-- A piece of a string and the characters in front of it. -/
structure LocatedString where
  front : List Char
  piece : StringPiece

/-- The piece as it is spelled in a width, with the offset it has there. -/
def LocatedString.at (w : Width) (p : LocatedString) : Located w :=
  ⟨(encode w p.front).length, p.piece.at w⟩

namespace LocatedString

/-- Where the piece comes from. -/
structure In (p : LocatedString) (t : List Char) : Prop where
  front : p.front <+: t
  literal : ∀ run, p.piece = .literal run → run ⊆ t
  malformed : ∀ f, p.piece = .malformed f → f.In t

/-- The piece is a directive at every width or at none. -/
theorem at_eq_directive_iff {p : LocatedString} {d : Directive} :
    (p.at w).piece = .directive d ↔ p.piece = .directive d := by
  rcases p with ⟨front, run | _ | d' | f⟩
  case directive => simp [LocatedString.at, StringPiece.at]
  all_goals simp [LocatedString.at, StringPiece.at]

/-- The offset is that of the characters in front. -/
theorem offset_at {p : LocatedString} {t : List Char} (hp : p.In t) (w : Width) :
    (p.at w).offset = (encode w (t.take p.front.length)).length := by
  rw [← List.prefix_iff_eq_take.mp hp.front]
  rfl

end LocatedString

theorem percentNext_encode (cs : List Char) :
    percentNext (encode w cs) = cs.head?.any (· == '%') := by
  rcases cs with _ | ⟨c, cs⟩
  · rfl
  · obtain ⟨u, tail, hcons⟩ := List.exists_cons_of_ne_nil (encodeChar_ne_nil w c)
    have hu := spells_of_mem_encodeChar (a := '%') (by decide)
      (hcons ▸ List.mem_cons_self (a := u) (l := tail))
    rw [encode_cons, hcons]
    exact hu

theorem encode_percent_cons (w : Width) (cs : List Char) :
    encode w ('%' :: cs) = .ofAscii w '%' :: encode w cs := by
  rw [encode_cons, encodeChar_of_ascii (by decide)]
  rfl

/-- Behind the characters `front`, the string `t` has these pieces at every width. -/
structure HasPieces (dialect : Dialect) (front t : List Char) (ps : List LocatedString) : Prop where
  mem : ∀ p ∈ ps, p.In (front ++ t)
  eq : ∀ w, piecesFrom dialect (encode w front).length (encode w t) = ps.map (·.at w)

namespace HasPieces

variable {front t : List Char} {ps : List LocatedString}

theorem nil : HasPieces dialect front [] [] := ⟨by simp, fun w ↦ piecesFrom_nil⟩

/-- A piece in front, which takes the characters `x`. -/
theorem cons {x : List Char} {piece : StringPiece} (h : HasPieces dialect (front ++ x) t ps)
    (hliteral : ∀ run, piece = .literal run → run ⊆ x) (hmalformed : ∀ f, piece ≠ .malformed f)
    (hfirst : ∀ w, piecesFrom dialect (encode w front).length (encode w (x ++ t))
      = ⟨(encode w front).length, piece.at w⟩ ::
        piecesFrom dialect ((encode w front).length + (encode w x).length) (encode w t)) :
    HasPieces dialect front (x ++ t) (⟨front, piece⟩ :: ps) where
  mem := by
    refine List.forall_mem_cons.mpr ⟨⟨List.prefix_append _ _, fun run hrun c hc ↦ ?_, ?_⟩, ?_⟩
    · exact List.mem_append_right _ (List.mem_append_left _ (hliteral run hrun hc))
    · exact fun f hf ↦ absurd hf (hmalformed f)
    · rw [← List.append_assoc]
      exact h.mem
  eq w := by
    rw [hfirst, ← List.length_append, ← encode_append, h.eq]
    rfl

theorem percent (h : HasPieces dialect (front ++ ['%', '%']) t ps) :
    HasPieces dialect front (['%', '%'] ++ t) (⟨front, .percent⟩ :: ps) := by
  refine h.cons (fun run hrun ↦ absurd hrun (by simp)) (by simp) fun w ↦ ?_
  rw [List.cons_append, List.singleton_append, encode_percent_cons, encode_percent_cons,
    piecesFrom_percent, encode_percent_cons, encode_percent_cons]
  rfl

/-- What follows the percent sign of a directive is no second one. -/
theorem percentNext_eq_false (hnext : t.head? ≠ some '%') (w : Width) :
    percentNext (encode w t) = false := by
  rw [percentNext_encode]
  cases t with
  | nil => rfl
  | cons c t => simpa using hnext

theorem directive {d : Directive} {k : Nat}
    (h : HasPieces dialect (front ++ '%' :: t.take k) (t.drop k) ps) (hnext : t.head? ≠ some '%')
    (hparse : ∀ w, Directive.parse dialect (encode w t) = .ok (d, (encode w (t.take k)).length)) :
    HasPieces dialect front ('%' :: t) (⟨front, .directive d⟩ :: ps) := by
  have hsplit : '%' :: t = '%' :: t.take k ++ t.drop k := by simp
  rw [hsplit]
  refine h.cons (fun run hrun ↦ absurd hrun (by simp)) (by simp) fun w ↦ ?_
  rw [← hsplit, encode_percent_cons, piecesFrom_directive (percentNext_eq_false hnext w) (hparse w),
    drop_encode, encode_percent_cons, List.length_cons, Nat.add_assoc, Nat.add_comm 1]
  rfl

theorem malformed {f : DirectiveFault} (hnext : t.head? ≠ some '%') (hf : f.In t)
    (hparse : ∀ w, Directive.parse dialect (encode w t) = .error (f.at w)) :
    HasPieces dialect front ('%' :: t) [⟨front, .malformed f⟩] where
  mem := by
    refine List.forall_mem_singleton.mpr ⟨List.prefix_append _ _, fun run h ↦ absurd h (by simp), ?_⟩
    rintro f' hf'
    obtain rfl := StringPiece.malformed.inj hf'
    exact hf.mono fun c hc ↦ List.mem_append_right _ (List.mem_cons_of_mem _ hc)
  eq w := by
    rw [encode_percent_cons, piecesFrom_malformed (percentNext_eq_false hnext w) (hparse w)]
    rfl

/-- A run of characters goes up to the next percent sign. -/
theorem run (h : HasPieces dialect (front ++ t.takeWhile (!· == '%')) (t.dropWhile (!· == '%')) ps)
    (hne : t.takeWhile (!· == '%') ≠ []) :
    HasPieces dialect front t (⟨front, .literal (t.takeWhile (!· == '%'))⟩ :: ps) := by
  have hclass (w : Width) : ∀ c, ∀ u ∈ encodeChar w c, (!u.spells '%') = !(c == '%') := by
    intro c u hu
    rw [spells_of_mem_encodeChar (by decide) hu]
  have hliteral : ∀ run, StringPiece.literal (t.takeWhile (!· == '%')) = .literal run →
      run ⊆ t.takeWhile (!· == '%') := by
    rintro run hrun
    rw [StringPiece.literal.inj hrun]
    exact List.Subset.refl _
  have hcons := h.cons hliteral (by simp) fun w ↦ by
    have hrun : ∀ u ∈ (encode w t).takeWhile (!·.spells '%'), u.spells '%' = false := by
      intro u hu
      simpa using List.mem_takeWhile_imp hu
    have hnext := percentNext_dropWhile (encode w t)
    rw [takeWhile_encode (hclass w)] at hrun
    rw [dropWhile_encode (hclass w)] at hnext
    rw [encode_append, piecesFrom_run (encode_ne_nil hne) hrun hnext]
    rfl
  rwa [List.takeWhile_append_dropWhile] at hcons

end HasPieces

/-- **Pieces of a string.** They are the same at every width. -/
theorem exists_hasPieces (dialect : Dialect) (front t : List Char) :
    ∃ ps, HasPieces dialect front t ps := by
  induction hlength : t.length using Nat.strong_induction_on generalizing front t with
  | _ n ih =>
    subst hlength
    -- What is left behind the first piece is shorter.
    have hbehind (x t' : List Char) (ht : t = x ++ t') (hx : x ≠ []) :
        ∃ ps, HasPieces dialect (front ++ x) t' ps := by
      refine ih _ ?_ (front ++ x) t' rfl
      have hpos := List.length_pos_iff.mpr hx
      rw [ht, List.length_append]
      omega
    rcases t with _ | ⟨c, t⟩
    · exact ⟨[], .nil⟩
    by_cases hc : c = '%'
    · subst hc
      by_cases hnext : t.head? = some '%'
      · obtain ⟨t, rfl⟩ := List.head?_eq_some_iff.mp hnext
        obtain ⟨ps, hps⟩ := hbehind ['%', '%'] t rfl (by simp)
        exact ⟨_, hps.percent⟩
      obtain ⟨d, k, hparse⟩ | ⟨f, hf, hparse⟩ := Directive.parse_encode dialect t
      · obtain ⟨ps, hps⟩ := hbehind ('%' :: t.take k) (t.drop k) (by simp) (by simp)
        exact ⟨_, hps.directive hnext hparse⟩
      · exact ⟨_, .malformed hnext hf hparse⟩
    · have hne : (c :: t).takeWhile (!· == '%') ≠ [] := by simp [hc]
      obtain ⟨ps, hps⟩ := hbehind _ _ List.takeWhile_append_dropWhile.symm hne
      exact ⟨_, hps.run hne⟩

/-- The pieces of a whole string. -/
theorem exists_pieces_encode (dialect : Dialect) (t : List Char) :
    ∃ ps : List LocatedString, (∀ p ∈ ps, p.In t) ∧
      ∀ w, pieces dialect (encode w t) = ps.map (·.at w) := by
  obtain ⟨ps, hps⟩ := exists_hasPieces dialect [] t
  exact ⟨ps, hps.mem, hps.eq⟩

end FormatString
