import Mathlib
import FormatString.Template.Piece
import FormatString.Proofs.Directive.Parse

/-!
# Pieces of joined format strings

`piecesFrom` recurses on what is left of a format string. Its equations, and an induction principle
with one case for each of them, are stated here once, so that no later proof has to look at how the
pieces are found.

## The seam

Two format strings can be cut apart and their pieces listed one after the other only up to the seam:
a literal run at the end of the first goes on at the start of the second. `unitPieces` takes the
runs apart, and then the law is an equation. It holds whenever the first format string ends where a
piece ends, that is when nothing in it is malformed.
-/

namespace FormatString

variable {w : Width} {dialect : Dialect}

/-! ## One piece -/

/-- The directive that a piece is. -/
def Piece.directive? : Piece w → Option Directive
  | .directive d => some d
  | _ => none

theorem Piece.directive?_eq_some_iff {p : Piece w} {d : Directive} :
    p.directive? = some d ↔ p = .directive d := by
  cases p <;> simp [directive?]

theorem CodeUnit.spells_iff {u : CodeUnit w} {c : Char} (hc : c.toNat < 0x80) :
    u.spells c ↔ u = .ofAscii w c := by
  rw [spells, beq_iff_eq]
  constructor
  · intro h
    rw [ofAscii, ← h, ofNat_value]
  · rintro rfl
    exact value_ofAscii hc

@[simp] theorem CodeUnit.spells_percent : (ofAscii w '%').spells '%' :=
  (spells_iff (by decide)).mpr rfl

/-- A percent sign comes next. -/
def percentNext (s : Text w) : Bool := s.head?.any (·.spells '%')

theorem percentNext_iff {s : Text w} : percentNext s = true ↔ ∃ t, s = .ofAscii w '%' :: t := by
  constructor
  · intro h
    obtain ⟨v, hv, hspells⟩ := (Option.any_eq_true _ _).mp h
    rw [(CodeUnit.spells_iff (by decide)).mp hspells] at hv
    exact List.head?_eq_some_iff.mp hv
  · rintro ⟨t, rfl⟩
    exact CodeUnit.spells_percent

/-- A literal run ends in front of a percent sign, or at the end. -/
theorem percentNext_dropWhile (s : Text w) :
    s.dropWhile (!·.spells '%') = [] ∨ percentNext (s.dropWhile (!·.spells '%')) := by
  rcases hs : s.dropWhile (!·.spells '%') with _ | ⟨v, t⟩
  · exact .inl hs
  · have hhead := List.head_dropWhile_not (!·.spells '%') (l := s) (by rw [hs]; simp)
    simp only [hs, List.head_cons, Bool.not_eq_false'] at hhead
    exact .inr (by rwa [hs])

/-- A directive without a slot starts with a percent sign only if it is nothing else. -/
theorem SpellsDirective.percentNext_of_ne_ordered (hdialect : dialect ≠ .ordered)
    {fields : List Char} {c : Char} {d : Directive} (h : SpellsDirective dialect fields c d)
    (hne : ¬ (fields = [] ∧ c = '%')) (r : Text w) :
    percentNext (Text.ofAscii w (fields ++ [c]) ++ r) = false := by
  rcases fields with _ | ⟨a, fields⟩
  · have hc : (c == '%') = false := beq_eq_false_iff_ne.mpr fun hc ↦ hne ⟨rfl, hc⟩
    exact (CodeUnit.spells_ofAscii h.letter_ascii).trans hc
  · have ha : a.toNat < 0x80 := h.header.ascii a List.mem_cons_self
    have hne : (a == '%') = false := beq_eq_false_iff_ne.mpr (h.header.ne_percent hdialect)
    exact (CodeUnit.spells_ofAscii ha).trans hne

theorem SpellsDirective.percentNext_eq {fields : List Char} {c : Char} {d : Directive}
    (h : SpellsDirective .print fields c d) (hne : ¬ (fields = [] ∧ c = '%')) (r : Text w) :
    percentNext (Text.ofAscii w (fields ++ [c]) ++ r) = false :=
  h.percentNext_of_ne_ordered (by decide) hne r

/-- Only the bare percent sign is spelled by nothing but the conversion letter `%`. -/
theorem SpellsDirective.bare {d : Directive} (h : SpellsDirective .print [] '%' d) :
    d.conversion = .percent ∧ d.width = none ∧ d.precision = none := by
  have hheader := h.header.eq_of_nil (by decide)
  have hletter : some Conversion.percent = some d.conversion := h.letter
  exact ⟨(Option.some.inj hletter).symm, congrArg Header.width hheader,
    congrArg Header.precision hheader⟩

section Equations

variable {offset : Nat} {u : CodeUnit w} {s t : Text w}

@[simp] theorem piecesFrom_nil : piecesFrom dialect offset ([] : Text w) = [] := by
  rw [piecesFrom]

theorem piecesFrom_percent :
    piecesFrom dialect offset (.ofAscii w '%' :: .ofAscii w '%' :: t)
      = ⟨offset, .percent⟩ :: piecesFrom dialect (offset + 2) t := by
  rw [piecesFrom, if_pos CodeUnit.spells_percent, if_pos (by simp)]
  rfl

theorem piecesFrom_directive {d : Directive} {n : Nat} (hs : percentNext s = false)
    (h : Directive.parse dialect s = .ok (d, n)) :
    piecesFrom dialect offset (.ofAscii w '%' :: s)
      = ⟨offset, .directive d⟩ :: piecesFrom dialect (offset + 1 + n) (s.drop n) := by
  rw [percentNext] at hs
  rw [piecesFrom, if_pos CodeUnit.spells_percent, if_neg (ne_true_of_eq_false hs), h]

theorem piecesFrom_malformed {e : DirectiveError} (hs : percentNext s = false)
    (h : Directive.parse dialect s = .error e) :
    piecesFrom dialect offset (.ofAscii w '%' :: s) = [⟨offset, .malformed e⟩] := by
  rw [percentNext] at hs
  rw [piecesFrom, if_pos CodeUnit.spells_percent, if_neg (ne_true_of_eq_false hs), h]

theorem piecesFrom_literal (hu : u.spells '%' = false) :
    piecesFrom dialect offset (u :: t)
      = ⟨offset, .literal (u :: t.takeWhile (!·.spells '%'))⟩ ::
        piecesFrom dialect (offset + ((t.takeWhile (!·.spells '%')).length + 1))
          (t.dropWhile (!·.spells '%')) := by
  rw [piecesFrom, if_neg (ne_true_of_eq_false hu)]
  rfl

/-- A run of literal units in front of a percent sign, or at the end, is one piece. -/
theorem piecesFrom_run {run : Text w} (hne : run ≠ []) (hrun : ∀ u ∈ run, u.spells '%' = false)
    (hs : s = [] ∨ percentNext s = true) :
    piecesFrom dialect offset (run ++ s)
      = ⟨offset, .literal run⟩ :: piecesFrom dialect (offset + run.length) s := by
  have htake : s.takeWhile (!·.spells '%') = [] := by
    rcases s with _ | ⟨v, s⟩
    · rfl
    · obtain hs | hs := hs
      · exact absurd hs (by simp)
      · exact List.takeWhile_cons_of_neg (by simpa [percentNext] using hs)
  have hdrop : s.dropWhile (!·.spells '%') = s := by
    have hsplit := List.takeWhile_append_dropWhile (p := (!·.spells '%')) (l := s)
    rwa [htake] at hsplit
  rcases run with _ | ⟨u, run⟩
  · exact absurd rfl hne
  · have hrest : ∀ v ∈ run, (!v.spells '%') = true := by
      intro v hv
      rw [hrun v (List.mem_cons_of_mem _ hv)]
      rfl
    rw [List.cons_append, piecesFrom_literal (hrun u List.mem_cons_self),
      List.takeWhile_append_of_pos hrest, List.dropWhile_append_of_pos hrest, htake, hdrop,
      List.append_nil, List.length_cons]

end Equations

/-- Induction on what is left of a format string, one unit of a literal run at a time. -/
theorem template_induction (dialect : Dialect) {motive : Text w → Prop} (nil : motive [])
    (literal : ∀ u t, u.spells '%' = false → motive t → motive (u :: t))
    (percent : ∀ t, motive t → motive (.ofAscii w '%' :: .ofAscii w '%' :: t))
    (directive : ∀ s d n, percentNext s = false → Directive.parse dialect s = .ok (d, n) →
      motive (s.drop n) → motive (.ofAscii w '%' :: s))
    (malformed : ∀ s e, percentNext s = false → Directive.parse dialect s = .error e →
      motive (.ofAscii w '%' :: s)) (t : Text w) : motive t := by
  induction hlength : t.length using Nat.strong_induction_on generalizing t with
  | _ k ih =>
    subst hlength
    match t with
    | [] => exact nil
    | u :: s =>
      -- Whatever the first piece is, what is left behind it is shorter.
      have hshorter (n : Nat) : motive (s.drop n) :=
        ih _ (by rw [List.length_drop, List.length_cons]; omega) _ rfl
      cases hu : u.spells '%' with
      | false => exact literal u s hu (hshorter 0)
      | true =>
        obtain rfl := (CodeUnit.spells_iff (by decide)).mp hu
        cases hs : percentNext s with
        | true =>
          obtain ⟨t, rfl⟩ := percentNext_iff.mp hs
          exact percent t (hshorter 1)
        | false =>
          cases h : Directive.parse dialect s with
          | ok p => exact directive s p.1 p.2 hs h (hshorter p.2)
          | error e => exact malformed s e hs h

/-! ## Offsets -/

/-- The piece `k` units further on. -/
def Located.shift (k : Nat) (p : Located w) : Located w := ⟨p.offset + k, p.piece⟩

/-- Where a format string starts only shows in the offsets. -/
theorem piecesFrom_add (offset k : Nat) (t : Text w) :
    piecesFrom dialect (offset + k) t = (piecesFrom dialect offset t).map (Located.shift k) := by
  fun_induction piecesFrom dialect offset t with
  | case1 => simp
  | case2 offset u rest hu hrest ih =>
    rw [piecesFrom, if_pos hu, if_pos hrest, List.map_cons, ← ih, Nat.add_right_comm offset k 2]
    rfl
  | case3 offset u rest hu hrest d n h ih =>
    have hoffset : offset + k + 1 + n = offset + 1 + n + k := by omega
    rw [piecesFrom, if_pos hu, if_neg hrest, h, List.map_cons, ← ih, ← hoffset]
    rfl
  | case4 offset u rest hu hrest e h =>
    rw [piecesFrom, if_pos hu, if_neg hrest, h]
    rfl
  | case5 offset u rest hu run ih =>
    rw [piecesFrom, if_neg hu, List.map_cons, ← ih, Nat.add_right_comm offset run.length k]
    rfl

/-! ## Literal runs taken apart -/

/-- A literal run as one piece for each of its units. -/
def literalUnits (offset : Nat) : Text w → List (Located w)
  | [] => []
  | u :: rest => ⟨offset, .literal [u]⟩ :: literalUnits (offset + 1) rest

/-- The piece, or the units of a literal run. -/
def Located.units (p : Located w) : List (Located w) :=
  match p.piece with
  | .literal run => literalUnits p.offset run
  | _ => [p]

/-- The pieces of a format string, its literal runs taken apart. -/
def unitPieces (dialect : Dialect) (offset : Nat) (t : Text w) : List (Located w) :=
  (piecesFrom dialect offset t).flatMap Located.units

theorem literalUnits_cons (offset : Nat) (u : CodeUnit w) (rest : Text w) :
    literalUnits offset (u :: rest)
      = ⟨offset, .literal [u]⟩ :: literalUnits (offset + 1) rest := rfl

theorem Located.units_literal (offset : Nat) (run : Text w) :
    (⟨offset, .literal run⟩ : Located w).units = literalUnits offset run := rfl

theorem Located.units_shift (k : Nat) (p : Located w) :
    (p.shift k).units = p.units.map (shift k) := by
  have hrun (offset : Nat) (run : Text w) :
      literalUnits (offset + k) run = (literalUnits offset run).map (shift k) := by
    induction run generalizing offset with
    | nil => rfl
    | cons u rest ih =>
      rw [literalUnits_cons, literalUnits_cons, List.map_cons, Nat.add_right_comm, ih]
      rfl
  rcases p with ⟨offset, run | _ | d | e⟩
  · exact hrun offset run
  all_goals rfl

theorem unitPieces_add (offset k : Nat) (t : Text w) :
    unitPieces dialect (offset + k) t = (unitPieces dialect offset t).map (Located.shift k) := by
  rw [unitPieces, unitPieces, piecesFrom_add, List.flatMap_map, List.map_flatMap]
  exact congrArg (List.flatMap · _) (funext (Located.units_shift k))

theorem unitPieces_literal {offset : Nat} {u : CodeUnit w} {t : Text w}
    (hu : u.spells '%' = false) :
    unitPieces dialect offset (u :: t)
      = ⟨offset, .literal [u]⟩ :: unitPieces dialect (offset + 1) t := by
  rw [unitPieces, piecesFrom_literal hu, List.flatMap_cons, Located.units_literal,
    literalUnits_cons, List.cons_append, unitPieces]
  congr 1
  -- The run goes on in `t` only if a literal unit comes next.
  cases t with
  | nil => simp [literalUnits]
  | cons v t =>
    cases hv : v.spells '%' with
    | true =>
      rw [List.takeWhile_cons_of_neg (by simp [hv]), List.dropWhile_cons_of_neg (by simp [hv])]
      rfl
    | false =>
      have hoffset (n : Nat) : offset + (n + 1 + 1) = offset + 1 + (n + 1) := by omega
      rw [List.takeWhile_cons_of_pos (by simp [hv]), List.dropWhile_cons_of_pos (by simp [hv]),
        piecesFrom_literal hv, List.flatMap_cons, Located.units_literal, List.length_cons, hoffset]

theorem unitPieces_percent {offset : Nat} {t : Text w} :
    unitPieces dialect offset (.ofAscii w '%' :: .ofAscii w '%' :: t)
      = ⟨offset, .percent⟩ :: unitPieces dialect (offset + 2) t := by
  rw [unitPieces, piecesFrom_percent]
  rfl

theorem unitPieces_directive {offset : Nat} {s : Text w} {d : Directive} {n : Nat}
    (hs : percentNext s = false) (h : Directive.parse dialect s = .ok (d, n)) :
    unitPieces dialect offset (.ofAscii w '%' :: s)
      = ⟨offset, .directive d⟩ :: unitPieces dialect (offset + 1 + n) (s.drop n) := by
  rw [unitPieces, piecesFrom_directive hs h]
  rfl

theorem unitPieces_malformed {offset : Nat} {s : Text w} {e : DirectiveError}
    (hs : percentNext s = false) (h : Directive.parse dialect s = .error e) :
    unitPieces dialect offset (.ofAscii w '%' :: s) = [⟨offset, .malformed e⟩] := by
  rw [unitPieces, piecesFrom_malformed hs h]
  rfl

/-- A directive lies within the text it is parsed from, so what is joined to the text makes no
difference. -/
theorem percentNext_parse_append {s : Text w} {d : Directive} {n : Nat}
    (hs : percentNext s = false) (h : Directive.parse dialect s = .ok (d, n)) (t : Text w) :
    percentNext (s ++ t) = false ∧ Directive.parse dialect (s ++ t) = .ok (d, n) := by
  have hle := Directive.parse_le h
  constructor
  · cases s with
    | nil => exact absurd hle.1 (Nat.not_lt.mpr hle.2)
    | cons v s => exact hs
  · have htake := Directive.parse_take_append h (s.drop n ++ t)
    rwa [← List.append_assoc, List.take_append_drop] at htake

/-- The piece starts no well-formed directive. -/
def Located.isMalformed (p : Located w) : Bool :=
  match p.piece with
  | .malformed _ => true
  | _ => false

/-- **Joined format strings.** If the first contains nothing malformed, the pieces of the second
come behind those of the first. -/
theorem unitPieces_append {offset : Nat} {t₁ : Text w}
    (h : ∀ p ∈ unitPieces dialect offset t₁, p.isMalformed = false) (t₂ : Text w) :
    unitPieces dialect offset (t₁ ++ t₂)
      = unitPieces dialect offset t₁ ++ unitPieces dialect (offset + t₁.length) t₂ := by
  induction t₁ using template_induction dialect generalizing offset with
  | nil => simp [unitPieces]
  | literal u t hu ih =>
    rw [unitPieces_literal hu] at h
    rw [List.cons_append, unitPieces_literal hu, unitPieces_literal hu,
      ih (List.forall_mem_cons.mp h).2, List.cons_append, List.length_cons, Nat.add_assoc,
      Nat.add_comm 1]
  | percent t ih =>
    rw [unitPieces_percent] at h
    rw [List.cons_append, List.cons_append, unitPieces_percent, unitPieces_percent,
      ih (List.forall_mem_cons.mp h).2, List.cons_append, List.length_cons, List.length_cons,
      Nat.add_assoc, Nat.add_comm 2]
  | directive s d n hs hparse ih =>
    rw [unitPieces_directive hs hparse] at h
    have hle := Directive.parse_le hparse
    obtain ⟨hnext, hjoined⟩ := percentNext_parse_append hs hparse t₂
    rw [List.cons_append, unitPieces_directive hs hparse, unitPieces_directive hnext hjoined,
      List.drop_append_of_le_length hle.2, ih (List.forall_mem_cons.mp h).2, List.cons_append,
      List.length_cons, List.length_drop]
    congr 3
    omega
  | malformed s e hs hparse =>
    rw [unitPieces_malformed hs hparse] at h
    exact absurd (h _ (List.mem_singleton_self _)) (by simp [Located.isMalformed])

end FormatString
