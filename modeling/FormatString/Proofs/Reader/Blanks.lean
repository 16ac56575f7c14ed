import Mathlib
import FormatString.Proofs.Reader.Moved
import FormatString.Proofs.Reader.Value
import FormatString.Proofs.Template.Malformed

/-!
# Blanks in a format string

Blanks in a format string match any blanks of the input, and none. Unit by unit, the first one skips
all of them, and there is nothing left to skip for the second; so it makes no difference how many
there are, and which. Escaped percent signs and most directives skip blanks themselves. In front of
those it makes no difference if there are any.

The blanks have to be literal text, which they are where no directive of the format string in front
of them goes on (`EndsWhole`). Then all that changes is where the pieces behind them stand.
-/

namespace FormatString

variable {w : Width} {dialect : Dialect}

/-! ## Between the pieces -/

/-- No piece of the format string goes on in what follows it. -/
def EndsWhole (t : Text w) : Prop :=
  ∀ rest, unitPieces .scan 0 t <+: unitPieces .scan 0 (t ++ rest)

/-- The piece of a format string lies within it. -/
theorem offset_mem_of_mem_unitPieces {offset : Nat} {t : Text w} {p : Located w}
    (hp : p ∈ unitPieces dialect offset t) : offset ≤ p.offset ∧ p.offset < offset + t.length := by
  induction t using template_induction dialect generalizing offset with
  | nil => exact absurd hp (by simp [unitPieces])
  | literal u t hu ih =>
    rw [unitPieces_literal hu] at hp
    rw [List.length_cons]
    obtain rfl | hp := List.mem_cons.mp hp
    · dsimp only
      omega
    · have := ih hp
      omega
  | percent t ih =>
    rw [unitPieces_percent] at hp
    rw [List.length_cons, List.length_cons]
    obtain rfl | hp := List.mem_cons.mp hp
    · dsimp only
      omega
    · have := ih hp
      omega
  | directive s d n hs hparse ih =>
    rw [unitPieces_directive hs hparse] at hp
    rw [List.length_cons]
    obtain rfl | hp := List.mem_cons.mp hp
    · dsimp only
      omega
    · have hlt := ih hp
      rw [List.length_drop] at hlt
      have hle := (Directive.parse_le hparse).2
      omega
  | malformed s e hs hparse =>
    rw [unitPieces_malformed hs hparse] at hp
    rw [List.mem_singleton.mp hp, List.length_cons]
    dsimp only
    omega

/-- Nothing comes behind a malformed piece. -/
theorem eq_nil_of_isMalformed {offset : Nat} {t : Text w} {before after : List (Located w)}
    {p : Located w} (h : unitPieces dialect offset t = before ++ p :: after)
    (hp : p.isMalformed = true) : after = [] := by
  -- A well-formed piece is one of those in front, and the others come behind it.
  have htail {q : Located w} {ps before : List (Located w)} (hq : q.isMalformed = false)
      (h : q :: ps = before ++ p :: after) : ∃ before', ps = before' ++ p :: after := by
    cases before with
    | nil =>
      rw [(List.cons.inj h).1] at hq
      exact absurd (hp.symm.trans hq) (by decide)
    | cons q' before => exact ⟨before, (List.cons.inj h).2⟩
  induction t using template_induction dialect generalizing offset before with
  | nil => exact absurd h (by simp [unitPieces])
  | literal u t hu ih =>
    rw [unitPieces_literal hu] at h
    obtain ⟨_, hps⟩ := htail rfl h
    exact ih hps
  | percent t ih =>
    rw [unitPieces_percent] at h
    obtain ⟨_, hps⟩ := htail rfl h
    exact ih hps
  | directive s d n hs hparse ih =>
    rw [unitPieces_directive hs hparse] at h
    obtain ⟨_, hps⟩ := htail rfl h
    exact ih hps
  | malformed s e hs hparse =>
    rw [unitPieces_malformed hs hparse] at h
    cases before with
    | nil => exact (List.cons.inj h).2.symm
    | cons q before => exact absurd (List.cons.inj h).2 (by simp)

/-- No piece starts right behind a percent sign and units that start no directive. With what
follows they start one that goes on in it, or the pieces end there. -/
theorem offset_ne_of_malformed {offset : Nat} {s rest : Text w} {e : DirectiveError} {p : Located w}
    (hs : percentNext s = false) (hparse : Directive.parse dialect s = .error e)
    (hp : p ∈ unitPieces dialect offset (.ofAscii w '%' :: (s ++ rest))) :
    p.offset ≠ offset + (s.length + 1) := by
  intro hoffset
  cases hnext : percentNext (s ++ rest) with
  | true =>
    obtain rfl : s = [] := by
      cases s with
      | nil => rfl
      | cons v s => exact absurd (hs.symm.trans hnext) (by decide)
    obtain ⟨rest, rfl⟩ := percentNext_iff.mp hnext
    rw [List.nil_append, unitPieces_percent] at hp
    rw [List.length_nil] at hoffset
    obtain rfl | hp := List.mem_cons.mp hp
    · dsimp only at hoffset
      omega
    · have := offset_mem_of_mem_unitPieces hp
      omega
  | false =>
    cases hjoined : Directive.parse dialect (s ++ rest) with
    | ok x =>
      obtain ⟨d, n⟩ := x
      rw [unitPieces_directive hnext hjoined] at hp
      obtain rfl | hp := List.mem_cons.mp hp
      · dsimp only at hoffset
        omega
      -- A directive within `s` would have been read without what follows.
      · have hn : n ≤ s.length := by
          have := offset_mem_of_mem_unitPieces hp
          omega
        have hwithin := Directive.parse_take_append hjoined (s.drop n)
        rw [List.take_append_of_le_length hn, List.take_append_drop, hparse] at hwithin
        exact absurd hwithin (by simp)
    | error e' =>
      rw [unitPieces_malformed hnext hjoined] at hp
      rw [List.mem_singleton.mp hp] at hoffset
      dsimp only at hoffset
      omega

/-- In front of where a piece starts nothing is malformed. -/
theorem isMalformed_eq_false_of_mem {offset : Nat} {t rest : Text w} {p : Located w}
    (hp : p ∈ unitPieces dialect offset (t ++ rest)) (hoffset : p.offset = offset + t.length) :
    ∀ q ∈ unitPieces dialect offset t, q.isMalformed = false := by
  induction t using template_induction dialect generalizing offset with
  | nil => simp [unitPieces]
  | literal u t hu ih =>
    rw [List.cons_append, unitPieces_literal hu] at hp
    rw [List.length_cons] at hoffset
    rw [unitPieces_literal hu]
    obtain rfl | hp := List.mem_cons.mp hp
    · dsimp only at hoffset
      omega
    · exact List.forall_mem_cons.mpr ⟨rfl, ih hp (by omega)⟩
  | percent t ih =>
    rw [List.cons_append, List.cons_append, unitPieces_percent] at hp
    rw [List.length_cons, List.length_cons] at hoffset
    rw [unitPieces_percent]
    obtain rfl | hp := List.mem_cons.mp hp
    · dsimp only at hoffset
      omega
    · exact List.forall_mem_cons.mpr ⟨rfl, ih hp (by omega)⟩
  | directive s d n hs hparse ih =>
    obtain ⟨hnext, hjoined⟩ := percentNext_parse_append hs hparse rest
    have hle := (Directive.parse_le hparse).2
    rw [List.cons_append, unitPieces_directive hnext hjoined, List.drop_append_of_le_length hle]
      at hp
    rw [List.length_cons] at hoffset
    rw [unitPieces_directive hs hparse]
    obtain rfl | hp := List.mem_cons.mp hp
    · dsimp only at hoffset
      omega
    · exact List.forall_mem_cons.mpr ⟨rfl, ih hp (by rw [List.length_drop]; omega)⟩
  | malformed s e hs hparse =>
    rw [List.length_cons] at hoffset
    exact absurd hoffset (offset_ne_of_malformed hs hparse hp)

/-- Where a piece starts, all in front of it is whole. -/
theorem endsWhole_of_mem {t rest : Text w} {p : Located w}
    (hp : p ∈ unitPieces .scan 0 (t ++ rest)) (hoffset : p.offset = t.length) : EndsWhole t := by
  intro rest'
  rw [unitPieces_append (isMalformed_eq_false_of_mem hp (hoffset.trans (Nat.zero_add _).symm))]
  exact List.prefix_append _ _

/-- What follows is listed behind the pieces in front, unless one of them is malformed. -/
theorem EndsWhole.unitPieces_append {t : Text w} (h : EndsWhole t) :
    (∀ rest, unitPieces .scan 0 (t ++ rest)
      = unitPieces .scan 0 t ++ unitPieces .scan (0 + t.length) rest) ∨
    ∀ rest, unitPieces .scan 0 (t ++ rest) = unitPieces .scan 0 t := by
  by_cases hwell : ∀ p ∈ unitPieces .scan 0 t, p.isMalformed = false
  · exact .inl (FormatString.unitPieces_append hwell)
  · refine .inr fun rest ↦ ?_
    obtain ⟨p, hmem, hp⟩ : ∃ p ∈ unitPieces .scan 0 t, p.isMalformed = true := by
      simpa using hwell
    obtain ⟨before, after, hsplit⟩ := List.append_of_mem hmem
    obtain ⟨more, hmore⟩ := h rest
    rw [hsplit, List.append_assoc, List.cons_append] at hmore
    obtain ⟨rfl, rfl⟩ := List.append_eq_nil_iff.mp (eq_nil_of_isMalformed hmore.symm hp)
    rw [← hmore, hsplit, List.append_nil]

/-! ## Blank units -/

theorem spells_percent_of_isBlank {u : CodeUnit w} (hu : u.isBlank) : u.spells '%' = false := by
  refine Bool.eq_false_of_not_eq_true fun hpercent ↦ ?_
  rw [(CodeUnit.spells_iff (by decide)).mp hpercent, CodeUnit.isBlank_ofAscii (by decide)] at hu
  exact absurd hu (by decide)

/-- Blanks are literal text. -/
theorem unitPieces_blanks_append {blanks : Text w} (hblanks : ∀ u ∈ blanks, u.isBlank)
    (offset : Nat) (t : Text w) : unitPieces dialect offset (blanks ++ t)
      = literalUnits offset blanks ++ unitPieces dialect (offset + blanks.length) t := by
  induction blanks generalizing offset with
  | nil => rfl
  | cons u blanks ih =>
    obtain ⟨hu, hblanks⟩ := List.forall_mem_cons.mp hblanks
    rw [List.cons_append, unitPieces_literal (spells_percent_of_isBlank hu), ih hblanks,
      literalUnits_cons, List.cons_append, List.length_cons, Nat.add_assoc, Nat.add_comm 1]

namespace ReadState

variable {s : ReadState w}

/-- Blanks are not skipped twice. -/
theorem skipBlanks_skipBlanks (s : ReadState w) : s.skipBlanks.skipBlanks = s.skipBlanks := by
  have hskip := s.skipBlanks.consume_eq_apply 0 0
  rw [skipBlanks, takeWhile_rest_skipBlanks]
  exact hskip.trans (apply_plain_zero _ 0)

/-- One blank skips all there are, and the others nothing. -/
theorem matchPieces_blanks {blanks : Text w} (hne : blanks ≠ []) (hblanks : ∀ u ∈ blanks, u.isBlank)
    (offset : Nat) (ps : List (Located w)) :
    matchPieces s (literalUnits offset blanks ++ ps) = matchPieces s.skipBlanks ps := by
  induction blanks generalizing s offset with
  | nil => exact absurd rfl hne
  | cons u blanks ih =>
    obtain ⟨hu, hblanks⟩ := List.forall_mem_cons.mp hblanks
    have hstep : matchPieces s (literalUnits offset (u :: blanks) ++ ps)
        = matchPieces s.skipBlanks (literalUnits (offset + 1) blanks ++ ps) := by
      rw [literalUnits_cons, List.cons_append, matchPieces, matchPiece_literal_singleton,
        matchLiteral, if_pos hu]
    rw [hstep]
    cases blanks with
    | nil => rfl
    | cons v blanks => rw [ih (List.cons_ne_nil v blanks) hblanks, skipBlanks_skipBlanks]

end ReadState

/-- The piece skips blanks in front of it, or the call fails there whether they are skipped or
not. -/
def Piece.skipsBlanks : Piece w → Bool
  | .literal _ => false
  | .percent => true
  | .directive d => d.conversion ∉ [.char, .charSet, .countWritten]
  | .malformed _ => true

namespace ReadState

variable {s : ReadState w} {p : Located w} {ps : List (Located w)}

theorem matchPiece_skipBlanks (hp : p.piece.skipsBlanks) :
    s.skipBlanks.matchPiece p = s.matchPiece p := by
  rcases p with ⟨offset, run | _ | d | e⟩
  · exact absurd hp Bool.false_ne_true
  · change s.skipBlanks.matchPercent = s.matchPercent
    rw [matchPercent, matchPercent, skipBlanks_skipBlanks]
  · change s.skipBlanks.matchDirective d offset = s.matchDirective d offset
    have hd : d.conversion ∉ [.char, .charSet, .countWritten] := of_decide_eq_true hp
    rw [matchDirective, matchDirective]
    cases hk : d.conversion with
    | percent =>
      dsimp only
      rw [matchPercent, matchPercent, skipBlanks_skipBlanks]
    | char | charSet | countWritten => exact absurd hd (by rw [hk]; decide)
    | _ =>
      dsimp only
      rw [skipBlanks_skipBlanks]
  · rfl

/-- In front of a piece that skips blanks, it makes no difference whether they were skipped. -/
theorem call_skipBlanks (hp : p.piece.skipsBlanks) (inputEmpty : Bool) :
    s.skipBlanks.call inputEmpty (p :: ps) = s.call inputEmpty (p :: ps) := by
  rw [call, call, matchPieces, matchPieces, matchPiece_skipBlanks hp]
  cases s.matchPiece p with
  | ok s' => rfl
  | error halt => cases halt <;> rfl

end ReadState

/-! ## Calls -/

section Calls

variable {s r : ReadState w} {ps : List (Located w)} {front blanks blanks' back : Text w}

/-- A run that is halted does not come to what follows. -/
theorem matchPieces_append_of_some {stop : Nat × Halt} (h : matchPieces s ps = (r, some stop))
    (qs : List (Located w)) : matchPieces s (ps ++ qs) = (r, some stop) := by
  induction ps generalizing s with
  | nil => exact absurd h (by simp [matchPieces])
  | cons p ps ih =>
    rw [matchPieces] at h
    rw [List.cons_append, matchPieces]
    cases hp : s.matchPiece p with
    | ok s₁ =>
      rw [hp] at h
      exact ih h
    | error halt =>
      rw [hp] at h
      exact h

/-- The format string starts with an escaped percent sign or a directive that skips blanks. -/
def SkipsBlanks (t : Text w) : Prop := ∃ p ps, pieces .scan t = p :: ps ∧ p.piece.skipsBlanks

theorem unitPieces_eq_map_shift (k : Nat) (t : Text w) :
    unitPieces dialect k t = (unitPieces dialect 0 t).map (Located.shift k) :=
  (congrArg (unitPieces dialect · t) (Nat.zero_add k).symm).trans (unitPieces_add 0 k t)

theorem SkipsBlanks.exists_unitPieces (h : SkipsBlanks back) (k : Nat) :
    ∃ p ps, unitPieces .scan k back = p :: ps ∧ p.piece.skipsBlanks := by
  obtain ⟨p, ps, hpieces, hp⟩ := h
  have hunits : p.units = [p] := by
    rcases p with ⟨offset, run | _ | d | e⟩
    · exact absurd hp Bool.false_ne_true
    all_goals rfl
  refine ⟨p.shift k, (ps.flatMap Located.units).map (Located.shift k), ?_, hp⟩
  rw [unitPieces_eq_map_shift, unitPieces, ← pieces, hpieces, List.flatMap_cons, hunits]
  rfl

/-- Blanks in front of the pieces of `back` are skipped, or it does not matter that they are not. -/
theorem call_blanks (hblanks : ∀ u ∈ blanks, u.isBlank) (h : blanks ≠ [] ∨ SkipsBlanks back)
    (inputEmpty : Bool) (offset k : Nat) :
    s.call inputEmpty (literalUnits offset blanks ++ unitPieces .scan k back)
      = s.skipBlanks.call inputEmpty (unitPieces .scan k back) := by
  by_cases hne : blanks = []
  · obtain ⟨p, ps, hunits, hp⟩ := (h.resolve_left (not_not_intro hne)).exists_unitPieces k
    rw [hne, hunits]
    exact (ReadState.call_skipBlanks hp inputEmpty).symm
  · rw [ReadState.call, ReadState.matchPieces_blanks hne hblanks]
    rfl

/-! ### Offsets -/

/-- Where the unit at an offset stands when so many blanks behind `front` units are replaced by so
many others. -/
def reblank (front blanks blanks' offset : Nat) : Nat :=
  if offset < front then offset else offset - blanks + blanks'

theorem map_moved_unitPieces (front : Text w) (blanks blanks' : Nat) :
    (unitPieces .scan 0 front).map (Located.moved (reblank front.length blanks blanks'))
      = unitPieces .scan 0 front := by
  refine (List.map_congr_left fun p hp ↦ ?_).trans (List.map_id _)
  have hlt := (offset_mem_of_mem_unitPieces hp).2
  rw [Located.moved, reblank, if_pos (by omega)]
  rfl

theorem unitPieces_reblank (front blanks blanks' : Nat) (back : Text w) :
    unitPieces .scan (front + blanks') back
      = (unitPieces .scan (front + blanks) back).map
          (Located.moved (reblank front blanks blanks')) := by
  rw [unitPieces_eq_map_shift, unitPieces_eq_map_shift (front + blanks), List.map_map]
  refine List.map_congr_left fun p _ ↦ ?_
  rw [Function.comp_apply, Located.moved, Located.shift, Located.shift, reblank,
    if_neg (by dsimp only; omega)]
  congr 1
  dsimp only
  omega

end Calls

/-- **Blanks in a format string.** Blanks behind whole pieces may be replaced by others, and in
front of a piece that skips blanks they may be inserted and deleted. Whatever the input is and the
targets are, the call has the same outcome, with the offsets of what stands behind the blanks
moved. -/
theorem scan_blanks {front blanks blanks' back : Text w} (hfront : EndsWhole front)
    (hblanks : ∀ u ∈ blanks, u.isBlank) (hblanks' : ∀ u ∈ blanks', u.isBlank)
    (h : blanks ≠ [] ∧ blanks' ≠ [] ∨ SkipsBlanks back) (input : Text w) (targets : List Target) :
    scan input (front ++ (blanks' ++ back)) targets
      = (scan input (front ++ (blanks ++ back)) targets).moved
          (reblank front.length blanks.length blanks'.length) := by
  generalize hf : reblank front.length blanks.length blanks'.length = f
  let fresh : ReadState w := { rest := input, pending := targets }
  -- By the pieces in front, the call does the same although offsets are moved: none of these is.
  have hfixed : (unitPieces .scan 0 front).map (Located.moved f) = unitPieces .scan 0 front :=
    hf ▸ map_moved_unitPieces front blanks.length blanks'.length
  have hrunMoved := fresh.matchPieces_moved f (unitPieces .scan 0 front)
  have hcallMoved := fresh.call_moved f input.isEmpty (unitPieces .scan 0 front)
  have hfresh : fresh.moved f = fresh := rfl
  rw [hfixed, hfresh] at hrunMoved hcallMoved
  rw [scan_eq_call_units, scan_eq_call_units]
  change fresh.call _ _ = (fresh.call _ _).moved f
  obtain hsplit | hsplit := hfront.unitPieces_append
  · rw [hsplit, hsplit, unitPieces_blanks_append hblanks', unitPieces_blanks_append hblanks,
      Nat.zero_add]
    rcases hrun : matchPieces fresh (unitPieces .scan 0 front) with ⟨r, _ | stop⟩
    · have hgoes (qs : List (Located w)) :
          fresh.call input.isEmpty (unitPieces .scan 0 front ++ qs) = r.call input.isEmpty qs := by
        rw [ReadState.call, matchPieces_append_of_none hrun]
        rfl
      rw [hrun] at hrunMoved
      have hstate : r.skipBlanks = r.skipBlanks.moved f :=
        congrArg ReadState.skipBlanks (Prod.mk.inj hrunMoved).1
      rw [hgoes, hgoes, call_blanks hblanks' (h.imp_left And.right),
        call_blanks hblanks (h.imp_left And.left), unitPieces_reblank _ blanks.length, hf]
      conv_lhs => rw [hstate]
      exact ReadState.call_moved f _ _ _
    · have hstops (qs : List (Located w)) :
          fresh.call input.isEmpty (unitPieces .scan 0 front ++ qs)
            = fresh.call input.isEmpty (unitPieces .scan 0 front) := by
        rw [ReadState.call, matchPieces_append_of_some hrun, ReadState.call, hrun]
      rw [hstops, hstops]
      exact hcallMoved
  · rw [hsplit, hsplit]
    exact hcallMoved

/-- `1 2` by `%d %d` into one integer: there is no target for the second directive, wherever other
blanks make it stand. -/
theorem scan_blanks_between :
    let input := Text.ofAscii .utf8 ['1', ' ', '2']
    let front := Text.ofAscii .utf8 ['%', 'd']
    let blanks := Text.ofAscii .utf8 [' ']
    let blanks' := Text.ofAscii .utf8 ['\t', '\n', ' ']
    let targets := [Target.integer .int64 0]
    EndsWhole front ∧ (∀ u ∈ blanks, u.isBlank) ∧ (∀ u ∈ blanks', u.isBlank) ∧
      (scan input (front ++ (blanks ++ front)) targets).result = .error (.missingTarget 3 1) ∧
      (scan input (front ++ (blanks' ++ front)) targets).result = .error (.missingTarget 5 1) := by
  intro input front blanks blanks' targets
  have hstarts : (unitPieces .scan 0 (front ++ (blanks ++ front))).any (·.offset == 2) := by
    decide +kernel
  obtain ⟨p, hp, hoffset⟩ := List.any_eq_true.mp hstarts
  have hfront : EndsWhole front := endsWhole_of_mem hp (beq_iff_eq.mp hoffset)
  have hblanks : ∀ u ∈ blanks, u.isBlank := by decide +kernel
  have hblanks' : ∀ u ∈ blanks', u.isBlank := by decide +kernel
  have hresult : (scan input (front ++ (blanks ++ front)) targets).result
      = .error (.missingTarget 3 1) := by decide +kernel
  refine ⟨hfront, hblanks, hblanks', hresult, ?_⟩
  have hne : blanks ≠ [] ∧ blanks' ≠ [] := ⟨List.cons_ne_nil _ _, List.cons_ne_nil _ _⟩
  rw [scan_blanks hfront hblanks hblanks' (.inl hne), Reading.moved, hresult]
  rfl

end FormatString
