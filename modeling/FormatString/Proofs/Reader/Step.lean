import Mathlib
import FormatString.Proofs.Directive.Parse
import FormatString.Proofs.Reader.Effect

/-!
# Matching a piece

What matching a piece does depends on the input that is left and on the next target, and for counts
on the position. `matchPiece_alike` says so about two states that agree in these things, and says of
the effect what it can be. With the same state twice it is the inversion lemma `matchPiece_eq_ok`. No
later proof looks into the matching of a piece again.
-/

namespace FormatString

variable {w : Width}

/-! ## Directives -/

namespace Conversion

variable {k : Conversion}

theorem ne_of_value (h : k.isInteger ∨ k = pointer ∨ k.isFloat ∨ k.isText) :
    k ≠ countWritten ∧ k ≠ percent := by
  revert h
  cases k <;> decide

theorem not_isInteger (h : k.isFloat ∨ k.isText) : ¬ (k.isInteger ∨ k = pointer) := by
  revert h
  cases k <;> decide

end Conversion

namespace ReadState

variable {s s' : ReadState w} {d : Directive} (offset offset' : Nat)

theorem readInteger_alike (h : s.Agrees s')
    (hd : d.conversion.isInteger ∨ d.conversion = .pointer) :
    Alike s s' offset offset' (d.Does s (s.field d)) (s.readInteger d offset)
      (s'.readInteger d offset') := by
  obtain ⟨hcount, hpercent⟩ := Conversion.ne_of_value (hd.imp_right .inl)
  refine Alike.claim h fun target htarget ↦ ?_
  rw [h.field d]
  dsimp only
  split
  · exact .halt _
  · next type htype =>
    split
    · exact .halt _
    · rw [finish_settle_eq_apply, finish_settle_eq_apply]
      have hle := (type.consumed_read_le d.conversion.base (Text.asciiRun (s.field d))).trans
        (s.length_asciiRun_field_le d)
      refine .go _ (Directive.does_map htarget hpercent hle _ ?_)
      intro old hold
      obtain rfl : target = some old := hold
      have hold : old.intType? = some type := by
        dsimp only at htype
        split at htype
        · exact Target.intType?_of_addressType? htype
        · exact htype
      obtain ⟨hmin, hmax⟩ := type.read_mem d.conversion.base (Text.asciiRun (s.field d))
      exact ⟨Target.kind_storeInt _ _,
        fun _ ↦ ⟨type, hold, Target.integer?_storeInt hold hmin hmax⟩,
        fun hk ↦ absurd hk hcount⟩

/-- What reads neither integers nor counts only has to keep the kind of its target. -/
theorem stores_of_kind (hd : d.conversion.isFloat ∨ d.conversion.isText) {field : Text w}
    {position : Nat} {old new : Target} (hkind : new.kind = old.kind) :
    d.Stores field position old new :=
  ⟨hkind, fun hk ↦ absurd hk (Conversion.not_isInteger hd),
    fun hk ↦ absurd hk (Conversion.ne_of_value (.inr (.inr hd))).1⟩

theorem readFloat_alike (h : s.Agrees s') (hd : d.conversion.isFloat) :
    Alike s s' offset offset' (d.Does s (s.field d)) (s.readFloat d offset)
      (s'.readFloat d offset') := by
  have hpercent := (Conversion.ne_of_value (.inr (.inr (.inl hd)))).2
  refine Alike.claim h fun target htarget ↦ ?_
  rw [h.field d]
  dsimp only
  split
  · exact .halt _
  · split
    · exact .halt _
    · rw [finish_settle_eq_apply, finish_settle_eq_apply]
      have hle := (consumed_readFloat_le .binary64 (Text.asciiRun (s.field d))).trans
        (s.length_asciiRun_field_le d)
      refine .go _ (Directive.does_map htarget hpercent hle _ ?_)
      intro old _
      exact stores_of_kind (.inl hd) (Target.kind_storeFloat _ _)

theorem storeUnits_alike (h : s.Agrees s') (hd : d.conversion.isText) {n : Nat}
    (hn : n ≤ s.rest.length) :
    Alike s s' offset offset' (d.Does s (s.field d)) (s.storeUnits d n) (s'.storeUnits d n) := by
  have hpercent := (Conversion.ne_of_value (.inr (.inr (.inr hd)))).2
  refine Alike.claim h fun target htarget ↦ ?_
  rw [h.rest]
  cases target with
  | none =>
    rw [s.finish_eq_apply offset, s'.finish_eq_apply offset']
    exact .go _ (Directive.does_map (f := id) htarget hpercent hn _ (by simp))
  | some t =>
    dsimp only
    split
    · next t' ht' =>
      have hkind : t'.kind = t.kind := by
        split at ht'
        · exact Target.kind_of_storeChar? ht'
        · exact Target.kind_of_storeText? ht'
      rw [s.finish_keep_eq_apply offset, s'.finish_keep_eq_apply offset']
      refine .go _ (Directive.does_map (f := fun _ ↦ t') htarget hpercent hn _ ?_)
      intro old hold
      obtain rfl : t = old := Option.some.inj hold
      exact stores_of_kind (.inr hd) hkind
    · exact .halt _

theorem readChars_alike (h : s.Agrees s') (hd : d.conversion.isText) :
    Alike s s' offset offset' (d.Does s (s.field d)) (s.readChars d) (s'.readChars d) := by
  rw [readChars, readChars, h.rest]
  split
  · split
    · next hdecode => exact storeUnits_alike offset offset' h hd (decode?_le hdecode)
    · exact .halt _
  · next n _ =>
    by_cases hlong : s.rest.length < n
    · rw [if_pos hlong, if_pos hlong]
      exact .halt _
    · rw [if_neg hlong, if_neg hlong]
      exact storeUnits_alike offset offset' h hd (Nat.le_of_not_lt hlong)

theorem readWord_alike (h : s.Agrees s') (hd : d.conversion.isText) :
    Alike s s' offset offset' (d.Does s (s.field d)) (s.readWord d) (s'.readWord d) := by
  rw [readWord, readWord, h.field d]
  exact storeUnits_alike offset offset' h hd
    ((List.takeWhile_sublist _).length_le.trans (s.length_field_le d))

theorem readSet_alike (h : s.Agrees s') (hd : d.conversion.isText) :
    Alike s s' offset offset' (d.Does s (s.field d)) (s.readSet d) (s'.readSet d) := by
  rw [readSet, readSet, h.field d]
  split
  · exact .halt _
  · next set _ =>
    dsimp only
    split
    · exact .halt _
    · refine storeUnits_alike offset offset' h hd ?_
      rw [List.prefix_iff_eq_take.mp
        (List.takeWhile_prefix fun c : Spelled w ↦ set.admits c.char.toNat)]
      exact (length_unitsOf_take_le _ _).trans (s.length_field_le d)

theorem readCount_alike (h : s.Agrees s') (hposition : s'.position = s.position)
    (hd : d.conversion = .countWritten) (field : Text w) :
    Alike s s' offset offset' (d.Does s field) (s.readCount d) (s'.readCount d) := by
  have hpercent : d.conversion ≠ .percent := by
    rw [hd]
    decide
  refine Alike.claim h fun target htarget ↦ ?_
  rw [hposition]
  cases target with
  | none =>
    rw [s.finish_eq_apply offset, s'.finish_eq_apply offset']
    exact .go _ (Directive.does_map (f := id) htarget hpercent (Nat.zero_le _) _ (by simp))
  | some t =>
    dsimp only
    split
    · next type htype =>
      rw [s.finish_keep_eq_apply offset, s'.finish_keep_eq_apply offset']
      refine .go _ (Directive.does_map (f := fun t ↦ t.storeInt (min (s.position : Int) type.max))
        htarget hpercent (Nat.zero_le _) _ ?_)
      intro old hold
      obtain rfl : t = old := Option.some.inj hold
      refine ⟨Target.kind_storeInt _ _, ?_, ?_⟩
      · intro hk
        rw [hd] at hk
        exact absurd hk (by decide)
      · intro _
        have hmin := type.min_le_zero
        have hmax := type.zero_le_max
        exact ⟨type, htype, Target.integer?_storeInt htype (by omega) (by omega)⟩
    · exact .halt _

/-- **One value.** -/
theorem readValue_alike (h : s.Agrees s') (hcount : d.conversion ≠ .countWritten)
    (hpercent : d.conversion ≠ .percent) :
    Alike s s' offset offset' (d.Does s (s.field d)) (s.readValue d offset)
      (s'.readValue d offset') := by
  rw [readValue, readValue, h.rest]
  split
  · exact .halt _
  · cases hd : d.conversion with
    | floatSci | floatFixed | floatShortest =>
      exact readFloat_alike offset offset' h (by rw [hd]; rfl)
    | string => exact readWord_alike offset offset' h (by rw [hd]; rfl)
    | char => exact readChars_alike offset offset' h (by rw [hd]; rfl)
    | charSet => exact readSet_alike offset offset' h (by rw [hd]; rfl)
    | countWritten => exact absurd hd hcount
    | percent => exact absurd hd hpercent
    | pointer => exact readInteger_alike offset offset' h (.inr hd)
    | _ => exact readInteger_alike offset offset' h (.inl (by rw [hd]; rfl))

/-! ## Pieces -/

theorem matchUnit_alike (hrest : s'.rest = s.rest) (u : CodeUnit w) :
    Alike s s' offset offset' (fun e ↦ e = .plain 1 true ∧ 1 ≤ s.rest.length) (s.matchUnit u)
      (s'.matchUnit u) := by
  have hmatched (s : ReadState w) (offset : Nat) :
      { s.consume 1 with matched := true } = s.apply offset (.plain 1 true) := by
    simp [apply, consume, Effect.plain]
  rw [matchUnit, matchUnit, hrest]
  cases hs : s.rest with
  | nil => exact .halt _
  | cons v rest =>
    dsimp only
    split
    · rw [hmatched s offset, hmatched s' offset']
      exact .go _ ⟨rfl, Nat.le_add_left _ _⟩
    · exact .halt _

theorem length_takeWhile_isBlank_le (s : ReadState w) :
    (s.rest.takeWhile (·.isBlank)).length ≤ s.rest.length :=
  (List.takeWhile_sublist _).length_le

theorem matchPercent_alike (hrest : s'.rest = s.rest) :
    Alike s s' offset offset' (fun e ↦ ∃ n, e = .plain n true ∧ n ≤ s.rest.length) s.matchPercent
      s'.matchPercent := by
  have hblanks := s.length_takeWhile_isBlank_le
  rw [matchPercent, matchPercent, skipBlanks, skipBlanks, hrest]
  refine (matchUnit_alike offset offset' (congrArg (List.drop _) hrest) _).of_consume ?_
  rintro e ⟨rfl, hle⟩
  refine ⟨_, rfl, ?_⟩
  rw [consume, List.length_drop] at hle
  change _ + 1 ≤ _
  omega

theorem matchLiteral_alike (hrest : s'.rest = s.rest) (u : CodeUnit w) :
    Alike s s' offset offset' (fun e ↦ ∃ n matched, e = .plain n matched ∧ n ≤ s.rest.length)
      (s.matchLiteral u) (s'.matchLiteral u) := by
  rw [matchLiteral, matchLiteral]
  split
  · rw [skipBlanks, skipBlanks, hrest, s.consume_eq_apply offset, s'.consume_eq_apply offset']
    exact .go _ ⟨_, _, rfl, s.length_takeWhile_isBlank_le⟩
  · refine (matchUnit_alike offset offset' hrest u).mono ?_
    rintro e ⟨rfl, hle⟩
    exact ⟨1, true, rfl, hle⟩

/-- **A literal run**, unit by unit. -/
theorem foldlM_matchLiteral_alike (hrest : s'.rest = s.rest) (run : Text w) :
    Alike s s' offset offset' (fun e ↦ ∃ n matched, e = .plain n matched ∧ n ≤ s.rest.length)
      (run.foldlM matchLiteral s) (run.foldlM matchLiteral s') := by
  induction run generalizing s s' with
  | nil =>
    have hnone : Alike s s' offset offset'
        (fun e ↦ ∃ n matched, e = .plain n matched ∧ n ≤ s.rest.length)
        (.ok (s.apply offset (.plain 0 false))) (.ok (s'.apply offset' (.plain 0 false))) :=
      .go _ ⟨0, false, rfl, Nat.zero_le _⟩
    rwa [apply_plain_zero, apply_plain_zero] at hnone
  | cons u run ih =>
    rw [List.foldlM_cons, List.foldlM_cons]
    have hunit := matchLiteral_alike offset offset' hrest u
    generalize s.matchLiteral u = x at hunit
    generalize s'.matchLiteral u = y at hunit
    cases hunit with
    | missing => exact .missing _
    | halt h => exact .halt h
    | go e he =>
      obtain ⟨m, matched, rfl, hm⟩ := he
      have hrest' : (s'.apply offset' (.plain m matched)).rest
          = (s.apply offset (.plain m matched)).rest := congrArg (List.drop m) hrest
      have hrun := ih hrest'
      change Alike s s' offset offset' _ (run.foldlM matchLiteral (s.apply offset (.plain m matched)))
        (run.foldlM matchLiteral (s'.apply offset' (.plain m matched)))
      generalize run.foldlM matchLiteral (s.apply offset (.plain m matched)) = x at hrun
      generalize run.foldlM matchLiteral (s'.apply offset' (.plain m matched)) = y at hrun
      cases hrun with
      | missing => exact .missing _
      | halt h => exact .halt h
      | go e he =>
        obtain ⟨n, matched', rfl, hn⟩ := he
        rw [apply_plain_plain, apply_plain_plain]
        refine .go _ ⟨_, _, rfl, ?_⟩
        have hlength : (s.apply offset (.plain m matched)).rest.length = s.rest.length - m :=
          List.length_drop
        omega

/-- **A directive.** Only counts look at the position. -/
theorem matchDirective_alike (h : s.Agrees s')
    (hposition : d.conversion = .countWritten → s'.position = s.position) :
    Alike s s' offset offset' ((Piece.directive d).Does s) (s.matchDirective d offset)
      (s'.matchDirective d offset') := by
  have hskip (hcount : d.conversion ≠ .countWritten) (hpercent : d.conversion ≠ .percent) :
      Alike s s' offset offset' ((Piece.directive d).Does s) (s.skipBlanks.readValue d offset)
        (s'.skipBlanks.readValue d offset') := by
    have hvalue := readValue_alike offset offset' h.skipBlanks hcount hpercent
    rw [skipBlanks, skipBlanks, h.rest] at hvalue ⊢
    refine hvalue.of_consume fun e he ↦ ?_
    exact he.of_consume s.length_takeWhile_isBlank_le (fun _ ↦ rfl) fun hk ↦ absurd hk hcount
  have hkeep (hd : d.conversion.isText) :
      Alike s s' offset offset' ((Piece.directive d).Does s) (s.readValue d offset)
        (s'.readValue d offset') := by
    obtain ⟨hcount, hpercent⟩ := Conversion.ne_of_value (.inr (.inr (.inr hd)))
    have hvalue : Alike (s.consume 0) (s'.consume 0) offset offset'
        (d.Does (s.consume 0) (s.field d)) (s.readValue d offset) (s'.readValue d offset') :=
      readValue_alike offset offset' h hcount hpercent
    refine hvalue.of_consume fun e he ↦ ?_
    exact he.of_consume (Nat.zero_le _) (fun hk ↦ absurd hk (Conversion.not_isInteger (.inr hd)))
      fun _ ↦ rfl
  rw [matchDirective, matchDirective]
  cases hd : d.conversion with
  | percent =>
    refine (matchPercent_alike offset offset' h.rest).mono ?_
    rintro e ⟨n, rfl, hn⟩
    refine ⟨hn, ?_, rfl, ?_, by simp [Effect.plain]⟩
    · rw [Directive.assignments, hd]
      simp [Conversion.assigns, Effect.plain]
    · rw [Directive.stores, hd]
      simp [Effect.plain]
  | countWritten => exact readCount_alike offset offset' h (hposition hd) hd _
  | char | charSet => exact hkeep (by rw [hd]; rfl)
  | _ => exact hskip (by rw [hd]; decide) (by rw [hd]; decide)

end ReadState

/-- The piece counts the units consumed. -/
def Piece.isCount : Piece w → Bool
  | .directive d => d.conversion = .countWritten
  | _ => false

/-- **One step.** In two states that have the same input left and the same targets to come, a piece
has the same effect; if it is a count, they have to be at the same position. -/
theorem ReadState.matchPiece_alike {s s' : ReadState w} {p p' : Located w}
    (hpiece : p'.piece = p.piece) (h : s.Agrees s')
    (hposition : p.piece.isCount → s'.position = s.position) :
    Alike s s' p.offset p'.offset (p.piece.Does s) (s.matchPiece p) (s'.matchPiece p') := by
  rcases p with ⟨offset, piece⟩
  rcases p' with ⟨offset', piece'⟩
  obtain rfl : piece' = piece := hpiece
  rcases piece' with run | _ | d | e
  · exact foldlM_matchLiteral_alike offset offset' h.rest run
  · refine (matchPercent_alike offset offset' h.rest).mono ?_
    rintro e ⟨n, rfl, hn⟩
    exact ⟨n, true, rfl, hn⟩
  · refine matchDirective_alike offset offset' h ?_
    intro hd
    exact hposition (decide_eq_true hd)
  · exact .halt _

/-- **All a step can do** to the state is an effect the piece may have. -/
theorem ReadState.matchPiece_eq_ok {s s' : ReadState w} {p : Located w}
    (h : s.matchPiece p = .ok s') : ∃ e, p.piece.Does s e ∧ s' = s.apply p.offset e := by
  have halike := s.matchPiece_alike (p := p) rfl ⟨rfl, List.prefix_refl _⟩ fun _ ↦ rfl
  rw [h] at halike
  generalize hx : Except.ok s' = x at halike
  cases halike with
  | missing | halt => exact absurd hx (by simp)
  | go e he => exact ⟨e, he, Except.ok.inj hx⟩

end FormatString
