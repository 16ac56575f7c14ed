import Mathlib
import FormatString.Proofs.Reader.Assignment

/-!
# Targets that are refused

A reading call that ends for the type of a target has one at hand, and a directive that was to store
in it what it cannot hold. So a suppressed directive never ends a call that way, and no scan set
does for want of a set: such a call could end so with no target left at all.
-/

namespace FormatString

variable {w : Width} {s s' : ReadState w} {d : Directive} {offset : Nat}

namespace Target

/-- Text of any length can be stored. -/
def isText : Target → Bool
  | text _ => true
  | _ => false

/-- The target holds whatever the conversion reads. -/
def suits (t : Target) (k : Conversion) : Bool :=
  if k.isFloat then t.isFloat
  else if k.isText then t.isText
  else if k = .pointer then t.addressType?.isSome
  else k = .percent || t.intType?.isSome

section Suits

variable {t : Target} {k : Conversion}

theorem suits_of_isFloat (hk : k.isFloat) : t.suits k = t.isFloat := if_pos hk

theorem suits_of_isText (hk : k.isText) : t.suits k = t.isText := by
  cases k <;> first | exact absurd hk (by decide) | rfl

theorem suits_of_isInteger (hk : k.isInteger) : t.suits k = t.intType?.isSome := by
  cases k <;> first | exact absurd hk (by decide) | rfl

@[simp] theorem suits_pointer : t.suits .pointer = t.addressType?.isSome := rfl

@[simp] theorem suits_countWritten : t.suits .countWritten = t.intType?.isSome := rfl

theorem isText_eq_false_of_storeText? {units : Text w} (h : t.storeText? units = none) :
    t.isText = false := by
  cases t with
  | text => exact absurd h (by simp [storeText?])
  | integer | address | float32 | float64 | char => rfl

theorem isText_eq_false_of_storeChar? {units : Text w} (h : t.storeChar? units = none) :
    t.isText = false := by
  cases t with
  | text => exact absurd h (by simp [storeChar?, storeText?])
  | integer | address | float32 | float64 | char => rfl

end Suits

end Target

namespace ReadState

/-- The directive was to store in the next target, which does not suit it. -/
def Refuses (s : ReadState w) (d : Directive) : Prop :=
  d.flags.suppress = false ∧
    ∃ t rest, s.pending = t :: rest ∧ t.suits d.conversion = false

/-- A target that is refused is there: without one, the directive does not refuse. -/
theorem refuses_of_bind {f : Option Target → Except Halt (ReadState w)}
    (h : s.nextTarget d >>= f = .error .badType) (hnone : f none ≠ .error .badType)
    (hsome : ∀ t, f (some t) = .error .badType → t.suits d.conversion = false) : s.Refuses d := by
  cases hsuppress : d.flags.suppress with
  | true =>
    rw [nextTarget_of_suppress hsuppress] at h
    exact absurd h hnone
  | false =>
    cases hpending : s.pending with
    | nil =>
      rw [nextTarget_of_nil hsuppress hpending] at h
      exact absurd (Except.error.inj h) (by simp)
    | cons t rest =>
      rw [nextTarget_of_cons hsuppress hpending] at h
      exact ⟨hsuppress, t, rest, hpending, hsome t h⟩

/-! ## Values -/

theorem refuses_of_readInteger (hd : d.conversion.isInteger ∨ d.conversion = .pointer)
    (h : s.readInteger d offset = .error .badType) : s.Refuses d := by
  refine refuses_of_bind h ?_ fun t ht ↦ ?_
  · dsimp only
    split <;> simp
  · dsimp only at ht
    split at ht
    · next htype =>
      split at htype
      · next hpointer => rw [hpointer, Target.suits_pointer, htype, Option.isSome_none]
      · next hpointer =>
        rw [Target.suits_of_isInteger (hd.resolve_right hpointer), htype, Option.isSome_none]
    · split at ht <;> exact absurd ht (by simp)

theorem refuses_of_readFloat (hd : d.conversion.isFloat)
    (h : s.readFloat d offset = .error .badType) : s.Refuses d := by
  refine refuses_of_bind h ?_ fun t ht ↦ ?_
  · dsimp only
    split
    · next hnone => exact absurd hnone (by simp)
    · split <;> simp
  · rw [Target.suits_of_isFloat hd]
    dsimp only at ht
    split at ht
    · next hfloat => simpa using hfloat
    · split at ht <;> exact absurd ht (by simp)

theorem refuses_of_storeUnits (hd : d.conversion.isText) {n : Nat}
    (h : s.storeUnits d n = .error .badType) : s.Refuses d := by
  refine refuses_of_bind h (by simp) fun t ht ↦ ?_
  rw [Target.suits_of_isText hd]
  dsimp only at ht
  split at ht
  · exact absurd ht (by simp)
  · next hnone =>
    split at hnone
    · exact Target.isText_eq_false_of_storeChar? hnone
    · exact Target.isText_eq_false_of_storeText? hnone

theorem refuses_of_readChars (hd : d.conversion.isText)
    (h : s.readChars d = .error .badType) : s.Refuses d := by
  rw [readChars] at h
  split at h
  · split at h
    · exact refuses_of_storeUnits hd h
    · exact absurd h (by simp)
  · split at h
    · exact absurd h (by simp)
    · exact refuses_of_storeUnits hd h

/-- A directive with a set is not turned down for the lack of one. -/
theorem refuses_of_readSet (hd : d.conversion.isText) (hset : d.set.isSome)
    (h : s.readSet d = .error .badType) : s.Refuses d := by
  obtain ⟨set, hset⟩ := Option.isSome_iff_exists.mp hset
  rw [readSet, hset] at h
  dsimp only at h
  split at h
  · exact absurd h (by simp)
  · exact refuses_of_storeUnits hd h

theorem refuses_of_readCount (hd : d.conversion = .countWritten)
    (h : s.readCount d = .error .badType) : s.Refuses d := by
  refine refuses_of_bind h (by simp) fun t ht ↦ ?_
  dsimp only at ht
  split at ht
  · exact absurd ht (by simp)
  · next hnone => rw [hd, Target.suits_countWritten, hnone, Option.isSome_none]

theorem refuses_of_readValue (hset : d.conversion = .charSet → d.set.isSome)
    (hcount : d.conversion ≠ .countWritten) (hpercent : d.conversion ≠ .percent)
    (h : s.readValue d offset = .error .badType) : s.Refuses d := by
  rw [readValue] at h
  split at h
  · exact absurd h (by simp)
  cases hk : d.conversion with
  | floatSci | floatFixed | floatShortest =>
    rw [hk] at h
    exact refuses_of_readFloat (by rw [hk]; rfl) h
  | string =>
    rw [hk] at h
    exact refuses_of_storeUnits (by rw [hk]; rfl) h
  | char =>
    rw [hk] at h
    exact refuses_of_readChars (by rw [hk]; rfl) h
  | charSet =>
    rw [hk] at h
    exact refuses_of_readSet (by rw [hk]; rfl) (hset hk) h
  | signedInt | autoInt | unsignedInt | octal | hexLower | hexUpper | binary =>
    rw [hk] at h
    exact refuses_of_readInteger (.inl (by rw [hk]; rfl)) h
  | pointer =>
    rw [hk] at h
    exact refuses_of_readInteger (.inr hk) h
  | countWritten => exact absurd hk hcount
  | percent => exact absurd hk hpercent

/-! ## Pieces -/

theorem matchUnit_ne_badType (s : ReadState w) (u : CodeUnit w) :
    s.matchUnit u ≠ .error .badType := by
  rw [matchUnit]
  split
  · simp
  · split <;> simp

theorem foldlM_matchLiteral_ne_badType (s : ReadState w) (run : Text w) :
    run.foldlM matchLiteral s ≠ .error .badType := by
  induction run generalizing s with
  | nil => simp [pure, Except.pure]
  | cons u run ih =>
    rw [List.foldlM_cons]
    cases hu : s.matchLiteral u with
    | ok s' => exact ih s'
    | error h =>
      intro hbad
      obtain rfl : h = .badType := Except.error.inj hbad
      rw [matchLiteral] at hu
      split at hu
      · exact absurd hu (by simp)
      · exact matchUnit_ne_badType s u hu

/-- **A directive** that halts for a type refuses the next target. -/
theorem refuses_of_matchDirective (hset : d.conversion = .charSet → d.set.isSome)
    (h : s.matchDirective d offset = .error .badType) : s.Refuses d := by
  rw [matchDirective] at h
  split at h
  · exact absurd h (matchUnit_ne_badType _ _)
  · next hk => exact refuses_of_readCount hk h
  · next hk => exact refuses_of_readValue hset (by simp [hk]) (by simp [hk]) h
  · next hk => exact refuses_of_readValue hset (by simp [hk]) (by simp [hk]) h
  · next hpercent hcount _ _ =>
    exact refuses_of_readValue (s := s.skipBlanks) hset hcount hpercent h

theorem exists_refuses_of_matchPiece {p : Located w}
    (hset : ∀ d, p.piece = .directive d → d.conversion = .charSet → d.set.isSome)
    (h : s.matchPiece p = .error .badType) : ∃ d, p.piece = .directive d ∧ s.Refuses d := by
  rcases p with ⟨offset, run | _ | d | error⟩
  · exact absurd h (foldlM_matchLiteral_ne_badType s run)
  · exact absurd h (matchUnit_ne_badType _ _)
  · exact ⟨d, rfl, refuses_of_matchDirective (hset d rfl) h⟩
  · exact absurd (Except.error.inj h) (by simp)

end ReadState

/-! ## Calls -/

/-- The targets that are left are the last ones of those that were given. -/
theorem pending_suffix_of_matchPieces (s : ReadState w) (ps : List (Located w)) :
    (matchPieces s ps).1.pending <:+ s.pending := by
  refine matchPieces_invariant (P := fun r ↦ r.pending <:+ s.pending) ?_ List.suffix_rfl ps
  intro r r' p hr hp
  obtain ⟨e, -, rfl⟩ := ReadState.matchPiece_eq_ok hp
  exact (List.drop_suffix _ _).trans hr

/-- **A call** that ends for the type of a target was refused one of its targets at a directive of
its format string that is not suppressed. -/
theorem matchPieces_exists_refused {ps : List (Located w)}
    (hset : ∀ p ∈ ps, ∀ d, p.piece = .directive d → d.conversion = .charSet → d.set.isSome)
    (h : matchPieces s ps = (s', some (offset, .badType))) :
    ∃ d, ∃ t ∈ s.pending, ⟨offset, .directive d⟩ ∈ ps ∧ d.flags.suppress = false ∧
      t.suits d.conversion = false := by
  obtain ⟨before, p, after, rfl, rfl, hmatched, hhalt⟩ := exists_halting_piece h
  have hp : p ∈ before ++ p :: after := List.mem_append_right _ List.mem_cons_self
  obtain ⟨d, hd, hsuppress, t, rest, hpending, ht⟩ :=
    ReadState.exists_refuses_of_matchPiece (hset p hp) hhalt
  have hsuffix := pending_suffix_of_matchPieces s before
  rw [hmatched, hpending] at hsuffix
  refine ⟨d, t, hsuffix.subset List.mem_cons_self, ?_, hsuppress, ht⟩
  rwa [← hd]

end FormatString
