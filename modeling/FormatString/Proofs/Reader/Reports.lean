import Mathlib
import FormatString.Proofs.Number.FloatLiteral
import FormatString.Proofs.Number.Significant
import FormatString.Proofs.Reader.Encoded
import FormatString.Proofs.Reader.Run
import FormatString.Proofs.Reader.Value

/-!
# What a reading call reports

A reading call reports every number that was clamped, and at last the error it ends with. Which
numbers were clamped is noted while they are read, in two places and for floats by two tests; here
it is told from outside. A run is the list of its `MatchStep`s, the directives that were matched
with the states around them, and `MatchStep.Overflows` looks at the text that a directive took, at
the type of its target and at what was stored there. `Reported` goes along the steps: one report for
each that overflows, at its offset, and none for the others.
-/

namespace FormatString

variable {w : Width}

/-- The value is an infinity. -/
def Target.isInfinite : Target → Bool
  | .float32 v => v.isInfinite
  | .float64 v => v.isInfinite
  | _ => false

/-- A directive that was matched, and the states around it. -/
structure MatchStep (w : Width) where
  offset : Nat
  directive : Directive
  before : ReadState w
  after : ReadState w

namespace MatchStep

variable (step : MatchStep w)

/-- What the directive took behind the blanks. -/
def literal : Text w :=
  step.before.skipBlanks.rest.take (step.after.position - step.before.skipBlanks.position)

/-- The number that was read did not fit into the target it was stored in: an integer outside the
range of its type, or a float that was not spelled as a word and has become an infinity. -/
inductive Overflows : Prop where
  | integer {target : Target} {type : IntType} {cs : List Char} {r : Radix} {x : Int}
    (hd : step.directive.conversion.isInteger ∨ step.directive.conversion = .pointer)
    (hsuppress : step.directive.flags.suppress = false)
    (htarget : step.before.pending.head? = some target)
    (htype : step.directive.integerType? (some target) = some type)
    (hliteral : step.literal = Text.ofAscii w cs)
    (hspells : SpellsLiteral step.directive.conversion.base.value cs r x)
    (hx : x < type.min ∨ type.max < x)
  | float {target : Target} (hd : step.directive.conversion.isFloat)
    (hsuppress : step.directive.flags.suppress = false)
    (htarget : step.after.stored.getLast? = some target) (hinfinite : target.isInfinite)
    (hword : ¬ SpellsWord (Text.asciiRun step.literal))

end MatchStep

/-- The directives of a run that were matched, in order. -/
def matchSteps (s : ReadState w) : List (Located w) → List (MatchStep w)
  | [] => []
  | p :: rest =>
    match s.matchPiece p with
    | .ok s' =>
      (p.piece.directive?.map (MatchStep.mk p.offset · s s')).toList ++ matchSteps s' rest
    | .error _ => []

/-- The reports on the steps of a run: one for each number that does not fit. -/
inductive Reported : List (MatchStep w) → List Diagnostic → Prop where
  | nil : Reported [] []
  | overflow {step : MatchStep w} {steps : List (MatchStep w)} {ds : List Diagnostic}
    (h : step.Overflows) (hrest : Reported steps ds) :
    Reported (step :: steps) (⟨step.offset, .rangeOverflow⟩ :: ds)
  | quiet {step : MatchStep w} {steps : List (MatchStep w)} {ds : List Diagnostic}
    (h : ¬ step.Overflows) (hrest : Reported steps ds) : Reported (step :: steps) ds

/-! ## Literals -/

/-- A literal out of range is flagged, and no other. -/
theorem IntType.overflow_read_iff (t : IntType) (b : Base) {cs : List Char}
    (hne : (t.read b cs).consumed ≠ 0) :
    (t.read b cs).overflow = true ↔
      ∃ r x, SpellsLiteral b.value (cs.take (t.read b cs).consumed) r x ∧
        (x < t.min ∨ t.max < x) := by
  cases hread : IntLiteral.read? b cs with
  | none =>
    rw [read, hread] at hne
    exact absurd rfl hne
  | some l =>
    obtain ⟨front, hspells, hlength, rest, rfl⟩ := l.read?_sound hread
    have hfits := t.clamp_fits l.radix l.exact
    rw [← t.clamp_value] at hfits
    have hvalue : t.read b (front ++ rest)
        = ⟨(t.clamp l.radix l.value).1, l.consumed, (t.clamp l.radix l.value).2⟩ := by
      rw [read, hread]
    rw [hvalue, hfits.overflow_iff, ← hlength, List.take_left]
    constructor
    · intro hx
      exact ⟨l.radix, l.exact, hspells, hx⟩
    · rintro ⟨r, x, hspells', hx⟩
      obtain ⟨l', hread', hlonger⟩ := IntLiteral.read?_of_literal hspells' rest
      obtain rfl := Option.some.inj (hread.symm.trans hread')
      obtain hlonger | ⟨-, -, rfl⟩ := hlonger
      · exact absurd hlength (by omega)
      · exact hx

/-! ## Infinities -/

theorem Binary.isInfinite_convert_of_isInfinite {F : BinaryFormat} (G : BinaryFormat) {v : Binary F}
    (hv : v.isInfinite) : (v.convert G).isInfinite := by
  have hrank : v.rank = F.infinityRank := beq_iff_eq.mp hv
  have hnan : ¬ v.isNaN := by simp [isNaN, hrank]
  rw [convert, if_neg hnan, if_pos hv]
  exact beq_self_eq_true _

theorem Binary.isInfinite_convert_of_isNaN {F : BinaryFormat} {v : Binary F} (hv : v.isNaN) :
    (v.convert .binary32).isInfinite = false := by
  rw [convert, if_pos hv]
  cases v.negative <;> decide

theorem FloatBody.isFinite_value_of_word {body : FloatBody} (hbody : body.isDecimal = false)
    (negative : Bool) : (body.value .binary64 negative).isFinite = false := by
  cases body with
  | infinity => cases negative <;> decide
  | nan => cases negative <;> decide
  | decimal => exact absurd hbody (by simp [isDecimal])

/-- What the reader flags for a target is an infinity in it that no word stands for. -/
theorem Target.clamped_iff {t : Target} (ht : t.isFloat) (negative : Bool) (body : FloatBody) :
    ((body.isDecimal && (body.value .binary64 negative).isInfinite) ||
        t.narrowsToInfinity (body.value .binary64 negative)) = true ↔
      (t.storeFloat (body.value .binary64 negative)).isInfinite ∧ body.isDecimal = true := by
  have hword : body.isDecimal = false → (body.value .binary64 negative).isFinite = false :=
    fun hbody ↦ body.isFinite_value_of_word hbody negative
  generalize body.value .binary64 negative = v at hword ⊢
  cases t with
  | integer | address | char | text => exact absurd ht (by simp [isFloat])
  | float64 old => simp [narrowsToInfinity, storeFloat, isInfinite, and_comm]
  | float32 old =>
    simp only [narrowsToInfinity, storeFloat, isInfinite]
    rcases lt_trichotomy v.rank (BinaryFormat.infinityRank .binary64) with hlt | heq | hgt
    · have hfinite : v.isFinite = true := decide_eq_true hlt
      have hnot : v.isInfinite = false := by simpa using v.not_isInfinite hfinite
      have hdecimal : body.isDecimal = true := by
        by_contra hbody
        rw [hword (Bool.eq_false_of_not_eq_true hbody)] at hfinite
        exact absurd hfinite Bool.false_ne_true
      simp [hfinite, hnot, hdecimal]
    · have hinfinite : v.isInfinite = true := beq_iff_eq.mpr heq
      have hfinite : v.isFinite = false := by simp [Binary.isFinite, heq]
      simp [hinfinite, hfinite, v.isInfinite_convert_of_isInfinite .binary32 hinfinite]
    · have hinfinite : v.isInfinite = false := by simpa [Binary.isInfinite] using hgt.ne'
      have hfinite : v.isFinite = false := by simpa [Binary.isFinite] using hgt.le
      have hnan : v.isNaN = true := decide_eq_true hgt
      simp [hinfinite, hfinite, v.isInfinite_convert_of_isNaN hnan]

/-! ## Numbers -/

namespace ReadState

variable {s s' : ReadState w} {d : Directive} {offset : Nat}

theorem ascii_asciiRun (t : Text w) : ∀ c ∈ Text.asciiRun t, c.toNat < 0x80 := by
  induction t with
  | nil => simp [Text.asciiRun]
  | cons u rest ih =>
    rw [Text.asciiRun]
    split
    · next c hc => exact List.forall_mem_cons.mpr ⟨(CodeUnit.ascii?_eq_some_iff.mp hc).1, ih⟩
    · simp

/-- The characters at the front of a field are units at the front of the input. -/
theorem take_rest_of_asciiRun {n : Nat} (hn : n ≤ (Text.asciiRun (s.field d)).length) :
    s.rest.take n = Text.ofAscii w ((Text.asciiRun (s.field d)).take n) := by
  have hfront : Text.ofAscii w ((Text.asciiRun (s.field d)).take n) <+: s.rest := by
    have hsplit := Text.eq_ofAscii_append (List.take_append_drop n (Text.asciiRun (s.field d))).symm
    exact List.IsPrefix.trans ⟨_, hsplit.symm⟩ (s.field_prefix d)
  rw [List.prefix_iff_eq_take.mp hfront, Text.length_ofAscii, List.length_take_of_le hn]

/-- No blank is left in front of a number. -/
theorem dropWhile_isBlank_field (s : ReadState w) (d : Directive) :
    (Text.asciiRun (s.skipBlanks.field d)).dropWhile isBlank
      = Text.asciiRun (s.skipBlanks.field d) := by
  obtain ⟨rest, hrest⟩ := s.skipBlanks.field_prefix d
  rw [rest_skipBlanks] at hrest
  cases hfield : s.skipBlanks.field d with
  | nil => rfl
  | cons u tail =>
    have hu := List.head?_dropWhile_not (·.isBlank) s.rest
    rw [← hrest, hfield] at hu
    rw [Text.asciiRun]
    split
    · next c hc =>
      have hblank : u.isBlank = isBlank c := by rw [CodeUnit.isBlank, hc]; rfl
      refine List.dropWhile_cons_of_neg ?_
      simpa [hblank] using hu
    · rfl

theorem readInteger_eq_ok (h : s.readInteger d offset = .ok s') :
    ∃ target type, s.nextTarget d = .ok target ∧ d.integerType? target = some type ∧
      let parsed := type.read d.conversion.base (Text.asciiRun (s.field d))
      parsed.consumed ≠ 0 ∧ s' = s.apply offset ⟨parsed.consumed,
        target.map (·.storeInt parsed.value), target.isSome && parsed.overflow, d.assignments,
        true⟩ := by
  rw [readInteger_eq] at h
  obtain ⟨target, htarget, h⟩ := bind_eq_ok_iff.mp h
  rw [takeInteger] at h
  split at h
  · exact absurd h (by simp)
  · next type htype =>
    dsimp only at h
    split at h
    · exact absurd h (by simp)
    · next hne =>
      rw [finish_settle_eq_apply] at h
      exact ⟨target, type, htarget, htype, hne, (Except.ok.inj h).symm⟩

theorem readFloat_eq_ok (h : s.readFloat d offset = .ok s') :
    ∃ target, s.nextTarget d = .ok target ∧ (∀ t ∈ target, t.isFloat) ∧
      let parsed := FormatString.readFloat .binary64 (Text.asciiRun (s.field d))
      parsed.consumed ≠ 0 ∧ s' = s.apply offset ⟨parsed.consumed,
        target.map (·.storeFloat parsed.value),
        target.any fun t ↦ parsed.overflow || t.narrowsToInfinity parsed.value, d.assignments,
        true⟩ := by
  obtain ⟨target, htarget, h⟩ := bind_eq_ok_iff.mp h
  split at h
  · exact absurd h (by simp)
  · next hfloat =>
    dsimp only at h
    split at h
    · exact absurd h (by simp)
    · next hne =>
      rw [finish_settle_eq_apply] at h
      refine ⟨target, htarget, ?_, hne, (Except.ok.inj h).symm⟩
      rintro t ⟨⟩
      simpa using hfloat

/-- The literal of a step is what was consumed behind the blanks. -/
theorem literal_of_apply (s : ReadState w) (d : Directive) (offset : Nat) (e : Effect)
    (hused : e.used ≤ (Text.asciiRun (s.skipBlanks.field d)).length) :
    (⟨offset, d, s, s.skipBlanks.apply offset e⟩ : MatchStep w).literal
      = Text.ofAscii w ((Text.asciiRun (s.skipBlanks.field d)).take e.used) := by
  rw [MatchStep.literal, ← take_rest_of_asciiRun hused]
  congr 1
  exact Nat.add_sub_cancel_left _ _

theorem asciiRun_literal_of_apply (s : ReadState w) (d : Directive) (offset : Nat) (e : Effect)
    (hused : e.used ≤ (Text.asciiRun (s.skipBlanks.field d)).length) :
    Text.asciiRun (⟨offset, d, s, s.skipBlanks.apply offset e⟩ : MatchStep w).literal
      = (Text.asciiRun (s.skipBlanks.field d)).take e.used := by
  rw [literal_of_apply s d offset e hused]
  exact Text.asciiRun_ofAscii fun c hc ↦ ascii_asciiRun _ c (List.mem_of_mem_take hc)

end ReadState

namespace MatchStep

/-- Whether the step overflows is noted with its offset. -/
def Noted (step : MatchStep w) : Prop :=
  ∃ clamped : Bool, (clamped = true ↔ step.Overflows) ∧
    step.after.clamped = step.before.clamped ++ if clamped then [step.offset] else []

variable {s s' : ReadState w} {d : Directive} {offset : Nat}

theorem noted_of_readInteger (hd : d.conversion.isInteger ∨ d.conversion = .pointer)
    (h : s.skipBlanks.readInteger d offset = .ok s') :
    (⟨offset, d, s, s'⟩ : MatchStep w).Noted := by
  obtain ⟨target, type, htarget, htype, hne, rfl⟩ := ReadState.readInteger_eq_ok h
  obtain ⟨hsome, hhead⟩ := s.skipBlanks.isSome_of_nextTarget htarget
  have hle := type.consumed_read_le d.conversion.base (Text.asciiRun (s.skipBlanks.field d))
  refine ⟨_, ?_, rfl⟩
  rw [Bool.and_eq_true, type.overflow_read_iff d.conversion.base hne]
  constructor
  · rintro ⟨hstores, r, x, hspells, hx⟩
    obtain ⟨t, rfl⟩ := Option.isSome_iff_exists.mp hstores
    exact .integer hd (by simpa using hsome) (hhead t rfl) htype
      (ReadState.literal_of_apply s d offset _ hle) hspells hx
  · intro hoverflows
    cases hoverflows with
    | @integer t type' cs r x _ hsuppress ht htype' hliteral hspells hx =>
      have hcs := congrArg Text.asciiRun hliteral
      rw [ReadState.asciiRun_literal_of_apply s d offset _ hle,
        Text.asciiRun_ofAscii hspells.ascii] at hcs
      dsimp only at hsuppress hcs
      rw [hsuppress] at hsome
      obtain ⟨t', rfl⟩ := Option.isSome_iff_exists.mp hsome
      obtain rfl : t' = t := Option.some.inj ((hhead t' rfl).symm.trans ht)
      obtain rfl := Option.some.inj (htype.symm.trans htype')
      exact ⟨rfl, r, x, by rwa [hcs], hx⟩
    | float hfloat => exact absurd hd (Conversion.not_isInteger (.inl hfloat))

theorem noted_of_readFloat (hd : d.conversion.isFloat)
    (h : s.skipBlanks.readFloat d offset = .ok s') :
    (⟨offset, d, s, s'⟩ : MatchStep w).Noted := by
  obtain ⟨target, htarget, hfloat, hne, rfl⟩ := ReadState.readFloat_eq_ok h
  obtain ⟨hsome, hhead⟩ := s.skipBlanks.isSome_of_nextTarget htarget
  have hle := consumed_readFloat_le .binary64 (Text.asciiRun (s.skipBlanks.field d))
  obtain ⟨negative, body, hvalue, hoverflow, hword⟩ :=
    exists_body_of_readFloat (s.dropWhile_isBlank_field d) hne
  refine ⟨_, ?_, rfl⟩
  rw [hvalue, hoverflow]
  constructor
  · intro hclamped
    obtain ⟨t, rfl, hclamped⟩ := (Option.any_eq_true _ _).mp hclamped
    obtain ⟨hinfinite, hdecimal⟩ := (Target.clamped_iff (hfloat t rfl) negative body).mp hclamped
    refine .float hd (by simpa using hsome) ?_ hinfinite ?_
    · simp [ReadState.apply]
    · rw [ReadState.asciiRun_literal_of_apply s d offset _ hle, ← hword, hdecimal]
      exact Bool.noConfusion
  · intro hoverflows
    cases hoverflows with
    | integer hinteger => exact absurd hinteger (Conversion.not_isInteger (.inl hd))
    | @float new _ hsuppress hnew hinfinite hspells =>
      rw [ReadState.asciiRun_literal_of_apply s d offset _ hle, ← hword] at hspells
      dsimp only at hsuppress
      rw [hsuppress] at hsome
      obtain ⟨t, rfl⟩ := Option.isSome_iff_exists.mp hsome
      refine (Target.clamped_iff (hfloat t rfl) negative body).mpr ⟨?_, by simpa using hspells⟩
      simp only [ReadState.apply, Option.map_some, Option.toList_some, List.getLast?_append,
        List.getLast?_singleton, Option.some_or, Option.some.injEq] at hnew
      rwa [hnew]

/-! ## Steps -/

/-- Only numbers overflow. -/
theorem noted_of_quiet (hd : ¬ (d.conversion.isInteger ∨ d.conversion = .pointer))
    (hfloat : ¬ d.conversion.isFloat) (h : s'.clamped = s.clamped) :
    (⟨offset, d, s, s'⟩ : MatchStep w).Noted := by
  refine ⟨false, iff_of_false Bool.false_ne_true ?_, h.trans (List.append_nil _).symm⟩
  rintro (hinteger | h)
  · exact hd hinteger
  · exact hfloat h

end MatchStep

namespace ReadState

variable {s s' : ReadState w} {d : Directive} {offset : Nat}

theorem clamped_of_storeUnits {n : Nat} (h : s.storeUnits d n = .ok s') :
    s'.clamped = s.clamped := by
  obtain ⟨target, -, h⟩ := bind_eq_ok_iff.mp h
  cases target with
  | none =>
    rw [← Except.ok.inj h]
    rfl
  | some t =>
    dsimp only at h
    split at h
    · rw [← Except.ok.inj h]
      rfl
    · exact absurd h (by simp)

theorem clamped_of_readChars (h : s.readChars d = .ok s') : s'.clamped = s.clamped := by
  rw [readChars] at h
  repeat' split at h
  · exact clamped_of_storeUnits h
  · exact absurd h (by simp)
  · exact absurd h (by simp)
  · exact clamped_of_storeUnits h

theorem clamped_of_readSet (h : s.readSet d = .ok s') : s'.clamped = s.clamped := by
  rw [readSet] at h
  split at h
  · exact absurd h (by simp)
  · dsimp only at h
    split at h
    · exact absurd h (by simp)
    · exact clamped_of_storeUnits h

theorem clamped_of_readCount (h : s.readCount d = .ok s') : s'.clamped = s.clamped := by
  obtain ⟨target, -, h⟩ := bind_eq_ok_iff.mp h
  cases target with
  | none =>
    rw [← Except.ok.inj h]
    rfl
  | some t =>
    dsimp only at h
    split at h
    · rw [← Except.ok.inj h]
      rfl
    · exact absurd h (by simp)

theorem clamped_of_matchPercent (h : s.matchPercent = .ok s') : s'.clamped = s.clamped := by
  rw [matchPercent, matchUnit] at h
  split at h
  · exact absurd h (by simp)
  · split at h
    · rw [← Except.ok.inj h]
      rfl
    · exact absurd h (by simp)

theorem clamped_of_readValue (hd : d.conversion.isText) (h : s.readValue d offset = .ok s') :
    s'.clamped = s.clamped := by
  rw [readValue] at h
  split at h
  · exact absurd h (by simp)
  cases hk : d.conversion with
  | string =>
    rw [hk] at h
    exact clamped_of_storeUnits h
  | char =>
    rw [hk] at h
    exact clamped_of_readChars h
  | charSet =>
    rw [hk] at h
    exact clamped_of_readSet h
  | _ => exact absurd hd (by simp [hk, Conversion.isText])

theorem noted_of_readValue (hd : (d.conversion.isInteger ∨ d.conversion = .pointer) ∨
    d.conversion.isFloat) (h : s.skipBlanks.readValue d offset = .ok s') :
    (⟨offset, d, s, s'⟩ : MatchStep w).Noted := by
  rw [readValue] at h
  split at h
  · exact absurd h (by simp)
  cases hk : d.conversion with
  | signedInt | autoInt | unsignedInt | octal | hexLower | hexUpper | binary =>
    rw [hk] at h
    exact MatchStep.noted_of_readInteger (.inl (by rw [hk]; rfl)) h
  | pointer =>
    rw [hk] at h
    exact MatchStep.noted_of_readInteger (.inr hk) h
  | floatSci | floatFixed | floatShortest =>
    rw [hk] at h
    exact MatchStep.noted_of_readFloat (by rw [hk]; rfl) h
  | _ => exact absurd hd (by simp [hk, Conversion.isInteger, Conversion.isFloat])

/-- **A directive** notes whether its number overflows. -/
theorem noted_of_matchDirective (h : s.matchDirective d offset = .ok s') :
    (⟨offset, d, s, s'⟩ : MatchStep w).Noted := by
  by_cases hd : (d.conversion.isInteger ∨ d.conversion = .pointer) ∨ d.conversion.isFloat
  · refine noted_of_readValue hd ?_
    rw [matchDirective] at h
    cases hk : d.conversion with
    | percent | countWritten | char | charSet | string =>
      exact absurd hd (by simp [hk, Conversion.isInteger, Conversion.isFloat])
    | _ =>
      rw [hk] at h
      exact h
  · refine MatchStep.noted_of_quiet (mt .inl hd) (mt .inr hd) ?_
    rw [matchDirective] at h
    cases hk : d.conversion with
    | percent =>
      rw [hk] at h
      exact clamped_of_matchPercent h
    | countWritten =>
      rw [hk] at h
      exact clamped_of_readCount h
    | char | charSet =>
      rw [hk] at h
      exact clamped_of_readValue (by rw [hk]; rfl) h
    | string =>
      rw [hk] at h
      exact clamped_of_readValue (s := s.skipBlanks) (by rw [hk]; rfl) h
    | _ => exact absurd hd (by simp [hk, Conversion.isInteger, Conversion.isFloat])

/-- A piece that is no directive notes nothing. -/
theorem clamped_of_matchPiece {p : Located w} (hp : p.piece.directive? = none)
    (h : s.matchPiece p = .ok s') : s'.clamped = s.clamped := by
  obtain ⟨e, hdoes, rfl⟩ := matchPiece_eq_ok h
  obtain ⟨-, n, matched, rfl, -⟩ | ⟨d, hd, -⟩ := hdoes.plain_or_directive
  · exact List.append_nil _
  · rw [hd] at hp
    exact absurd hp (by simp [Piece.directive?])

end ReadState

/-! ## Runs -/

/-- The directives of pieces, each with its offset. -/
def directivesOf (ps : List (Located w)) : List (Nat × Directive) :=
  ps.filterMap fun p ↦ p.piece.directive?.map (p.offset, ·)

/-- The directives that were matched are the first ones of the format string, in its order. -/
theorem matchSteps_in_order (s : ReadState w) (ps : List (Located w)) :
    (matchSteps s ps).map (fun step ↦ (step.offset, step.directive)) <+: directivesOf ps := by
  induction ps generalizing s with
  | nil => exact List.prefix_refl _
  | cons p ps ih =>
    rw [matchSteps]
    split
    · next s' hp =>
      cases hd : p.piece.directive? with
      | none => simpa [directivesOf, hd] using ih s'
      | some d => simpa [directivesOf, hd] using ih s'
    · exact List.nil_prefix

/-- **A run** has noted the offsets of the steps that overflow, and no others. -/
theorem exists_reported (s : ReadState w) (ps : List (Located w)) :
    ∃ offsets, (matchPieces s ps).1.clamped = s.clamped ++ offsets ∧
      Reported (matchSteps s ps) (offsets.map (⟨·, .rangeOverflow⟩)) := by
  induction ps generalizing s with
  | nil => exact ⟨[], (List.append_nil _).symm, .nil⟩
  | cons p ps ih =>
    rw [matchPieces, matchSteps]
    cases hp : s.matchPiece p with
    | error h => exact ⟨[], (List.append_nil _).symm, .nil⟩
    | ok s' =>
      obtain ⟨offsets, hoffsets, hreported⟩ := ih s'
      dsimp only
      rw [hoffsets]
      cases hd : p.piece.directive? with
      | none => exact ⟨offsets, by rw [ReadState.clamped_of_matchPiece hd hp], hreported⟩
      | some d =>
        rcases p with ⟨offset, piece⟩
        obtain rfl := Piece.directive?_eq_some_iff.mp hd
        obtain ⟨clamped, hoverflows, hclamped⟩ := ReadState.noted_of_matchDirective hp
        dsimp only at hclamped
        rw [hclamped, List.append_assoc]
        refine ⟨_, rfl, ?_⟩
        cases clamped with
        | true => exact .overflow (hoverflows.mp rfl) hreported
        | false => exact .quiet (fun h ↦ Bool.false_ne_true (hoverflows.mpr h)) hreported

/-! ## Calls -/

/-- The report on the end of a reading call: that of an error at a directive, and none where the
call succeeds or has no input. -/
inductive ReportedEnd : Except ScanError Nat → List Diagnostic → Prop where
  | ok (assigned : Nat) : ReportedEnd (.ok assigned) []
  | eof : ReportedEnd (.error .eof) []
  | malformed (offset : Nat) (error : DirectiveError) (assigned : Nat) :
    ReportedEnd (.error (.malformed offset error assigned)) [⟨offset, .malformed error⟩]
  | missingTarget (offset assigned : Nat) :
    ReportedEnd (.error (.missingTarget offset assigned)) [⟨offset, .missingTarget⟩]
  | badType (offset assigned : Nat) :
    ReportedEnd (.error (.badType offset assigned)) [⟨offset, .badType⟩]

theorem reportedEnd (result : Except ScanError Nat) :
    ReportedEnd result (match result with
      | .ok _ => none
      | .error e => e.diagnostic?).toList := by
  rcases result with e | n
  · cases e with
    | eof => exact .eof
    | malformed offset error n => exact .malformed offset error n
    | missingTarget offset n => exact .missingTarget offset n
    | badType offset n => exact .badType offset n
  · exact .ok n

/-- The directives that a reading call matched. -/
def scanMatches (input template : Text w) (targets : List Target) : List (MatchStep w) :=
  matchSteps { rest := input, pending := targets } (pieces .scan template)

/-- **A reading call** reports its overflows in the order of the directives, and then its end. -/
theorem exists_reported_scan (input t : Text w) (targets : List Target) :
    ∃ ds last, (scan input t targets).diagnostics = ds ++ last ∧
      Reported (scanMatches input t targets) ds ∧
        ReportedEnd (scan input t targets).result last := by
  generalize hrun : matchPieces { rest := input, pending := targets } (pieces .scan t) = run
  obtain ⟨offsets, hoffsets, hreported⟩ :=
    exists_reported { rest := input, pending := targets } (pieces .scan t)
  obtain ⟨s, halt⟩ := run
  rw [hrun, List.nil_append] at hoffsets
  rw [scan, hrun]
  exact ⟨_, _, rfl, by rw [hoffsets]; exact hreported, reportedEnd _⟩

end FormatString
