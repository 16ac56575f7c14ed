import Mathlib
import FormatString.Proofs.Writer.Rendering

/-!
# Where a call looks

A writing call that takes its arguments from left to right sees no more of them than it takes. If it
succeeds, it does the same whatever comes behind the arguments it has taken, and it never depends on
how many there were in front of them. Neither does it depend on where its format string stands in a
longer one, except that errors tell the place.

`TakesFront` says the first of this of one step, and it is kept when steps follow one another, so it
holds of a directive and of a list of pieces.
-/

namespace FormatString

variable {w : Width} {α β : Type}

/-- What is computed depends only on arguments that it takes: if it succeeds, it is the same with
more of them behind. With none behind it is the same anyway, so the place in the list is of no
account. -/
def TakesFront (f : ArgSource → Taken α) : Prop :=
  ∀ n n' front back, (back = [] ∨ ∃ a, (f (.sequential ⟨n, front⟩)).result = .ok a) →
    ∃ m m' rest, (f (.sequential ⟨n, front⟩)).source = .sequential ⟨m, rest⟩ ∧
      f (.sequential ⟨n', front ++ back⟩)
        = ⟨(f (.sequential ⟨n, front⟩)).result, .sequential ⟨m', rest ++ back⟩⟩

namespace TakesFront

theorem done (x : Except ArgFault α) : TakesFront (⟨x, ·⟩) :=
  fun n n' front _ _ ↦ ⟨n, n', front, rfl, rfl⟩

theorem take (slot : Option Nat) : TakesFront (·.take slot) := by
  intro n n' front back h
  rcases front with _ | ⟨arg, rest⟩
  · obtain rfl | ⟨a, ha⟩ := h
    · exact ⟨n, n', [], rfl, rfl⟩
    · exact absurd ha (by simp [ArgSource.take, ArgSource.next])
  · exact ⟨n + 1, n' + 1, rest, rfl, rfl⟩

/-- **One step after another.** -/
theorem andThen {t : ArgSource → Taken α} {f : α → ArgSource → Taken β} (ht : TakesFront t)
    (hf : ∀ a, TakesFront (f a)) : TakesFront fun s ↦ (t s).andThen f := by
  intro n n' front back h
  have hfirst : back = [] ∨ ∃ a, (t (.sequential ⟨n, front⟩)).result = .ok a := by
    refine h.imp_right ?_
    rintro ⟨b, hb⟩
    dsimp only at hb
    rw [Taken.andThen] at hb
    split at hb
    · next a ha => exact ⟨a, ha⟩
    · exact absurd hb (by simp)
  obtain ⟨m, m', rest, hsource, hbehind⟩ := ht n n' front back hfirst
  dsimp only at h hsource ⊢
  rw [hbehind]
  generalize t (.sequential ⟨n, front⟩) = x at h hsource ⊢
  rcases x with ⟨e | a, source⟩
  · exact ⟨m, m', rest, hsource, rfl⟩
  · obtain rfl : source = .sequential ⟨m, rest⟩ := hsource
    exact hf a m m' rest back h

theorem takeAmount (amount : Option Amount) : TakesFront (·.takeAmount amount) := by
  rcases amount with _ | n | slot
  · exact done (.ok none)
  · exact done (.ok (some (n : Int)))
  · refine (take slot).andThen fun arg ↦ ?_
    cases arg.integer? with
    | none => exact done (.error .badType)
    | some v => exact done (.ok (some (IntType.int32.reinterpret v.1)))

theorem renderValue (d : Directive) (config : Config) (layout : Layout) (written : Nat) :
    TakesFront (d.renderValue (w := w) config layout written) := by
  change TakesFront fun s ↦ if d.conversion = .percent then _ else _
  by_cases hpercent : d.conversion = .percent
  · simp only [if_pos hpercent]
    exact done _
  · simp only [if_neg hpercent]
    refine (take d.index).andThen fun arg ↦ ?_
    cases d.output? (w := w) config layout written arg with
    | none => exact done _
    | some actions => exact done _

theorem render (d : Directive) (config : Config) (written : Nat) :
    TakesFront (d.render (w := w) config written) := by
  refine (takeAmount d.width).andThen fun width ↦ ?_
  refine (takeAmount d.precision).andThen fun precision ↦ ?_
  exact renderValue d config (.of d width precision) written

end TakesFront

/-! ## Outcomes -/

section Outcomes

variable (config : Config) (written : Nat) (n n' : Nat) (front back : List Arg)

theorem outcome_singleton_of_front (p : Located w)
    (h : back = [] ∨ ∃ k, (renderPieces config written (.sequential ⟨n, front⟩)
      [p]).outcome.result = .ok k) :
    ∃ m m' rest, (renderPieces config written (.sequential ⟨n, front⟩) [p]).outcome.source
        = .sequential ⟨m, rest⟩ ∧
      (renderPieces config written (.sequential ⟨n', front ++ back⟩) [p]).outcome
        = { (renderPieces config written (.sequential ⟨n, front⟩) [p]).outcome with
            source := .sequential ⟨m', rest ++ back⟩ } := by
  rcases p with ⟨offset, run | _ | d | e⟩
  · exact ⟨n, n', front, rfl, rfl⟩
  · exact ⟨n, n', front, rfl, rfl⟩
  · rw [outcome_singleton] at h
    have hok : back = [] ∨ ∃ actions, (d.render (w := w) config written
        (.sequential ⟨n, front⟩)).result = .ok actions := by
      refine h.imp_right ?_
      rintro ⟨k, hk⟩
      rw [Located.render] at hk
      cases hresult : (d.render (w := w) config written (.sequential ⟨n, front⟩)).result with
      | ok actions => exact ⟨actions, rfl⟩
      | error e =>
        dsimp only at hk
        rw [hresult] at hk
        exact absurd hk (by simp)
    obtain ⟨m, m', rest, hsource, hbehind⟩ :=
      TakesFront.render (w := w) d config written n n' front back hok
    refine ⟨m, m', rest, ?_, ?_⟩
    · rw [outcome_singleton, Located.render]
      dsimp only
      rw [hsource]
      cases (d.render (w := w) config written (.sequential ⟨n, front⟩)).result <;> rfl
    · rw [outcome_singleton, outcome_singleton, Located.render, Located.render]
      dsimp only
      rw [hbehind]
      cases (d.render (w := w) config written (.sequential ⟨n, front⟩)).result <;> rfl
  · exact ⟨n, n', front, rfl, rfl⟩

/-- **Arguments behind** those that are taken make no difference. -/
theorem outcome_of_front (ps : List (Located w))
    (h : back = [] ∨ ∃ k, (renderPieces config written (.sequential ⟨n, front⟩)
      ps).outcome.result = .ok k) :
    ∃ m m' rest, (renderPieces config written (.sequential ⟨n, front⟩) ps).outcome.source
        = .sequential ⟨m, rest⟩ ∧
      (renderPieces config written (.sequential ⟨n', front ++ back⟩) ps).outcome
        = { (renderPieces config written (.sequential ⟨n, front⟩) ps).outcome with
            source := .sequential ⟨m', rest ++ back⟩ } := by
  induction ps generalizing written n n' front with
  | nil => exact ⟨n, n', front, rfl, rfl⟩
  | cons p ps ih =>
    have hsplit (source : ArgSource) := outcome_append config written source [p] ps
    simp only [List.singleton_append] at hsplit
    rw [hsplit] at h
    rw [hsplit, hsplit]
    have hfirst : back = [] ∨ ∃ k, (renderPieces config written (.sequential ⟨n, front⟩)
        [p]).outcome.result = .ok k := by
      refine h.imp_right ?_
      rintro ⟨k, hk⟩
      rw [Outcome.followedBy] at hk
      split at hk
      · next j hj => exact ⟨j, hj⟩
      · next e he => exact ⟨k, hk⟩
    obtain ⟨m, m', rest, hsource, hbehind⟩ :=
      outcome_singleton_of_front config written n n' front back p hfirst
    rw [hbehind]
    generalize (renderPieces config written (.sequential ⟨n, front⟩) [p]).outcome = o at h hsource ⊢
    rcases o with ⟨e | k, sink, counts, source⟩
    · exact ⟨m, m', rest, hsource, rfl⟩
    · obtain rfl : source = .sequential ⟨m, rest⟩ := hsource
      rw [Outcome.followedBy_ok rfl] at h ⊢
      rw [Outcome.followedBy_ok rfl]
      dsimp only at h ⊢
      have hrest : back = [] ∨ ∃ j, (renderPieces config (written + sink.length)
          (.sequential ⟨m, rest⟩) ps).outcome.result = .ok j := by
        refine h.imp_right ?_
        rintro ⟨j, hj⟩
        cases hresult : (renderPieces config (written + sink.length) (.sequential ⟨m, rest⟩)
            ps).outcome.result with
        | ok i => exact ⟨i, rfl⟩
        | error e =>
          rw [hresult] at hj
          exact absurd hj (by simp [Except.map])
      obtain ⟨i, i', left, hleft, hright⟩ := ih (written + sink.length) m m' rest hrest
      exact ⟨i, i', left, hleft, by rw [hright]⟩

end Outcomes

/-! ## Places in a format string -/

/-- The error without its place in the format string. -/
def FormatError.unplaced : FormatError → FormatError
  | malformed _ error => malformed 0 error
  | notEnoughArguments _ => notEnoughArguments 0
  | badType _ => badType 0
  | e => e

theorem FormatError.unplaced_shift (k : Nat) (e : FormatError) :
    (e.shift k).unplaced = e.unplaced := by
  cases e <;> rfl

/-- The two calls did the same, and the same arguments are left. An error may be at another place,
and so may the arguments. -/
structure Outcome.Alike (o o' : Outcome (Text w)) : Prop where
  result : o.result.mapError FormatError.unplaced = o'.result.mapError FormatError.unplaced
  sink : o.sink = o'.sink
  counts : o.counts = o'.counts
  remaining : o.source.cursor.remaining = o'.source.cursor.remaining

namespace Outcome.Alike

variable {o o' o'' next next' : Outcome (Text w)}

theorem symm (h : o.Alike o') : o'.Alike o :=
  ⟨h.result.symm, h.sink.symm, h.counts.symm, h.remaining.symm⟩

theorem trans (h : o.Alike o') (h' : o'.Alike o'') : o.Alike o'' :=
  ⟨h.result.trans h'.result, h.sink.trans h'.sink, h.counts.trans h'.counts,
    h.remaining.trans h'.remaining⟩

theorem shift (o : Outcome (Text w)) (k : Nat) : o.Alike (o.shift 0 k) := by
  refine ⟨?_, rfl, ?_, rfl⟩
  · rw [Outcome.shift]
    cases o.result with
    | ok n => rfl
    | error e => exact congrArg Except.error (e.unplaced_shift k).symm
  · exact (List.map_id o.counts).symm

/-- What is done behind two calls that succeed is all that may keep them from being alike. -/
theorem followedBy_of_ok {k : Nat} (ho : o.result = .ok k) (ho' : o'.result = .ok k)
    (hsink : o.sink = o'.sink) (hcounts : o.counts = o'.counts) (h : next.Alike next') :
    (o.followedBy next).Alike (o'.followedBy next') := by
  rw [followedBy_ok ho, followedBy_ok ho']
  refine ⟨?_, congrArg₂ _ hsink h.sink, congrArg₂ _ hcounts h.counts, h.remaining⟩
  have hresult := h.result
  revert hresult
  dsimp only
  cases next.result <;> cases next'.result <;> simp [Except.mapError, Except.map]

theorem followedBy (h : o.Alike o') (hnext : ∀ k, o.result = .ok k → next.Alike next') :
    (o.followedBy next).Alike (o'.followedBy next') := by
  have hresult := h.result
  cases ho : o.result with
  | error e =>
    cases ho' : o'.result with
    | error e' => rwa [Outcome.followedBy, Outcome.followedBy, ho, ho']
    | ok k' =>
      rw [ho, ho'] at hresult
      cases hresult
  | ok k =>
    cases ho' : o'.result with
    | error e' =>
      rw [ho, ho'] at hresult
      cases hresult
    | ok k' =>
      rw [ho, ho'] at hresult
      obtain rfl := Except.ok.inj hresult
      exact followedBy_of_ok ho ho' h.sink h.counts (hnext k ho)

end Outcome.Alike

/-- **Elsewhere** in the format string and among the arguments the same is done. -/
theorem outcome_unitPieces_alike (config : Config) (written n n' offset offset' : Nat)
    (args : List Arg) (t : Text w) :
    (renderPieces config written (.sequential ⟨n, args⟩)
      (unitPieces .print offset t)).outcome.Alike
        (renderPieces config written (.sequential ⟨n', args⟩)
          (unitPieces .print offset' t)).outcome := by
  have hfront (n offset : Nat) :
      (renderPieces config written (.sequential ⟨0, args⟩) (unitPieces .print 0 t)).outcome.Alike
        (renderPieces config written (.sequential ⟨n, args⟩)
          (unitPieces .print offset t)).outcome := by
    obtain ⟨m, m', rest, hsource, hplace⟩ :=
      outcome_of_front config written 0 n args [] (unitPieces (w := w) .print 0 t) (.inl rfl)
    rw [List.append_nil, List.append_nil] at hplace
    have hshifted := outcome_shift config written 0 offset (.sequential ⟨n, args⟩)
      (unitPieces (w := w) .print 0 t)
    rw [← unitPieces_add, Nat.zero_add, Nat.add_zero] at hshifted
    rw [hshifted]
    refine Outcome.Alike.trans ?_ (.shift _ offset)
    rw [hplace]
    exact ⟨rfl, rfl, rfl, by rw [hsource]; rfl⟩
  exact (hfront n offset).symm.trans (hfront n' offset')

/-- What is done alike may be followed by the same format string. -/
theorem outcome_append_alike {config : Config} {written n n' : Nat} {args args' : List Arg}
    {ps ps' : List (Located w)}
    (h : (renderPieces config written (.sequential ⟨n, args⟩) ps).outcome.Alike
      (renderPieces config written (.sequential ⟨n', args'⟩) ps').outcome)
    (offset offset' : Nat) (t : Text w) :
    (renderPieces config written (.sequential ⟨n, args⟩)
      (ps ++ unitPieces .print offset t)).outcome.Alike
        (renderPieces config written (.sequential ⟨n', args'⟩)
          (ps' ++ unitPieces .print offset' t)).outcome := by
  have hsource (n : Nat) (args : List Arg) (ps : List (Located w)) :
      (renderPieces config written (.sequential ⟨n, args⟩) ps).outcome.source
        = .sequential
          (renderPieces config written (.sequential ⟨n, args⟩) ps).outcome.source.cursor :=
    ArgSource.invariant_sequential.renderPieces config written ps rfl
  rw [outcome_append, outcome_append]
  refine h.followedBy fun k _ ↦ ?_
  rw [hsource n args ps, hsource n' args' ps', h.sink]
  have hremaining := h.remaining
  revert hremaining
  generalize (renderPieces config written (.sequential ⟨n, args⟩) ps).outcome.source.cursor = c
  generalize (renderPieces config written (.sequential ⟨n', args'⟩) ps').outcome.source.cursor = c'
  rcases c with ⟨m, left⟩
  rcases c' with ⟨m', left'⟩
  rintro rfl
  exact outcome_unitPieces_alike ..

end FormatString
