import Mathlib
import FormatString.Proofs.Writer.Requests

/-!
# Arguments that are refused

A writing call that ends for the type of an argument was given an argument that does not suit the
directive it was taken for: one for a width or a precision that is no integer, or a value that the
conversion does not write. `Arg.suits` is that table, apart from how a value is written. It suits a
scan set and a percent sign with nothing, but no call is refused for that: neither ever asks for a
value.
-/

namespace FormatString

variable {w : Width} {config : Config} {written : Nat} {source : ArgSource}

/-- The argument is of the kind that the conversion writes. -/
def Arg.suits (arg : Arg) (k : Conversion) : Bool :=
  match k, arg with
  | .floatSci, arg | .floatFixed, arg | .floatShortest, arg => arg.float?.isSome
  | .string, .text _ | .string, .nullText => true
  | .string, _ => false
  | .countWritten, .count _ => true
  | .countWritten, _ => false
  | .charSet, _ | .percent, _ => false
  | _, arg => arg.integer?.isSome

/-- The directive has no use for the argument: as its width or its precision, or as its value. -/
inductive Directive.Refuses (d : Directive) (arg : Arg) : Prop where
  | amount (slot : Option Nat)
    (hamount : d.width = some (.argument slot) ∨ d.precision = some (.argument slot))
    (harg : arg.integer? = none)
  | value (hset : d.conversion ≠ .charSet) (hpercent : d.conversion ≠ .percent)
    (harg : arg.suits d.conversion = false)

/-- What suits the conversion is written. -/
theorem Directive.isSome_output? (d : Directive) (config : Config) (layout : Layout) (written : Nat)
    (arg : Arg) :
    (d.output? (w := w) config layout written arg).isSome = arg.suits d.conversion := by
  rw [output?.eq_def, field?.eq_def]
  generalize d.conversion = k
  cases k <;> cases arg <;> rfl

/-! ## Directives -/

/-- What takes arguments in two stages fails in the first, or in the second. -/
theorem Taken.andThen_result_eq_error {α β : Type} {t : Taken α} {f : α → ArgSource → Taken β}
    {e : ArgFault} (h : (t.andThen f).result = .error e) :
    t.result = .error e ∨ ∃ a, t.result = .ok a ∧ (f a t.source).result = .error e := by
  rw [andThen] at h
  split at h
  · next a ha => exact .inr ⟨a, ha, h⟩
  · next e' he => exact .inl (he.trans (congrArg Except.error (Except.error.inj h)))

theorem ArgSource.take_ne_badType (slot : Option Nat) :
    (source.take slot).result ≠ .error .badType := by
  rw [take]
  split <;> simp

section Taking

variable {P : Arg → Prop}

/-- What is taken for a width or a precision is refused only if it is no integer. -/
theorem ArgSource.takeAmount_badType {amount : Option Amount} (hall : source.All P)
    (h : (source.takeAmount amount).result = .error .badType) :
    ∃ slot arg, amount = some (.argument slot) ∧ P arg ∧ arg.integer? = none := by
  rcases amount with _ | n | slot
  · exact absurd h (by simp [takeAmount])
  · exact absurd h (by simp [takeAmount])
  · rw [takeAmount] at h
    obtain htake | ⟨arg, htake, h⟩ := Taken.andThen_result_eq_error h
    · exact absurd htake (take_ne_badType slot)
    · refine ⟨slot, arg, rfl, hall.take htake, ?_⟩
      cases hinteger : arg.integer? with
      | none => rfl
      | some v =>
        rw [hinteger] at h
        exact absurd h (by simp)

/-- **A directive** that fails for a type was given an argument it refuses. -/
theorem Directive.exists_refused {d : Directive} (hset : d.conversion ≠ .charSet)
    (hall : source.All P)
    (h : (d.render (w := w) config written source).result = .error .badType) :
    ∃ arg, P arg ∧ d.Refuses arg := by
  have hinvariant := ArgSource.invariant_all P
  have hwidth := hinvariant.takeAmount d.width hall
  have hprecision := hinvariant.takeAmount d.precision hwidth
  rw [render] at h
  obtain hfault | ⟨width, -, h⟩ := Taken.andThen_result_eq_error h
  · obtain ⟨slot, arg, hslot, harg, hnone⟩ := ArgSource.takeAmount_badType hall hfault
    exact ⟨arg, harg, .amount slot (.inl hslot) hnone⟩
  obtain hfault | ⟨precision, -, h⟩ := Taken.andThen_result_eq_error h
  · obtain ⟨slot, arg, hslot, harg, hnone⟩ := ArgSource.takeAmount_badType hwidth hfault
    exact ⟨arg, harg, .amount slot (.inr hslot) hnone⟩
  split at h
  · exact absurd h (by simp)
  next hpercent =>
    obtain hfault | ⟨arg, htake, h⟩ := Taken.andThen_result_eq_error h
    · exact absurd hfault (ArgSource.take_ne_badType d.index)
    refine ⟨arg, hprecision.take htake, .value hset hpercent ?_⟩
    rw [← d.isSome_output? (w := w) config (.of d width precision) written arg]
    split at h
    · exact absurd h (by simp)
    · next hnone =>
      rw [hnone]
      rfl

/-! ## Calls -/

/-- **A call** that ends for the type of an argument was refused one at a directive of its format
string. -/
theorem renderPieces_exists_refused {ps : List (Located w)} {offset : Nat}
    (hset : ∀ p ∈ ps, ∀ d, p.piece = .directive d → d.conversion ≠ .charSet) (hall : source.All P)
    (h : (renderPieces config written source ps).fault = some (.badType offset)) :
    ∃ d arg, ⟨offset, .directive d⟩ ∈ ps ∧ P arg ∧ d.Refuses arg := by
  induction ps generalizing written source with
  | nil => exact absurd h (by simp [renderPieces])
  | cons p ps ih =>
    obtain ⟨hp, hps⟩ := List.forall_mem_cons.mp hset
    have hrest := (ArgSource.invariant_all P).renderPiece p config written hall
    rw [renderPieces] at h
    split at h
    · next step source' hrender =>
      rw [hrender] at hrest
      obtain ⟨d, arg, hd, harg, hrefuses⟩ := ih hps hrest h
      exact ⟨d, arg, List.mem_cons_of_mem _ hd, harg, hrefuses⟩
    · next e source' hrender =>
      obtain rfl := Option.some.inj h
      rcases p with ⟨place, run | _ | d | error⟩
      · exact absurd hrender (by simp [Located.render])
      · exact absurd hrender (by simp [Located.render])
      · rw [Located.render] at hrender
        dsimp only at hrender
        split at hrender
        · exact absurd hrender (by simp)
        · next fault hfault =>
          have herror := Except.error.inj (Prod.mk.inj hrender).1
          cases fault with
          | notEnoughArguments => exact absurd herror (by simp [ArgFault.at])
          | badType =>
            obtain rfl : place = offset := FormatError.badType.inj herror
            obtain ⟨arg, harg, hrefuses⟩ := Directive.exists_refused (hp d rfl) hall hfault
            exact ⟨d, arg, List.mem_cons_self, harg, hrefuses⟩
      · exact absurd hrender (by simp [Located.render])

end Taking

/-! ## The head of a number -/

theorem length_signOf_le (flags : Flags) (negative : Bool) :
    (signOf flags negative).length ≤ 1 := by
  rw [signOf]
  repeat' split
  all_goals simp

theorem length_radixMark_le (d : Directive) (n : Nat) : (radixMark d n).length ≤ 2 := by
  rw [radixMark.eq_def]
  repeat' split
  all_goals simp

/-- **A sign and a mark** are all that is in the head of a field, whatever is written. -/
theorem Directive.length_head_le {d : Directive} {precision : Option Nat} {arg : Arg} {f : Field w}
    (h : d.field? config precision arg = some f) : f.head.length ≤ 3 := by
  rw [field?.eq_def] at h
  split at h
  iterate 3
    obtain ⟨x, -, rfl⟩ := Option.map_eq_some_iff.mp h
    have hsign := length_signOf_le d.flags (floatDecimal d (precision.getD 6) x).negative
    exact hsign.trans (by decide)
  iterate 2
    obtain ⟨text, -, rfl⟩ := Option.map_eq_some_iff.mp h
    exact Nat.zero_le _
  iterate 3 exact absurd h (by simp)
  · obtain ⟨⟨v, natural⟩, -, rfl⟩ := Option.map_eq_some_iff.mp h
    have hmark := length_radixMark_le d ((d.intType natural).reinterpret v).natAbs
    have hsign := length_signOf_le d.flags ((d.intType natural).reinterpret v < 0)
    simp only [integerField, List.length_append]
    split
    · omega
    · exact (Nat.add_le_add_left hmark _).trans (by simp)

end FormatString
