import Mathlib
import FormatString.Proofs.Template.Malformed
import FormatString.Proofs.Writer.Failure

/-!
# The check of an ordered format string

A call that names its arguments is turned down before anything is written if its format string is
malformed, names too many slots or names one past the end, and for no other reason. Once it has been
accepted, an argument can still be of the wrong type, but none can be missing: what the check looks
at are the slots that rendering takes from.
-/

namespace FormatString

variable {w : Width}

/-! ## The slots of a format string -/

/-- The format string names the slot: as that of a width, of a precision, or of a value. A percent
sign has no value, whatever slot it names. -/
def Names (t : Text w) (slot : Nat) : Prop :=
  ∃ p ∈ pieces .ordered t, ∃ d, p.piece = .directive d ∧
    (d.width = some (.argument (some slot)) ∨ d.precision = some (.argument (some slot)) ∨
      d.index = some slot ∧ d.conversion ≠ .percent)

theorem Amount.mem_slot?_iff {amount : Option Amount} {slot : Nat} :
    slot ∈ (amount.bind slot?).toList ↔ amount = some (.argument (some slot)) := by
  rcases amount with _ | n | _ | i <;> simp [slot?, eq_comm]

theorem Directive.mem_slots_iff {d : Directive} {slot : Nat} :
    slot ∈ d.slots ↔ d.width = some (.argument (some slot)) ∨
      d.precision = some (.argument (some slot)) ∨ d.index = some slot ∧ d.conversion ≠ .percent := by
  rw [slots, List.mem_append, List.mem_append, Amount.mem_slot?_iff, Amount.mem_slot?_iff, or_assoc]
  by_cases h : d.conversion = .percent
  · simp [h]
  · simp [h]

theorem names_iff {t : Text w} {slot : Nat} : Names t slot ↔ slot ∈ slotsOf (pieces .ordered t) := by
  rw [slotsOf, List.mem_eraseDups, List.mem_flatMap]
  refine exists_congr fun p ↦ and_congr_right fun _ ↦ ?_
  rcases p with ⟨offset, run | _ | d | e⟩
  case directive =>
    rw [show Piece.slots (.directive d : Piece w) = d.slots from rfl, Directive.mem_slots_iff]
    simp
  all_goals simp [Piece.slots]

theorem nodup_eraseDups (slots : List Nat) : slots.eraseDups.Nodup := by
  induction hlength : slots.length using Nat.strong_induction_on generalizing slots with
  | _ k ih =>
    cases slots with
    | nil => exact List.nodup_nil
    | cons slot slots =>
      have hle := List.length_filter_le (!· == slot) slots
      rw [List.eraseDups_cons, List.nodup_cons, List.mem_eraseDups, List.mem_filter]
      rw [List.length_cons] at hlength
      exact ⟨by simp, ih _ (by omega) _ rfl⟩

/-- Slots are counted once, however often they are named. -/
theorem ncard_names (t : Text w) :
    {slot | Names t slot}.ncard = (slotsOf (pieces .ordered t)).length := by
  have hset : {slot | Names t slot} = ↑(slotsOf (pieces .ordered t)).toFinset := by
    ext slot
    rw [Set.mem_ofPred_eq, names_iff, Finset.mem_coe, List.mem_toFinset]
  rw [hset, Set.ncard_coe_finset]
  exact List.toFinset_card_of_nodup (nodup_eraseDups _)

theorem foldl_max_mem {m : Nat} {xs : List Nat} (h : m < xs.foldl max m) : xs.foldl max m ∈ xs := by
  induction xs generalizing m with
  | nil => exact absurd h (Nat.lt_irrefl m)
  | cons x xs ih =>
    rw [List.foldl_cons] at h ⊢
    by_cases hx : max m x < xs.foldl max (max m x)
    · exact List.mem_cons_of_mem _ (ih hx)
    · have hle : max m x ≤ xs.foldl max (max m x) := (foldl_max_le_iff.mp (Nat.le_refl _)).1
      have heq : xs.foldl max (max m x) = x := by omega
      rw [heq]
      exact List.mem_cons_self

/-- A slot past the end is the largest one if and only if the fold over all slots finds it. -/
theorem isGreatest_names_iff {t : Text w} {slot argCount : Nat} (h : argCount < slot) :
    IsGreatest {slot | Names t slot} slot ↔
      (slotsOf (pieces .ordered t)).foldl max 0 = slot := by
  simp only [IsGreatest, upperBounds, Set.mem_ofPred_eq, names_iff]
  constructor
  · rintro ⟨hmem, hle⟩
    refine Nat.le_antisymm (foldl_max_le_iff.mpr ⟨Nat.zero_le _, fun s hs ↦ hle hs⟩) ?_
    exact (foldl_max_le_iff.mp (Nat.le_refl _)).2 slot hmem
  · rintro rfl
    exact ⟨foldl_max_mem (Nat.zero_lt_of_lt h),
      fun s hs ↦ (foldl_max_le_iff.mp (Nat.le_refl _)).2 s hs⟩

/-! ## What the check finds -/

/-- The error turns a format string down before anything is written. -/
inductive FormatError.IsRejection : FormatError → Prop where
  | malformed (offset : Nat) (error : DirectiveError) : IsRejection (.malformed offset error)
  | tooManySlots (limit : Nat) : IsRejection (.tooManySlots limit)
  | missingSlot (index : Nat) : IsRejection (.missingSlot index)

section Check

variable {limit argCount : Nat} {t : Text w}

/-- A search for malformed pieces finds the first malformed directive. -/
theorem findSome?_malformed?_eq_some_iff {e : FormatError} :
    (pieces .ordered t).findSome? Located.malformed? = some e ↔
      ∃ offset error, e = .malformed offset error ∧ FirstMalformed .ordered t offset error := by
  simp only [← mem_pieces_malformed_iff]
  constructor
  · intro h
    obtain ⟨⟨offset, piece⟩, hp, hfound⟩ := List.exists_of_findSome?_eq_some h
    rcases piece with run | _ | d | error
    case malformed => exact ⟨offset, error, (Option.some.inj hfound).symm, hp⟩
    all_goals exact absurd hfound (by simp [Located.malformed?])
  · rintro ⟨offset, error, rfl, hp⟩
    obtain ⟨before, after, hsplit⟩ := List.append_of_mem hp
    have hbefore : before.findSome? Located.malformed? = none := by
      rw [List.findSome?_eq_none_iff]
      intro p hp
      have hwell : p.isMalformed = false := by
        have hfront : p ∈ (piecesFrom .ordered 0 t).dropLast := by
          rw [← pieces, hsplit, List.dropLast_append_cons]
          exact List.mem_append_left _ hp
        exact isMalformed_eq_false_of_mem_dropLast p hfront
      rwa [p.isMalformed_eq, Option.isSome_eq_false_iff, Option.isNone_iff_eq_none] at hwell
    rw [hsplit, List.findSome?_append, hbefore]
    rfl

theorem orderedFault?_of_firstMalformed {offset : Nat} {error : DirectiveError}
    (h : FirstMalformed .ordered t offset error) :
    orderedFault? limit argCount (pieces .ordered t) = some (.malformed offset error) := by
  rw [orderedFault?, findSome?_malformed?_eq_some_iff.mpr ⟨offset, error, rfl, h⟩]

/-- Without a malformed directive, the slots are checked. -/
theorem orderedFault?_of_wellFormed (h : ∀ offset error, ¬ FirstMalformed .ordered t offset error) :
    orderedFault? limit argCount (pieces .ordered t)
      = if limit < {slot | Names t slot}.ncard then some (.tooManySlots limit)
        else if argCount < (slotsOf (pieces .ordered t)).foldl max 0 then
          some (.missingSlot ((slotsOf (pieces .ordered t)).foldl max 0))
        else none := by
  have hnone : (pieces .ordered t).findSome? Located.malformed? = none := by
    refine Option.eq_none_iff_forall_ne_some.mpr fun e he ↦ ?_
    obtain ⟨offset, error, -, hfirst⟩ := findSome?_malformed?_eq_some_iff.mp he
    exact h offset error hfirst
  rw [orderedFault?, hnone, ncard_names]

theorem orderedFault?_eq_malformed_iff {offset : Nat} {error : DirectiveError} :
    orderedFault? limit argCount (pieces .ordered t) = some (.malformed offset error) ↔
      FirstMalformed .ordered t offset error := by
  refine ⟨fun h ↦ ?_, orderedFault?_of_firstMalformed⟩
  by_cases hsome : ∃ offset error, FirstMalformed .ordered t offset error
  · obtain ⟨offset', error', hfirst⟩ := hsome
    rw [orderedFault?_of_firstMalformed hfirst] at h
    obtain ⟨rfl, rfl⟩ := FormatError.malformed.inj (Option.some.inj h)
    exact hfirst
  · rw [orderedFault?_of_wellFormed fun offset error hfirst ↦ hsome ⟨offset, error, hfirst⟩] at h
    split at h
    · exact absurd h (by simp)
    · split at h <;> exact absurd h (by simp)

theorem orderedFault?_eq_tooManySlots_iff
    (h : ∀ offset error, ¬ FirstMalformed .ordered t offset error) {limit' : Nat} :
    orderedFault? limit argCount (pieces .ordered t) = some (.tooManySlots limit') ↔
      limit' = limit ∧ limit < {slot | Names t slot}.ncard := by
  rw [orderedFault?_of_wellFormed h]
  split
  · next hlimit => simp [hlimit, eq_comm]
  · next hlimit =>
    refine ⟨fun hfault ↦ ?_, fun hmany ↦ absurd hmany.2 hlimit⟩
    split at hfault <;> exact absurd hfault (by simp)

theorem orderedFault?_eq_missingSlot_iff
    (h : ∀ offset error, ¬ FirstMalformed .ordered t offset error)
    (hlimit : {slot | Names t slot}.ncard ≤ limit) {slot : Nat} :
    orderedFault? limit argCount (pieces .ordered t) = some (.missingSlot slot) ↔
      IsGreatest {slot | Names t slot} slot ∧ argCount < slot := by
  rw [orderedFault?_of_wellFormed h, if_neg (Nat.not_lt.mpr hlimit)]
  constructor
  · intro hfault
    split at hfault
    · next hlast =>
      obtain rfl := FormatError.missingSlot.inj (Option.some.inj hfault)
      exact ⟨(isGreatest_names_iff hlast).mpr rfl, hlast⟩
    · exact absurd hfault (by simp)
  · rintro ⟨hgreatest, hslot⟩
    rw [(isGreatest_names_iff hslot).mp hgreatest, if_pos hslot]

theorem isRejection_of_orderedFault? {e : FormatError}
    (h : orderedFault? limit argCount (pieces .ordered t) = some e) : e.IsRejection := by
  by_cases hsome : ∃ offset error, FirstMalformed .ordered t offset error
  · obtain ⟨offset, error, hfirst⟩ := hsome
    rw [orderedFault?_of_firstMalformed hfirst] at h
    rw [← Option.some.inj h]
    exact .malformed offset error
  · rw [orderedFault?_of_wellFormed fun offset error hfirst ↦ hsome ⟨offset, error, hfirst⟩] at h
    split at h
    · rw [← Option.some.inj h]
      exact .tooManySlots limit
    · split at h
      · rw [← Option.some.inj h]
        exact .missingSlot _
      · exact absurd h (by simp)

end Check

/-! ## No argument is missing -/

section Supplied

variable {args : List Arg}

theorem ArgSource.take_slots {i : Nat} (h : i + 1 ≤ args.length) :
    (slots args).take (some (i + 1)) = ⟨.ok args[i], .slots args⟩ := by
  rw [take, next, List.getElem?_eq_getElem h]

/-- A width or a precision can only be of the wrong type. -/
theorem ArgSource.takeAmount_slots {amount : Option Amount} (hslotted : ∀ a ∈ amount, a.Slotted)
    (hargs : ∀ slot ∈ (amount.bind Amount.slot?).toList, slot ≤ args.length) :
    ∃ x, (slots args).takeAmount amount = ⟨x, .slots args⟩ ∧ x ≠ .error .notEnoughArguments := by
  rcases amount with _ | a
  · exact ⟨_, rfl, by simp⟩
  · cases hslotted a rfl with
    | literal n => exact ⟨_, rfl, by simp⟩
    | slot i =>
      have hi : i < args.length := hargs (i + 1) (List.mem_singleton_self _)
      rw [takeAmount, take_slots hi, Taken.andThen_ok]
      cases args[i].integer? with
      | none => exact ⟨_, rfl, by simp⟩
      | some v => exact ⟨_, rfl, by simp⟩

/-- **A directive** whose slots are there does not miss an argument. -/
theorem Directive.render_slots {d : Directive} (hd : d.Slotted)
    (hargs : ∀ slot ∈ d.slots, slot ≤ args.length) (config : Config) (written : Nat) :
    (d.render (w := w) config written (.slots args)).result ≠ .error .notEnoughArguments := by
  simp only [slots, List.mem_append] at hargs
  obtain ⟨width, hwidth, hwidth'⟩ := ArgSource.takeAmount_slots hd.width
    fun slot hslot ↦ hargs slot (.inl (.inl hslot))
  obtain ⟨precision, hprecision, hprecision'⟩ := ArgSource.takeAmount_slots hd.precision
    fun slot hslot ↦ hargs slot (.inl (.inr hslot))
  rw [render, hwidth]
  rcases width with f | width
  · exact fun h ↦ hwidth' (congrArg Except.error (Except.error.inj h))
  rw [Taken.andThen_ok, hprecision]
  rcases precision with f | precision
  · exact fun h ↦ hprecision' (congrArg Except.error (Except.error.inj h))
  rw [Taken.andThen_ok]
  split
  · simp
  · next hpercent =>
    obtain ⟨i, hi⟩ := hd.index
    have hle : i + 1 ≤ args.length := hargs (i + 1) (.inr (by simp [hpercent, hi]))
    rw [hi, ArgSource.take_slots hle, Taken.andThen_ok]
    split <;> simp

/-- **All pieces.** Once the check is passed, only an argument of the wrong type stops them. -/
theorem renderPieces_slots {config : Config} {written : Nat} {t : Text w} {e : FormatError}
    (hcheck : orderedFault? config.slotLimit args.length (pieces .ordered t) = none)
    (h : (renderPieces config written (.slots args) (pieces .ordered t)).fault = some e) :
    ∃ offset, e = .badType offset := by
  obtain ⟨hwell, hargs⟩ := orderedFault?_eq_none hcheck
  have hslotted : ∀ p ∈ pieces .ordered t, ∀ d, p.piece = .directive d → d.Slotted := by
    intro p hp d hd
    obtain ⟨s, n, hparse⟩ := exists_parse_of_mem_piecesFrom hp hd
    exact (Directive.parse_unslotted hparse).1
  generalize pieces .ordered t = ps at h hwell hargs hslotted
  induction ps generalizing written with
  | nil => exact absurd h (by simp [renderPieces])
  | cons p ps ih =>
    obtain ⟨hp, hps⟩ := List.forall_mem_cons.mp hwell
    obtain ⟨hpargs, hpsargs⟩ := List.forall_mem_cons.mp hargs
    obtain ⟨hpslotted, hpsslotted⟩ := List.forall_mem_cons.mp hslotted
    rcases p with ⟨offset, run | _ | d | error⟩
    · exact ih h hps hpsargs hpsslotted
    · exact ih h hps hpsargs hpsslotted
    · have hd := hpslotted d rfl
      have hsupplied := Directive.render_slots (w := w) hd hpargs config written
      obtain ⟨x, hrender, -⟩ := InStep.render (w := w) hd hpargs config written
      rw [hrender] at hsupplied
      rw [renderPieces, Located.render] at h
      dsimp only at h
      rw [hrender] at h
      rcases x with f | actions
      · cases f with
        | notEnoughArguments => exact absurd rfl hsupplied
        | badType => exact ⟨offset, (Option.some.inj h).symm⟩
      · exact ih h hps hpsargs hpsslotted
    · exact absurd hp (by simp [Located.isMalformed])

end Supplied

/-! ## Calls -/

section Calls

variable {σ : Type} (config : Config) (t : Text w) (args : List Arg) (sink : FillSink w σ) (s : σ)

/-- A format string that fails the check leaves everything as it was. -/
theorem formatOrderedInto_of_fault {e : FormatError}
    (h : orderedFault? config.slotLimit args.length (pieces .ordered t) = some e) :
    config.formatOrderedInto t args sink s = ⟨.error e, s, [], .slots args⟩ := by
  rw [Config.formatOrderedInto, Config.renderOrdered, h]
  rfl

/-- Behind the check, a call fails for the type of an argument or because the sink refuses. -/
theorem formatOrderedInto_of_none {e : FormatError}
    (h : orderedFault? config.slotLimit args.length (pieces .ordered t) = none)
    (herror : (config.formatOrderedInto t args sink s).result = .error e) :
    (∃ offset, e = .badType offset) ∨ e = .sink := by
  have hrender : config.renderOrdered t args
      = renderPieces config 0 (.slots args) (pieces .ordered t) := by rw [Config.renderOrdered, h]
  rw [Config.formatOrderedInto, hrender, Rendering.into_result] at herror
  split at herror
  · exact .inl (renderPieces_slots h (Rendering.fault_of_result herror))
  · exact .inr (Except.error.inj herror).symm

theorem formatOrderedInto_eq_error_iff {e : FormatError} (he : e.IsRejection) :
    (config.formatOrderedInto t args sink s).result = .error e ↔
      orderedFault? config.slotLimit args.length (pieces .ordered t) = some e := by
  constructor
  · intro h
    cases hcheck : orderedFault? config.slotLimit args.length (pieces .ordered t) with
    | some e' =>
      rw [formatOrderedInto_of_fault config t args sink s hcheck] at h
      rw [Except.error.inj h]
    | none =>
      obtain ⟨offset, rfl⟩ | rfl := formatOrderedInto_of_none config t args sink s hcheck h
      · exact absurd he (by rintro ⟨⟩)
      · exact absurd he (by rintro ⟨⟩)
  · intro h
    rw [formatOrderedInto_of_fault config t args sink s h]

/-- The outcome of a call that checks its format string first: it is turned down for the first
malformed directive if there is one, else for the number of slots if that exceeds the limit, else
for the largest slot if there is no such argument. -/
structure Outcome.Checked (o : Outcome σ) (limit : Nat) (t : Text w) (args : List Arg) (s : σ) :
    Prop where
  malformed : ∀ offset error, o.result = .error (.malformed offset error) ↔
    FirstMalformed .ordered t offset error
  tooManySlots : (∀ offset error, ¬ FirstMalformed .ordered t offset error) → ∀ n,
    o.result = .error (.tooManySlots n) ↔ n = limit ∧ limit < {slot | Names t slot}.ncard
  missingSlot : (∀ offset error, ¬ FirstMalformed .ordered t offset error) →
    {slot | Names t slot}.ncard ≤ limit → ∀ slot, o.result = .error (.missingSlot slot) ↔
      IsGreatest {slot | Names t slot} slot ∧ args.length < slot
  /-- A call that is turned down does nothing but report it. -/
  untouched : ∀ e, o.result = .error e → e.IsRejection →
    o.sink = s ∧ o.counts = [] ∧ ∃ diagnostic, o.diagnostics = [diagnostic]
  /-- No argument is missing behind the check. -/
  faults : ∀ e, o.result = .error e → e.IsRejection ∨ (∃ offset, e = .badType offset) ∨ e = .sink

/-- **The check is sound and complete**, whatever the sink. -/
theorem formatOrdered_checks_first (config : Config) (t : Text w) (args : List Arg)
    (sink : FillSink w σ) (s : σ) :
    (config.formatOrderedInto t args sink s).Checked config.slotLimit t args s := by
  have hiff {e : FormatError} (he : e.IsRejection) :=
    formatOrderedInto_eq_error_iff config t args sink s he
  refine ⟨?_, ?_, ?_, ?_, ?_⟩
  · intro offset error
    rw [hiff (.malformed offset error)]
    exact orderedFault?_eq_malformed_iff
  · intro hwell n
    rw [hiff (.tooManySlots n)]
    exact orderedFault?_eq_tooManySlots_iff hwell
  · intro hwell hlimit slot
    rw [hiff (.missingSlot slot)]
    exact orderedFault?_eq_missingSlot_iff hwell hlimit
  · intro e he hrejection
    rw [formatOrderedInto_of_fault config t args sink s ((hiff hrejection).mp he)]
    refine ⟨rfl, rfl, ?_⟩
    cases hrejection with
    | malformed => exact ⟨_, rfl⟩
    | tooManySlots => exact ⟨_, rfl⟩
    | missingSlot => exact ⟨_, rfl⟩
  · intro e he
    cases hcheck : orderedFault? config.slotLimit args.length (pieces .ordered t) with
    | none => exact .inr (formatOrderedInto_of_none config t args sink s hcheck he)
    | some e' =>
      rw [formatOrderedInto_of_fault config t args sink s hcheck] at he
      obtain rfl := Except.error.inj he
      exact .inl (isRejection_of_orderedFault? hcheck)

/-- Two arguments for `%1:*3:d%4:%`: it names the slots 1 and 3, for a percent sign has no value. The
third argument is missing, and nothing was put out. -/
theorem formatOrdered_checks_first_width_slot :
    let t := Text.ofAscii .utf8 ['%', '1', ':', '*', '3', ':', 'd', '%', '4', ':', '%']
    let o := Config.formatOrderedInto {} t [.integer .int32 42, .nullText] .text []
    IsGreatest {slot | Names t slot} 3 ∧ o.result = .error (.missingSlot 3) ∧ o.sink = [] := by
  intro t o
  have hslots : slotsOf (pieces .ordered t) = [3, 1] := by decide +kernel
  have hgreatest : IsGreatest {slot | Names t slot} 3 := by
    rw [isGreatest_names_iff (show 2 < 3 by decide), hslots]
    rfl
  have hwell : ∀ offset error, ¬ FirstMalformed .ordered t offset error := by
    intro offset error h
    have hmem := mem_pieces_malformed_iff.mpr h
    have hnone : ∀ p ∈ pieces .ordered t, p.isMalformed = false := by decide +kernel
    exact absurd (hnone _ hmem) Bool.noConfusion
  have hlimit : {slot | Names t slot}.ncard ≤ 21 := by
    rw [ncard_names, hslots]
    decide
  have hchecked := formatOrdered_checks_first {} t [.integer .int32 42, .nullText] .text []
  have hresult : o.result = .error (.missingSlot 3) :=
    (hchecked.missingSlot hwell hlimit 3).mpr ⟨hgreatest, by decide⟩
  exact ⟨hgreatest, hresult, (hchecked.untouched _ hresult (.missingSlot 3)).1⟩

end Calls

end FormatString
