import Mathlib
import FormatString.Proofs.Directive.Unslot
import FormatString.Proofs.Writer.Rendering

/-!
# Slots and the order of arguments

A format string that names its arguments can do without the names if the arguments are listed in the
order in which they are named, each as often as it is. `unslotted` deletes the names and `slotArgs`
lists the arguments.

## The simulation

The two format strings have the same pieces, up to the slots: `Unslots` relates them one by one. The
calls then go in step. Before every piece the left call has all its arguments, the right one those
of the slots that the pieces to come name, and what a piece takes from the left by name it takes
from the right in front.
-/

namespace FormatString

variable {w : Width}

/-! ## Format strings without slots -/

/-- Deletes the slots of the directives of a format string, up to the first malformed one. -/
def unslotted (t : Text w) : Text w :=
  match t with
  | [] => []
  | u :: rest =>
    if u.spells '%' then
      if percentNext rest then u :: .ofAscii w '%' :: unslotted (rest.drop 1)
      else
        match Directive.parse .ordered rest with
        | .ok (_, n) =>
          u :: (Text.ofAscii w (deleteSlots true (Text.asciiRun (rest.take n))) ++
            unslotted (rest.drop n))
        | .error _ => u :: rest
    else u :: unslotted rest
termination_by t.length
decreasing_by
  all_goals simp only [List.length_drop, List.length_cons]; omega

/-- The arguments of slots, in the order of the slots. -/
def slotArgs (args : List Arg) (slots : List Nat) : List Arg := slots.filterMap fun s ↦ args[s - 1]?

section Equations

variable {u : CodeUnit w} {s t : Text w}

@[simp] theorem unslotted_nil : unslotted ([] : Text w) = [] := by rw [unslotted]

theorem unslotted_literal (hu : u.spells '%' = false) : unslotted (u :: t) = u :: unslotted t := by
  rw [unslotted, if_neg (ne_true_of_eq_false hu)]

theorem unslotted_percent :
    unslotted (.ofAscii w '%' :: .ofAscii w '%' :: t)
      = .ofAscii w '%' :: .ofAscii w '%' :: unslotted t := by
  rw [unslotted, if_pos CodeUnit.spells_percent, if_pos (by simp [percentNext])]
  rfl

theorem unslotted_directive {d : Directive} {n : Nat} (hs : percentNext s = false)
    (h : Directive.parse .ordered s = .ok (d, n)) :
    unslotted (.ofAscii w '%' :: s)
      = .ofAscii w '%' :: (Text.ofAscii w (deleteSlots true (Text.asciiRun (s.take n))) ++
          unslotted (s.drop n)) := by
  rw [unslotted, if_pos CodeUnit.spells_percent, if_neg (ne_true_of_eq_false hs), h]

theorem unslotted_run {run : Text w} (hrun : ∀ u ∈ run, u.spells '%' = false) :
    unslotted (run ++ s) = run ++ unslotted s := by
  induction run with
  | nil => rfl
  | cons u run ih =>
    rw [List.cons_append, unslotted_literal (hrun u List.mem_cons_self),
      ih fun v hv ↦ hrun v (List.mem_cons_of_mem _ hv), List.cons_append]

/-- Deleting slots leaves a percent sign at the front where it is. -/
theorem percentNext_unslotted (h : percentNext s) : percentNext (unslotted s) := by
  rcases s with _ | ⟨u, s⟩
  · exact absurd h Bool.false_ne_true
  · have hu : u.spells '%' = true := h
    rw [unslotted, if_pos hu]
    split
    · exact hu
    · split <;> exact hu

end Equations

/-! ## The pieces correspond -/

/-- A piece of an ordered format string, and the same piece without slots. A directive that is
nothing but a percent sign behind its slot becomes an escaped percent sign. -/
inductive Unslots : Piece w → Piece w → Prop where
  | literal (run : Text w) : Unslots (.literal run) (.literal run)
  | percent : Unslots .percent .percent
  | bare {d : Directive} (hconversion : d.conversion = .percent) (hwidth : d.width = none)
    (hprecision : d.precision = none) : Unslots (.directive d) .percent
  | directive {d : Directive} (h : d.Slotted) : Unslots (.directive d) (.directive d.unslotted)

/-- **Same pieces.** Slots apart, an ordered format string without malformed directives has the
pieces it has once its slots are deleted. -/
theorem pieces_unslotted {offset : Nat} {t : Text w}
    (h : ∀ p ∈ piecesFrom .ordered offset t, p.isMalformed = false) (offset' : Nat) :
    List.Forall₂ (fun p q ↦ Unslots p.piece q.piece) (piecesFrom .ordered offset t)
      (piecesFrom .print offset' (unslotted t)) := by
  fun_induction piecesFrom .ordered offset t generalizing offset' with
  | case1 =>
    rw [unslotted_nil, piecesFrom_nil]
    exact .nil
  | case2 offset u rest hu hrest ih =>
    obtain rfl := (CodeUnit.spells_iff (by decide)).mp hu
    rcases rest with _ | ⟨v, t⟩
    · exact absurd hrest Bool.false_ne_true
    · obtain rfl := (CodeUnit.spells_iff (by decide)).mp hrest
      rw [unslotted_percent, piecesFrom_percent]
      exact .cons .percent (ih (List.forall_mem_cons.mp h).2 _)
  | case3 offset u rest hu hrest d n hparse ih =>
    obtain rfl := (CodeUnit.spells_iff (by decide)).mp hu
    obtain ⟨hslotted, fields, c, hdelete, hspells, hset⟩ := Directive.parse_unslotted hparse
    rw [unslotted_directive (Bool.eq_false_of_not_eq_true hrest) hparse, hdelete]
    -- A percent sign behind nothing but its slot is an escaped one once the slot is deleted.
    by_cases hbare : fields = [] ∧ c = '%'
    · obtain ⟨rfl, rfl⟩ := hbare
      obtain ⟨hconversion, hwidth, hprecision⟩ := hspells.bare
      change List.Forall₂ _ _ (piecesFrom .print offset'
        (.ofAscii w '%' :: .ofAscii w '%' :: unslotted (rest.drop n)))
      rw [piecesFrom_percent]
      refine .cons (.bare hconversion ?_ ?_) (ih (List.forall_mem_cons.mp h).2 _)
      · exact Option.map_eq_none_iff.mp hwidth
      · exact Option.map_eq_none_iff.mp hprecision
    · have hnext := hspells.percentNext_eq hbare (unslotted (rest.drop n))
      have hprint : Directive.parse .print
          (Text.ofAscii w (fields ++ [c]) ++ unslotted (rest.drop n))
            = .ok (d.unslotted, fields.length + 1) := by
        refine (Directive.parse_eq_ok_iff_of_ne ?_).mpr ⟨fields, c, _, rfl, hspells, hset, rfl⟩
        change d.conversion ≠ .charSet
        exact Directive.conversion_ne_charSet (by decide) hparse
      have hlength : (Text.ofAscii w (fields ++ [c])).length = fields.length + 1 := by simp
      rw [piecesFrom_directive hnext hprint, List.drop_left' hlength]
      exact .cons (.directive hslotted) (ih (List.forall_mem_cons.mp h).2 _)
  | case4 offset u rest hu hrest e hparse =>
    exact absurd (h _ (List.mem_singleton_self _)) (by simp [Located.isMalformed])
  | case5 offset u rest hu run ih =>
    have hrun : ∀ v ∈ run, v.spells '%' = false := by
      refine List.forall_mem_cons.mpr ⟨Bool.eq_false_of_not_eq_true hu, fun v hv ↦ ?_⟩
      simpa using List.mem_takeWhile_imp hv
    have hsplit : run ++ rest.dropWhile (!·.spells '%') = u :: rest :=
      congrArg (u :: ·) List.takeWhile_append_dropWhile
    rw [← hsplit, unslotted_run hrun, piecesFrom_run (List.cons_ne_nil _ _) hrun]
    -- The run ends where it ended before: the percent sign behind it is still there.
    · exact .cons (.literal run) (ih (List.forall_mem_cons.mp h).2 _)
    · obtain hnil | hnext := percentNext_dropWhile rest
      · exact .inl (by rw [hnil, unslotted_nil])
      · exact .inr (percentNext_unslotted hnext)

/-! ## Taking by name and taking in order -/

section InStep

variable {α β : Type} {args : List Arg}

theorem slotArgs_append (args : List Arg) (xs ys : List Nat) :
    slotArgs args (xs ++ ys) = slotArgs args xs ++ slotArgs args ys := List.filterMap_append

/-- Taking arguments by name on the left comes to the same as taking them in order on the right,
where those of the slots come next. If it succeeds, these are all that was taken. -/
def InStep (args : List Arg) (slots : List Nat) (byName inOrder : ArgSource → Taken α) : Prop :=
  ∃ x, byName (.slots args) = ⟨x, .slots args⟩ ∧ ∀ k rest, ∃ source,
    inOrder (.sequential ⟨k, slotArgs args slots ++ rest⟩) = ⟨x, source⟩ ∧
      ∀ a, x = .ok a → source = .sequential ⟨k + slots.length, rest⟩

namespace InStep

theorem done (x : Except ArgFault α) : InStep args [] (⟨x, ·⟩) (⟨x, ·⟩) :=
  ⟨x, rfl, fun _ _ ↦ ⟨_, rfl, fun _ _ ↦ rfl⟩⟩

theorem take {i : Nat} (h : i + 1 ≤ args.length) :
    InStep args [i + 1] (·.take (some (i + 1))) (·.take none) := by
  refine ⟨.ok args[i], ?_, fun k rest ↦ ⟨.sequential ⟨k + 1, rest⟩, ?_, fun _ _ ↦ rfl⟩⟩
  · dsimp only
    rw [ArgSource.take, ArgSource.next, List.getElem?_eq_getElem h]
  · dsimp only
    rw [slotArgs, List.filterMap_cons, Nat.add_sub_cancel, List.getElem?_eq_getElem h]
    rfl

/-- **One after the other.** -/
theorem andThen {xs ys : List Nat} {t t' : ArgSource → Taken α} {f f' : α → ArgSource → Taken β}
    (ht : InStep args xs t t') (hf : ∀ a, InStep args ys (f a) (f' a)) :
    InStep args (xs ++ ys) (fun s ↦ (t s).andThen f) (fun s ↦ (t' s).andThen f') := by
  obtain ⟨x, hleft, hright⟩ := ht
  -- To the first call, the arguments of the second are part of what is behind its own.
  rcases x with e | a
  · refine ⟨.error e, ?_, ?_⟩
    · dsimp only
      rw [hleft]
      rfl
    · intro k rest
      obtain ⟨source, hsource, -⟩ := hright k (slotArgs args ys ++ rest)
      refine ⟨source, ?_, fun _ hok ↦ absurd hok (by simp)⟩
      dsimp only
      rw [slotArgs_append, List.append_assoc, hsource]
      rfl
  · obtain ⟨y, hleft', hright'⟩ := hf a
    refine ⟨y, ?_, ?_⟩
    · dsimp only
      rw [hleft]
      exact hleft'
    · intro k rest
      obtain ⟨source, hsource, hrest⟩ := hright k (slotArgs args ys ++ rest)
      obtain ⟨source', hsource', hrest'⟩ := hright' (k + xs.length) rest
      refine ⟨source', ?_, ?_⟩
      · dsimp only
        rw [slotArgs_append, List.append_assoc, hsource, hrest a rfl]
        exact hsource'
      · intro b hb
        rw [hrest' b hb, List.length_append, Nat.add_assoc]

/-- A width or a precision is the same number whether its argument is named or comes next. -/
theorem takeAmount {amount : Option Amount} (hslotted : ∀ a ∈ amount, a.Slotted)
    (hargs : ∀ s ∈ (amount.bind Amount.slot?).toList, s ≤ args.length) :
    InStep args (amount.bind Amount.slot?).toList (·.takeAmount amount)
      (·.takeAmount (amount.map Amount.unslotted)) := by
  rcases amount with _ | a
  · exact done (.ok none)
  · cases hslotted a rfl with
    | literal n => exact done (.ok (some (n : Int)))
    | slot i =>
      have hi : i + 1 ≤ args.length := hargs (i + 1) (List.mem_singleton_self _)
      change InStep args ([i + 1] ++ []) _ _
      simp only [Option.map_some, Amount.unslotted, ArgSource.takeAmount]
      refine (take hi).andThen fun arg ↦ ?_
      cases arg.integer? with
      | none => exact done (.error .badType)
      | some v => exact done (.ok (some (IntType.int32.reinterpret v.1)))

/-- **One directive.** It puts out the same, or fails for the same reason. -/
theorem render {d : Directive} (hd : d.Slotted) (hargs : ∀ s ∈ d.slots, s ≤ args.length)
    (config : Config) (written : Nat) :
    InStep args d.slots (d.render (w := w) config written) (d.unslotted.render config written) := by
  simp only [Directive.slots, List.mem_append] at hargs
  have hwidth := takeAmount hd.width fun s hs ↦ hargs s (.inl (.inl hs))
  have hprecision := takeAmount hd.precision fun s hs ↦ hargs s (.inl (.inr hs))
  rw [Directive.slots, List.append_assoc]
  refine hwidth.andThen fun width ↦ hprecision.andThen fun precision ↦ ?_
  by_cases hpercent : d.conversion = .percent
  · have hpercent' : d.unslotted.conversion = .percent := hpercent
    simp only [if_pos hpercent, if_pos hpercent']
    exact done _
  · have hpercent' : d.unslotted.conversion ≠ .percent := hpercent
    obtain ⟨i, hi⟩ := hd.index
    have hle : i + 1 ≤ args.length := hargs (i + 1) (.inr (by simp [hpercent, hi]))
    simp only [if_neg hpercent, if_neg hpercent', hi]
    refine (take hle).andThen fun arg ↦ ?_
    have houtput : d.unslotted.output? (w := w) config (.of d.unslotted width precision) written arg
        = d.output? config (.of d width precision) written arg := rfl
    rw [houtput]
    cases d.output? config (.of d width precision) written arg with
    | none => exact done (.error .badType)
    | some actions => exact done (.ok actions)

end InStep

end InStep

/-! ## The calls go in step -/

section Simulation

variable {args : List Arg}

/-- **One piece.** Related pieces put out the same, or fail for the same reason. -/
theorem Located.render_inStep {p q : Located w} (h : Unslots p.piece q.piece)
    (hargs : ∀ s ∈ p.piece.slots, s ≤ args.length) (config : Config) (written k : Nat)
    (rest : List Arg) :
    (∃ actions, p.render config written (.slots args) = (.ok ⟨actions, .slots args⟩, .slots args) ∧
      q.render config written (.sequential ⟨k, slotArgs args p.piece.slots ++ rest⟩)
        = (.ok ⟨actions, .sequential ⟨k + p.piece.slots.length, rest⟩⟩,
            .sequential ⟨k + p.piece.slots.length, rest⟩)) ∨
    ∃ (f : ArgFault) (source : ArgSource),
      p.render config written (.slots args) = (.error (f.at p.offset), .slots args) ∧
      q.render config written (.sequential ⟨k, slotArgs args p.piece.slots ++ rest⟩)
        = (.error (f.at q.offset), source) := by
  rcases p with ⟨offset, piece⟩
  rcases q with ⟨offset', piece'⟩
  dsimp only at h hargs ⊢
  cases h with
  | literal run => exact .inl ⟨_, rfl, rfl⟩
  | percent => exact .inl ⟨_, rfl, rfl⟩
  | @bare d hconversion hwidth hprecision =>
    have hslots : (Piece.directive (w := w) d).slots = [] := by
      simp [Piece.slots, Directive.slots, hconversion, hwidth, hprecision]
    rw [hslots, Located.render, Located.render]
    dsimp only
    rw [Directive.render_percent hconversion hwidth hprecision]
    exact .inl ⟨_, rfl, rfl⟩
  | @directive d hd =>
    obtain ⟨x, hleft, hright⟩ := InStep.render (w := w) hd hargs config written
    obtain ⟨source, hsource, hrest⟩ := hright k rest
    have hslots : (Piece.directive (w := w) d).slots = d.slots := rfl
    rw [hslots, Located.render, Located.render]
    dsimp only
    rw [hleft, hsource]
    rcases x with f | actions
    · exact .inr ⟨f, source, rfl, rfl⟩
    · rw [hrest actions rfl]
      exact .inl ⟨actions, rfl, rfl⟩

/-- **All pieces.** -/
theorem renderPieces_inStep {ps qs : List (Located w)}
    (h : List.Forall₂ (fun p q ↦ Unslots p.piece q.piece) ps qs)
    (hargs : ∀ p ∈ ps, ∀ s ∈ p.piece.slots, s ≤ args.length) (config : Config) (written k : Nat) :
    let byName := renderPieces config written (.slots args) ps
    let inOrder := renderPieces config written
      (.sequential ⟨k, slotArgs args (ps.flatMap (·.piece.slots))⟩) qs
    byName.actions = inOrder.actions ∧
      (byName.fault = none ∧ inOrder.fault = none ∨
        ∃ (i : Nat) (p q : Located w) (f : ArgFault), ps[i]? = some p ∧ qs[i]? = some q ∧
          byName.fault = some (f.at p.offset) ∧ inOrder.fault = some (f.at q.offset)) := by
  -- Before each piece the cursor stands in front of the arguments of the pieces to come.
  induction h generalizing written k with
  | nil => exact ⟨rfl, .inl ⟨rfl, rfl⟩⟩
  | @cons p q ps qs hpq _ ih =>
    obtain ⟨hp, hps⟩ := List.forall_mem_cons.mp hargs
    rw [List.flatMap_cons, slotArgs_append, renderPieces, renderPieces]
    obtain ⟨actions, hbyName, hinOrder⟩ | ⟨f, source, hbyName, hinOrder⟩ :=
      Located.render_inStep hpq hp config written k (slotArgs args (ps.flatMap (·.piece.slots)))
    · rw [hbyName, hinOrder]
      obtain ⟨hactions, hend⟩ := ih hps (written + outputLength actions)
        (k + p.piece.slots.length)
      refine ⟨congrArg (actions ++ ·) hactions, ?_⟩
      obtain hnone | ⟨i, p', q', f, hp', hq', hfault⟩ := hend
      · exact .inl hnone
      · exact .inr ⟨i + 1, p', q', f, hp', hq', hfault⟩
    · rw [hbyName, hinOrder]
      exact ⟨rfl, .inr ⟨0, p, q, f, rfl, rfl, rfl, rfl⟩⟩

end Simulation

/-! ## Checked format strings -/

theorem foldl_max_le_iff {k m : Nat} {xs : List Nat} :
    xs.foldl max m ≤ k ↔ m ≤ k ∧ ∀ x ∈ xs, x ≤ k := by
  induction xs generalizing m with
  | nil => simp
  | cons x xs ih => rw [List.foldl_cons, ih, max_le_iff, List.forall_mem_cons, and_assoc]

theorem Located.isMalformed_eq (p : Located w) : p.isMalformed = p.malformed?.isSome := by
  rcases p with ⟨offset, run | _ | d | e⟩ <;> rfl

/-- **The check** asks for three things: well-formed directives, few enough slots, and none of them
past the end of the arguments. -/
theorem orderedFault?_eq_none_iff {limit argCount : Nat} {ps : List (Located w)} :
    orderedFault? limit argCount ps = none ↔
      (∀ p ∈ ps, p.isMalformed = false) ∧ (slotsOf ps).length ≤ limit ∧
        ∀ s ∈ slotsOf ps, s ≤ argCount := by
  have hwell : ps.findSome? Located.malformed? = none ↔ ∀ p ∈ ps, p.isMalformed = false := by
    rw [List.findSome?_eq_none_iff]
    refine forall₂_congr fun p _ ↦ ?_
    rw [p.isMalformed_eq, Option.isSome_eq_false_iff, Option.isNone_iff_eq_none]
  have hlast : (slotsOf ps).foldl max 0 ≤ argCount ↔ ∀ s ∈ slotsOf ps, s ≤ argCount := by
    rw [foldl_max_le_iff]
    exact and_iff_right (Nat.zero_le _)
  rw [← hwell, ← hlast, orderedFault?]
  cases ps.findSome? Located.malformed? with
  | some e => simp
  | none =>
    by_cases hlimit : limit < (slotsOf ps).length
    · simp [hlimit, Nat.not_le.mpr hlimit]
    · by_cases hslot : argCount < (slotsOf ps).foldl max 0
      · simp [hlimit, hslot, Nat.not_le.mpr hslot]
      · simp [hlimit, hslot, Nat.not_lt.mp hlimit, Nat.not_lt.mp hslot]

/-- A format string that passes the check has no malformed directive and names no slot past the
end. -/
theorem orderedFault?_eq_none {limit argCount : Nat} {ps : List (Located w)}
    (h : orderedFault? limit argCount ps = none) :
    (∀ p ∈ ps, p.isMalformed = false) ∧ ∀ p ∈ ps, ∀ s ∈ p.piece.slots, s ≤ argCount := by
  obtain ⟨hwell, -, hslots⟩ := orderedFault?_eq_none_iff.mp h
  refine ⟨hwell, ?_⟩
  intro p hp s hs
  exact hslots s (List.mem_eraseDups.mpr (List.mem_flatMap.mpr ⟨p, hp, hs⟩))

/-- The front of a format string that passes the check passes it too. -/
theorem orderedFault?_of_append {limit argCount : Nat} {before after : List (Located w)}
    (h : orderedFault? limit argCount (before ++ after) = none) :
    orderedFault? limit argCount before = none := by
  obtain ⟨hwell, hlimit, hslots⟩ := orderedFault?_eq_none_iff.mp h
  rw [slotsOf, List.flatMap_append, List.eraseDups_append, ← slotsOf] at hlimit hslots
  refine orderedFault?_eq_none_iff.mpr ⟨?_, ?_, ?_⟩
  · intro p hp
    exact hwell p (List.mem_append_left _ hp)
  · rw [List.length_append] at hlimit
    omega
  · intro s hs
    exact hslots s (List.mem_append_left _ hs)

theorem formatOrdered_eq (config : Config) (t : Text w) (args : List Arg)
    (h : orderedFault? config.slotLimit args.length (pieces .ordered t) = none) :
    config.formatOrdered t args
      = (renderPieces config 0 (.slots args) (pieces .ordered t)).outcome := by
  rw [Config.formatOrdered, Config.formatOrderedInto, Rendering.into_text_nil,
    Config.renderOrdered, h]

/-- A call that fails the check puts nothing out. -/
theorem formatOrdered_eq_of_fault (config : Config) (t : Text w) (args : List Arg) {e : FormatError}
    (h : orderedFault? config.slotLimit args.length (pieces .ordered t) = some e) :
    config.formatOrdered t args = ⟨.error e, [], [], .slots args⟩ := by
  rw [Config.formatOrdered, Config.formatOrderedInto, Rendering.into_text_nil,
    Config.renderOrdered, h]
  rfl

/-- **Slots are a matter of notation.** A call that passes the check writes what the call without
the slots writes, given the arguments in the order in which they are named; and if one fails, so
does the other, at the same piece and for the same reason. -/
theorem formatOrdered_eq_format_unslotted (config : Config) (t : Text w) (args : List Arg)
    (h : orderedFault? config.slotLimit args.length (pieces .ordered t) = none) :
    let named := pieces .ordered t
    let byName := config.formatOrdered t args
    let inOrder := config.format (unslotted t) (slotArgs args (named.flatMap (·.piece.slots)))
    byName.sink = inOrder.sink ∧ byName.counts = inOrder.counts ∧
      ((∃ n, byName.result = .ok n ∧ inOrder.result = .ok n) ∨
        ∃ (i : Nat) (p q : Located w) (f : ArgFault), named[i]? = some p ∧
          (pieces .print (unslotted t))[i]? = some q ∧
          byName.result = .error (f.at p.offset) ∧ inOrder.result = .error (f.at q.offset)) := by
  obtain ⟨hwell, hargs⟩ := orderedFault?_eq_none h
  obtain ⟨hactions, hend⟩ := renderPieces_inStep (pieces_unslotted hwell 0) hargs config 0 0
  intro named byName inOrder
  rw [show byName = _ from formatOrdered_eq config t args h,
    show inOrder = _ from config.format_eq ..]
  refine ⟨congrArg outputText hactions, congrArg (·.filterMap Action.stored?) hactions, ?_⟩
  obtain ⟨hbyName, hinOrder⟩ | ⟨i, p, q, f, hp, hq, hbyName, hinOrder⟩ := hend
  · have hlength := congrArg (fun actions ↦ (outputText actions).length) hactions
    exact .inl ⟨_, Rendering.result_of_fault_none hbyName,
      (Rendering.result_of_fault_none hinOrder).trans (congrArg Except.ok hlength.symm)⟩
  · exact .inr ⟨i, p, q, f, hp, hq, Rendering.result_of_fault_some hbyName,
      Rendering.result_of_fault_some hinOrder⟩

/-- A width from the third slot, a bare percent sign, and the first slot a second time: without the
slots this is `%*d%%%x` on the third, the first and the first argument. -/
theorem formatOrdered_eq_format_unslotted_repeated :
    let t := Text.ofAscii .utf8
      ['%', '1', ':', '*', '3', ':', 'd', '%', '2', ':', '%', '%', '1', ':', 'x']
    let args := [Arg.integer .int32 42, .nullText, .integer .int32 5]
    orderedFault? 21 args.length (pieces .ordered t) = none ∧
      (Config.formatOrdered {} t args).sink
        = (Config.format {} (Text.ofAscii .utf8 ['%', '*', 'd', '%', '%', '%', 'x'])
            [.integer .int32 5, .integer .int32 42, .integer .int32 42]).sink := by
  intro t args
  have hcheck : orderedFault? 21 args.length (pieces .ordered t) = none := by decide +kernel
  obtain ⟨hsink, -⟩ := formatOrdered_eq_format_unslotted {} t args hcheck
  refine ⟨hcheck, hsink.trans ?_⟩
  decide +kernel

end FormatString
