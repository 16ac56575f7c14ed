import Mathlib
import FormatString.Proofs.Reader.Effect
import FormatString.Proofs.Template.Encoded

/-!
# Steps on strings

A call that reads a string by a format string does the same at every width they are spelled in.
`StringState` is what such a call remembers, in characters, and `Uniform` says that the outcome of a
step is the same for all widths. It is shown here of each kind of step.

What depends on the width is what is measured in units. A field width cuts the input, perhaps within
a character, and `%n` stores a number of units; so a directive has to do without both, unless the
input is ASCII.
-/

namespace FormatString

variable {w : Width}

/-! ## The state of a call in characters -/

/-- What a reading call remembers, in characters. -/
structure StringState where
  /-- The number of characters consumed. -/
  consumed : Nat := 0
  stored : List Target := []
  pending : List Target
  assigned : Nat := 0
  matched : Bool := false
  /-- The numbers of characters in front of the directives whose number was clamped. -/
  clamped : List Nat := []

/-- The state of the call when `input` and the format string `t` are spelled in a width. -/
def StringState.at (input t : List Char) (w : Width) (s : StringState) : ReadState w where
  rest := encode w (input.drop s.consumed)
  position := (encode w (input.take s.consumed)).length
  stored := s.stored
  pending := s.pending
  assigned := s.assigned
  matched := s.matched
  clamped := s.clamped.map fun k ↦ (encode w (t.take k)).length

namespace StringState

variable (input t : List Char) (s : StringState)

/-- The characters that are left. -/
def rest : List Char := input.drop s.consumed

/-- The state after an effect that is measured in characters. -/
def apply (k : Nat) (e : Effect) : StringState where
  consumed := s.consumed + e.used
  stored := s.stored ++ e.stored.toList
  pending := s.pending.drop e.stored.toList.length
  assigned := s.assigned + e.assigned
  matched := s.matched || e.matched
  clamped := s.clamped ++ if e.clamped then [k] else []

/-- **What is consumed** are characters, as many units as spell them. -/
theorem apply_at {front : List Char} (hfront : front <+: s.rest input) (k : Nat) (e : Effect)
    (w : Width) :
    (s.at input t w).apply (encode w (t.take k)).length { e with used := (encode w front).length }
      = (s.apply k { e with used := front.length }).at input t w := by
  have hfront : front = (input.drop s.consumed).take front.length :=
    List.prefix_iff_eq_take.mp hfront
  have hrest : (encode w (input.drop s.consumed)).drop (encode w front).length
      = encode w (input.drop (s.consumed + front.length)) := by
    conv_lhs => rw [hfront, drop_encode, List.drop_drop]
  have hposition : (encode w (input.take s.consumed)).length + (encode w front).length
      = (encode w (input.take (s.consumed + front.length))).length := by
    rw [List.take_add, ← hfront, encode_append, List.length_append]
  have hclamped : (s.clamped ++ if e.clamped then [k] else []).map
        (fun k ↦ (encode w (t.take k)).length)
      = s.clamped.map (fun k ↦ (encode w (t.take k)).length)
        ++ if e.clamped then [(encode w (t.take k)).length] else [] := by
    cases e.clamped <;> simp
  rw [ReadState.apply, StringState.at, StringState.at, apply, hclamped, ← hrest, ← hposition]

end StringState

/-- Why a call on strings halts. -/
inductive StringHalt where
  | halt (h : Halt)
  | malformed (f : DirectiveFault)

/-- Why the call halts when its strings are spelled in a width. -/
def StringHalt.at (w : Width) : StringHalt → Halt
  | halt h => h
  | malformed f => .malformed (f.at w)

/-- What is malformed was found in the string. -/
def StringHalt.In (h : StringHalt) (t : List Char) : Prop := ∀ f, h = malformed f → f.In t

/-- In an ASCII string the width does not show. -/
theorem StringHalt.In.at_eq {h : StringHalt} {t : List Char} (hin : h.In t)
    (ht : ∀ c ∈ t, c.toNat < 0x80) (v w : Width) : h.at v = h.at w := by
  cases h with
  | halt h => rfl
  | malformed f => exact congrArg Halt.malformed ((hin f rfl).at_eq ht v w)

/-- The outcome of a step is the same at every width. -/
def Uniform (input t : List Char) (f : (w : Width) → Except Halt (ReadState w)) : Prop :=
  (∃ s : StringState, ∀ w, f w = .ok (s.at input t w)) ∨
    ∃ h : StringHalt, h.In t ∧ ∀ w, f w = .error (h.at w)

namespace Uniform

variable {input t : List Char} {s : StringState} {d : Directive}
  {f f' : (w : Width) → Except Halt (ReadState w)}

theorem of_ok (s : StringState) (h : ∀ w, f w = .ok (s.at input t w)) : Uniform input t f :=
  .inl ⟨s, h⟩

theorem of_error (halt : Halt) (h : ∀ w, f w = .error halt) : Uniform input t f :=
  .inr ⟨.halt halt, fun f hf ↦ absurd hf (by simp), h⟩

/-- A step that consumes the characters `front`. -/
theorem of_effect {front : List Char} (hfront : front <+: s.rest input) (k : Nat) (e : Effect)
    (h : ∀ w, f w = .ok ((s.at input t w).apply (encode w (t.take k)).length
      { e with used := (encode w front).length })) : Uniform input t f :=
  .of_ok (s.apply k { e with used := front.length }) fun w ↦ by rw [h, s.apply_at _ _ hfront]

theorem bind {g : (w : Width) → ReadState w → Except Halt (ReadState w)} (hf : Uniform input t f)
    (hg : ∀ s : StringState, Uniform input t fun w ↦ g w (s.at input t w)) :
    Uniform input t fun w ↦ f w >>= g w := by
  obtain ⟨s, hs⟩ | ⟨h, hin, hs⟩ := hf
  · simp only [hs]
    exact hg s
  · simp only [hs]
    exact .inr ⟨h, hin, fun _ ↦ rfl⟩

/-- A directive claims the same target at every width. -/
theorem claim {g : (w : Width) → Option Target → Except Halt (ReadState w)}
    (hg : ∀ target, Uniform input t fun w ↦ g w target) :
    Uniform input t fun w ↦ (s.at input t w).nextTarget d >>= g w := by
  have hclaim (w : Width) :
      (s.at input t w).nextTarget d = (s.at input t .utf8).nextTarget d := rfl
  simp only [hclaim]
  cases (s.at input t .utf8).nextTarget d with
  | error h => exact of_error h fun _ ↦ rfl
  | ok target => exact hg target

end Uniform

/-! ## Literals -/

section Literals

variable {s : ReadState w} {us : Text w}

/-- Units that are no blanks are matched one by one, if the input starts with them. -/
theorem foldlM_matchLiteral_eq_ok (hus : ∀ u ∈ us, u.isBlank = false) (h : us <+: s.rest) :
    us.foldlM ReadState.matchLiteral s
      = .ok (s.apply 0 (.plain us.length (!us.isEmpty))) := by
  induction us generalizing s with
  | nil => exact congrArg Except.ok (s.apply_plain_zero 0).symm
  | cons u us ih =>
    obtain ⟨hu, hus⟩ := List.forall_mem_cons.mp hus
    obtain ⟨more, hmore⟩ := h
    have hrest : s.rest = u :: (us ++ more) := hmore.symm
    have hunit : s.matchLiteral u = .ok (s.apply 0 (.plain 1 true)) := by
      rw [ReadState.matchLiteral, if_neg (ne_true_of_eq_false hu),
        ReadState.matchUnit, hrest]
      dsimp only
      rw [if_pos rfl]
      simp [ReadState.apply, ReadState.consume, Effect.plain]
    have hbehind : us <+: (s.apply 0 (.plain 1 true)).rest := by
      change us <+: s.rest.drop 1
      rw [hrest]
      exact ⟨more, rfl⟩
    rw [List.foldlM_cons, hunit]
    refine (ih hus hbehind).trans ?_
    rw [ReadState.apply_plain_plain, List.length_cons, Nat.add_comm]
    rfl

/-- Otherwise the call halts; at the end of the input only if that was their beginning. -/
theorem foldlM_matchLiteral_eq_error (hus : ∀ u ∈ us, u.isBlank = false)
    (h : ¬ us <+: s.rest) :
    us.foldlM ReadState.matchLiteral s
      = .error (if s.rest <+: us then .exhausted else .mismatch) := by
  induction us generalizing s with
  | nil => exact absurd List.nil_prefix h
  | cons u us ih =>
    obtain ⟨hu, hus'⟩ := List.forall_mem_cons.mp hus
    have hunit : s.matchLiteral u = s.matchUnit u := by
      rw [ReadState.matchLiteral, if_neg (ne_true_of_eq_false hu)]
    rw [List.foldlM_cons, hunit, ReadState.matchUnit]
    cases hrest : s.rest with
    | nil =>
      rw [if_pos List.nil_prefix]
      rfl
    | cons v rest =>
      dsimp only
      rw [hrest] at h
      by_cases hv : v = u
      · rw [if_pos hv]
        have hbehind : (s.consume 1).rest = rest := by
          change s.rest.drop 1 = rest
          rw [hrest]
          rfl
        have hnot : ¬ us <+: (s.consume 1).rest := by
          rw [hbehind]
          exact fun hfront ↦ h (List.cons_prefix_cons.mpr ⟨hv.symm, hfront⟩)
        refine (ih (s := { s.consume 1 with matched := true }) hus' hnot).trans ?_
        rw [hbehind]
        simp only [List.cons_prefix_cons, hv, true_and]
      · rw [if_neg hv, if_neg fun hfront ↦ hv (List.cons_prefix_cons.mp hfront).1]
        rfl

end Literals

section LiteralRuns

variable {input t : List Char}

/-- Blanks are skipped by characters. -/
theorem StringState.exists_skipBlanks_at (input t : List Char) (s : StringState) :
    ∃ s' : StringState, ∀ w, (s.at input t w).skipBlanks = s'.at input t w := by
  refine ⟨s.apply 0 (.plain ((s.rest input).takeWhile isBlank).length false), fun w ↦ ?_⟩
  have hblanks : (encode w (s.rest input)).takeWhile (·.isBlank)
      = encode w ((s.rest input).takeWhile isBlank) :=
    takeWhile_encode (fun _ _ ↦ isBlank_eq_of_mem_encodeChar) _
  rw [ReadState.skipBlanks, ReadState.consume_eq_apply _ (encode w (t.take 0)).length]
  change ReadState.apply _ _ (.plain ((encode w (s.rest input)).takeWhile (·.isBlank)).length false)
    = _
  rw [hblanks]
  exact s.apply_at _ _ (List.takeWhile_prefix isBlank) 0 (.plain 0 false) w

/-- **A character of a literal run** is matched whole or not at all. -/
theorem Uniform.matchChar (s : StringState) (c : Char) :
    Uniform input t fun w ↦ (encodeChar w c).foldlM ReadState.matchLiteral (s.at input t w) := by
  by_cases hc : isBlank c
  · obtain ⟨s', hs'⟩ := s.exists_skipBlanks_at input t
    refine .of_ok s' fun w ↦ ?_
    have hascii := ascii_of_isBlank hc
    rw [encodeChar_of_ascii hascii, List.foldlM_cons, ReadState.matchLiteral,
      if_pos (by rwa [CodeUnit.isBlank_ofAscii hascii]), hs']
    rfl
  have hus (w : Width) : ∀ u ∈ encodeChar w c, u.isBlank = false := fun u hu ↦
    (isBlank_eq_of_mem_encodeChar hu).trans (Bool.eq_false_of_not_eq_true hc)
  have hrest (w : Width) : (s.at input t w).rest = encode w (s.rest input) := rfl
  cases hleft : s.rest input with
  | nil =>
    refine .of_error .exhausted fun w ↦ ?_
    have hnot : ¬ encodeChar w c <+: (s.at input t w).rest := by
      rw [hrest, hleft]
      exact fun h ↦ encodeChar_ne_nil w c (List.prefix_nil.mp h)
    rw [foldlM_matchLiteral_eq_error (hus w) hnot, hrest, hleft]
    exact congrArg Except.error (if_pos List.nil_prefix)
  | cons d left =>
    by_cases hd : c = d
    · subst hd
      have hone : [c] <+: s.rest input := ⟨left, hleft.symm⟩
      refine .of_effect hone 0 (.plain 0 true) fun w ↦ ?_
      have hfront : encodeChar w c <+: (s.at input t w).rest := by
        rw [hrest, hleft, encode_cons]
        exact List.prefix_append _ _
      have hne : (encodeChar w c).isEmpty = false := List.isEmpty_eq_false_iff.mpr (encodeChar_ne_nil w c)
      rw [foldlM_matchLiteral_eq_ok (hus w) hfront, hne, encode_singleton]
      rfl
    · refine .of_error .mismatch fun w ↦ ?_
      have hnot : ¬ encodeChar w c <+: (s.at input t w).rest := by
        rw [hrest, hleft, encode_cons]
        exact fun h ↦ hd (eq_of_encodeChar_prefix_append h)
      -- Nor does the input end within the spelling: it would start with another one.
      have hnot' : ¬ (s.at input t w).rest <+: encodeChar w c := by
        rw [hrest, hleft, encode_cons]
        intro h
        have hfront := (List.prefix_append (encodeChar w d) (encode w left)).trans h
        rw [← List.append_nil (encodeChar w c)] at hfront
        exact hd (eq_of_encodeChar_prefix_append hfront).symm
      rw [foldlM_matchLiteral_eq_error (hus w) hnot]
      exact congrArg Except.error (if_neg hnot')

theorem Uniform.matchRun (s : StringState) (run : List Char) :
    Uniform input t fun w ↦ (encode w run).foldlM ReadState.matchLiteral (s.at input t w) := by
  induction run generalizing s with
  | nil => exact .of_ok s fun w ↦ rfl
  | cons c run ih =>
    simp only [encode_cons, List.foldlM_append]
    exact (Uniform.matchChar s c).bind ih

theorem Uniform.matchPercent (s : StringState) :
    Uniform input t fun w ↦ (s.at input t w).matchPercent := by
  obtain ⟨s', hs'⟩ := s.exists_skipBlanks_at input t
  have hunit (w : Width) : (s.at input t w).matchPercent
      = (encodeChar w '%').foldlM ReadState.matchLiteral (s'.at input t w) := by
    rw [encodeChar_of_ascii (by decide), List.foldlM_cons, ReadState.matchLiteral,
      if_neg (by rw [CodeUnit.isBlank_ofAscii (by decide)]; decide), ReadState.matchPercent, hs']
    exact (bind_pure _).symm
  simp only [hunit]
  exact Uniform.matchChar s' '%'

end LiteralRuns

/-! ## Directives -/

/-- What the directive does is not measured in units. -/
def Directive.Unmeasured (d : Directive) : Prop :=
  d.fieldWidth? = none ∧ d.conversion ≠ .countWritten

section Directives

variable {input t : List Char} (s : StringState) (d : Directive)

/-- The characters a directive may look at. -/
def StringState.field (input : List Char) : List Char :=
  match d.fieldWidth? with
  | some n => (s.rest input).take n
  | none => s.rest input

theorem StringState.field_prefix : s.field d input <+: s.rest input := by
  rw [field]
  split
  · exact List.take_prefix _ _
  · exact List.prefix_refl _

theorem take_encode_of_ascii {cs : List Char} (hcs : ∀ c ∈ cs, c.toNat < 0x80) (n : Nat) :
    (encode w cs).take n = encode w (cs.take n) := by
  rw [encode_of_ascii hcs, encode_of_ascii fun c hc ↦ hcs c (List.mem_of_mem_take hc), Text.ofAscii,
    Text.ofAscii, List.map_take]

/-- A field is cut between characters. -/
theorem StringState.field_at (hd : d.fieldWidth? = none ∨ ∀ c ∈ input, c.toNat < 0x80) (w : Width) :
    (s.at input t w).field d = encode w (s.field d input) := by
  cases hn : d.fieldWidth? with
  | none =>
    rw [ReadState.field, field, hn]
    rfl
  | some n =>
    rw [ReadState.field, field, hn]
    obtain hd | hascii := hd
    · exact absurd (hd.symm.trans hn) (by simp)
    · exact take_encode_of_ascii (fun c hc ↦ hascii c (List.mem_of_mem_drop hc)) n

/-! ### Numbers -/

/-- ASCII characters of a field are read at every width, and as many units as characters. -/
theorem StringState.exists_front_of_asciiRun {n : Nat}
    (hn : n ≤ ((s.field d input).takeWhile (·.toNat < 0x80)).length) :
    ∃ front, front <+: s.rest input ∧ ∀ w, (encode w front).length = n := by
  refine ⟨((s.field d input).takeWhile (·.toNat < 0x80)).take n,
    (List.take_prefix _ _).trans ((List.takeWhile_prefix _).trans (s.field_prefix d)), fun w ↦ ?_⟩
  refine length_encode_take w hn fun c hc ↦ ?_
  simpa using List.mem_takeWhile_imp (List.mem_of_mem_take hc)

/-- The type a directive reads an integer as. -/
def Directive.integerType? (d : Directive) : Option Target → Option IntType
  | none => some .int64
  | some t => if d.conversion = .pointer then t.addressType? else t.intType?

/-- Reading an integer once its target and the characters of its field are known. -/
def ReadState.takeInteger (r : ReadState w) (d : Directive) (offset : Nat) (cs : List Char)
    (target : Option Target) : Except Halt (ReadState w) :=
  match d.integerType? target with
  | none => .error .badType
  | some type =>
    let parsed := type.read d.conversion.base cs
    if parsed.consumed = 0 then .error .mismatch
    else
      .ok (((r.settle (target.map (·.storeInt parsed.value))).noteClamped offset
        (target.isSome && parsed.overflow)).finish d parsed.consumed)

theorem ReadState.readInteger_eq (r : ReadState w) (d : Directive) (offset : Nat) :
    r.readInteger d offset
      = r.nextTarget d >>= r.takeInteger d offset (Text.asciiRun (r.field d)) := rfl

theorem Uniform.readInteger (hd : d.fieldWidth? = none ∨ ∀ c ∈ input, c.toNat < 0x80) (k : Nat) :
    Uniform input t fun w ↦
      (s.at input t w).readInteger d (encode w (t.take k)).length := by
  simp only [ReadState.readInteger_eq, s.field_at d hd, asciiRun_encode]
  refine Uniform.claim fun target ↦ ?_
  simp only [ReadState.takeInteger]
  cases d.integerType? target with
  | none => exact .of_error .badType fun w ↦ rfl
  | some type =>
    dsimp only
    have hle := type.consumed_read_le d.conversion.base
      ((s.field d input).takeWhile (·.toNat < 0x80))
    generalize type.read d.conversion.base ((s.field d input).takeWhile (·.toNat < 0x80))
      = parsed at hle ⊢
    by_cases hnone : parsed.consumed = 0
    · exact .of_error .mismatch fun w ↦ if_pos hnone
    · obtain ⟨front, hfront, hlength⟩ := s.exists_front_of_asciiRun d hle
      refine .of_effect hfront k ⟨0, target.map (·.storeInt parsed.value),
        target.isSome && parsed.overflow, d.assignments, true⟩ fun w ↦ ?_
      rw [if_neg hnone, ReadState.finish_settle_eq_apply, hlength]

theorem Uniform.readFloat (hd : d.fieldWidth? = none ∨ ∀ c ∈ input, c.toNat < 0x80) (k : Nat) :
    Uniform input t fun w ↦ (s.at input t w).readFloat d (encode w (t.take k)).length := by
  refine Uniform.claim fun target ↦ ?_
  by_cases htarget : target.any (!·.isFloat)
  · exact .of_error .badType fun w ↦ if_pos htarget
  · simp only [htarget, s.field_at d hd, asciiRun_encode]
    have hle := consumed_readFloat_le .binary64 ((s.field d input).takeWhile (·.toNat < 0x80))
    generalize FormatString.readFloat .binary64 ((s.field d input).takeWhile (·.toNat < 0x80))
      = parsed at hle ⊢
    by_cases hnone : parsed.consumed = 0
    · exact .of_error .mismatch fun w ↦ if_pos hnone
    · obtain ⟨front, hfront, hlength⟩ := s.exists_front_of_asciiRun d hle
      refine .of_effect hfront k ⟨0, target.map (·.storeFloat parsed.value),
        target.any fun t ↦ parsed.overflow || t.narrowsToInfinity parsed.value,
        d.assignments, true⟩ fun w ↦ ?_
      rw [ReadState.finish_settle_eq_apply, hlength]
      exact if_neg hnone

/-! ### Text -/

theorem Target.exists_storeText?_encode (target : Target) (cs : List Char) :
    ∃ x, ∀ w, target.storeText? (encode w cs) = x := by
  cases target with
  | text old => exact ⟨some (.text ⟨old.width, encode old.width cs⟩), fun w ↦ by
      rw [storeText?, transcode_encode]⟩
  | _ => exact ⟨none, fun w ↦ rfl⟩

theorem Target.exists_storeChar?_encode (target : Target) (cs : List Char) :
    ∃ x, ∀ w, target.storeChar? (encode w cs) = x := by
  by_cases hchar : ∃ old, target = .char old
  · obtain ⟨old, rfl⟩ := hchar
    match cs with
    | [] => exact ⟨none, fun w ↦ rfl⟩
    | [c] =>
      refine ⟨some (.char c), fun w ↦ ?_⟩
      rw [storeChar?, encode_cons, decode?_encodeChar_append]
      exact if_pos (by rw [encode_nil, List.append_nil])
    | c :: d :: cs =>
      refine ⟨none, fun w ↦ ?_⟩
      have hpos := length_encodeChar_pos w d
      rw [storeChar?, encode_cons, decode?_encodeChar_append]
      refine if_neg ?_
      rw [encode_cons, List.length_append, List.length_append]
      omega
  · have htext (w : Width) : target.storeChar? (encode w cs) = target.storeText? (encode w cs) := by
      cases target with
      | char old => exact absurd ⟨old, rfl⟩ hchar
      | _ => rfl
    simp only [htext]
    exact target.exists_storeText?_encode cs

/-- Text is stored by characters. -/
theorem Uniform.storeUnits {front : List Char} (hfront : front <+: s.rest input)
    {n : (w : Width) → Nat} (hn : ∀ w, n w = (encode w front).length) :
    Uniform input t fun w ↦ (s.at input t w).storeUnits d (n w) := by
  refine Uniform.claim fun target ↦ ?_
  cases target with
  | none =>
    refine .of_effect hfront 0 ⟨0, none, false, d.assignments, true⟩ fun w ↦ ?_
    rw [ReadState.finish_eq_apply _ (encode w (t.take 0)).length, hn]
  | some old =>
    obtain ⟨rest, hrest⟩ := hfront
    have htake (w : Width) : (s.at input t w).rest.take (n w) = encode w front := by
      change (encode w (s.rest input)).take (n w) = _
      rw [← hrest, encode_append, hn, List.take_left]
    obtain ⟨x, hx⟩ : ∃ x, ∀ w, (if d.conversion = .char then old.storeChar? (encode w front)
        else old.storeText? (encode w front)) = x := by
      split
      · exact old.exists_storeChar?_encode front
      · exact old.exists_storeText?_encode front
    simp only [htake, hx]
    cases x with
    | none => exact .of_error .badType fun w ↦ rfl
    | some new =>
      refine .of_effect ⟨rest, hrest⟩ 0 ⟨0, some new, false, d.assignments, true⟩ fun w ↦ ?_
      rw [← hn]
      exact congrArg Except.ok (ReadState.finish_keep_eq_apply _ _ new d (n w))

theorem Uniform.readChars (hd : d.fieldWidth? = none ∨ ∀ c ∈ input, c.toNat < 0x80) :
    Uniform input t fun w ↦ (s.at input t w).readChars d := by
  have hrest (w : Width) : (s.at input t w).rest = encode w (s.rest input) := rfl
  cases hn : d.fieldWidth? with
  | none =>
    simp only [ReadState.readChars, hn, hrest]
    cases hleft : s.rest input with
    | nil => exact .of_error .exhausted fun w ↦ rfl
    | cons c left =>
      simp only [encode_cons, decode?_encodeChar_append]
      have hone : [c] <+: s.rest input := ⟨left, hleft.symm⟩
      refine Uniform.storeUnits s d hone fun w ↦ ?_
      rw [encode_singleton]
  | some n =>
    obtain hd | hascii := hd
    · exact absurd (hd.symm.trans hn) (by simp)
    have hascii' : ∀ c ∈ s.rest input, c.toNat < 0x80 := fun c hc ↦
      hascii c (List.mem_of_mem_drop hc)
    simp only [ReadState.readChars, hn, hrest, length_encode_of_ascii hascii']
    by_cases hlong : (s.rest input).length < n
    · exact .of_error .exhausted fun w ↦ if_pos hlong
    · simp only [hlong, if_false]
      refine Uniform.storeUnits s d (List.take_prefix n _) fun w ↦ ?_
      rw [length_encode_take w (Nat.le_of_not_lt hlong) fun c hc ↦
        hascii' c (List.mem_of_mem_take hc)]

theorem Uniform.readWord (hd : d.fieldWidth? = none ∨ ∀ c ∈ input, c.toNat < 0x80) :
    Uniform input t fun w ↦ (s.at input t w).readWord d := by
  have hclass (w : Width) : ∀ c, ∀ u ∈ encodeChar w c, (!u.isBlank) = !isBlank c := by
    intro c u hu
    rw [isBlank_eq_of_mem_encodeChar hu]
  simp only [ReadState.readWord, s.field_at d hd, takeWhile_encode (hclass _)]
  exact Uniform.storeUnits s d ((List.takeWhile_prefix _).trans (s.field_prefix d)) fun w ↦ rfl

theorem Uniform.readSet (hd : d.fieldWidth? = none ∨ ∀ c ∈ input, c.toNat < 0x80) :
    Uniform input t fun w ↦ (s.at input t w).readSet d := by
  cases hset : d.set with
  | none => exact .of_error .badType fun w ↦ by rw [ReadState.readSet, hset]
  | some set =>
    have hrun (w : Width) : (characters (encode w (s.field d input))).takeWhile
          (fun c ↦ set.admits c.char.toNat)
        = ((s.field d input).takeWhile fun c ↦ set.admits c.toNat).map fun c ↦ ⟨c, encodeChar w c⟩ := by
      rw [characters_encode_eq, List.takeWhile_map]
      rfl
    simp only [ReadState.readSet, hset, s.field_at d hd, hrun, unitsOf_map, List.isEmpty_map]
    by_cases hempty : ((s.field d input).takeWhile fun c ↦ set.admits c.toNat).isEmpty
    · exact .of_error .mismatch fun w ↦ if_pos hempty
    · simp only [hempty]
      exact Uniform.storeUnits s d ((List.takeWhile_prefix _).trans (s.field_prefix d)) fun w ↦ rfl

/-! ### Counts -/

theorem Uniform.readCount (hascii : ∀ c ∈ input, c.toNat < 0x80) :
    Uniform input t fun w ↦ (s.at input t w).readCount d := by
  have hposition (w : Width) : (s.at input t w).position = (input.take s.consumed).length :=
    length_encode_of_ascii fun c hc ↦ hascii c (List.mem_of_mem_take hc)
  refine Uniform.claim fun target ↦ ?_
  cases target with
  | none =>
    refine .of_effect (s := s) List.nil_prefix 0 ⟨0, none, false, d.assignments, true⟩ fun w ↦ ?_
    rw [ReadState.finish_eq_apply _ (encode w (t.take 0)).length]
    rfl
  | some old =>
    dsimp only
    cases old.intType? with
    | none => exact .of_error .badType fun w ↦ rfl
    | some type =>
      simp only [hposition]
      refine .of_effect (s := s) List.nil_prefix 0
        ⟨0, some (old.storeInt (min ((input.take s.consumed).length : Int) type.max)), false,
          d.assignments, true⟩ fun w ↦ ?_
      rw [ReadState.finish_keep_eq_apply _ (encode w (t.take 0)).length]
      rfl

/-! ### All directives -/

theorem Uniform.readValue (hd : d.fieldWidth? = none ∨ ∀ c ∈ input, c.toNat < 0x80) (k : Nat) :
    Uniform input t fun w ↦ (s.at input t w).readValue d (encode w (t.take k)).length := by
  have hempty (w : Width) : (s.at input t w).rest.isEmpty = (s.rest input).isEmpty :=
    isEmpty_encode _
  simp only [ReadState.readValue, hempty]
  by_cases hnone : (s.rest input).isEmpty
  · exact .of_error .exhausted fun w ↦ if_pos hnone
  simp only [hnone]
  cases d.conversion with
  | floatSci | floatFixed | floatShortest => exact Uniform.readFloat s d hd k
  | string => exact Uniform.readWord s d hd
  | char => exact Uniform.readChars s d hd
  | charSet => exact Uniform.readSet s d hd
  | _ => exact Uniform.readInteger s d hd k

/-- **A directive** that does not measure its input does the same at every width. -/
theorem Uniform.matchDirective (hd : d.Unmeasured ∨ ∀ c ∈ input, c.toNat < 0x80) (k : Nat) :
    Uniform input t fun w ↦ (s.at input t w).matchDirective d (encode w (t.take k)).length := by
  have hfield : d.fieldWidth? = none ∨ ∀ c ∈ input, c.toNat < 0x80 := hd.imp_left And.left
  obtain ⟨s', hs'⟩ := s.exists_skipBlanks_at input t
  simp only [ReadState.matchDirective, hs']
  cases hconversion : d.conversion with
  | percent => exact Uniform.matchPercent s
  | countWritten =>
    obtain hd | hascii := hd
    · exact absurd hconversion hd.2
    · exact Uniform.readCount s d hascii
  | char | charSet => exact Uniform.readValue s d hfield k
  | _ => exact Uniform.readValue s' d hfield k

end Directives

end FormatString
