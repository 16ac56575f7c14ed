import Mathlib
import FormatString.Proofs.Reader.Encoded

/-!
# Reading strings

A reading call whose input and format string are spelled from strings comes to the same at every
width. A literal that is not in the input halts it at every width, though it may match half a
character at one of them; and a word or a set that is stored is spelled anew in the width of its
target. Only offsets, and the unit that is reported for an unknown conversion, show the width.
-/

namespace FormatString

variable {w : Width}

/-! ## Runs -/

section Runs

variable {input t : List Char}

/-- The directives of the pieces do not measure the input, unless it is ASCII. -/
def LocatedString.Portable (p : LocatedString) (input : List Char) : Prop :=
  ∀ d, p.piece = .directive d → d.Unmeasured ∨ ∀ c ∈ input, c.toNat < 0x80

/-- **A piece** of the format string is matched to the same state at every width, or it halts the
call for the same reason. -/
theorem Uniform.matchPiece (s : StringState) {p : LocatedString} (hp : p.In t)
    (hd : p.Portable input) :
    Uniform input t fun w ↦ (s.at input t w).matchPiece (p.at w) := by
  simp only [ReadState.matchPiece, p.offset_at hp]
  rcases p with ⟨front, run | _ | d | f⟩
  · exact Uniform.matchRun s run
  · exact Uniform.matchPercent s
  · exact Uniform.matchDirective s d (hd d rfl) front.length
  · refine .inr ⟨.malformed f, ?_, fun w ↦ rfl⟩
    rintro f' hf
    obtain rfl := StringHalt.malformed.inj hf
    exact hp.malformed f rfl

/-- **A run** over pieces of the format string. -/
theorem exists_matchPieces_at (s : StringState) {ps : List LocatedString} (hps : ∀ p ∈ ps, p.In t)
    (hd : ∀ p ∈ ps, p.Portable input) :
    ∃ (s' : StringState) (halt : Option (Nat × StringHalt)), (∀ k h, halt = some (k, h) → h.In t) ∧
      ∀ w, matchPieces (s.at input t w) (ps.map (·.at w)) = (s'.at input t w,
        halt.map fun (k, h) ↦ ((encode w (t.take k)).length, h.at w)) := by
  induction ps generalizing s with
  | nil => exact ⟨s, none, fun k h hhalt ↦ absurd hhalt (by simp), fun w ↦ rfl⟩
  | cons p ps ih =>
    obtain ⟨hp, hps⟩ := List.forall_mem_cons.mp hps
    obtain ⟨hdp, hds⟩ := List.forall_mem_cons.mp hd
    obtain ⟨s', hs'⟩ | ⟨h, hin, hhalt⟩ := Uniform.matchPiece s hp hdp
    · obtain ⟨s'', halt, hin, hrun⟩ := ih s' hps hds
      refine ⟨s'', halt, hin, fun w ↦ ?_⟩
      rw [List.map_cons, matchPieces, show ReadState.matchPiece _ _ = _ from hs' w]
      exact hrun w
    · refine ⟨s, some (p.front.length, h), ?_, fun w ↦ ?_⟩
      · rintro k h' hh
        obtain ⟨-, rfl⟩ := Prod.mk.inj (Option.some.inj hh)
        exact hin
      · rw [List.map_cons, matchPieces, show ReadState.matchPiece _ _ = _ from hhalt w,
          p.offset_at hp]
        rfl

end Runs

/-! ## Calls -/

/-- The error without what depends on the width: its offset, and the unit it may show. -/
def ScanError.widthless : ScanError → ScanError
  | eof => eof
  | malformed _ e n => malformed 0 e.widthless n
  | missingTarget _ n => missingTarget 0 n
  | badType _ n => badType 0 n

section Calls

variable {input t : List Char}

/-- What a halt means for a call, offsets apart, does not depend on the width. -/
theorem StringHalt.mapError_result (h : StringHalt) (s : StringState) (inputEmpty : Bool)
    (v w : Width) (offset offset' : Nat) :
    ((h.at v).result inputEmpty (s.at input t v) offset).mapError ScanError.widthless
      = ((h.at w).result inputEmpty (s.at input t w) offset').mapError ScanError.widthless := by
  cases h with
  | halt h => cases h <;> rfl
  | malformed f =>
    change Except.error (ScanError.malformed 0 (f.at v).widthless s.assigned) = _
    rw [f.widthless_at v w]
    rfl

/-- In ASCII strings not even the offsets depend on it. -/
theorem StringState.readingOf_at (hascii : ∀ c ∈ t, c.toNat < 0x80) (s : StringState)
    (inputEmpty : Bool) (halt : Option (Nat × Halt)) (v w : Width) :
    readingOf inputEmpty (s.at input t v) halt = readingOf inputEmpty (s.at input t w) halt := by
  have hoffset (k : Nat) (w : Width) : (encode w (t.take k)).length = (t.take k).length :=
    length_encode_of_ascii fun c hc ↦ hascii c (List.mem_of_mem_take hc)
  have hresult (h : Halt) (offset : Nat) : h.result inputEmpty (s.at input t v) offset
      = h.result inputEmpty (s.at input t w) offset := by cases h <;> rfl
  have hclamped : (s.at input t v).clamped = (s.at input t w).clamped := by
    simp only [StringState.at, hoffset]
  rcases halt with _ | ⟨offset, h⟩
  · simp only [readingOf, hclamped]
    rfl
  · simp only [readingOf, hclamped, hresult]
    rfl

/-- **Reading strings.** The calls on two spellings of an input and a format string come to the same
count, or fail for the same reason after as many assignments, and leave the same values in the
targets. That holds of ASCII strings, whose offsets and reports are the same too, and of format
strings without field widths and counts. -/
theorem scan_encode (input t : List Char) (targets : List Target)
    (h : (∀ c ∈ input ++ t, c.toNat < 0x80) ∨
      ∀ p ∈ pieces .scan (encode .utf8 t), ∀ d, p.piece = .directive d → d.Unmeasured)
    (v w : Width) :
    (scan (encode v input) (encode v t) targets).result.mapError ScanError.widthless
        = (scan (encode w input) (encode w t) targets).result.mapError ScanError.widthless ∧
      (scan (encode v input) (encode v t) targets).targets
        = (scan (encode w input) (encode w t) targets).targets ∧
      ((∀ c ∈ input ++ t, c.toNat < 0x80) → scan (encode v input) (encode v t) targets
        = scan (encode w input) (encode w t) targets) := by
  obtain ⟨ps, hps, hpieces⟩ := exists_pieces_encode .scan t
  have hportable : ∀ p ∈ ps, p.Portable input := by
    intro p hp d hpiece
    obtain hascii | hd := h
    · exact .inr fun c hc ↦ hascii c (List.mem_append_left _ hc)
    · refine .inl (hd (p.at .utf8) ?_ d (LocatedString.at_eq_directive_iff.mpr hpiece))
      rw [hpieces]
      exact List.mem_map_of_mem hp
  obtain ⟨s, halt, hin, hrun⟩ :=
    exists_matchPieces_at (t := t) { pending := targets } hps hportable
  have hscan (w : Width) : scan (encode w input) (encode w t) targets
      = readingOf input.isEmpty (s.at input t w)
          (halt.map fun (k, h) ↦ ((encode w (t.take k)).length, h.at w)) := by
    have hstart : (StringState.at input t w { pending := targets })
        = { rest := encode w input, pending := targets } := by
      simp [StringState.at]
    rw [scan, hpieces, ← hstart, hrun, isEmpty_encode]
  rw [hscan v, hscan w]
  refine ⟨?_, rfl, fun hascii ↦ ?_⟩
  · rcases halt with _ | ⟨k, h⟩
    · rfl
    · exact h.mapError_result s input.isEmpty v w _ _
  · have hascii : ∀ c ∈ t, c.toNat < 0x80 := fun c hc ↦ hascii c (List.mem_append_right _ hc)
    have hhalt : (halt.map fun (k, h) ↦ ((encode v (t.take k)).length, h.at v))
        = halt.map fun (k, h) ↦ ((encode w (t.take k)).length, h.at w) := by
      rcases halt with _ | ⟨k, h⟩
      · rfl
      · have htake : ∀ c ∈ t.take k, c.toNat < 0x80 := fun c hc ↦
          hascii c (List.mem_of_mem_take hc)
        simp only [Option.map_some, length_encode_of_ascii htake, (hin k h rfl).at_eq hascii v w]
    rw [hhalt]
    exact s.readingOf_at hascii input.isEmpty _ v w

/-- `hé→ 7` by `h%s %d`: a word of two characters, whatever units they are spelled by, and a number
behind it. -/
theorem scan_encode_word_number :
    let input := ['h', 'é', '→', ' ', '7']
    let t := ['h', '%', 's', ' ', '%', 'd']
    let targets := [Target.text ⟨.utf16, []⟩, .integer .int32 0]
    (∀ p ∈ pieces .scan (encode .utf8 t), ∀ d, p.piece = .directive d → d.Unmeasured) ∧
      (scan (encode .utf32 input) (encode .utf32 t) targets).result.mapError ScanError.widthless
        = .ok 2 ∧
      (scan (encode .utf32 input) (encode .utf32 t) targets).targets.map Target.integer?
        = [none, some 7] := by
  intro input t targets
  have hunmeasured : ∀ p ∈ pieces .scan (encode .utf8 t), ∀ d, p.piece = .directive d →
      d.Unmeasured := by
    have hall : ∀ p ∈ pieces .scan (encode .utf8 t), ∀ d ∈ p.piece.directive?,
        d.fieldWidth? = none ∧ d.conversion ≠ .countWritten := by decide +kernel
    exact fun p hp d hd ↦ hall p hp d (Piece.directive?_eq_some_iff.mpr hd)
  obtain ⟨hresult, htargets, -⟩ := scan_encode input t targets (.inr hunmeasured) .utf8 .utf32
  have hread : (scan (encode .utf8 input) (encode .utf8 t) targets).result = .ok 2 := by
    decide +kernel
  rw [← hresult, ← htargets, hread]
  exact ⟨hunmeasured, rfl, by decide +kernel⟩

end Calls

end FormatString
