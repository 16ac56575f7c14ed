import Mathlib
import FormatString.Proofs.Directive.Sound
import FormatString.Proofs.Number.Literal
import FormatString.Proofs.Number.WrittenInt
import FormatString.Proofs.Writer.Refusal
import FormatString.Proofs.Writer.Validation
import FormatString.Proofs.Reader.Refusal

/-!
# No fallback is taken

The engines answer more questions than are ever asked of them: what a scan set writes, what a
directive with a scan set reads when it has none, which number is meant when the base is none,
where a width comes from that has to be taken from arguments a reading call does not have. Each of
these has an answer, and a wrong parser would turn them into output. `SafeToWrite` and `SafeToRead`
say for one directive that the questions do not come up, and follow from its being sound.

The answers that are errors would be told apart from the others by nothing but their reason. So for
whole calls, `no_fallback_is_taken` says what every error of this kind is for: an argument or a
target of the call that the directive at that offset cannot do with.
-/

namespace FormatString

variable {w : Width}

/-! ## Directives -/

namespace Directive

/-- Writing the directive takes no fallback: it is no scan set, its digits are written in a base
that there is, the sign and the mark of its field fit into three bytes, and a bit count is that of
an integer type. -/
structure SafeToWrite (w : Width) (config : Config) (d : Directive) : Prop where
  conversion : d.conversion ≠ .charSet
  digits : ∀ n : Nat, writeInt n d.conversion.radix.value d.upper
    = .ok (d.conversion.radix.writeNat d.upper n)
  head : ∀ precision arg (f : Field w), d.field? config precision arg = some f → f.head.length ≤ 3
  bits : ∀ n, d.length = .bits n → ∃ width, IntWidth.ofBits? n = some width

/-- Reading the directive takes no fallback: it has a set if it reads one, its numbers are read in a
base that there is, and its width is not taken from arguments. -/
structure SafeToRead (d : Directive) : Prop where
  set : d.conversion = .charSet → ∃ set, d.set = some set
  number : ∀ (type : IntType) (cs : List Char),
    readInt d.conversion.base.value type cs = .ok (type.read d.conversion.base cs)
  width : ∀ slot, d.width ≠ some (.argument slot)

variable {dialect : Dialect} {d : Directive}

theorem Sound.safeToWrite (h : d.Sound dialect) (hdialect : dialect ≠ .scan) (config : Config) :
    d.SafeToWrite w config where
  conversion hset := hdialect (h.scan hset)
  digits := writeInt_natCast d.conversion.radix d.upper
  head _ _ _ := length_head_le
  bits n hn := by
    have hbits := h.bits n hn
    simp only [List.mem_cons, List.not_mem_nil, or_false] at hbits
    obtain rfl | rfl | rfl | rfl := hbits <;> exact ⟨_, rfl⟩

theorem Sound.safeToRead (h : d.Sound .scan) : d.SafeToRead where
  set hset := Option.isSome_iff_exists.mp (h.set.mpr hset)
  number type cs := by rw [readInt, d.conversion.base.ofNat?_value]
  width slot hslot := by
    have hsound := h.width _ hslot
    cases hsound

end Directive

/-! ## Slots behind the check -/

/-- A slot that a checked format string names is taken from the arguments. -/
theorem take_of_mem_slots {limit : Nat} {t : Text w} {args : List Arg}
    (hcheck : orderedFault? limit args.length (pieces .ordered t) = none) {p : Located w}
    (hp : p ∈ pieces .ordered t) {slot : Nat} (hslot : slot ∈ p.piece.slots) :
    ∃ arg, args[slot - 1]? = some arg ∧
      (ArgSource.slots args).take (some slot) = ⟨.ok arg, .slots args⟩ := by
  have hle : slot ≤ args.length := (orderedFault?_eq_none hcheck).2 p hp slot hslot
  have hpos : 1 ≤ slot := by
    rcases hpiece : p.piece with run | _ | d | error
    case directive =>
      have hsound := Directive.sound_of_mem_pieces hp hpiece
      rw [hpiece] at hslot
      obtain hwidth | hprecision | ⟨hindex, -⟩ := Directive.mem_slots_iff.mp hslot
      · cases hsound.width _ hwidth with
        | slot hpos => exact hpos
      · cases (hsound.precision _ hprecision).1 with
        | slot hpos => exact hpos
      · exact (hsound.slot _ hindex).1
    all_goals
      rw [hpiece] at hslot
      exact absurd hslot List.not_mem_nil
  obtain ⟨i, rfl⟩ := Nat.exists_eq_add_of_le' hpos
  exact ⟨args[i], List.getElem?_eq_getElem hle, ArgSource.take_slots hle⟩

/-! ## Calls -/

/-- A rendering that ends for the type of an argument was refused one. -/
theorem pieces_exists_refused {dialect : Dialect} (hdialect : dialect ≠ .scan) {config : Config}
    {written offset : Nat} {source : ArgSource} {t : Text w}
    (h : (renderPieces config written source (pieces dialect t)).fault = some (.badType offset)) :
    ∃ d, ∃ arg ∈ source.cursor.remaining,
      ⟨offset, .directive d⟩ ∈ pieces dialect t ∧ d.Refuses arg := by
  have hset : ∀ p ∈ pieces dialect t, ∀ d, p.piece = .directive d → d.conversion ≠ .charSet :=
    fun p hp d hd hset ↦ hdialect ((Directive.sound_of_mem_pieces hp hd).scan hset)
  have hall : source.All (· ∈ source.cursor.remaining) := fun _ harg ↦ harg
  obtain ⟨d, arg, hd, harg, hrefuses⟩ := renderPieces_exists_refused hset hall h
  exact ⟨d, arg, harg, hd, hrefuses⟩

/-- A reading call that ends for the type of a target was halted for it. -/
theorem Halt.eq_badType_of_result {inputEmpty : Bool} {s : ReadState w}
    {place offset assigned : Nat} {halt : Halt}
    (h : halt.result inputEmpty s place = .error (.badType offset assigned)) : halt = .badType := by
  cases halt with
  | badType => rfl
  | exhausted =>
    rw [result] at h
    split at h
    · exact absurd (Except.error.inj h) (by simp)
    · exact absurd h (by simp)
  | mismatch => exact absurd h (by simp [result])
  | malformed => exact absurd (Except.error.inj h) (by simp)
  | missingTarget => exact absurd (Except.error.inj h) (by simp)

theorem scan_exists_refused {input t : Text w} {targets : List Target} {offset assigned : Nat}
    (h : (scan input t targets).result = .error (.badType offset assigned)) :
    ∃ d, ∃ target ∈ targets, ⟨offset, .directive d⟩ ∈ pieces .scan t ∧
      d.flags.suppress = false ∧ target.suits d.conversion = false := by
  generalize hrun : matchPieces { rest := input, pending := targets } (pieces .scan t) = run
  obtain ⟨s, halt⟩ := run
  rw [scan, hrun] at h
  rcases halt with _ | ⟨place, halt⟩
  · exact absurd h (by simp [readingOf])
  change halt.result input.isEmpty s place = _ at h
  obtain ⟨rfl, -⟩ := halt.result_eq_error h rfl
  obtain rfl := Halt.eq_badType_of_result h
  exact matchPieces_exists_refused
    (fun p hp d hd ↦ (Directive.sound_of_mem_pieces hp hd).set.mpr) hrun

/-- **No fallback is taken.** Every directive of a format string is sound in its dialect and safe
where it is used. A writing call ends with a wrong type only for an argument, and a reading call
only for a target, that the directive there cannot do with; and behind its check an ordered call
finds an argument in every slot it names, so that it ends for nothing else. -/
theorem no_fallback_is_taken (config : Config) (t : Text w) (cursor : Cursor) (args : List Arg)
    (input : Text w) (targets : List Target) :
    (∀ dialect, ∀ p ∈ pieces dialect t, ∀ d, p.piece = .directive d →
      d.Sound dialect ∧ (dialect ≠ .scan → d.SafeToWrite w config) ∧
        (dialect = .scan → d.SafeToRead)) ∧
    (∀ offset, (config.render t cursor).fault = some (.badType offset) →
      ∃ d, ∃ arg ∈ cursor.remaining, ⟨offset, .directive d⟩ ∈ pieces .print t ∧ d.Refuses arg) ∧
    (orderedFault? config.slotLimit args.length (pieces .ordered t) = none →
      (∀ p ∈ pieces .ordered t, ∀ slot ∈ p.piece.slots, ∃ arg, args[slot - 1]? = some arg ∧
        (ArgSource.slots args).take (some slot) = ⟨.ok arg, .slots args⟩) ∧
      ∀ e, (config.renderOrdered t args).fault = some e → ∃ offset d, ∃ arg ∈ args,
        e = .badType offset ∧ ⟨offset, .directive d⟩ ∈ pieces .ordered t ∧ d.Refuses arg) ∧
    (∀ offset assigned, (scan input t targets).result = .error (.badType offset assigned) →
      ∃ d, ∃ target ∈ targets, ⟨offset, .directive d⟩ ∈ pieces .scan t ∧
        d.flags.suppress = false ∧ target.suits d.conversion = false) := by
  refine ⟨fun dialect p hp d hd ↦ ?_, fun offset ↦ pieces_exists_refused (by decide),
    fun hcheck ↦ ⟨fun p hp slot ↦ take_of_mem_slots hcheck hp, fun e h ↦ ?_⟩,
    fun offset assigned ↦ scan_exists_refused⟩
  · have hsound := Directive.sound_of_mem_pieces hp hd
    refine ⟨hsound, fun hdialect ↦ hsound.safeToWrite hdialect config, ?_⟩
    rintro rfl
    exact hsound.safeToRead
  · rw [Config.renderOrdered, hcheck] at h
    obtain ⟨offset, rfl⟩ := renderPieces_slots hcheck h
    obtain ⟨d, arg, harg, hd, hrefuses⟩ := pieces_exists_refused (by decide) h
    exact ⟨offset, d, arg, harg, rfl, hd, hrefuses⟩

end FormatString
