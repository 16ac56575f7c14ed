import Mathlib
import FormatString.Proofs.Directive.SetNotation
import FormatString.Proofs.Reader.Value

/-!
# Reading by a scan set

A directive with a scan set reads the longest run of characters that the set admits and stores them
as they are, in the width of the target. It skips no blanks, looks no further than its width allows,
and reads one character at least. Together with what a notation is parsed to, this says what the
notation means.
-/

namespace FormatString

variable {w : Width}

/-! ## Longest runs -/

section LongestRun

variable {α : Type} {p : α → Prop} {q : α → Bool} {xs run run' : List α}

/-- The longest front of a list that satisfies a condition throughout. -/
structure IsLongestRun (p : α → Prop) (xs run : List α) : Prop where
  front : run <+: xs
  all : ∀ x ∈ run, p x
  longest : ∀ run', run' <+: xs → (∀ x ∈ run', p x) → run' <+: run

theorem IsLongestRun.unique (h : IsLongestRun p xs run) (h' : IsLongestRun p xs run') :
    run = run' :=
  (h'.longest run h.front h.all).eq_of_length_le (h.longest run' h'.front h'.all).length_le

theorem isLongestRun_takeWhile (hq : ∀ x, q x ↔ p x) (xs : List α) :
    IsLongestRun p xs (xs.takeWhile q) where
  front := List.takeWhile_prefix q
  all x hx := (hq x).mp (List.mem_takeWhile_imp hx)
  longest := by
    rintro run' ⟨rest, rfl⟩ hall
    rw [List.takeWhile_append_of_pos fun x hx ↦ (hq x).mpr (hall x hx)]
    exact List.prefix_append _ _

end LongestRun

/-! ## What is consumed -/

namespace ReadState

variable {s s' : ReadState w} {d : Directive}

/-- From `s` to `s'`, these units were consumed, and these targets were stored in. -/
structure Consumed (s s' : ReadState w) (units : Text w) (ts : List Target) : Prop where
  rest : s.rest = units ++ s'.rest
  position : s'.position = s.position + units.length
  took : s.Took s' ts

/-- Text goes to the next target, or nowhere if the directive is suppressed. -/
theorem exists_storeUnits (hchar : d.conversion ≠ .char) (hassigns : d.conversion.assigns)
    {units : Text w} (hunits : units <+: s.rest) {old : Option AnyText}
    (htarget : s.nextTarget d = .ok (old.map .text)) :
    ∃ s', s.storeUnits d units.length = .ok s' ∧ s.Consumed s' units
      (old.map fun old ↦ .text ⟨old.width, transcode old.width units⟩).toList := by
  obtain ⟨hsome, -⟩ := s.isSome_of_nextTarget htarget
  obtain ⟨rest, hrest⟩ := hunits
  have htake : s.rest.take units.length = units := by rw [← hrest, List.take_left]
  have hdrop : s.rest = units ++ s.rest.drop units.length := by rw [← hrest, List.drop_left]
  cases old with
  | none =>
    have hsuppress : d.flags.suppress = true := by simpa using hsome
    refine ⟨s.finish d units.length, bind_eq_ok_iff.mpr ⟨none, htarget, rfl⟩, hdrop, rfl, ?_⟩
    refine ⟨(List.append_nil _).symm, rfl, ?_, rfl⟩
    rw [finish, hsuppress]
    rfl
  | some old =>
    have hsuppress : d.flags.suppress = false := by simpa using hsome
    set t : Target := .text ⟨old.width, transcode old.width units⟩
    refine ⟨(s.keep t).finish d units.length, bind_eq_ok_iff.mpr ⟨_, htarget, ?_⟩, hdrop, rfl,
      took_of_keep hsuppress hassigns _ t⟩
    rw [Option.map_some]
    dsimp only
    rw [if_neg hchar, htake]
    rfl

/-- **A scan set.** -/
theorem matchDirective_of_set (hd : d.conversion = .charSet) {set : ScanSet}
    (hset : d.set = some set) (offset : Nat) :
    let run := (characters (s.field d)).takeWhile fun c ↦ set.admits c.char.toNat
    s.matchDirective d offset = if s.rest.isEmpty then .error .exhausted
      else if run.isEmpty then .error .mismatch else s.storeUnits d (unitsOf run).length := by
  intro run
  rw [matchDirective, hd]
  dsimp only
  rw [readValue, hd]
  dsimp only
  rw [readSet, hset]

end ReadState

/-! ## What a notation means -/

namespace SetNotation

variable {x : SetNotation}

/-- **Scan sets mean what they spell.** A notation is parsed to a set of its own, spans just its
characters, and is not affected by what is behind it. The set admits what is a member of the
notation, or what is none if there is a caret. A directive with this set reads the longest run of
characters of its field that the notation admits: it stores their units, if it is not suppressed,
and consumes these and no others; and it halts the call where it stands if there is no such
character. -/
theorem means_what_it_spells (hx : x.WellFormed) (w : Width) :
    (∀ r, Directive.parse .scan (encode w x.chars ++ r)
      = .ok ({ Directive.bare .charSet false with set := some x.set },
          (encode w x.chars).length)) ∧
    (∀ n, x.set.admits n ↔ x.Admits n) ∧
    ∀ (d : Directive) (s : ReadState w) (offset : Nat) (rest : List (Located w)),
      d.conversion = .charSet → d.set = some x.set →
      ∃ run, IsLongestRun (fun c ↦ x.Admits c.char.toNat) (characters (s.field d)) run ∧
        (run = [] → ∃ h, (h = .mismatch ∨ h = .exhausted) ∧
          matchPieces s (⟨offset, .directive d⟩ :: rest) = (s, some (offset, h))) ∧
        (run ≠ [] → ∀ old : Option AnyText, s.nextTarget d = .ok (old.map .text) → ∃ s',
          matchPieces s (⟨offset, .directive d⟩ :: rest) = matchPieces s' rest ∧
          s.Consumed s' (unitsOf run) (old.map fun old ↦
            .text ⟨old.width, transcode old.width (unitsOf run)⟩).toList) := by
  refine ⟨hx.parse w, x.admits_set_iff, fun d s offset rest hd hset ↦ ?_⟩
  have hmatch := s.matchDirective_of_set hd hset offset
  have hrun := isLongestRun_takeWhile (fun c : Spelled w ↦ x.admits_set_iff c.char.toNat)
    (characters (s.field d))
  set run := (characters (s.field d)).takeWhile fun c ↦ x.set.admits c.char.toNat
  have hpiece : s.matchPiece ⟨offset, .directive d⟩ = s.matchDirective d offset := rfl
  refine ⟨run, hrun, fun hnil ↦ ?_, fun hne old htarget ↦ ?_⟩
  · rw [matchPieces, hpiece, hmatch, hnil]
    by_cases hrest : s.rest.isEmpty
    · exact ⟨.exhausted, .inr rfl, by rw [if_pos hrest]⟩
    · exact ⟨.mismatch, .inl rfl, by rw [if_neg hrest]; rfl⟩
  · have hunits : unitsOf run <+: s.rest := by
      have hfield : unitsOf run <+: unitsOf (characters (s.field d)) := hrun.front.flatMap _
      rw [unitsOf_characters] at hfield
      exact hfield.trans (s.field_prefix d)
    have hrest : ¬ s.rest.isEmpty := by
      intro hempty
      have hfield : s.field d = [] :=
        List.prefix_nil.mp (List.isEmpty_iff.mp hempty ▸ s.field_prefix d)
      have hfront := hrun.front
      rw [hfield, characters_nil] at hfront
      exact hne (List.prefix_nil.mp hfront)
    obtain ⟨s', hstore, hconsumed⟩ := ReadState.exists_storeUnits (d := d) (by rw [hd]; decide)
      (by rw [hd]; rfl) hunits htarget
    refine ⟨s', ?_, hconsumed⟩
    rw [matchPieces, hpiece, hmatch, if_neg hrest, if_neg (mt List.isEmpty_iff.mp hne), hstore]

/-- A range that runs backwards, one that does not, and members of more units than one. The run ends
at `é`, which is in the second range and so excluded by the caret. -/
theorem means_what_it_spells_negated :
    let x : SetNotation := ⟨true, true, [.range 'z' 'a', .single '€', .range '0' 'é'], true⟩
    let d : Directive := { Directive.bare .charSet false with
      set := some ⟨true, [(0x5D, 0x5D), (0x7A, 0x7A), (0x2D, 0x2D), (0x61, 0x61), (0x20AC, 0x20AC),
        (0x30, 0xE9), (0x2D, 0x2D)]⟩ }
    let s : ReadState .utf8 :=
      ⟨encode _ (['→', '!', ' '] ++ ['é']), 7, [], [.text ⟨.utf16, []⟩], 0, false, []⟩
    Directive.parse .scan (encode .utf8 "[^]z-a€0-é-]%n".toList) = .ok (d, 15) ∧
      ¬ x.Admits 'b'.toNat ∧ x.Admits ' '.toNat ∧
      ∃ s', matchPieces s [⟨3, .directive d⟩] = (s', none) ∧ s'.rest = encode _ ['é'] ∧
        s'.stored = [.text ⟨.utf16, encode _ ['→', '!', ' ']⟩] := by
  intro x d s
  have hx : x.WellFormed :=
    ⟨by simp [x, SetItem.WellFormed], .inl rfl, fun h ↦ absurd h (by decide)⟩
  obtain ⟨hparse, hadmits, hread⟩ := means_what_it_spells hx .utf8
  obtain ⟨run, hrun, -, hstores⟩ := hread d s 3 [] rfl rfl
  have htakeWhile := hrun.unique
    (isLongestRun_takeWhile (fun c ↦ x.admits_set_iff c.char.toNat) (characters (s.field d)))
  have hunits : unitsOf run = encode .utf8 ['→', '!', ' '] := by
    rw [htakeWhile]
    decide +kernel
  have hne : run ≠ [] := by
    rintro rfl
    exact absurd hunits (by decide)
  obtain ⟨s', hmatch, hconsumed⟩ := hstores hne (some ⟨.utf16, []⟩) rfl
  refine ⟨?_, by rw [← hadmits]; decide, by rw [← hadmits]; decide, s', hmatch, ?_, ?_⟩
  · have hbehind := hparse (encode _ "%n".toList)
    rw [← encode_append] at hbehind
    exact hbehind
  · have hsplit : s.rest = encode .utf8 ['→', '!', ' '] ++ encode .utf8 ['é'] := encode_append _ _
    have hrest := hconsumed.rest
    rw [hsplit, hunits] at hrest
    exact (List.append_cancel_left hrest).symm
  · rw [hconsumed.took.stored, hunits]
    exact congrArg (fun units ↦ [Target.text ⟨.utf16, units⟩]) (transcode_encode _)

end SetNotation

end FormatString
