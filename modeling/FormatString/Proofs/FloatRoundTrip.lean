import Mathlib
import FormatString.Proofs.Reader.Floats
import FormatString.Proofs.RoundTrip
import FormatString.Proofs.Writer.Floats

/-!
# Floats are read back bit for bit

A double that is written with enough digits is read back as the same double, its sign included: with
seventeen significant digits, or with as many places behind the point as it has. Infinities and NaNs
are written as words and read back as such.

As with other values, writing and reading meet in a text between them. Each float conversion writes
blanks and a text that `SpellsFloat` describes (`exists_format`), and both the reader of floats and
the directives that read floats take that text as a whole. That the value spelled is the one that
was written is settled before, where there are no characters: enough digits are close to the value
(`Decimal.isNear_significant`), and what is close is read as it (`Binary.ofDecimal_of_isNear`).
-/

namespace FormatString

variable {w : Width}

/-! ## The round trip -/

/-- The letters of the conversions that read floats. -/
def floatLetters : List Char := ['e', 'E', 'f', 'F', 'g', 'G']

theorem exists_isDirective_letter {c : Char} (hc : c ∈ floatLetters) :
    ∃ k, k.isFloat ∧ IsDirective .scan [CodeUnit.ofAscii w c] (.bare k c.isUpper) := by
  obtain ⟨k, hletter, hk⟩ : ∃ k, Conversion.ofLetter? c = some k ∧ k.isFloat := by
    simp only [floatLetters, List.mem_cons, List.not_mem_nil, or_false] at hc
    obtain rfl | rfl | rfl | rfl | rfl | rfl := hc <;> exact ⟨_, rfl, rfl⟩
  have hset : k ≠ .charSet := by
    rintro rfl
    exact Bool.noConfusion hk
  refine ⟨k, hk, Directive.parse_bare (by decide) hletter hset, ?_⟩
  change (CodeUnit.ofAscii w c).spells '%' = false
  simp only [floatLetters, List.mem_cons, List.not_mem_nil, or_false] at hc
  obtain rfl | rfl | rfl | rfl | rfl | rfl := hc <;>
    exact CodeUnit.spells_ofAscii (by decide)

/-- **Scanning** the text of a double takes all of it and stores the double. -/
theorem scan_of_spellsFloat {cs : List Char} {y : Binary .binary64}
    (h : SpellsFloat .binary64 cs y) (a : Nat) {c : Char} (hc : c ∈ floatLetters)
    (old : Binary .binary64) :
    let input := Text.ofAscii w (List.replicate a ' ' ++ cs)
    let template : Text w := [.ofAscii w '%', .ofAscii w c]
    (matchPieces { rest := input, pending := [.float64 old] } (pieces .scan template)).1.rest = [] ∧
      scan input template [.float64 old] = ⟨.ok 1, [.float64 y], []⟩ := by
  intro input template
  obtain ⟨k, hk, hletter⟩ := exists_isDirective_letter (w := w) hc
  have hpieces : pieces .scan template = [⟨0, .directive (.bare k c.isUpper)⟩] :=
    hletter.pieces_eq
  have hinput : input.dropWhile (·.isBlank) = Text.ofAscii w cs ++ [] := by
    have hsplit : input = spaces w a ++ Text.ofAscii w cs := by
      rw [spaces, ← Text.ofAscii_replicate, ← Text.ofAscii_append]
    obtain ⟨first, tail, rfl, hblank⟩ := h.exists_cons
    rw [hsplit, List.append_nil]
    refine dropWhile_isBlank_append isBlank_of_mem_spaces ?_
    rintro u ⟨⟩
    rwa [CodeUnit.isBlank_ofAscii (h.ascii first List.mem_cons_self)]
  obtain ⟨s, hmatch, hrest, htook⟩ := Conversion.reads_float hk h old
    { rest := input, pending := [.float64 old] } c.isUpper 0 [] [] hinput
    (by simp [BlankUnitNext]) rfl
  have hmatches : matchPieces { rest := input, pending := [.float64 old] } (pieces .scan template)
      = (s, none) := by
    have hpiece : ReadState.matchPiece { rest := input, pending := [.float64 old] }
        ⟨0, .directive (.bare k c.isUpper)⟩ = .ok s := hmatch
    rw [hpieces, matchPieces, hpiece]
    rfl
  rw [scan, hmatches]
  refine ⟨hrest, ?_⟩
  change (⟨.ok s.assigned, s.stored ++ s.pending, s.clamped.map _ ++ []⟩ : Reading) = _
  rw [htook.assigned, htook.stored, htook.pending, htook.clamped]
  rfl

/-- **Float round trip.** -/
theorem float_round_trip (config : Config) {spec : Text w} {d : Directive}
    (h : IsDirective .print spec d) (hd : d.conversion.isFloat) (hwidth : d.width = none)
    (hgroup : d.flags.group = false) {p : Option Nat} (hprecision : d.precision = p.map .literal)
    {x : Binary .binary64} (henough : x.isFinite → d.ShowsEnough (p.getD 6) x) :
    let written := config.format (.ofAscii w '%' :: spec) [.float64 x]
    ∃ y, ReadsBackAs x y ∧ written.result = .ok written.sink.length ∧
      readFloat .binary64 (Text.asciiRun written.sink) = ⟨y, written.sink.length, false⟩ ∧
      ∀ c ∈ floatLetters, ∀ old,
        let template : Text w := [.ofAscii w '%', .ofAscii w c]
        (matchPieces { rest := written.sink, pending := [.float64 old] }
            (pieces .scan template)).1.rest = [] ∧
          scan written.sink template [.float64 old] = ⟨.ok 1, [.float64 y], []⟩ := by
  obtain ⟨a, cs, y, hwritten, hfloat, hreads⟩ :=
    exists_format config h hd hwidth hprecision hgroup henough
  have hblanks : ∀ c ∈ List.replicate a ' ', isBlank c := by
    intro c hc
    rw [List.eq_of_mem_replicate hc]
    rfl
  have hascii : ∀ c ∈ List.replicate a ' ' ++ cs, c.toNat < 0x80 :=
    List.forall_mem_append.mpr ⟨fun c hc ↦ ascii_of_isBlank (hblanks c hc), hfloat.ascii⟩
  rw [hwritten]
  refine ⟨y, hreads, ?_, ?_, fun c hc old ↦ scan_of_spellsFloat hfloat a hc old⟩
  · rw [Text.length_ofAscii, List.length_append, List.length_replicate]
  · have hread := hfloat.readFloat_append hblanks (show BlankNext [] from notNext_nil)
    rw [List.append_nil] at hread
    rw [Text.asciiRun_ofAscii hascii, hread, Text.length_ofAscii]

/-- The negative double of the largest magnitude. -/
theorem float_round_trip_largest :
    let x : Binary .binary64 := ⟨true, 0x7fefffffffffffff, by decide⟩
    let d : Directive := ⟨.floatSci, false, {}, .none, none, some (.literal 16), none, none⟩
    let spec := Text.ofAscii .utf8 ['.', '1', '6', 'e']
    IsDirective .print spec d ∧ d.ShowsEnough 16 x ∧ x.isFinite ∧
      scan (({} : Config).format (.ofAscii .utf8 '%' :: spec) [.float64 x]).sink
        [.ofAscii .utf8 '%', .ofAscii .utf8 'f'] [.float64 (.zero false)]
          = ⟨.ok 1, [.float64 x], []⟩ := by
  intro x d spec
  have hspec : IsDirective .print spec d := ⟨by decide, by decide⟩
  have henough : d.ShowsEnough 16 x := Nat.le_refl 16
  obtain ⟨y, hreads, -, -, hscan⟩ := float_round_trip {} hspec rfl rfl rfl (p := some 16) rfl
    (fun _ ↦ henough)
  have hfinite : x.isFinite = true := by decide
  cases hreads with
  | same => exact ⟨hspec, henough, hfinite, (hscan 'f' (by decide) (.zero false)).2⟩
  | nan hx => exact absurd hx (Binary.not_isNaN hfinite)

end FormatString
