import Mathlib
import FormatString.Proofs.Number.DecimalText
import FormatString.Proofs.Reader.Value

/-!
# Reading one float

A bare float directive takes the text of a double that stands between blanks, and stores the double.
-/

namespace FormatString

variable {w : Width}

namespace ReadState

variable {s : ReadState w} {d : Directive}

theorem readFloat_of_read {old y : Binary .binary64}
    (htarget : s.nextTarget d = .ok (some (.float64 old))) {n : Nat} (hn : n ≠ 0)
    (hread : FormatString.readFloat .binary64 (Text.asciiRun (s.field d)) = ⟨y, n, false⟩)
    (offset : Nat) : s.readFloat d offset = .ok ((s.keep (.float64 y)).finish d n) := by
  refine bind_eq_ok_iff.mpr ⟨some (.float64 old), htarget, ?_⟩
  rw [if_neg (by simp [Target.isFloat])]
  dsimp only
  rw [hread, if_neg hn]
  rfl

/-- Floats are read behind blanks. -/
theorem matchDirective_float {k : Conversion} (hk : k.isFloat) (upper : Bool) (offset : Nat)
    (h : s.skipBlanks.rest ≠ []) :
    s.matchDirective (.bare k upper) offset = s.skipBlanks.readFloat (.bare k upper) offset := by
  have hvalue : s.skipBlanks.readValue (.bare k upper) offset
      = s.skipBlanks.readFloat (.bare k upper) offset := by
    rw [readValue, List.isEmpty_eq_false_iff.mpr h]
    cases k <;> first | rfl | exact absurd hk (by decide)
  cases k <;> first | exact hvalue | exact absurd hk (by decide)

end ReadState

/-- **Floats.** The text of a double is read into a target for doubles. -/
theorem Conversion.reads_float {k : Conversion} (hk : k.isFloat) {cs : List Char}
    {y : Binary .binary64} (hcs : SpellsFloat .binary64 cs y) (old : Binary .binary64) :
    k.Reads (Text.ofAscii w cs) (.float64 old) (.float64 y) := by
  intro s upper offset rest pending hrest hnext hpending
  rw [← ReadState.rest_skipBlanks] at hrest
  have hassigns : k.assigns := by cases k <;> first | rfl | exact absurd hk (by decide)
  have hne : cs ≠ [] := by
    obtain ⟨c, tail, rfl, -⟩ := hcs.exists_cons
    exact List.cons_ne_nil c tail
  have hread : FormatString.readFloat .binary64
      (Text.asciiRun (s.skipBlanks.field (.bare k upper))) = ⟨y, cs.length, false⟩ := by
    change FormatString.readFloat .binary64 (Text.asciiRun s.skipBlanks.rest) = _
    rw [hrest, Text.asciiRun_ofAscii_append hcs.ascii]
    exact hcs.readFloat_append (List.forall_mem_nil (isBlank ·)) hnext.asciiRun
  have htarget : s.skipBlanks.nextTarget (.bare k upper) = .ok (some (.float64 old)) :=
    ReadState.nextTarget_of_cons rfl hpending
  have hleft : s.skipBlanks.rest ≠ [] := by
    rw [hrest]
    exact List.append_ne_nil_of_left_ne_nil (List.map_eq_nil_iff.not.mpr hne) _
  refine ⟨(s.skipBlanks.keep (.float64 y)).finish (.bare k upper) cs.length, ?_, ?_, ?_⟩
  · rw [ReadState.matchDirective_float hk upper offset hleft]
    exact ReadState.readFloat_of_read htarget (List.length_eq_zero_iff.not.mpr hne) hread offset
  · rw [← Text.length_ofAscii (w := w) cs]
    exact ReadState.rest_of_keep hrest _ _
  · exact (ReadState.took_of_keep rfl hassigns _ _).of_skipBlanks

end FormatString
