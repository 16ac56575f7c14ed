import Mathlib
import FormatString.Proofs.Directive.Parse
import FormatString.Proofs.Number.IntText
import FormatString.Proofs.Reader.Effect

/-!
# Reading one value

A bare directive, without flags and width, reads a value that stands between blanks: it skips those
in front and stops at those behind. What the call remembers is then changed in the one way that
`ReadState.Took` describes.
-/

namespace FormatString

variable {w : Width}

/-! ## Blanks around a value -/

/-- A blank unit comes next, if anything does. -/
def BlankUnitNext (s : Text w) : Prop := ∀ u ∈ s.head?, u.isBlank

theorem BlankUnitNext.asciiRun {s : Text w} (h : BlankUnitNext s) :
    BlankNext (Text.asciiRun s) := by
  cases s with
  | nil => exact notNext_nil
  | cons u rest =>
    obtain ⟨c, hc, hblank⟩ := (Option.any_eq_true _ _).mp (h u rfl)
    rw [Text.asciiRun, hc]
    exact notNext_cons.mpr (by rw [hblank]; rfl)

/-- The longest run of blanks ends where a unit that is none comes. -/
theorem dropWhile_isBlank_append {blanks s : Text w} (hblanks : ∀ u ∈ blanks, u.isBlank)
    (hs : ∀ u ∈ s.head?, u.isBlank = false) : (blanks ++ s).dropWhile (·.isBlank) = s := by
  rw [List.dropWhile_append_of_pos hblanks]
  cases s with
  | nil => rfl
  | cons u rest => exact List.dropWhile_cons_of_neg (ne_true_of_eq_false (hs u rfl))

/-- A run of units that are not blank ends in front of a blank. -/
theorem takeWhile_not_isBlank_append {word s : Text w} (hword : ∀ u ∈ word, u.isBlank = false)
    (hs : BlankUnitNext s) : (word ++ s).takeWhile (!·.isBlank) = word := by
  have hrun : ∀ u ∈ word, (!u.isBlank) = true := by
    intro u hu
    rw [hword u hu]
    rfl
  rw [List.takeWhile_append_of_pos hrun]
  cases s with
  | nil => exact List.append_nil word
  | cons u rest =>
    rw [List.takeWhile_cons_of_neg (by rw [hs u rfl]; exact Bool.false_ne_true), List.append_nil]

/-! ## What taking a value changes -/

namespace ReadState

variable {s : ReadState w}

theorem rest_skipBlanks (s : ReadState w) :
    s.skipBlanks.rest = s.rest.dropWhile (·.isBlank) := by
  have hdrop : (s.rest.takeWhile (·.isBlank) ++ s.rest.dropWhile (·.isBlank)).drop
      (s.rest.takeWhile (·.isBlank)).length = s.rest.dropWhile (·.isBlank) := List.drop_left
  rwa [List.takeWhile_append_dropWhile] at hdrop

/-- Behind skipped blanks there are none. -/
theorem takeWhile_rest_skipBlanks (s : ReadState w) :
    s.skipBlanks.rest.takeWhile (·.isBlank) = [] := by
  rw [rest_skipBlanks]
  exact List.takeWhile_eq_nil_iff.mpr fun hpos ↦ List.dropWhile_get_zero_not _ _ hpos

/-- From `s` to `s'`, as many targets as there are in `ts` were stored in and became these; nothing
was clamped. -/
structure Took (s s' : ReadState w) (ts : List Target) : Prop where
  stored : s'.stored = s.stored ++ ts
  pending : s'.pending = s.pending.drop ts.length
  assigned : s'.assigned = s.assigned + ts.length
  clamped : s'.clamped = s.clamped

namespace Took

variable {s' s'' : ReadState w} {ts us : List Target}

theorem refl (s : ReadState w) : s.Took s [] := ⟨(List.append_nil _).symm, rfl, rfl, rfl⟩

theorem trans (h : s.Took s' ts) (h' : s'.Took s'' us) : s.Took s'' (ts ++ us) where
  stored := by rw [h'.stored, h.stored, List.append_assoc]
  pending := by rw [h'.pending, h.pending, List.drop_drop, List.length_append]
  assigned := by rw [h'.assigned, h.assigned, List.length_append, Nat.add_assoc]
  clamped := h'.clamped.trans h.clamped

/-- Skipping blanks stores nothing. -/
theorem of_skipBlanks (h : s.skipBlanks.Took s' ts) : s.Took s' ts := ⟨h.1, h.2, h.3, h.4⟩

end Took

/-- A value is stored and the units it was read from are consumed. -/
theorem took_of_keep {d : Directive} (hsuppress : d.flags.suppress = false)
    (hassigns : d.conversion.assigns) (n : Nat) (t : Target) :
    s.Took ((s.keep t).finish d n) [t] where
  stored := rfl
  pending := rfl
  assigned := by
    rw [finish, hsuppress, hassigns]
    rfl
  clamped := rfl

theorem rest_of_keep {core rest : Text w} (hrest : s.rest = core ++ rest) (d : Directive)
    (t : Target) : ((s.keep t).finish d core.length).rest = rest := by
  change s.rest.drop core.length = rest
  rw [hrest, List.drop_left]

end ReadState

/-! ## What a bare directive reads -/

/-- Behind any blanks, the bare directive reads `core` and turns the target `t` into `t'`. -/
def Conversion.Reads (k : Conversion) (core : Text w) (t t' : Target) : Prop :=
  ∀ (s : ReadState w) (upper : Bool) (offset : Nat) (rest : Text w) (pending : List Target),
    s.rest.dropWhile (·.isBlank) = core ++ rest → BlankUnitNext rest → s.pending = t :: pending →
    ∃ s', s.matchDirective (.bare k upper) offset = .ok s' ∧ s'.rest = rest ∧ s.Took s' [t']

namespace ReadState

variable {s : ReadState w} {d : Directive} {t : Target}

theorem readInteger_of_read (htarget : s.nextTarget d = .ok (some t)) {type : IntType}
    (htype : (if d.conversion = .pointer then t.addressType? else t.intType?) = some type) {v : Int}
    {n : Nat} (hn : n ≠ 0)
    (hread : type.read d.conversion.base (Text.asciiRun (s.field d)) = ⟨v, n, false⟩)
    (offset : Nat) : s.readInteger d offset = .ok ((s.keep (t.storeInt v)).finish d n) := by
  refine bind_eq_ok_iff.mpr ⟨some t, htarget, ?_⟩
  dsimp only
  rw [htype]
  dsimp only
  rw [hread, if_neg hn]
  rfl

theorem storeUnits_of_text (htarget : s.nextTarget d = .ok (some t)) (hd : d.conversion ≠ .char)
    {n : Nat} {t' : Target} (hstore : t.storeText? (s.rest.take n) = some t') :
    s.storeUnits d n = .ok ((s.keep t').finish d n) := by
  refine bind_eq_ok_iff.mpr ⟨some t, htarget, ?_⟩
  dsimp only
  rw [if_neg hd, hstore]

/-- Integers are read behind blanks. -/
theorem matchDirective_integer {k : Conversion} (hk : k.isInteger ∨ k = .pointer) (upper : Bool)
    (offset : Nat) (h : s.skipBlanks.rest ≠ []) :
    s.matchDirective (.bare k upper) offset = s.skipBlanks.readInteger (.bare k upper) offset := by
  have hvalue : s.skipBlanks.readValue (.bare k upper) offset
      = s.skipBlanks.readInteger (.bare k upper) offset := by
    rw [readValue, List.isEmpty_eq_false_iff.mpr h]
    cases k <;> first | rfl | exact absurd hk (by decide)
  cases k <;> first | exact hvalue | exact absurd hk (by decide)

/-- Words are read behind blanks. -/
theorem matchDirective_string (upper : Bool) (offset : Nat) (h : s.skipBlanks.rest ≠ []) :
    s.matchDirective (.bare .string upper) offset
      = s.skipBlanks.readWord (.bare .string upper) := by
  change s.skipBlanks.readValue (.bare .string upper) offset = _
  rw [readValue, List.isEmpty_eq_false_iff.mpr h]
  rfl

end ReadState

/-- **Integers.** A literal in the radix of the conversion is read into a target it fits. -/
theorem Conversion.reads_integer {k : Conversion} (hk : k.isInteger ∨ k = .pointer)
    (hauto : k ≠ .autoInt) {cs : List Char} {v : Int} (hcs : SpellsInt k.radix cs v) {t : Target}
    {type : IntType} (htype : (if k = .pointer then t.addressType? else t.intType?) = some type)
    (hv : type.min ≤ v ∧ v ≤ type.max) : k.Reads (Text.ofAscii w cs) t (t.storeInt v) := by
  intro s upper offset rest pending hrest hnext hpending
  rw [← ReadState.rest_skipBlanks] at hrest
  have hassigns : k.assigns := by cases k <;> first | rfl | exact absurd hk (by decide)
  have hne : cs ≠ [] := by
    obtain ⟨c, tail, hcons, -⟩ := hcs.exists_cons
    rw [hcons]
    exact List.cons_ne_nil _ _
  have hread : type.read (Directive.bare k upper).conversion.base
      (Text.asciiRun (s.skipBlanks.field (.bare k upper))) = ⟨v, cs.length, false⟩ := by
    change type.read k.base (Text.asciiRun s.skipBlanks.rest) = _
    rw [hrest, Text.asciiRun_ofAscii_append hcs.ascii, base, if_neg hauto]
    exact IntType.read_append hcs hv.1 hv.2 hnext.asciiRun
  have htarget : s.skipBlanks.nextTarget (.bare k upper) = .ok (some t) :=
    ReadState.nextTarget_of_cons rfl hpending
  have hleft : s.skipBlanks.rest ≠ [] := by
    rw [hrest]
    exact List.append_ne_nil_of_left_ne_nil (List.map_eq_nil_iff.not.mpr hne) _
  refine ⟨(s.skipBlanks.keep (t.storeInt v)).finish (.bare k upper) cs.length, ?_, ?_, ?_⟩
  · rw [ReadState.matchDirective_integer hk upper offset hleft]
    exact ReadState.readInteger_of_read htarget htype (List.length_eq_zero_iff.not.mpr hne) hread
      offset
  · rw [← Text.length_ofAscii (w := w) cs]
    exact ReadState.rest_of_keep hrest _ _
  · exact (ReadState.took_of_keep rfl hassigns _ _).of_skipBlanks

/-- **Words.** Units that are not blank are read into a target that takes text. -/
theorem Conversion.reads_word {word : Text w} (hne : word ≠ [])
    (hword : ∀ u ∈ word, u.isBlank = false) {t t' : Target} (hstore : t.storeText? word = some t') :
    Conversion.string.Reads word t t' := by
  intro s upper offset rest pending hrest hnext hpending
  rw [← ReadState.rest_skipBlanks] at hrest
  have hread : s.skipBlanks.readWord (.bare .string upper)
      = s.skipBlanks.storeUnits (.bare .string upper) word.length := by
    change s.skipBlanks.storeUnits _ (s.skipBlanks.rest.takeWhile (!·.isBlank)).length = _
    rw [hrest, takeWhile_not_isBlank_append hword hnext]
  have htarget : s.skipBlanks.nextTarget (.bare .string upper) = .ok (some t) :=
    ReadState.nextTarget_of_cons rfl hpending
  have hleft : s.skipBlanks.rest ≠ [] := by
    rw [hrest]
    exact List.append_ne_nil_of_left_ne_nil hne _
  refine ⟨(s.skipBlanks.keep t').finish (.bare .string upper) word.length, ?_, ?_, ?_⟩
  · rw [ReadState.matchDirective_string upper offset hleft, hread]
    refine ReadState.storeUnits_of_text htarget Conversion.noConfusion ?_
    rwa [hrest, List.take_left]
  · exact ReadState.rest_of_keep hrest _ _
  · exact (ReadState.took_of_keep rfl rfl _ _).of_skipBlanks

end FormatString
