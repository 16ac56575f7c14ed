import Mathlib
import FormatString.Proofs.Access.Reader
import FormatString.Proofs.Access.Storage
import FormatString.Proofs.Writer.Refusal

/-!
# No access out of range

What reads and stores by position, brought together. A computation that has an outcome has not been
out of range on its way there, and the outcomes are those of the computations on lists. The bounds
that the positions depend on come from the functions that report how far they have got, so these are
stated beside them: nothing reports more units than it was given.
-/

namespace FormatString

variable {w : Width}

namespace Text

/-- Whatever is read of a text by position is in range: its pieces and directives, its characters and
the first of them, and a float. -/
structure ReadInRange (s : Text w) : Prop where
  pieces : ∀ dialect, piecesAt? dialect s 0 0 = some (pieces dialect s)
  directive : ∀ dialect, Directive.parseAt? dialect s = settled (Directive.parse dialect s)
  characters : charactersAt? s = some ((characters s).map Spelled.char)
  front : ∀ count, prefixAt? s count 0 >>= s.slice? 0 = some (charPrefix s count)
  float : s.floatAt? = some (readFloat .binary64 s.asciiRun)

/-- Nothing that is read at the front of a text takes more units than there are. -/
structure ConsumedInRange (s : Text w) : Prop where
  directive : ∀ {dialect d n}, Directive.parse dialect s = .ok (d, n) → n ≤ s.length
  character : ∀ {c n}, decode? s = some (c, n) → n ≤ s.length
  front : ∀ count, (charPrefix s count).length ≤ s.length
  int : ∀ {base t p}, readInt base t s.asciiRun = .ok p → p.consumed ≤ s.length
  float : (readFloat .binary64 s.asciiRun).consumed ≤ s.length

theorem consumedInRange (s : Text w) : s.ConsumedInRange where
  directive h := (Directive.parse_le h).2
  character := decode?_le
  front := length_unitsOf_take_le s
  int {base t p} h := by
    rw [readInt] at h
    split at h
    · next b _ =>
      obtain rfl := Except.ok.inj h
      exact (t.consumed_read_le b _).trans s.length_asciiRun_le
    · exact absurd h (by simp)
  float := (consumed_readFloat_le _ _).trans s.length_asciiRun_le

theorem readInRange (s : Text w) : s.ReadInRange where
  pieces dialect := piecesAt?_eq le_rfl (Nat.zero_le _) (by simp)
  directive dialect := Directive.parseAt?_eq dialect s
  characters := charactersAt?_eq s
  front count := by
    have hle := s.consumedInRange.front count
    rw [prefixAt?_eq count (Nat.zero_le _), List.drop_zero, Nat.zero_add, Option.bind_eq_bind,
      Option.bind_some, slice?_of_le (Nat.zero_le _) hle, List.drop_zero, Nat.sub_zero,
      ← List.prefix_iff_eq_take.mp (charPrefix_isPrefix s count)]
  float := s.floatAt?_eq

end Text

/-- **No access is out of range.** Reading format strings and inputs by position has the outcomes
of reading them as lists, whatever units they consist of and whatever the targets are, and nothing
reports that it has consumed more than it was given. Integers of 128 bits fit a buffer of 129 bytes
in every base, if the decimal writer is canonical; blocks are stored in the room that a buffer has;
and the small buffers for a head, a character and a block of padding suffice. -/
theorem no_access_out_of_range {decimal : Int → List Char}
    (hdecimal : ∀ v, -(2 ^ 127) ≤ v → v < 2 ^ 127 → IsCanonical 10 false v (decimal v)) :
    (∀ s : Text w, s.ReadInRange ∧ s.ConsumedInRange) ∧
    (∀ (input template : Text w) targets,
      scanAt? input template targets = some (scan input template targets) ∧
      ∀ ps : List (Located w), ∃ c halt,
        Scanner.matchPieces? input { targets := targets } ps = some (c, halt) ∧ c.Inside input) ∧
    (∀ v : Int, -(2 ^ 127) ≤ v → v < 2 ^ 127 → ∀ base upper,
      writeIntAt? decimal v base upper = settled (writeIntUnits .utf8 decimal v base upper)) ∧
    (∀ (start : Text w) (blocks : List (Text w)),
      let b : Buffer w := blocks.foldl Buffer.store (.mk start 0 false)
      blocks.foldlM Buffer.store? (.mk start 0 false) = some b ∧
        b.stored ≤ max start.length 1 - 1) ∧
    (∀ (d : Directive) config precision arg (f : Field w),
      d.field? config precision arg = some f → f.head.length ≤ 3) ∧
    (∀ c, (encodeChar w c).length ≤ 4) ∧
    ∀ (unit : CodeUnit w) count, ∀ block ∈ Chunk.fillBlocks unit count, block.length ≤ 32 := by
  refine ⟨fun s ↦ ⟨s.readInRange, s.consumedInRange⟩,
    fun input template targets ↦ ⟨scanAt?_eq input template targets, fun ps ↦ ?_⟩,
    fun v hlow hhigh ↦ writeIntAt?_eq hlow hhigh (hdecimal v hlow hhigh), fun start blocks ↦ ?_,
    fun d config precision arg f ↦ Directive.length_head_le, length_encodeChar_le w,
    fun unit count block ↦ length_le_of_mem_fillBlocks⟩
  · obtain ⟨c, halt, hrun, hinside, -⟩ := (Scanner.inside_start input targets).matchPieces ps
    exact ⟨c, halt, hrun, hinside⟩
  · have hfresh := Buffer.holds_nil start
    refine ⟨hfresh.foldlM_store? blocks, ?_⟩
    have hstored := (hfresh.foldl_store blocks).stored
    change (blocks.foldl Buffer.store _).stored = _ at hstored
    omega

/-- The least integer of 128 bits fills the whole buffer in base two. -/
theorem no_access_out_of_range_least :
    let decimal := Radix.decimal.write false
    let least : Int := -(2 ^ 127)
    (∀ v, -(2 ^ 127) ≤ v → v < 2 ^ 127 → IsCanonical 10 false v (decimal v)) ∧
      ∃ units, writeIntAt? decimal least 2 true = settled (.ok units) ∧ units.length = 129 := by
  intro decimal least
  have hdecimal : ∀ v, -(2 ^ 127) ≤ v → v < 2 ^ 127 → IsCanonical 10 false v (decimal v) :=
    fun v _ _ ↦ Radix.decimal.isCanonical_write false v
  have hlow : -(2 ^ 127) ≤ least := le_rfl
  have hhigh : least < 2 ^ 127 := by decide
  have hunits : writeIntUnits .utf8 decimal least 2 true
      = .ok (.ofAscii .utf8 (Radix.binary.write true least)) := by
    rw [writeIntUnits, writeIntWith_eq_writeInt (hdecimal least hlow hhigh),
      writeInt_of_mem (by decide)]
    rfl
  have hdigits : (digitsOf .binary (2 ^ 127)).length = 128 := by
    rw [length_digitsOf .binary (by decide)]
    exact congrArg (· + 1) (Nat.log_pow (by decide) 127)
  obtain ⟨-, -, hwrite, -⟩ := no_access_out_of_range (w := .utf8) hdecimal
  have hleast := hwrite least hlow hhigh 2 true
  rw [hunits] at hleast
  refine ⟨hdecimal, _, hleast, ?_⟩
  have hnegative : least < 0 := by decide
  have hmagnitude : least.natAbs = 2 ^ 127 := by decide
  rw [Text.length_ofAscii, Radix.write, if_pos hnegative, hmagnitude, List.length_append,
    Radix.writeNat, List.length_map, hdigits]
  rfl

end FormatString
