import Mathlib
import FormatString.Proofs.Access.Slice
import FormatString.Proofs.Number.WrittenInt
import FormatString.Proofs.Writer.Delivery

/-!
# Text stored by position

Text is put out through storage of fixed size. The digits of an integer come from the last one to
the first and fill a buffer of 129 bytes from its end; a block goes behind what a buffer has stored,
as far as there is room in front of the NUL. Here both are stored by position, and neither the place
of a byte nor the difference that is the room may be negative. Each step keeps the invariant that the
next one needs, so this holds along every run.
-/

namespace FormatString

variable {w : Width}

/-! ## Bytes from the end of a buffer to its front -/

/-- The bytes of an integer, which are those from `start` on. -/
structure DigitBuffer where
  bytes : Text .utf8 := List.replicate 129 (.nul .utf8)
  start : Nat := 129

namespace DigitBuffer

/-- Puts a character in front. -/
def push? (b : DigitBuffer) (c : Char) : Option DigitBuffer :=
  if 0 < b.start ∧ b.start - 1 < b.bytes.length then
    some ⟨b.bytes.set (b.start - 1) (.ofAscii .utf8 c), b.start - 1⟩
  else none

/-- Puts the digits of a number in front, their characters being looked up in a table. -/
def pushDigits? (r : Radix) (upper : Bool) (n : Nat) (b : DigitBuffer) : Option DigitBuffer := do
  let b ← b.push? (← (digitTable upper)[n % r.value]?)
  if n / r.value = 0 then some b else pushDigits? r upper (n / r.value) b
termination_by n
decreasing_by
  have := r.two_le
  refine Nat.div_lt_self (Nat.pos_of_ne_zero ?_) this
  rintro rfl
  exact absurd (Nat.zero_div _) ‹_›

/-- The buffer has room for 129 bytes, and these characters are what it holds. -/
structure Holds (b : DigitBuffer) (cs : List Char) : Prop where
  size : b.bytes.length = 129
  room : b.start + cs.length = 129
  text : b.bytes.drop b.start = Text.ofAscii .utf8 cs

theorem holds_nil : Holds {} [] := ⟨rfl, rfl, rfl⟩

variable {b : DigitBuffer} {cs : List Char}

theorem Holds.push (h : b.Holds cs) (c : Char) (hroom : cs.length < 129) :
    ∃ b', b.push? c = some b' ∧ b'.Holds (c :: cs) := by
  have hsum := h.room
  have hsize := h.size
  have hlt : b.start - 1 < b.bytes.length := by omega
  have hnext : b.start - 1 + 1 = b.start := by omega
  refine ⟨_, if_pos ⟨by omega, hlt⟩, ⟨?_, ?_, ?_⟩⟩
  · rw [List.length_set, hsize]
  · rw [List.length_cons]
    dsimp only
    omega
  · dsimp only
    rw [List.drop_eq_getElem_cons (by rwa [List.length_set]), List.getElem_set_self, hnext,
      List.drop_set_of_lt (by omega), h.text]
    rfl

/-- **Pushing the characters of a text**, the last one first. -/
theorem Holds.foldlM_push (h : b.Holds cs) (text : List Char) (hroom : (text ++ cs).length ≤ 129) :
    ∃ b', text.reverse.foldlM push? b = some b' ∧ b'.Holds (text ++ cs) := by
  induction text with
  | nil => exact ⟨b, rfl, h⟩
  | cons c text ih =>
    rw [List.cons_append, List.length_cons] at hroom
    obtain ⟨b', hrun, hb'⟩ := ih (by omega)
    obtain ⟨b'', hpush, hb''⟩ := hb'.push c (by omega)
    refine ⟨b'', ?_, hb''⟩
    rw [List.reverse_cons, List.foldlM_append, hrun, Option.bind_eq_bind, Option.bind_some,
      List.foldlM_cons, hpush]
    rfl

/-- Dividing repeatedly pushes the characters of the number. -/
theorem pushDigits?_eq (r : Radix) (upper : Bool) (n : Nat) (b : DigitBuffer) :
    pushDigits? r upper n b = (r.writeNat upper n).reverse.foldlM push? b := by
  induction n using Nat.strong_induction_on generalizing b with
  | _ n ih =>
    have hr : 1 < r.value := r.two_le
    have hdigit : n % r.value < 36 := (Nat.mod_lt n (Nat.zero_lt_of_lt hr)).trans_le r.le
    rw [pushDigits?, digitTable_getElem? upper hdigit, Option.bind_eq_bind, Option.bind_some]
    by_cases hn : n < r.value
    · rw [Radix.writeNat, digitsOf_of_lt hn, Nat.mod_eq_of_lt hn, Nat.div_eq_of_lt hn]
      rfl
    · have hle := Nat.le_of_not_lt hn
      have hpos : n / r.value ≠ 0 := (Nat.div_pos hle (Nat.zero_lt_of_lt hr)).ne'
      have hless : n / r.value < n := Nat.div_lt_self (by omega) hr
      rw [Radix.writeNat, digitsOf_of_le hle, List.map_append, List.map_singleton,
        List.reverse_append, List.reverse_singleton, List.singleton_append, List.foldlM_cons]
      refine bind_congr fun b' ↦ ?_
      rw [if_neg hpos]
      exact ih _ hless b'

/-- Puts the text of an integer into a buffer. Decimals are left to the writer `decimal`. -/
def write? (decimal : Int → List Char) (r : Radix) (upper : Bool) (v : Int) : Option DigitBuffer :=
  if r = .decimal then (decimal v).reverse.foldlM push? {}
  else do
    let b ← pushDigits? r upper v.natAbs {}
    if v < 0 then b.push? '-' else some b

theorem write?_eq (decimal : Int → List Char) (r : Radix) (upper : Bool) (v : Int) :
    write? decimal r upper v
      = (if r = .decimal then decimal v else r.write upper v).reverse.foldlM push? {} := by
  rw [write?]
  split
  · rfl
  · rw [pushDigits?_eq, Radix.write, List.reverse_append, List.foldlM_append]
    refine bind_congr fun b ↦ ?_
    split
    · exact (bind_pure _).symm
    · rfl

end DigitBuffer

/-- A magnitude of 128 bits has at most 128 digits, and there may be a sign. -/
theorem Radix.length_write_le (r : Radix) (upper : Bool) {v : Int} (hlow : -(2 ^ 127) ≤ v)
    (hhigh : v < 2 ^ 127) : (r.write upper v).length ≤ 129 := by
  have hdigits : (digitsOf r v.natAbs).length ≤ 128 := by
    by_cases hv : v.natAbs = 0
    · rw [hv, digitsOf_of_lt (Nat.zero_lt_of_lt r.two_le)]
      decide
    · have hmagnitude : v.natAbs ≤ 2 ^ 127 := by omega
      calc (digitsOf r v.natAbs).length
          = Nat.log r.value v.natAbs + 1 := length_digitsOf r hv
        _ ≤ Nat.log 2 (2 ^ 127) + 1 :=
          Nat.add_le_add_right (Nat.log_mono (by decide) r.two_le hmagnitude) 1
        _ = 128 := congrArg (· + 1) (Nat.log_pow (by decide) 127)
  have hsign : (if v < 0 then ['-'] else []).length ≤ 1 := by split <;> simp
  rw [write, List.length_append, writeNat, List.length_map]
  omega

/-- The text of an integer in the given base, by way of a buffer. -/
def writeIntAt? (decimal : Int → List Char) (v : Int) (base : Nat) (upper : Bool) :
    Access NumberError (Text .utf8) :=
  match Radix.ofNat? base with
  | none => settled (.error (.invalidBase base))
  | some r => do
    let b ← DigitBuffer.write? decimal r upper v
    b.bytes.from? b.start

/-- **Integers fit their buffer**, whatever the base. -/
theorem writeIntAt?_eq {decimal : Int → List Char} {v : Int} (hlow : -(2 ^ 127) ≤ v)
    (hhigh : v < 2 ^ 127) (hdecimal : IsCanonical 10 false v (decimal v)) (base : Nat)
    (upper : Bool) :
    writeIntAt? decimal v base upper = settled (writeIntUnits .utf8 decimal v base upper) := by
  rw [writeIntAt?, writeIntUnits, writeIntWith]
  cases Radix.ofNat? base with
  | none => rfl
  | some r =>
    dsimp only
    set text := if r = .decimal then decimal v else r.write upper v with htext
    have hlength : (text ++ []).length ≤ 129 := by
      rw [List.append_nil, htext]
      split
      · rw [hdecimal.unique (Radix.decimal.isCanonical_write false v) (by decide)]
        exact Radix.decimal.length_write_le false hlow hhigh
      · exact r.length_write_le upper hlow hhigh
    obtain ⟨b, hrun, hholds⟩ := DigitBuffer.holds_nil.foldlM_push text hlength
    have hle : b.start ≤ b.bytes.length := by
      have := hholds.room
      rw [hholds.size]
      omega
    rw [DigitBuffer.write?_eq, ← htext, hrun, lift_some_bind, Text.from?_of_le hle, hholds.text,
      List.append_nil]
    rfl

/-! ## Blocks behind each other in a buffer -/

namespace Buffer

/-- Stores a block. The room in front of the NUL is a difference, and what is kept of the block is
copied from one slice to another. -/
def store? (b : Buffer w) (block : Text w) : Option (Buffer w) :=
  if b.stored ≤ b.units.length - 1 then do
    let taken := min (b.units.length - 1 - b.stored) block.length
    let place ← b.units.slice? b.stored (b.stored + taken)
    let kept ← block.slice? 0 taken
    if place.length = kept.length then
      some
        { units := b.units.take b.stored ++ kept ++ b.units.drop (b.stored + taken)
          stored := b.stored + taken
          truncated := b.truncated || decide (taken < block.length) }
    else none
  else none

variable {b : Buffer w} {start out : Text w}

/-- **A block is stored in range** if no more is stored than there is room for. -/
theorem store?_eq (hstored : b.stored ≤ b.units.length - 1) (block : Text w) :
    b.store? block = some (b.store block) := by
  set taken := min (b.units.length - 1 - b.stored) block.length with htaken
  have hkept : (block.take (b.units.length - 1 - b.stored)) = block.take taken :=
    List.take_eq_take_min
  have hlength : (block.take taken).length = taken := List.length_take_of_le (Nat.min_le_right _ _)
  have hplace : ((b.units.drop b.stored).take taken).length = taken := by
    rw [List.length_take_of_le]
    rw [List.length_drop]
    omega
  rw [store?, if_pos hstored]
  dsimp only
  rw [← htaken, Text.slice?_of_le (Nat.le_add_right _ _) (by omega), Option.bind_eq_bind,
    Option.bind_some, Text.slice?_of_le (Nat.zero_le _) (Nat.min_le_right _ _), Option.bind_some,
    Nat.add_sub_cancel_left, List.drop_zero, Nat.sub_zero, if_pos (hplace.trans hlength.symm), store,
    hkept, hlength]

theorem Holds.stored_le (h : b.Holds start out) : b.stored ≤ b.units.length - 1 := by
  rw [h.length_units, h.stored]
  exact Nat.min_le_right _ _

/-- **A run of blocks is stored in range.** -/
theorem Holds.foldlM_store? (h : b.Holds start out) (blocks : List (Text w)) :
    blocks.foldlM store? b = some (blocks.foldl Buffer.store b) := by
  induction blocks generalizing b out with
  | nil => rfl
  | cons block blocks ih =>
    rw [List.foldlM_cons, store?_eq h.stored_le, List.foldl_cons]
    exact ih (h.store block)

end Buffer

/-! ## Small buffers -/

/-- A character is encoded in four units at most. -/
theorem length_encodeChar_le (w : Width) (c : Char) : (encodeChar w c).length ≤ 4 := by
  rw [encodeChar, List.length_map]
  cases w <;> simp only [spelling] <;> repeat' split
  all_goals simp

/-- Padding comes in blocks of 32 units at most. -/
theorem length_le_of_mem_fillBlocks {unit : CodeUnit w} {count : Nat} {block : Text w}
    (h : block ∈ Chunk.fillBlocks unit count) : block.length ≤ Chunk.fillBlock := by
  fun_induction Chunk.fillBlocks unit count with
  | case1 => exact absurd h List.not_mem_nil
  | case2 count hne ih =>
    obtain rfl | hmem := List.mem_cons.mp h
    · rw [List.length_replicate]
      exact Nat.min_le_right _ _
    · exact ih hmem

end FormatString
