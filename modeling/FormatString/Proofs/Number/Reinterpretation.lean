import Mathlib
import FormatString.Proofs.Number.Literal
import FormatString.Proofs.Reader.Effect

/-!
# Conversion to an integer type

An integer is converted to a type by keeping its low bits and reading them back. `reinterpret` says
this by residues: it gives the one value of the type that is congruent to the integer
(`eq_reinterpret_iff`), and what else is to be said of it follows from that.

A machine does it on words. It masks a word of 128 bits and, if the type is signed and its sign bit
is set, subtracts the number of values of the type (`reinterpretWord`). Read as an integer, the word
it gets is the same value.
-/

namespace FormatString.IntType

variable (t u : IntType)

/-! ## Residues -/

theorem bits_mem : 1 ≤ t.bits ∧ t.bits ≤ 64 := by
  rcases t with ⟨width, signed⟩
  revert signed
  cases width <;> decide

/-- A type has as many values as there are residues. -/
theorem max_add_one_sub_min : t.max + 1 - t.min = 2 ^ t.bits := by
  rcases t with ⟨width, _ | _⟩ <;> cases width <;> rfl

theorem modulus_eq_two_mul_half : t.modulus = 2 * t.half := by
  have hhalf : t.half = 2 ^ (t.bits - 1) := Nat.cast_pow 2 _
  rw [modulus_eq, hhalf, ← pow_succ', Nat.sub_add_cancel t.bits_mem.1]

theorem reinterpret_modEq (v : Int) : t.reinterpret v ≡ v [ZMOD 2 ^ t.bits] := by
  rw [reinterpret, ← modulus_eq]
  split
  · exact Int.bmod_emod
  · exact Int.mod_modEq _ _

variable {t u} {v x y : Int}

/-- No two values of a type are congruent. -/
theorem eq_of_modEq (hx : t.min ≤ x ∧ x ≤ t.max) (hy : t.min ≤ y ∧ y ≤ t.max)
    (h : x ≡ y [ZMOD 2 ^ t.bits]) : x = y := by
  have hvalues := t.max_add_one_sub_min
  have hlt : |y - x| < 2 ^ t.bits := abs_lt.mpr ⟨by omega, by omega⟩
  have hzero := Int.eq_zero_of_abs_lt_dvd h.dvd hlt
  omega

/-- **Conversion** gives the one value of the type that is congruent to the integer. -/
theorem eq_reinterpret_iff :
    x = t.reinterpret v ↔ t.min ≤ x ∧ x ≤ t.max ∧ x ≡ v [ZMOD 2 ^ t.bits] := by
  constructor
  · rintro rfl
    exact ⟨(t.reinterpret_mem v).1, (t.reinterpret_mem v).2, t.reinterpret_modEq v⟩
  · rintro ⟨hmin, hmax, hv⟩
    exact eq_of_modEq ⟨hmin, hmax⟩ (t.reinterpret_mem v) (hv.trans (t.reinterpret_modEq v).symm)

theorem reinterpret_eq_of_modEq (h : x ≡ y [ZMOD 2 ^ t.bits]) :
    t.reinterpret x = t.reinterpret y :=
  eq_reinterpret_iff.mpr
    ⟨(t.reinterpret_mem x).1, (t.reinterpret_mem x).2, (t.reinterpret_modEq x).trans h⟩

/-- A type that is no narrower keeps all the bits that count. -/
theorem reinterpret_reinterpret_of_bits_le (h : t.bits ≤ u.bits) (v : Int) :
    t.reinterpret (u.reinterpret v) = t.reinterpret v :=
  reinterpret_eq_of_modEq ((u.reinterpret_modEq v).of_dvd (pow_dvd_pow 2 h))

/-! ## Words -/

variable (t)

/-- The word with the low bits set, as many as the type has. -/
def mask : BitVec 128 := (1#128 <<< t.bits) - 1#128

/-- The word that a machine converts a word to. -/
def reinterpretWord (raw : BitVec 128) : BitVec 128 :=
  let masked := raw &&& t.mask
  if t.signed ∧ masked >>> (t.bits - 1) = 1#128 then masked - (1#128 <<< t.bits) else masked

theorem two_pow_bits_lt : 2 ^ t.bits < 2 ^ 127 :=
  Nat.pow_lt_pow_right (by decide) (by have := t.bits_mem; omega)

theorem toNat_one_shiftLeft : (1#128 <<< t.bits).toNat = 2 ^ t.bits := by
  have hlt := t.two_pow_bits_lt
  rw [BitVec.toNat_shiftLeft, Nat.shiftLeft_eq]
  exact (Nat.mod_eq_of_lt (by simp; omega)).trans (Nat.one_mul _)

theorem toNat_and_mask (raw : BitVec 128) : (raw &&& t.mask).toNat = raw.toNat % 2 ^ t.bits := by
  have hmask : t.mask.toNat = 2 ^ t.bits - 1 := by
    rw [mask, BitVec.toNat_sub_of_le, toNat_one_shiftLeft]
    · rfl
    · rw [BitVec.le_def, toNat_one_shiftLeft]
      exact Nat.one_le_two_pow
  rw [BitVec.toNat_and, hmask, Nat.and_two_pow_sub_one_eq_mod]

/-- The bits that are kept, read without a sign, are congruent to the word read with its sign. -/
theorem toNat_and_mask_modEq (raw : BitVec 128) :
    ((raw &&& t.mask).toNat : Int) ≡ raw.toInt [ZMOD 2 ^ t.bits] := by
  have hword : raw.toInt ≡ raw.toNat [ZMOD 2 ^ 128] := by
    rw [BitVec.toInt_eq_toNat_bmod]
    exact Int.bmod_emod
  have hbits : t.bits ≤ 128 := by have := t.bits_mem; omega
  rw [toNat_and_mask, Int.natCast_mod, Nat.cast_pow]
  exact (Int.mod_modEq _ _).trans (hword.of_dvd (pow_dvd_pow 2 hbits)).symm

theorem toNat_and_mask_lt (raw : BitVec 128) : (raw &&& t.mask).toNat < 2 ^ t.bits := by
  rw [toNat_and_mask]
  exact Nat.mod_lt _ (Nat.two_pow_pos _)

theorem toInt_and_mask (raw : BitVec 128) : (raw &&& t.mask).toInt = (raw &&& t.mask).toNat := by
  have hlt := t.toNat_and_mask_lt raw
  have hword := t.two_pow_bits_lt
  exact BitVec.toInt_eq_toNat_of_lt (by omega)

/-- Below a sign bit that is set the word is masked to no less than the weight of the bit. -/
theorem signBit_iff (raw : BitVec 128) :
    (raw &&& t.mask) >>> (t.bits - 1) = 1#128 ↔ 2 ^ (t.bits - 1) ≤ (raw &&& t.mask).toNat := by
  have hlt : (raw &&& t.mask).toNat < 2 ^ (t.bits - 1) * 2 := by
    rw [← pow_succ, Nat.sub_add_cancel t.bits_mem.1]
    exact t.toNat_and_mask_lt raw
  rw [← BitVec.toNat_inj, BitVec.toNat_ushiftRight, Nat.shiftRight_eq_div_pow]
  change _ / _ = 1 ↔ _
  rw [Nat.div_eq_iff (Nat.two_pow_pos _)]
  omega

/-- Nothing overflows when the number of values is subtracted. -/
theorem toInt_and_mask_sub (raw : BitVec 128) :
    ((raw &&& t.mask) - (1#128 <<< t.bits)).toInt = (raw &&& t.mask).toNat - 2 ^ t.bits := by
  have hlt := t.toNat_and_mask_lt raw
  have hword := t.two_pow_bits_lt
  have hone : (1#128 <<< t.bits).toInt = 2 ^ t.bits := by
    rw [BitVec.toInt_eq_toNat_of_lt (by rw [toNat_one_shiftLeft]; omega), toNat_one_shiftLeft,
      Nat.cast_pow]
    rfl
  rw [BitVec.toInt_sub, toInt_and_mask, hone]
  have hbelow : ((raw &&& t.mask).toNat : Int) < 2 ^ t.bits := by exact_mod_cast hlt
  have hbound : (2 : Int) ^ t.bits < 2 ^ 127 := by exact_mod_cast hword
  exact Int.bmod_eq_of_le_mul_two (by push_cast; omega) (by push_cast; omega)

/-- **Conversion of words.** The word that is masked, and taken down by the number of values if its
sign bit is set, is the value of the type. -/
theorem toInt_reinterpretWord (raw : BitVec 128) :
    (t.reinterpretWord raw).toInt = t.reinterpret raw.toInt := by
  have hcongruent := t.toNat_and_mask_modEq raw
  have hbelow : ((raw &&& t.mask).toNat : Int) < t.modulus := by
    rw [modulus_eq]
    exact_mod_cast t.toNat_and_mask_lt raw
  have hvalues := t.modulus_eq_two_mul_half
  have hsign : (raw &&& t.mask) >>> (t.bits - 1) = 1#128 ↔ t.half ≤ (raw &&& t.mask).toNat := by
    rw [t.signBit_iff, half, Nat.pow_eq]
    exact Nat.cast_le.symm
  rw [reinterpretWord]
  refine eq_reinterpret_iff.mpr ?_
  split
  · next h =>
    obtain ⟨hsigned, hset⟩ := h
    have hhalf := hsign.mp hset
    rw [toInt_and_mask_sub, ← modulus_eq, IntType.min, IntType.max, if_pos hsigned,
      if_pos hsigned]
    refine ⟨by omega, by omega, .trans ?_ (t.modulus_eq ▸ hcongruent)⟩
    exact Int.modEq_iff_dvd.mpr ⟨1, by ring⟩
  · next h =>
    rw [toInt_and_mask]
    cases hsigned : t.signed with
    | false =>
      have hmax : t.max = t.modulus - 1 := if_neg (ne_true_of_eq_false hsigned)
      rw [hmax]
      exact ⟨t.min_le_zero.trans (Int.natCast_nonneg _), Int.le_sub_one_of_lt hbelow, hcongruent⟩
    | true =>
      have hunset : ((raw &&& t.mask).toNat : Int) < t.half :=
        not_le.mp fun hle ↦ h ⟨hsigned, hsign.mpr hle⟩
      have hmax : t.max = t.half - 1 := if_pos hsigned
      rw [hmax]
      exact ⟨t.min_le_zero.trans (Int.natCast_nonneg _), Int.le_sub_one_of_lt hunset, hcongruent⟩

/-! ## The law -/

variable {t}

/-- What is read into the type of a target is stored in it as it is. -/
theorem storeInt_read (base : Base) (cs : List Char) {target : Target}
    (htarget : target.intType? = some t) :
    let v := (t.read base cs).value
    (target.storeInt v).kind = target.kind ∧ (target.storeInt v).integer? = some v := by
  obtain ⟨hmin, hmax⟩ := t.read_mem base cs
  exact ⟨Target.kind_storeInt _ _, Target.integer?_storeInt htarget hmin hmax⟩

/-- **Conversion to an integer type.** A word that is masked and taken down by its sign bit is the
one value of the type that is congruent to it. So the values of the type stay what they are, to
convert twice is to convert once, and it makes no difference if a type that is no narrower comes
first. What is read into a type, clamped or not, is a value of the type, and it is what a target of
the type holds once it is stored. -/
theorem reinterpret_is_residue {w : Width} (t u : IntType) (raw : BitVec 128) (v : Int) (base : Nat)
    (s : Text w) :
    (t.reinterpretWord raw).toInt = t.reinterpret raw.toInt ∧
      (∀ x, x = t.reinterpret v ↔ t.min ≤ x ∧ x ≤ t.max ∧ x ≡ v [ZMOD 2 ^ t.bits]) ∧
      (t.min ≤ v → v ≤ t.max → t.reinterpret v = v) ∧
      t.reinterpret (t.reinterpret v) = t.reinterpret v ∧
      (t.bits ≤ u.bits → t.reinterpret (u.reinterpret v) = t.reinterpret v) ∧
      (base = 0 ∨ 2 ≤ base ∧ base ≤ 36 → ∃ p, readInt base t (Text.asciiRun s) = .ok p ∧
        ∀ target : Target, target.intType? = some t →
          (target.storeInt p.value).kind = target.kind ∧
            (target.storeInt p.value).integer? = some p.value) := by
  refine ⟨t.toInt_reinterpretWord raw, fun _ ↦ eq_reinterpret_iff, reinterpret_of_mem,
    t.reinterpret_reinterpret v, fun h ↦ reinterpret_reinterpret_of_bits_le h v, ?_⟩
  intro hbase
  obtain ⟨b, hb, rfl⟩ := Base.exists_ofNat? hbase
  have hread : readInt b.value t (Text.asciiRun s) = .ok (t.read b (Text.asciiRun s)) := by
    rw [readInt, hb]
  exact ⟨_, hread, fun _ htarget ↦ storeInt_read b _ htarget⟩

/-- The signed byte: `-129` is converted to `127`, and the least value stays what it is, also where
it is the bit pattern of the literal `0x80`. -/
theorem reinterpret_is_residue_byte :
    let t : IntType := ⟨.w8, true⟩
    let u : IntType := ⟨.w32, false⟩
    let s := Text.ofAscii .utf8 ['0', 'x', '8', '0']
    (t.reinterpretWord (BitVec.ofInt 128 (-129))).toInt = 127 ∧
      t.reinterpret (-128) = -128 ∧ t.reinterpret (u.reinterpret (-128)) = -128 ∧
      readInt 16 t (Text.asciiRun s) = .ok ⟨-128, 4, true⟩ ∧
      ((Target.integer t 0).storeInt (-128)).integer? = some (-128) := by
  intro t u s
  obtain ⟨hword, -, hvalue, -, hwider, hread⟩ :=
    reinterpret_is_residue t u (BitVec.ofInt 128 (-129)) (-128) 16 s
  have hkeep : t.reinterpret (-128) = -128 := hvalue (by decide) (by decide)
  have hvalues : readInt 16 t (Text.asciiRun s) = .ok ⟨-128, 4, true⟩ := by
    rw [Text.asciiRun_ofAscii (by simp)]
    rfl
  obtain ⟨p, hp, hstore⟩ := hread (by decide)
  obtain rfl := Except.ok.inj (hvalues.symm.trans hp)
  exact ⟨hword.trans (by decide), hkeep, (hwider (by decide)).trans hkeep, hvalues,
    (hstore (.integer t 0) rfl).2⟩

end FormatString.IntType
