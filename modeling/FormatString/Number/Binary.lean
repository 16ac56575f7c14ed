import FormatString.Number.Rounding

/-!
# Binary floating point

The interchange formats with a sign, an exponent field and a fraction field. A value is kept as its
sign and its *rank*, the remaining bits read as one number: ranks order magnitudes, the rank of the
infinity follows that of the largest finite value, and the ranks above it are NaNs. The sign of a
NaN is kept.

Every finite magnitude is a whole number of the format's smallest positive value, so it is given
exactly by the natural number `units`, and rounding a quotient to the format is one division:
`nearestRank` picks the spacing of the right binade and rounds half to even. The carry out of a
binade, and out of the last one into the infinity, needs no case of its own.
-/

namespace FormatString

/-- The widths of the two fields of a binary format. -/
structure BinaryFormat where
  fractionBits : Nat
  exponentBits : Nat
  deriving DecidableEq

namespace BinaryFormat

/-- Single precision. -/
def binary32 : BinaryFormat := ⟨23, 8⟩

/-- Double precision. -/
def binary64 : BinaryFormat := ⟨52, 11⟩

variable (F : BinaryFormat)

/-- The number of ranks from one power of two to the next. -/
def binade : Nat := Nat.pow 2 F.fractionBits

/-- The number of bits beside the sign. -/
def rankBits : Nat := F.fractionBits + F.exponentBits

/-- The number of ranks. -/
def rankCount : Nat := Nat.pow 2 F.rankBits

/-- The rank of the infinity. -/
def infinityRank : Nat := (Nat.pow 2 F.exponentBits - 1) * F.binade

/-- The smallest positive value is `2 ^ -scale`. -/
def scale : Nat := Nat.pow 2 (F.exponentBits - 1) - 2 + F.fractionBits

/-- The magnitude of a finite rank, counted in smallest positive values. -/
def units (rank : Nat) : Nat :=
  let exponent := rank / F.binade
  let fraction := rank % F.binade
  if exponent = 0 then fraction else (F.binade + fraction) * Nat.pow 2 (exponent - 1)

/-- The rank nearest to `n / d`, ties to even, and the infinity beyond the largest finite value. -/
def nearestRank (n d : Nat) : Nat :=
  let scaled := n * Nat.pow 2 F.scale
  let shift := Nat.log2 (scaled / d) - F.fractionBits
  min (shift * F.binade + roundHalfEven scaled (d * Nat.pow 2 shift)) F.infinityRank

theorem binade_pos : 0 < F.binade := Nat.two_pow_pos F.fractionBits

theorem rankCount_pos : 0 < F.rankCount := Nat.two_pow_pos _

theorem infinityRank_lt : F.infinityRank < F.rankCount := by
  have he : 0 < Nat.pow 2 F.exponentBits := Nat.two_pow_pos F.exponentBits
  have hmul : F.rankCount = Nat.pow 2 F.exponentBits * F.binade := by
    rw [Nat.mul_comm]
    exact Nat.pow_add 2 F.fractionBits F.exponentBits
  rw [infinityRank, hmul]
  exact Nat.mul_lt_mul_of_pos_right (by omega) F.binade_pos

theorem nearestRank_le (n d : Nat) : F.nearestRank n d ≤ F.infinityRank := Nat.min_le_right _ _

end BinaryFormat

/-- A value of a binary format. -/
structure Binary (F : BinaryFormat) where
  negative : Bool
  rank : Nat
  rank_lt : rank < F.rankCount
  deriving DecidableEq

namespace Binary

variable {F : BinaryFormat}

/-- The value with these bits. -/
def ofBits (F : BinaryFormat) (bits : Nat) : Binary F :=
  ⟨bits / F.rankCount % 2 == 1, bits % F.rankCount, Nat.mod_lt bits F.rankCount_pos⟩

/-- The bits of a value. -/
def toBits (x : Binary F) : Nat := (if x.negative then F.rankCount else 0) + x.rank

def isNaN (x : Binary F) : Bool := F.infinityRank < x.rank

def isInfinite (x : Binary F) : Bool := x.rank == F.infinityRank

def isFinite (x : Binary F) : Bool := x.rank < F.infinityRank

/-- The zero of a sign. -/
def zero (negative : Bool) : Binary F := ⟨negative, 0, F.rankCount_pos⟩

/-- The infinity of a sign. -/
def infinity (negative : Bool) : Binary F := ⟨negative, F.infinityRank, F.infinityRank_lt⟩

/-- The NaN of a sign with the most significant fraction bit set. -/
def nan (negative : Bool) : Binary F :=
  ⟨negative, (F.infinityRank + F.binade / 2) % F.rankCount, Nat.mod_lt _ F.rankCount_pos⟩

/-- The value nearest to `± n / d`. -/
def nearest (negative : Bool) (n d : Nat) : Binary F :=
  ⟨negative, F.nearestRank n d, Nat.lt_of_le_of_lt (F.nearestRank_le n d) F.infinityRank_lt⟩

/-- The value in another format, rounded when it has to be. -/
def convert (G : BinaryFormat) (x : Binary F) : Binary G :=
  if x.isNaN then nan x.negative
  else if x.isInfinite then infinity x.negative
  else nearest x.negative (F.units x.rank) (Nat.pow 2 F.scale)

end Binary

end FormatString
