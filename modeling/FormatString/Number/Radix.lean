/-!
# Positional numerals

Digit lists in a radix from 2 to 36, most significant digit first, and the characters that write
them: `0` to `9`, then the letters in either case.
-/

namespace FormatString

/-- A radix for which there are enough digit characters. -/
structure Radix where
  value : Nat
  two_le : 2 ≤ value
  le : value ≤ 36
  deriving DecidableEq

namespace Radix

/-- The radix of this value, if digit characters suffice for it. -/
def ofNat? (n : Nat) : Option Radix :=
  if h : 2 ≤ n ∧ n ≤ 36 then some ⟨n, h.1, h.2⟩ else none

def binary : Radix := ⟨2, by decide, by decide⟩

def octal : Radix := ⟨8, by decide, by decide⟩

def decimal : Radix := ⟨10, by decide, by decide⟩

def hexadecimal : Radix := ⟨16, by decide, by decide⟩

end Radix

/-! ## Digit lists -/

/-- The digits of `n` put in front of `digits`. -/
def digitsOnto (r : Radix) (n : Nat) (digits : List Nat) : List Nat :=
  if n < r.value then n :: digits else digitsOnto r (n / r.value) (n % r.value :: digits)
termination_by n
decreasing_by
  have := r.two_le
  exact Nat.div_lt_self (by omega) (by omega)

/-- The digits of `n`, without leading zeros except for zero itself. -/
def digitsOf (r : Radix) (n : Nat) : List Nat := digitsOnto r n []

/-- The number a digit list stands for. -/
def valueOf (r : Radix) (digits : List Nat) : Nat := digits.foldl (fun n d ↦ n * r.value + d) 0

/-! ## Digit characters -/

/-- The character of a digit. -/
def digitChar (upper : Bool) (d : Nat) : Char :=
  if d < 10 then Char.ofNat ('0'.toNat + d)
  else Char.ofNat ((if upper then 'A'.toNat else 'a'.toNat) + (d - 10))

/-- The digit a character stands for, in either case. -/
def digitValue? (c : Char) : Option Nat :=
  if c.isDigit then some (c.toNat - '0'.toNat)
  else if c.isLower then some (c.toNat - 'a'.toNat + 10)
  else if c.isUpper then some (c.toNat - 'A'.toNat + 10)
  else none

/-- The digit a character stands for in radix `r`. -/
def Radix.digit? (r : Radix) (c : Char) : Option Nat := (digitValue? c).filter (· < r.value)

/-- The digits at the front of a text, up to the first character that is none. -/
def digitRun (r : Radix) : List Char → List Nat
  | [] => []
  | c :: cs =>
    match r.digit? c with
    | some d => d :: digitRun r cs
    | none => []

end FormatString
