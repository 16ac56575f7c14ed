import Mathlib
import FormatString.Number.IntText
import FormatString.Proofs.Text.AsciiRun

/-!
# Digit runs

What `digitRun` reads is the longest prefix of digit characters. So a text that is cut behind its
digits is read the same whatever follows, as long as that does not start with another digit; and the
characters an integer is written with are read back as the digits they were made from.
-/

namespace FormatString

namespace Radix

variable (r : Radix)

/-- The character stands for a digit of the radix. -/
def isDigit (c : Char) : Bool := (r.digit? c).isSome

variable {r}

/-- The decimal digits are those of `Char.isDigit`: letters stand for larger digits. -/
theorem isDigit_decimal (c : Char) : decimal.isDigit c = c.isDigit := by
  have hvalue : c.isDigit = true ↔ 48 ≤ c.toNat ∧ c.toNat ≤ 57 := by
    rw [Char.isDigit, Bool.and_eq_true, decide_eq_true_iff, decide_eq_true_iff]
    exact Iff.rfl
  rw [isDigit, digit?, digitValue?]
  by_cases h : c.isDigit
  · have hlt : c.toNat - '0'.toNat < decimal.value := by
      have := hvalue.mp h
      change c.toNat - 48 < 10
      omega
    rw [if_pos h, Option.filter_some, if_pos (decide_eq_true hlt), h]
    rfl
  · have hle (n : Nat) : ¬ n + 10 < decimal.value := by
      change ¬ n + 10 < 10
      omega
    rw [if_neg h, Bool.eq_false_of_not_eq_true h]
    split
    · rw [Option.filter_some, if_neg (by simpa using hle _)]
      rfl
    · split
      · rw [Option.filter_some, if_neg (by simpa using hle _)]
        rfl
      · rfl

end Radix

/-! ## The run at the front of a text -/

variable {r : Radix}

theorem digitRun_eq_nil_iff {cs : List Char} : digitRun r cs = [] ↔ NotNext r.isDigit cs := by
  cases cs with
  | nil => simp [digitRun]
  | cons c cs =>
    rw [digitRun, notNext_cons, Radix.isDigit]
    cases r.digit? c <;> simp

theorem length_digitRun {ds : List Char} (hds : ∀ c ∈ ds, r.isDigit c) :
    (digitRun r ds).length = ds.length := by
  induction ds with
  | nil => rfl
  | cons c ds ih =>
    obtain ⟨d, hd⟩ := Option.isSome_iff_exists.mp (hds c List.mem_cons_self)
    rw [digitRun, hd, List.length_cons, List.length_cons,
      ih fun e he ↦ hds e (List.mem_cons_of_mem _ he)]

/-- **Longest run.** Behind digits that no further digit follows nothing matters. -/
theorem digitRun_append {ds rest : List Char} (hds : ∀ c ∈ ds, r.isDigit c)
    (hrest : NotNext r.isDigit rest) : digitRun r (ds ++ rest) = digitRun r ds := by
  induction ds with
  | nil =>
    rw [List.nil_append, digitRun_eq_nil_iff.mpr hrest]
    rfl
  | cons c ds ih =>
    rw [List.cons_append, digitRun, digitRun, ih fun e he ↦ hds e (List.mem_cons_of_mem _ he)]

/-- Every text is a run of digits and a rest that starts with none. -/
theorem exists_digits_append (r : Radix) (cs : List Char) :
    ∃ ds rest, cs = ds ++ rest ∧ (∀ c ∈ ds, r.isDigit c) ∧ NotNext r.isDigit rest := by
  exact ⟨cs.takeWhile r.isDigit, cs.dropWhile r.isDigit, List.takeWhile_append_dropWhile.symm,
    fun c hc ↦ List.mem_takeWhile_imp hc, notNext_dropWhile⟩

/-! ## The value of digits -/

theorem valueOf_cons_zero (r : Radix) (ds : List Nat) : valueOf r (0 :: ds) = valueOf r ds := by
  rw [valueOf, List.foldl_cons, Nat.zero_mul, Nat.zero_add, valueOf]

/-- Zeros in front do not count. -/
theorem valueOf_replicate_zero (r : Radix) (k : Nat) (ds : List Nat) :
    valueOf r (List.replicate k 0 ++ ds) = valueOf r ds := by
  induction k with
  | zero => rfl
  | succ k ih => rw [List.replicate_succ, List.cons_append, valueOf_cons_zero, ih]

theorem valueOf_digitsOnto (r : Radix) (n : Nat) (ds : List Nat) :
    valueOf r (digitsOnto r n ds) = ds.foldl (fun n d ↦ n * r.value + d) n := by
  fun_induction digitsOnto r n ds with
  | case1 n ds h => rw [valueOf, List.foldl_cons, Nat.zero_mul, Nat.zero_add]
  | case2 n ds h ih => rw [ih, List.foldl_cons, Nat.div_add_mod']

@[simp] theorem valueOf_digitsOf (r : Radix) (n : Nat) : valueOf r (digitsOf r n) = n :=
  valueOf_digitsOnto r n []

/-- **Capping** on the way is capping at the end: once the number has reached the cap, no further
digit makes it smaller. -/
theorem cappedValueOf_eq_min (r : Radix) (ds : List Nat) :
    cappedValueOf r ds = min (valueOf r ds) magnitudeCap := by
  suffices h : ∀ n, ds.foldl (fun n d ↦ if n < magnitudeCap then
      min (n * r.value + d) magnitudeCap else n) (min n magnitudeCap)
      = min (ds.foldl (fun n d ↦ n * r.value + d) n) magnitudeCap from h 0
  induction ds with
  | nil => exact fun n ↦ rfl
  | cons d ds ih =>
    intro n
    have hstep : (if min n magnitudeCap < magnitudeCap then
        min (min n magnitudeCap * r.value + d) magnitudeCap else min n magnitudeCap)
        = min (n * r.value + d) magnitudeCap := by
      by_cases hn : n < magnitudeCap
      · rw [Nat.min_eq_left hn.le, if_pos hn]
      · have hle : magnitudeCap ≤ n * r.value + d :=
          calc magnitudeCap ≤ n := Nat.le_of_not_lt hn
            _ ≤ n * r.value := Nat.le_mul_of_pos_right n (Nat.zero_lt_of_lt r.two_le)
            _ ≤ n * r.value + d := Nat.le_add_right _ _
        rw [Nat.min_eq_right (Nat.le_of_not_lt hn), if_neg (Nat.lt_irrefl _),
          Nat.min_eq_right hle]
    rw [List.foldl_cons, List.foldl_cons, hstep, ih]

theorem digitsOnto_ne_nil (r : Radix) (n : Nat) (ds : List Nat) : digitsOnto r n ds ≠ [] := by
  fun_induction digitsOnto r n ds with
  | case1 n ds h => exact List.cons_ne_nil n ds
  | case2 n ds h ih => exact ih

theorem lt_of_mem_digitsOnto {r : Radix} {n : Nat} {ds : List Nat} (hds : ∀ d ∈ ds, d < r.value) :
    ∀ d ∈ digitsOnto r n ds, d < r.value := by
  fun_induction digitsOnto r n ds with
  | case1 n ds h => exact List.forall_mem_cons.mpr ⟨h, hds⟩
  | case2 n ds h ih =>
    refine ih (List.forall_mem_cons.mpr ⟨Nat.mod_lt n ?_, hds⟩)
    exact Nat.lt_of_lt_of_le Nat.zero_lt_two r.two_le

/-! ## Written digits are read back -/

theorem Radix.digit?_digitChar {r : Radix} {d : Nat} (hd : d < r.value) (upper : Bool) :
    r.digit? (digitChar upper d) = some d := by
  have htable : ∀ upper, ∀ d < 36, digitValue? (digitChar upper d) = some d := by decide
  rw [digit?, htable upper d (hd.trans_le r.le), Option.filter_some, if_pos (decide_eq_true hd)]

theorem digitRun_map_digitChar {r : Radix} {ds : List Nat} (hds : ∀ d ∈ ds, d < r.value)
    (upper : Bool) : digitRun r (ds.map (digitChar upper)) = ds := by
  induction ds with
  | nil => rfl
  | cons d ds ih =>
    obtain ⟨hd, hds⟩ := List.forall_mem_cons.mp hds
    rw [List.map_cons, digitRun, Radix.digit?_digitChar hd, ih hds]

namespace Radix

variable {r : Radix}

theorem digit?_zero : r.digit? '0' = some 0 :=
  digit?_digitChar (Nat.lt_of_lt_of_le Nat.zero_lt_two r.two_le) false

theorem isDigit_writeNat (upper : Bool) (n : Nat) : ∀ c ∈ r.writeNat upper n, r.isDigit c := by
  intro c hc
  obtain ⟨d, hd, rfl⟩ := List.mem_map.mp hc
  rw [isDigit, digit?_digitChar (lt_of_mem_digitsOnto (by simp) d hd)]
  rfl

theorem isDigit_zeros_writeNat (upper : Bool) (k n : Nat) :
    ∀ c ∈ List.replicate k '0' ++ r.writeNat upper n, r.isDigit c := by
  refine List.forall_mem_append.mpr ⟨fun c hc ↦ ?_, isDigit_writeNat upper n⟩
  rw [(List.mem_replicate.mp hc).2, isDigit, digit?_zero]
  rfl

theorem writeNat_ne_nil (upper : Bool) (n : Nat) : r.writeNat upper n ≠ [] := by
  rw [writeNat, ne_eq, List.map_eq_nil_iff]
  exact digitsOnto_ne_nil r n []

/-- **A number is read back** from the digits it is written with, whatever zeros come first. -/
theorem valueOf_zeros_writeNat (upper : Bool) (k n : Nat) :
    valueOf r (digitRun r (List.replicate k '0' ++ r.writeNat upper n)) = n := by
  have hzeros (cs : List Char) :
      digitRun r (List.replicate k '0' ++ cs) = List.replicate k 0 ++ digitRun r cs := by
    induction k with
    | zero => rfl
    | succ k ih =>
      rw [List.replicate_succ, List.cons_append, digitRun, digit?_zero, ih]
      rfl
  have hrun : digitRun r (r.writeNat upper n) = digitsOf r n :=
    digitRun_map_digitChar (lt_of_mem_digitsOnto (by simp)) upper
  rw [hzeros, valueOf_replicate_zero, hrun, valueOf_digitsOf]

end Radix

end FormatString
